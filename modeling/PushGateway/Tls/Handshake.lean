import PushGateway.Tls.Config
/-!
The TLS handshake, as far as the gateway sees it: the protocol that both sides settle on, and the client's
verified chain.
-/

namespace PushGateway.Tls

/-- What a client brings: the protocols it offers, and the chain it presents. -/
structure Client where
  protocols : List Bytes
  chain : List Bytes
  deriving DecidableEq, Repr

structure Session where
  protocol : Option Bytes
  peer : List Bytes
  deriving DecidableEq, Repr

/-- The first of the server's protocols that the client offers. A side without protocols leaves the
protocol open; two sides with nothing in common fail. -/
def selectProtocol? (server client : List Bytes) : Option (Option Bytes) :=
  if server = [] ∨ client = [] then some none else (server.find? (client.contains ·)).map some

namespace Policy

/-- The chain that the server takes over. It asks for none without anchors, and none need be presented;
a chain that is presented must be verified. -/
def peer? [Provider] (p : Policy) (now : Nat) (chain : List Bytes) : Option (List Bytes) :=
  match p.roots with
  | none => some []
  | some roots => if chain = [] ∨ Provider.verifies roots now chain then some chain else none

def handshake? [Provider] (p : Policy) (now : Nat) (client : Client) : Option Session :=
  match selectProtocol? p.protocols client.protocols, p.peer? now client.chain with
  | some protocol, some peer => some ⟨protocol, peer⟩
  | _, _ => none

end Policy
end PushGateway.Tls
