import PushGateway.Certificate.Principal
import PushGateway.Log
/-!
How a connection authenticates its requests: by the certificate that the client presented, or by a token
with each request. The first certificate of the verified chain alone decides.
-/

namespace PushGateway

inductive Authentication where
  | token
  | certificate (baseTopic : Option String)
  deriving DecidableEq, Repr

namespace Authentication

def usesToken : Authentication → Bool
  | .token => true
  | .certificate _ => false

def baseTopic : Authentication → Option String
  | .token => none
  | .certificate topic => topic

def name : Authentication → String
  | .token => "token"
  | .certificate _ => "certificate"

/-- The authentication of a client by its verified chain, which is empty when it presented none. -/
def classify : List Bytes → Authentication
  | [] => .token
  | leaf :: _ => .certificate ((Principal.name? leaf).bind Principal.baseTopic)

def classifyLog : List Bytes → List Log.Record
  | [] => []
  | leaf :: _ =>
    match Principal.name? leaf with
    | some name => [Log.debug .connection s!"Peer principal: {name}"]
    | none => [Log.warn .connection s!"Could not read verified peer certificate: {Certificate.complaint}"]

end Authentication
end PushGateway
