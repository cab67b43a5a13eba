import PushGateway.Connection.Handler
import PushGateway.Tls.Handshake
/-!
The negotiation of a connection: TLS handshake, check of the protocol, classification of the client, and
the building of a handler. Each failure ends the connection at a stage of its own.
-/

namespace PushGateway.Negotiation

inductive Stage where
  | accepted
  | tlsHandshaking
  | protocolNegotiated
  | authClassified
  | handlerInstalled
  | rejected
  deriving DecidableEq, Repr

def Stage.name : Stage → String
  | .accepted => "Accepted"
  | .tlsHandshaking => "TlsHandshaking"
  | .protocolNegotiated => "ProtocolNegotiated"
  | .authClassified => "AuthClassified"
  | .handlerInstalled => "HandlerInstalled"
  | .rejected => "Rejected"

inductive Error where
  | handshake
  | unexpectedProtocol (protocol : Option Bytes)
  | handler (cause : HandlerError)
  deriving DecidableEq, Repr

def Error.message : Error → String
  | .handshake => "TLS handshake failed"
  | .unexpectedProtocol (some p) => s!"unexpected protocol: {Utf8.decodeLossy p}"
  | .unexpectedProtocol none => "unexpected protocol: none negotiated"
  | .handler e => e.message

/-- Only the push protocol is spoken. -/
def checkProtocol (protocol : Option Bytes) : Except Error Unit :=
  if protocol = some Tls.pushProtocol then .ok () else .error (.unexpectedProtocol protocol)

/-- A handler that has been built, and what it was built from. -/
structure Installed where
  context : HandlerContext
  handler : Handler

/-- The stages that a negotiation passed, its result, and what was reported about the client. -/
structure Result where
  stages : List Stage
  /-- What the factory was asked to build handlers from, in order. -/
  requests : List HandlerContext
  result : Except Error Installed
  peerLog : List Log.Record

/-- Negotiates a connection with a factory that was asked for other handlers before. -/
def run (session : Option Tls.Session) (factory : HandlerFactory) (requested : List HandlerContext)
    (gateway : Gateway) (peer : Endpoint) : Result :=
  match session with
  | none => ⟨[.accepted, .tlsHandshaking], [], .error .handshake, []⟩
  | some s =>
    match checkProtocol s.protocol with
    | .error e => ⟨[.accepted, .tlsHandshaking, .protocolNegotiated, .rejected], [], .error e, []⟩
    | .ok _ =>
      let context : HandlerContext := ⟨gateway, maxConcurrentStreams, Authentication.classify s.peer, peer⟩
      match factory (context :: requested) with
      | .error e =>
        ⟨[.accepted, .tlsHandshaking, .protocolNegotiated, .authClassified], [context], .error (.handler e),
          Authentication.classifyLog s.peer⟩
      | .ok handler =>
        ⟨[.accepted, .tlsHandshaking, .protocolNegotiated, .authClassified, .handlerInstalled], [context],
          .ok ⟨context, handler⟩, Authentication.classifyLog s.peer⟩

inductive Verdict where
  | served
  | dropped
  | rejected
  deriving DecidableEq, Repr

namespace Result

def verdict (r : Result) : Verdict :=
  match r.result with
  | .ok _ => .served
  | .error (.unexpectedProtocol _) => .rejected
  | .error _ => .dropped

/-- The changes of stage, each with the stage before it. -/
def transitions (r : Result) : List (Stage × Stage) := r.stages.zip r.stages.tail

def transitionLog (peer : Endpoint) (t : Stage × Stage) : Log.Record :=
  Log.trace .connection s!"{peer.render}: {t.1.name} -> {t.2.name}"

def verdictLog (r : Result) (peer : Endpoint) : Log.Record :=
  match r.result with
  | .error (.unexpectedProtocol p) =>
    Log.warn .connection s!"Rejected connection from {peer.render}: {(Error.unexpectedProtocol p).message}"
  | .error e => Log.debug .connection s!"Dropped connection from {peer.render}: {e.message}"
  | .ok installed =>
    let authentication := installed.context.authentication
    let topic := match authentication.baseTopic with
      | some t => s!" (base topic '{t}')"
      | none => ""
    Log.info .connection s!"Connection from {peer.render} uses {authentication.name} authentication{topic}"

/-- Everything that is reported until the connection is served or given up. The client is classified
after the second change of stage. -/
def log (r : Result) (peer : Endpoint) : List Log.Record :=
  let changes := r.transitions.map (transitionLog peer)
  changes.take 2 ++ r.peerLog ++ changes.drop 2 ++ [r.verdictLog peer]

end Result
end PushGateway.Negotiation
