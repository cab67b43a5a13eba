import PushGateway.Connection.Authentication
import PushGateway.Gateway.State
/-!
Handlers serve connections once they are negotiated. A factory is asked for one handler per connection, with
the connection's context, and may refuse.
-/

namespace PushGateway

structure Endpoint where
  address : String
  port : Nat
  deriving DecidableEq, Repr

namespace Endpoint

def anyAddress : String := "0.0.0.0"

/-- Address and port; an address that itself holds colons is bracketed. -/
def render (e : Endpoint) : String :=
  if e.address.toList.contains ':' then s!"[{e.address}]:{e.port}" else s!"{e.address}:{e.port}"

end Endpoint

/-- The most streams that a client may have open at once. -/
def maxConcurrentStreams : Nat := 8

structure HandlerContext where
  gateway : Gateway
  maxStreams : Nat
  authentication : Authentication
  peer : Endpoint
  deriving DecidableEq, Repr

structure HandlerError where
  reason : String
  deriving DecidableEq, Repr

namespace HandlerError

def message (e : HandlerError) : String := s!"failed to build protocol handler: {e.reason}"

end HandlerError

/-- How a connection is served, as far as it is seen from outside. -/
structure Handler where
  /-- Whether the connection is held until the client goes. -/
  holds : Bool
  /-- What is reported then: the client has closed after sending some octets, or has vanished. -/
  report : Endpoint → Option Nat → Log.Record

/-- A factory answers by all that it has been asked to build handlers from, the latest first: it may keep
state from one connection to the next. -/
abbrev HandlerFactory := List HandlerContext → Except HandlerError Handler

namespace Handler

/-- A connection whose client breaks it off has ended with an error. -/
def brokenOffLog (peer : Endpoint) : Log.Record :=
  Log.debug .connection s!"Connection from {peer.render} ended with error"

def closedLog (peer : Endpoint) (sent : Nat) : Log.Record :=
  Log.debug .handler s!"Peer {peer.render} closed after sending {sent} bytes"

/-- Holds a connection and discards what arrives until the client closes. -/
def idle : Handler where
  holds := true
  report peer
    | some sent => closedLog peer sent
    | none => brokenOffLog peer

/-- Ends a connection at once. -/
def brief : Handler where
  holds := false
  report peer _ := brokenOffLog peer

/-- The factory that is used unless another is set. -/
def idleFactory : HandlerFactory := fun _ => .ok .idle

end Handler
end PushGateway
