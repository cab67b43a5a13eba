import PushGateway.Completion
import PushGateway.Connection.Handler
/-!
Listeners: what one start of the server sets going. A listener binds its address, reports to whoever
started it, and takes connections until it is told to stop. It runs as a task, and so does each of its
connections; a tracker counts them.
-/

namespace PushGateway

/-- Counts running tasks. A wait for them is over when the tracker is closed and none runs any more. -/
structure Tracker where
  closed : Bool := false
  tasks : Nat := 0
  deriving DecidableEq, Repr

namespace Tracker

def spawn (t : Tracker) : Tracker := { t with tasks := t.tasks + 1 }

def finish (t : Tracker) : Tracker := { t with tasks := t.tasks - 1 }

def close (t : Tracker) : Tracker := { t with closed := true }

def isDone (t : Tracker) : Bool := t.closed ∧ t.tasks = 0

end Tracker

namespace Listener

inductive Stage where
  | binding
  /-- The address is bound, and the start has not been told yet. -/
  | bound (address : Endpoint)
  /-- The address cannot be bound, and the start has not been told yet. -/
  | refused (cause : String)
  | listening
  | closed
  deriving DecidableEq, Repr

end Listener

/-- What one start set going. -/
structure Listener where
  stage : Listener.Stage := .binding
  /-- Where it listens, known from the moment it is bound. -/
  address : Option Endpoint := none
  /-- Whether it has been told to stop, or has given up by itself. -/
  cancelled : Bool := false
  /-- Counts the listener's own task and those of its connections. -/
  tracker : Tracker := Tracker.spawn {}
  /-- The open connections, in their handshake or served. -/
  connections : List Nat := []
  /-- What the start was given to wait on. -/
  completion : Completion.Source Endpoint := .channel .waiting

namespace Listener

/-- The listener after the attempt to bind it; one that cannot be bound is as good as stopped. -/
def bound (l : Listener) : Except String Endpoint → Listener
  | .ok address => { l with stage := .bound address, address := some address }
  | .error cause => { l with stage := .refused cause, cancelled := true }

def close (l : Listener) : Listener := { l with stage := .closed, tracker := l.tracker.finish }

/-- Tells the start what came of it, and listens or ends. -/
def tell (l : Listener) : Listener :=
  match l.stage with
  | .bound address => { l with stage := .listening, completion := l.completion.deliver (.ok address) }
  | .refused cause => { l.close with completion := l.completion.deliver (.error (.bind cause)) }
  | _ => l

def take (l : Listener) (connection : Nat) : Listener :=
  { l with connections := connection :: l.connections, tracker := l.tracker.spawn }

def endConnection (l : Listener) (connection : Nat) : Listener :=
  { l with connections := l.connections.filter (· ≠ connection), tracker := l.tracker.finish }

/-- The listener after its task is gone with the workers; a start that was not told never will be. -/
def discard (l : Listener) : Listener := { l.close with completion := l.completion.abandon }

def cancel (l : Listener) : Listener := { l with cancelled := true }

def drain (l : Listener) : Listener := { l.cancel with tracker := l.tracker.close }

/-- The listener after all its tasks have ended. -/
def windUp (l : Listener) : Listener :=
  { l with stage := .closed, connections := [], tracker := { l.tracker with tasks := 0 } }

/-- What the tasks of a listener do. -/
inductive Event where
  | bound (result : Except String Endpoint)
  | tell
  /-- It takes a connection; it may do so even when it has just been told to stop. -/
  | accept (connection : Nat)
  /-- It notices that it has been told to stop. -/
  | close
  /-- A connection ends: its negotiation fails, its client leaves, or its handler is done. -/
  | endConnection (connection : Nat)
  /-- A connection notices that its listener has been told to stop. -/
  | cutConnection (connection : Nat)
  | discard

def step (l : Listener) : Event → Option Listener
  | .bound result => if l.stage = .binding then some (l.bound result) else none
  | .tell =>
    match l.stage with
    | .bound _ | .refused _ => some l.tell
    | _ => none
  | .accept c => if l.stage = .listening then some (l.take c) else none
  | .close => if l.stage = .listening ∧ l.cancelled then some l.close else none
  | .endConnection c => if c ∈ l.connections then some (l.endConnection c) else none
  | .cutConnection c => if l.cancelled ∧ c ∈ l.connections then some (l.endConnection c) else none
  | .discard => if l.stage ≠ .closed then some l.discard else none

end Listener
end PushGateway
