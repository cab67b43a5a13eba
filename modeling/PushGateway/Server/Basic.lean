import PushGateway.Gateway.State
import PushGateway.Server.Listener
/-!
The server: its worker pool, the listeners of all its starts, and the state that every connection shares.
A start opens a listener of its own, which may still be closing when the next one starts. What the caller
asks for (`start`, `shutdown`, `drop`) and what then happens on the pool (a listener is bound, takes a
connection, closes; a connection ends; a shutdown has waited long enough) are separate steps.
-/

namespace PushGateway

/-- The workers that all listeners and connections run on. The server may own them; it then ends them
with its first shutdown. -/
inductive Pool where
  | shared
  | owned (alive : Bool)
  deriving DecidableEq, Repr

namespace Pool

def isOwned : Pool → Bool
  | .shared => false
  | .owned _ => true

def isTerminated : Pool → Bool
  | .shared => false
  | .owned alive => !alive

def terminate : Pool → Pool
  | .shared => .shared
  | .owned _ => .owned false

end Pool

namespace Server

/-- The thread that waits for the connections and then ends the server's own pool. -/
inductive Thread where
  | runs
  | refused (cause : String)
  /-- It ended before it had taken the pool over. -/
  | lost
  deriving DecidableEq, Repr

/-- A call of `shutdown`: the listener whose tasks it waits for, and what the caller was given to wait
on. -/
structure Stop where
  listener : Option Nat
  completion : Completion.Source Unit

end Server

structure Server where
  pool : Pool
  gateway : Gateway := .empty
  /-- The listeners of all starts, the first start first. -/
  listeners : List Listener := []
  /-- Which of them was started last and has not been shut down. -/
  current : Option Nat := none
  /-- All shutdowns, the first one first. -/
  stops : List Server.Stop := []
  nextConnection : Nat := 0
  /-- Whether the server's own pool was left to itself, with whatever still ran on it. -/
  deserted : Bool := false
  dropped : Bool := false

namespace Server

def new (pool : Pool) : Server := { pool := pool }

def currentListener (s : Server) : Option Listener := s.current.bind fun i => s.listeners[i]?

/-- Whether the server has been started and not stopped. A start that could not bind counts as stopped. -/
def isRunning (s : Server) : Bool := s.currentListener.any fun l => !l.cancelled

def localAddress (s : Server) : Option Endpoint := s.currentListener.bind (·.address)

def isTerminated (s : Server) : Bool := s.pool.isTerminated

def start (s : Server) : Except ServerError Server :=
  if s.isRunning then .error .alreadyRunning
  else if s.isTerminated then .error .terminated
  else .ok { s with listeners := s.listeners ++ [{}], current := some s.listeners.length }

def modify (s : Server) (i : Nat) (f : Listener → Listener) : Server :=
  { s with listeners := s.listeners.modify i f }

/-- Changes the listener that was started last, if any, and lets go of it. -/
def release (s : Server) (f : Listener → Listener) : Server :=
  let listeners := match s.current with
    | some i => s.listeners.modify i f
    | none => s.listeners
  { s with listeners := listeners, current := none }

/-- What a shutdown gives its caller to wait on. With nothing to end it is over at once. -/
def stopCompletion (s : Server) (thread : Thread) : Completion.Source Unit :=
  match s.pool, s.current, thread with
  | .shared, none, _ => .ready (some (.ok ()))
  | .shared, some _, _ => .channel .waiting
  | .owned false, _, _ => .ready (some (.ok ()))
  | .owned true, _, .runs => .channel .waiting
  | .owned true, _, .refused cause => .channel (.delivered (.error (.runtime cause)))
  | .owned true, _, .lost => .channel (.delivered (.error .abandoned))

/-- Stops the listener that was started last, if any, and ends the server's own pool. -/
def shutdown (s : Server) (thread : Thread) : Server :=
  { s.release .drain with
    pool := s.pool.terminate
    stops := s.stops ++ [⟨s.current, s.stopCompletion thread⟩]
    deserted := s.deserted || (s.pool = .owned true ∧ thread ≠ .runs) }

/-- Gives the server up: nobody waits for its connections, but they are told to end. -/
def drop (s : Server) : Server :=
  { s.release .cancel with
    pool := s.pool.terminate
    deserted := s.deserted || s.pool = .owned true
    dropped := true }

/-- Whether a shutdown has nothing more to wait for. -/
def isDrained (s : Server) (w : Stop) : Bool :=
  w.listener.all fun i => (s.listeners[i]?).any (·.tracker.isDone)

/-- Tells the caller of a shutdown that everything is closed. -/
def resolve (s : Server) (k : Nat) : Server :=
  { s with stops := s.stops.modify k fun w => { w with completion := w.completion.deliver (.ok ()) } }

inductive Event where
  | start
  | shutdown (thread : Thread)
  | drop
  /-- Somebody changes the state that all connections share. -/
  | configure (gateway : Gateway)
  /-- A listener, or one of its connections, takes a step. -/
  | task (listener : Nat) (event : Listener.Event)
  /-- The wait of a shutdown is over. -/
  | stopped (stop : Nat)

/-- Connections are numbered in the order they are taken, and a pool takes its tasks with it only when it
is left to itself. -/
def allows (s : Server) : Listener.Event → Bool
  | .accept c => c = s.nextConnection
  | .discard => s.deserted
  | _ => true

/-- How many connections are taken. -/
def taken : Listener.Event → Nat
  | .accept _ => 1
  | _ => 0

def step (s : Server) : Event → Option Server
  | .start => if s.dropped then none else some (s.start.toOption.getD s)
  | .shutdown thread => if s.dropped then none else some (s.shutdown thread)
  | .drop => if s.dropped then none else some s.drop
  | .configure gateway => some { s with gateway := gateway }
  | .task i e =>
    match (s.listeners[i]?).bind (·.step e) with
    | some l =>
      if s.allows e then
        some { s.modify i fun _ => l with nextConnection := s.nextConnection + taken e }
      else none
    | none => none
  | .stopped k =>
    match s.stops[k]? with
    | some w => if s.isDrained w then some (s.resolve k) else none
    | none => none

def run (s : Server) : List Event → Option Server
  | [] => some s
  | e :: es => (s.step e).bind fun s => run s es

end Server
end PushGateway
