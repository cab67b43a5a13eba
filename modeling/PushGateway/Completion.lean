/-!
Completions: the result of an operation that ends later. A completion is ready from the start, or the
receiving end of a channel whose other end, the completer, delivers one outcome or goes away.
-/

namespace PushGateway

/-- Why the server cannot be started or stopped. -/
inductive ServerError where
  /-- The server's own worker pool is gone for good. -/
  | terminated
  | alreadyRunning
  | bind (cause : String)
  | runtime (cause : String)
  /-- Nobody is left to report what came of the operation. -/
  | abandoned
  deriving DecidableEq, Repr

namespace ServerError

def message : ServerError → String
  | .terminated => "server has been shut down permanently"
  | .alreadyRunning => "server is already running"
  | .bind cause => s!"failed to bind listener: {cause}"
  | .runtime cause => s!"failed to create worker pool: {cause}"
  | .abandoned => "operation abandoned before completion"

end ServerError

abbrev Outcome (α : Type) := Except ServerError α

namespace Completion

inductive Slot (α : Type) where
  | waiting
  | delivered (outcome : Outcome α)
  | abandoned
  /-- The outcome, or the news that there is none, has been taken. -/
  | taken

inductive Source (α : Type) where
  | ready (left : Option (Outcome α))
  | channel (slot : Slot α)

inductive Reply (α : Type) where
  | done
  | pending
  | outcome (outcome : Outcome α)
  /-- A channel was asked again after it had answered. -/
  | calledAfterComplete
  /-- The answer would come only with a later step of somebody else. -/
  | blocks
  /-- The end that the step needs is not there. -/
  | notHeld

namespace Source

/-- What a ready completion answers: its outcome the first time, and that it is abandoned after that. -/
def takeReady {α : Type} : Option (Outcome α) → Outcome α
  | some outcome => outcome
  | none => .error .abandoned

/-- Asks without waiting. -/
def poll {α : Type} : Source α → Reply α × Source α
  | .ready left => (.outcome (takeReady left), .ready none)
  | .channel .waiting => (.pending, .channel .waiting)
  | .channel (.delivered outcome) => (.outcome outcome, .channel .taken)
  | .channel .abandoned => (.outcome (.error .abandoned), .channel .taken)
  | .channel .taken => (.calledAfterComplete, .channel .taken)

/-- What asking would give, once there is an answer. -/
def outcome? {α : Type} (s : Source α) : Option (Outcome α) :=
  match s.poll.1 with
  | .outcome outcome => some outcome
  | _ => none

section

variable {α : Type} (outcome : Outcome α)

@[simp] theorem outcome?_ready : (Source.ready (some outcome)).outcome? = some outcome := rfl

@[simp] theorem outcome?_waiting : (Source.channel (.waiting : Slot α)).outcome? = none := rfl

@[simp] theorem outcome?_delivered : (Source.channel (.delivered outcome)).outcome? = some outcome := rfl

@[simp] theorem outcome?_abandoned :
    (Source.channel (.abandoned : Slot α)).outcome? = some (.error .abandoned) := rfl

end

/-- Asks and waits for the answer; this uses the completion up. -/
def wait {α : Type} (s : Source α) : Reply α :=
  match s.poll with
  | (.pending, _) => .blocks
  | (reply, _) => reply

/-- The channel's other end delivers an outcome, once. -/
def deliver {α : Type} (outcome : Outcome α) : Source α → Source α
  | .channel .waiting => .channel (.delivered outcome)
  | s => s

/-- The channel's other end goes away; an outcome that was delivered stays. -/
def abandon {α : Type} : Source α → Source α
  | .channel .waiting => .channel .abandoned
  | s => s

end Source

/-- A completion and its completer, each as far as it is still held. -/
structure Ends (α : Type) where
  completion : Option (Source α)
  completer : Bool

inductive Step (α : Type) where
  | complete (outcome : Outcome α)
  | dropCompleter
  | dropCompletion
  | poll
  | wait

namespace Ends

def ready {α : Type} (outcome : Outcome α) : Ends α := ⟨some (.ready (some outcome)), false⟩

def channel {α : Type} : Ends α := ⟨some (.channel .waiting), true⟩

/-- Performs a step; the end that a step uses up is gone after it. -/
def step {α : Type} (e : Ends α) : Step α → Reply α × Ends α
  | .complete outcome =>
    if e.completer then (.done, ⟨e.completion.map (·.deliver outcome), false⟩) else (.notHeld, e)
  | .dropCompleter =>
    if e.completer then (.done, ⟨e.completion.map (·.abandon), false⟩) else (.notHeld, e)
  | .dropCompletion =>
    match e.completion with
    | some _ => (.done, { e with completion := none })
    | none => (.notHeld, e)
  | .poll =>
    match e.completion with
    | some s => (s.poll.1, { e with completion := some s.poll.2 })
    | none => (.notHeld, e)
  | .wait =>
    match e.completion with
    | some s => (s.wait, { e with completion := none })
    | none => (.notHeld, e)

def run {α : Type} (e : Ends α) : List (Step α) → List (Reply α)
  | [] => []
  | s :: ss => (e.step s).1 :: run (e.step s).2 ss

end Ends
end Completion
end PushGateway
