import PushGateway.Calendar
import PushGateway.Log
/-!
The registry of device tokens: for each topic and token, when the token expires. Times are stored and never
looked at, so they may be of any type.
-/

namespace PushGateway

inductive Expiration (τ : Type := UnixTime) where
  | never
  | at (time : τ)
  deriving DecidableEq, Repr

namespace Expiration

def ofOption {τ : Type} : Option τ → Expiration τ
  | some t => .at t
  | none => .never

end Expiration

/-- Expirations by topic and token, each pair at most once. -/
structure DeviceRegistry (τ : Type := UnixTime) where
  entries : List ((String × String) × Expiration τ) := []
  deriving DecidableEq, Repr

namespace DeviceRegistry

variable {τ : Type}

def empty : DeviceRegistry τ := {}

/-- Registers a token for a topic; an earlier expiration of the pair is replaced. -/
def register (r : DeviceRegistry τ) (topic token : String) (expiration : Option τ) : DeviceRegistry τ where
  entries := ((topic, token), .ofOption expiration) :: r.entries.filter fun e => e.1 ≠ (topic, token)

def registerLog (topic : String) : Log.Record := Log.debug .devices s!"Registering device token for topic '{topic}'"

/-- The stored expiration of a token for a topic, passed or not. -/
def expiration (r : DeviceRegistry τ) (token topic : String) : Option (Expiration τ) :=
  r.entries.lookup (topic, token)

/-- A registration decides the expiration of its own pair and of no other. -/
@[simp] theorem expiration_register (r : DeviceRegistry τ) (topic token : String) (e : Option τ)
    (token' topic' : String) :
    (r.register topic token e).expiration token' topic' =
      if (topic', token') = (topic, token) then some (.ofOption e) else r.expiration token' topic' := by
  simp only [expiration, register, List.lookup_cons]
  by_cases h : (topic', token') = (topic, token)
  · simp [h]
  · rw [if_neg h, beq_false_of_ne h]
    induction r.entries with
    | nil => rfl
    | cons x xs ih => grind

def isRegistered (r : DeviceRegistry τ) (token topic : String) : Bool := (r.expiration token topic).isSome

def size (r : DeviceRegistry τ) : Nat := r.entries.length

def isEmpty (r : DeviceRegistry τ) : Bool := r.size = 0

def clearLog : Log.Record := Log.info .devices "Cleared all device tokens"

end DeviceRegistry
end PushGateway
