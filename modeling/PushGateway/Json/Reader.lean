import PushGateway.Json.Error
import PushGateway.Text.Utf8
/-!
Readers of JSON octets. A reader consumes part of its input and leaves the rest, also when it fails:
a caller may go on after a failure from where the reader stopped.
-/

namespace PushGateway.Json

/-- What a reader made of its input, and the input it left. -/
inductive Outcome (α : Type) where
  | done (value : α) (rest : Bytes)
  | failed (error : Error) (rest : Bytes)
  deriving Repr

namespace Outcome

def rest {α : Type} : Outcome α → Bytes
  | .done _ r => r
  | .failed _ r => r

def map {α β : Type} (f : α → β) : Outcome α → Outcome β
  | .done a r => .done (f a) r
  | .failed e r => .failed e r

def result {α : Type} : Outcome α → Except Error α
  | .done a _ => .ok a
  | .failed e _ => .error e

end Outcome

def Reader (α : Type) := Bytes → Outcome α

namespace Reader

def pure {α : Type} (a : α) : Reader α := fun bs => .done a bs

def bind {α β : Type} (r : Reader α) (f : α → Reader β) : Reader β := fun bs =>
  match r bs with
  | .done a rest => f a rest
  | .failed e rest => .failed e rest

instance : Monad Reader where
  pure := Reader.pure
  bind := Reader.bind

def fail {α : Type} (e : Error) : Reader α := fun bs => .failed e bs

def ofExcept {α : Type} : Except Error α → Reader α
  | .ok a => Reader.pure a
  | .error e => fail e

/-- Goes on after a failure from where the reader stopped. -/
def tolerate {α : Type} (r : Reader α) : Reader Unit := fun bs => .done () (r bs).rest

@[simp] theorem pure_apply {α : Type} (a : α) (bs : Bytes) : (Pure.pure a : Reader α) bs = .done a bs :=
  rfl

@[simp] theorem bind_apply {α β : Type} (r : Reader α) (f : α → Reader β) (bs : Bytes) :
    (r >>= f) bs = match r bs with
      | .done a rest => f a rest
      | .failed e rest => .failed e rest := rfl

@[simp] theorem fail_apply {α : Type} (e : Error) (bs : Bytes) : (fail e : Reader α) bs = .failed e bs :=
  rfl

@[simp] theorem tolerate_apply {α : Type} (r : Reader α) (bs : Bytes) :
    tolerate r bs = .done () (r bs).rest := rfl

end Reader

def isBlank (b : UInt8) : Bool := b = 0x20 ∨ b = 0x0A ∨ b = 0x09 ∨ b = 0x0D

def skipBlank (bs : Bytes) : Bytes := bs.dropWhile isBlank

/-- Reads a value and allows nothing but blanks after it. -/
def readAll {α : Type} (r : Reader α) (bs : Bytes) : Except Error α :=
  match r bs with
  | .failed e _ => .error e
  | .done a rest => if skipBlank rest = [] then .ok a else .error .trailingCharacters

end PushGateway.Json
