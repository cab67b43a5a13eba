import PushGateway.Decimal.Shortest
/-!
What can be wrong with a JSON text, for a reader that knows what it expects.
-/

namespace PushGateway.Json

/-- Numbers as they are read: counts and negative integers of 64 bits, all else in binary floating point. -/
inductive Number where
  | count (n : Nat)
  | negative (magnitude : Nat)
  | float (x : Decimal.Binary64)
  deriving DecidableEq, Repr

inductive Found where
  | null
  | boolean (b : Bool)
  | number (n : Number)
  | text (s : String)
  | sequence
  | map
  deriving DecidableEq, Repr

inductive Part where
  | value
  | text
  | object
  | list
  deriving DecidableEq, Repr

inductive Error where
  | ended (part : Part)
  | expectedValue
  | expectedIdent
  | expectedColon
  | expectedMemberEnd
  | expectedElementEnd
  | keyNotText
  | trailingComma
  | trailingCharacters
  | invalidNumber
  | numberOutOfRange
  | invalidEscape
  | endOfHexEscape
  | loneSurrogate
  | invalidCodePoint
  | controlCharacter
  | nestingLimit
  | missingField (name : String)
  | duplicateField (name : String)
  | unknownVariant (name : String) (known : List String)
  | invalidType (found : Found) (expected : String)
  | invalidValue (found : Found) (expected : String)
  | invalidLength (length : Nat) (expected : String)
  | noVariant (name : String)
  deriving DecidableEq, Repr

end PushGateway.Json
