import PushGateway.Json.Error
import PushGateway.Text.Printable
/-!
The wording of JSON errors.
-/

namespace PushGateway.Json

/-- Reports write numbers positionally from 0.00001 up to below 10 ^ 16. -/
def reportFormat : Decimal.FloatFormat := ⟨-5, 15⟩

namespace Number

def describe : Number → String
  | .count n => s!"integer `{n}`"
  | .negative n => s!"integer `-{n}`"
  | .float x => s!"floating point `{x.render reportFormat}`"

end Number

namespace Found

def describe : Found → String
  | .null => "null"
  | .boolean b => s!"boolean `{b}`"
  | .number n => n.describe
  | .text s => "string " ++ Text.quoted s
  | .sequence => "sequence"
  | .map => "map"

end Found

namespace Part

def describe : Part → String
  | .value => "a value"
  | .text => "a string"
  | .object => "an object"
  | .list => "a list"

end Part

/-- A choice of names between backticks. -/
def oneOf (names : List String) : String :=
  "one of " ++ ", ".intercalate (names.map fun n => s!"`{n}`")

namespace Error

def message : Error → String
  | .ended part => s!"EOF while parsing {part.describe}"
  | .expectedValue => "expected value"
  | .expectedIdent => "expected ident"
  | .expectedColon => "expected `:`"
  | .expectedMemberEnd => "expected `,` or `\x7d`"
  | .expectedElementEnd => "expected `,` or `]`"
  | .keyNotText => "key must be a string"
  | .trailingComma => "trailing comma"
  | .trailingCharacters => "trailing characters"
  | .invalidNumber => "invalid number"
  | .numberOutOfRange => "number out of range"
  | .invalidEscape => "invalid escape"
  | .endOfHexEscape => "unexpected end of hex escape"
  | .loneSurrogate => "lone leading surrogate in hex escape"
  | .invalidCodePoint => "invalid unicode code point"
  | .controlCharacter => "control character (\\u0000-\\u001F) found while parsing a string"
  | .nestingLimit => "recursion limit exceeded"
  | .missingField name => s!"missing field `{name}`"
  | .duplicateField name => s!"duplicate field `{name}`"
  | .unknownVariant name known => s!"unknown variant `{name}`, expected {oneOf known}"
  | .invalidType found expected => s!"invalid type: {found.describe}, expected {expected}"
  | .invalidValue found expected => s!"invalid value: {found.describe}, expected {expected}"
  | .invalidLength n expected => s!"invalid length {n}, expected {expected}"
  | .noVariant name => s!"data did not match any variant of untagged enum {name}"

end Error
end PushGateway.Json
