import PushGateway.Certificate.Basic
/-!
Principal names. A subject is written with its last set of attributes first: sets are separated by commas,
the attributes of a set by plus signs, and a value's special characters are escaped. The base topic is
the value of the first `UID=` in such a text.
-/

namespace PushGateway

namespace Certificate

def shortNames : List (String × String) :=
  [("2.5.4.3", "CN"), ("2.5.4.6", "C"), ("2.5.4.7", "L"), ("2.5.4.8", "ST"), ("2.5.4.10", "O"),
    ("2.5.4.11", "OU"), ("0.9.2342.19200300.100.1.1", "UID"), ("0.9.2342.19200300.100.1.25", "DC")]

/-- The short name of a type, or else its identifier. -/
def Attribute.label (a : Attribute) : String := (shortNames.lookup a.type.text).getD a.type.text

/-- Characters that are escaped wherever they stand. -/
def isSpecial (c : Char) : Bool := c ∈ [',', '+', '"', '\\', '<', '>', ';']

/-- Escapes a value or its rest: spaces at both ends and a number sign at the start are escaped too. -/
def escapeFrom (first : Bool) : List Char → List Char
  | [] => []
  | c :: rest =>
    if isSpecial c ∨ (first ∧ (c = '#' ∨ c = ' ')) ∨ (rest = [] ∧ c = ' ') then
      '\\' :: c :: escapeFrom false rest
    else c :: escapeFrom false rest

def escape (value : List Char) : List Char := escapeFrom true value

def Attribute.render (a : Attribute) : List Char := a.label.toList ++ '=' :: escape a.value.toList

def renderSet (attributes : List Attribute) : List Char := ['+'].intercalate (attributes.map (·.render))

def renderName (name : Name) : String := String.ofList ([','].intercalate (name.reverse.map renderSet))

def complaint : String := s!"certificate parse error: {Der.complaint}"

end Certificate

namespace Principal

def name? (certificate : Bytes) : Option String :=
  (Certificate.read? certificate).map fun c => Certificate.renderName c.subject

/-- What follows the first `UID=`. -/
def afterUserId : List Char → Option (List Char)
  | [] => none
  | 'U' :: 'I' :: 'D' :: '=' :: rest => some rest
  | _ :: rest => afterUserId rest

/-- A value up to the comma that ends it, without its escapes. -/
def unescape : List Char → List Char
  | [] => []
  | '\\' :: c :: rest => c :: unescape rest
  | c :: rest => if c = ',' ∨ c = '\\' then [] else c :: unescape rest

/-- The base topic in a principal name: the value of the first `UID=`, unless it is empty. -/
def baseTopic (name : String) : Option String :=
  match (afterUserId name.toList).map unescape with
  | some (c :: cs) => some (String.ofList (c :: cs))
  | _ => none

end Principal
end PushGateway
