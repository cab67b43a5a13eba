import PushGateway.Der.Oid
/-!
Distinguished names: a sequence of sets of attributes, each with a type and a value.
-/

namespace PushGateway.Certificate

/-- An attribute's type, and its value as text; a value of another kind than text has the empty text. -/
structure Attribute where
  type : Der.Oid
  value : String
  deriving DecidableEq, Repr

/-- Sets of attributes in the order of the document. -/
abbrev Name := List (List Attribute)

open Der

/-- The text of a value, when its kind is one of text and its octets are well-formed. -/
def text (e : Element) : String :=
  if e.tag ∈ [Tag.utf8String, Tag.numericString, Tag.printableString, Tag.ia5String] then
    (Utf8.decode? e.content).getD ""
  else ""

def attribute? (bs : Bytes) : Option (Attribute × Bytes) := do
  let (outer, rest) ← tagged? Tag.sequence bs
  let (type, value) ← oid? outer.content
  let (e, _) ← element? value
  return (⟨type, text e⟩, rest)

/-- Reads a set of attributes, which must begin with a well-formed one; a malformed one ends it. -/
def attributes? (bs : Bytes) : Option (List Attribute × Bytes) := do
  let (outer, rest) ← tagged? Tag.set bs
  let (attributes, _) := many attribute? outer.content
  if attributes = [] then none else some (attributes, rest)

/-- Reads a name; a malformed set of attributes ends it. -/
def name? (bs : Bytes) : Option (Name × Bytes) := do
  let (outer, rest) ← tagged? Tag.sequence bs
  return ((many attributes? outer.content).1, rest)

end PushGateway.Certificate
