import PushGateway.Json.Skip
/-!
Readers that know what they expect: texts, counts, optional values, lists, and records, whose members
come in any order or as a list of values in the record's own order.
-/

namespace PushGateway.Json

/-- Reads as much of an unexpected value as tells what it is, and reports it. -/
def unexpected {α : Type} (expected : String) : Reader α := fun bs =>
  match bs with
  | [] => .failed .expectedValue []
  | b :: rest =>
    let found {β : Type} (r : Reader β) (what : β → Found) : Outcome α :=
      match r rest with
      | .done v rest => .failed (.invalidType (what v) expected) rest
      | .failed e rest => .failed e rest
    if b = 'n'.toUInt8 then found (readIdent [117, 108, 108]) fun _ => .null
    else if b = 't'.toUInt8 then found (readIdent [114, 117, 101]) fun _ => .boolean true
    else if b = 'f'.toUInt8 then found (readIdent [97, 108, 115, 101]) fun _ => .boolean false
    else if b = minus then found (readNumber true) .number
    else if isDigit b then found (fun _ => readNumber false bs) .number
    else if b = quotationMark then found readText .text
    else if b = Bracket.list.openMark then .failed (.invalidType .sequence expected) bs
    else if b = Bracket.object.openMark then .failed (.invalidType .map expected) bs
    else .failed .expectedValue bs

/-- Skips blanks and chooses by the first octet of a value. -/
def onFirst {α : Type} (f : UInt8 → Reader α) : Reader α := fun bs =>
  match skipBlank bs with
  | [] => .failed (.ended .value) []
  | b :: rest => f b (b :: rest)

def afterFirst {α : Type} (r : Reader α) : Reader α := fun bs => r bs.tail

def text (expected : String) : Reader String :=
  onFirst fun b => if b = quotationMark then afterFirst readText else unexpected expected

def count : Reader Nat :=
  let judge : Number → Reader Nat
    | .count n => Reader.pure n
    | .negative n => Reader.fail (.invalidValue (.number (.negative n)) "u64")
    | .float x => Reader.fail (.invalidType (.number (.float x)) "u64")
  onFirst fun b =>
    if b = minus then afterFirst (readNumber true) >>= judge
    else if isDigit b then readNumber false >>= judge
    else unexpected "u64"

def optional {α : Type} (r : Reader α) : Reader (Option α) := fun bs =>
  match skipBlank bs with
  | [] => (r []).map some
  | b :: rest =>
    if b = 'n'.toUInt8 then (readIdent [117, 108, 108] rest).map fun _ => none
    else (r (b :: rest)).map some

/-- Whether a list goes on; the comma before a further element is consumed. -/
def moreElements (first : Bool) : Reader Bool := fun bs =>
  match skipBlank bs with
  | [] => .failed (.ended .list) []
  | b :: rest =>
    if b = Bracket.list.closeMark then .done false (b :: rest)
    else if first then .done true (b :: rest)
    else if b = comma then
      match skipBlank rest with
      | [] => .failed (.ended .value) []
      | c :: rest =>
        if c = Bracket.list.closeMark then .failed .trailingComma (c :: rest) else .done true (c :: rest)
    else .failed .expectedElementEnd (b :: rest)

def closeList : Reader Unit := fun bs =>
  match skipBlank bs with
  | [] => .failed (.ended .list) []
  | b :: rest =>
    if b = Bracket.list.closeMark then .done () rest
    else if b = comma then
      match skipBlank rest with
      | c :: rest =>
        .failed (if c = Bracket.list.closeMark then .trailingComma else .trailingCharacters) (c :: rest)
      | [] => .failed .trailingCharacters []
    else .failed .trailingCharacters (b :: rest)

/-- Whether an object goes on; its next name's opening quotation mark is consumed. -/
def moreMembers (first : Bool) : Reader Bool := fun bs =>
  match skipBlank bs with
  | [] => .failed (.ended .object) []
  | b :: rest =>
    if b = Bracket.object.closeMark then .done false (b :: rest)
    else if first then
      if b = quotationMark then .done true rest else .failed .keyNotText (b :: rest)
    else if b = comma then
      match skipBlank rest with
      | [] => .failed (.ended .value) []
      | c :: rest =>
        if c = quotationMark then .done true rest
        else if c = Bracket.object.closeMark then .failed .trailingComma (c :: rest)
        else .failed .keyNotText (c :: rest)
    else .failed .expectedMemberEnd (b :: rest)

def closeObject : Reader Unit := fun bs =>
  match skipBlank bs with
  | [] => .failed (.ended .object) []
  | b :: rest =>
    if b = Bracket.object.closeMark then .done () rest
    else .failed (if b = comma then .trailingComma else .trailingCharacters) (b :: rest)

/-- Closes a list or an object also when reading its content failed; the first failure is reported. -/
def Outcome.closing {α : Type} (content : Outcome α) (close : Reader Unit) : Outcome α :=
  match content with
  | .done a rest =>
    match close rest with
    | .done _ rest => .done a rest
    | .failed e rest => .failed e rest
  | .failed e rest => .failed e (close rest).rest

/-- Elements up to the end of a list. Each consumes an octet at least. -/
def elements {α : Type} (element : Reader α) : Nat → Bool → Reader (List α)
  | 0, _ => Reader.pure []
  | fuel + 1, first => fun bs =>
    match moreElements first bs with
    | .failed e rest => .failed e rest
    | .done false rest => .done [] rest
    | .done true rest =>
      match element rest with
      | .failed e rest => .failed e rest
      | .done a rest => (elements element fuel false rest).map (a :: ·)

def list {α : Type} (element : Reader α) : Reader (List α) :=
  onFirst fun b =>
    if b = Bracket.list.openMark then
      afterFirst fun bs => (elements element (bs.length + 1) true bs).closing closeList
    else unexpected "a sequence"

/-- A member that a record knows: how its value changes what has been read so far. -/
structure Member (σ : Type) where
  name : String
  read : σ → Reader σ
  /-- Whether a list of the record's values may end before this one. -/
  omissible : Bool := false

/-- A record with its title, its members, and what comes of the members that were there. -/
structure Record (σ α : Type) where
  title : String
  fields : List (Member σ)
  start : σ
  finish : σ → Except Error α

namespace Record

def size {σ α : Type} (r : Record σ α) : String := s!"{r.title} with {r.fields.length} elements"

/-- Members up to the end of an object; `seen` names those read so far. Unknown ones are skipped. -/
def members {σ α : Type} (r : Record σ α) : Nat → Bool → List String → σ → Reader σ
  | 0, _, _, st => Reader.pure st
  | fuel + 1, first, seen, st => fun bs =>
    match moreMembers first bs with
    | .failed e rest => .failed e rest
    | .done false rest => .done st rest
    | .done true rest =>
      match readText rest with
      | .failed e rest => .failed e rest
      | .done name rest =>
        match r.fields.find? (·.name = name) with
        | none =>
          match (readColon >>= fun _ => skipValue) rest with
          | .failed e rest => .failed e rest
          | .done _ rest => r.members fuel false seen st rest
        | some field =>
          if name ∈ seen then .failed (.duplicateField name) rest
          else match (readColon >>= fun _ => field.read st) rest with
            | .failed e rest => .failed e rest
            | .done st rest => r.members fuel false (name :: seen) st rest

/-- The values of the fields in order, the first of them at position `index`. -/
def values {σ α : Type} (r : Record σ α) : Nat → List (Member σ) → σ → Reader σ
  | _, [], st => Reader.pure st
  | index, field :: fields, st => fun bs =>
    match moreElements (index = 0) bs with
    | .failed e rest => .failed e rest
    | .done false rest =>
      if field.omissible then r.values (index + 1) fields st rest
      else .failed (.invalidLength index r.size) rest
    | .done true rest =>
      match field.read st rest with
      | .failed e rest => .failed e rest
      | .done st rest => r.values (index + 1) fields st rest

/-- Reads a record as an object or as a list of its values. -/
def read {σ α : Type} (r : Record σ α) : Reader α :=
  onFirst fun b =>
    if b = Bracket.list.openMark then
      afterFirst fun bs =>
        ((r.values 0 r.fields r.start >>= fun st => Reader.ofExcept (r.finish st)) bs).closing closeList
    else if b = Bracket.object.openMark then
      afterFirst fun bs =>
        ((r.members (bs.length + 1) true [] r.start >>= fun st => Reader.ofExcept (r.finish st)) bs).closing
          closeObject
    else unexpected r.title

end Record

def required {α : Type} (name : String) : Option α → Except Error α
  | some a => .ok a
  | none => .error (.missingField name)

/-- The name of a variant, as a text or as an object with that name and `null`. -/
def variant {α : Type} (known : List (String × α)) : Reader α :=
  let named (name : String) : Reader α :=
    match known.lookup name with
    | some a => Reader.pure a
    | none => Reader.fail (.unknownVariant name (known.map (·.1)))
  let unit : Reader Unit :=
    onFirst fun b =>
      if b = 'n'.toUInt8 then afterFirst (readIdent [117, 108, 108]) else unexpected "unit"
  let close : Reader Unit := fun bs =>
    match skipBlank bs with
    | [] => .failed (.ended .object) []
    | b :: rest => if b = Bracket.object.closeMark then .done () rest else .failed .expectedValue rest
  onFirst fun b =>
    if b = Bracket.object.openMark then
      afterFirst do
        let a ← text "variant identifier" >>= named
        readColon
        unit
        close
        Pure.pure a
    else if b = quotationMark then text "variant identifier" >>= named
    else Reader.fail .expectedValue

end PushGateway.Json
