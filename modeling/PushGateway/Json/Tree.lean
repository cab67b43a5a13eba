import PushGateway.Json.Expect
/-!
JSON values read whole, for members whose kind is decided only after all of them are known. Reading a
tree is bounded in depth.
-/

namespace PushGateway.Json

inductive Tree where
  | null
  | boolean (b : Bool)
  | number (n : Number)
  | text (s : String)
  | list (elements : List Tree)
  | object (members : List (String × Tree))

namespace Tree

/-- What the value is, for a report that something else was expected. -/
def found : Tree → Found
  | .null => .null
  | .boolean b => .boolean b
  | .number n => .number n
  | .text s => .text s
  | .list _ => .sequence
  | .object _ => .map

/-- Members up to the end of an object, their values read by `value`. -/
def entries (value : Reader Tree) : Nat → Bool → Reader (List (String × Tree))
  | 0, _ => Reader.pure []
  | fuel + 1, first => fun bs =>
    match moreMembers first bs with
    | .failed e rest => .failed e rest
    | .done false rest => .done [] rest
    | .done true rest =>
      match (readText >>= fun name => readColon >>= fun _ => value >>= fun v => pure (name, v)) rest with
      | .failed e rest => .failed e rest
      | .done entry rest => (entries value fuel false rest).map (entry :: ·)

/-- Reads a value with fewer than `depth` open brackets around any part of it. -/
def read : Nat → Reader Tree
  | 0 => Reader.fail .nestingLimit
  | depth + 1 => onFirst fun b =>
    if b = 'n'.toUInt8 then afterFirst do readIdent [117, 108, 108]; pure .null
    else if b = 't'.toUInt8 then afterFirst do readIdent [114, 117, 101]; pure (.boolean true)
    else if b = 'f'.toUInt8 then afterFirst do readIdent [97, 108, 115, 101]; pure (.boolean false)
    else if b = minus then afterFirst (readNumber true) >>= fun n => pure (.number n)
    else if isDigit b then readNumber false >>= fun n => pure (.number n)
    else if b = quotationMark then afterFirst readText >>= fun s => pure (.text s)
    else if b = Bracket.list.openMark then
      if depth = 0 then Reader.fail .nestingLimit
      else afterFirst fun bs =>
        ((elements (read depth) (bs.length + 1) true bs).closing closeList).map .list
    else if b = Bracket.object.openMark then
      if depth = 0 then Reader.fail .nestingLimit
      else afterFirst fun bs =>
        ((entries (read depth) (bs.length + 1) true bs).closing closeObject).map .object
    else Reader.fail .expectedValue

/-- Reads the members of an object of which the title is given. -/
def readMembers (title : String) (depth : Nat) : Reader (List (String × Tree)) :=
  onFirst fun b =>
    if b = Bracket.object.openMark then
      afterFirst fun bs => (entries (read depth) (bs.length + 1) true bs).closing closeObject
    else unexpected title

end Tree

/-- How many brackets a value may open inside one another when it is read into a tree or a record. -/
def nestingLimit : Nat := 128

end PushGateway.Json
