import PushGateway.Json.Number
import PushGateway.Json.Text
/-!
Passing over a JSON value of any nesting. Open brackets are kept on a stack, so nothing limits how deep
a skipped value goes.
-/

namespace PushGateway.Json

def comma : UInt8 := ','.toUInt8

def colon : UInt8 := ':'.toUInt8

inductive Bracket where
  | list
  | object
  deriving DecidableEq, Repr

namespace Bracket

def openMark : Bracket → UInt8
  | .list => '['.toUInt8
  | .object => 0x7B

def closeMark : Bracket → UInt8
  | .list => ']'.toUInt8
  | .object => 0x7D

def ended : Bracket → Error
  | .list => .ended .list
  | .object => .ended .object

/-- The error of an element that neither a comma nor the closing bracket follows. -/
def unfinished : Bracket → Error
  | .list => .expectedElementEnd
  | .object => .expectedMemberEnd

end Bracket

/-- Reads the given octets; what they are to continue is a literal such as `null`. -/
def readIdent : Bytes → Reader Unit
  | [], bs => .done () bs
  | _ :: _, [] => .failed (.ended .value) []
  | e :: es, b :: rest => if b = e then readIdent es rest else .failed .expectedIdent rest

def readColon : Reader Unit := fun bs =>
  match skipBlank bs with
  | [] => .failed (.ended .object) []
  | b :: rest => if b = colon then .done () rest else .failed .expectedColon (b :: rest)

def skipName : Reader Unit := fun bs =>
  match skipBlank bs with
  | [] => .failed (.ended .object) []
  | b :: rest => if b = quotationMark then (skipText >>= fun _ => readColon) rest
    else .failed .keyNotText (b :: rest)

/-- Closes brackets after a value; the result is the brackets still open before a further value. -/
def closeBrackets : List Bracket → Reader (List Bracket)
  | [], bs => .done [] bs
  | f :: fs, bs =>
    match skipBlank bs with
    | [] => .failed f.ended []
    | b :: rest =>
      if b = comma then .done (f :: fs) rest
      else if b = f.closeMark then closeBrackets fs rest
      else .failed f.unfinished (b :: rest)

/-- After an opening bracket: either it closes at once or a first value follows. -/
def openBracket (f : Bracket) (fs : List Bracket) : Reader (List Bracket) := fun bs =>
  match skipBlank bs with
  | [] => .failed f.ended []
  | b :: rest => if b = f.closeMark then closeBrackets fs rest else .done (f :: fs) (b :: rest)

/-- Passes over a scalar, or over the opening bracket of a list or an object. -/
def skipHead : Reader (Option Bracket) := fun bs =>
  match skipBlank bs with
  | [] => .failed (.ended .value) []
  | b :: rest =>
    if b = 'n'.toUInt8 then (readIdent [117, 108, 108] rest).map fun _ => none
    else if b = 't'.toUInt8 then (readIdent [114, 117, 101] rest).map fun _ => none
    else if b = 'f'.toUInt8 then (readIdent [97, 108, 115, 101] rest).map fun _ => none
    else if b = minus then (skipNumber rest).map fun _ => none
    else if isDigit b then (skipNumber (b :: rest)).map fun _ => none
    else if b = quotationMark then (skipText rest).map fun _ => none
    else if b = Bracket.list.openMark then .done (some .list) rest
    else if b = Bracket.object.openMark then .done (some .object) rest
    else .failed .expectedValue (b :: rest)

/-- Passes over one value inside the open brackets, and over all that follows until they are closed. -/
def skipWithin : Nat → List Bracket → Reader Unit
  | 0, _, bs => .done () bs
  | fuel + 1, fs, bs =>
    match skipHead bs with
    | .failed e rest => .failed e rest
    | .done head rest =>
      let next := match head with
        | none => closeBrackets fs rest
        | some f => openBracket f fs rest
      match next with
      | .failed e rest => .failed e rest
      | .done [] rest => .done () rest
      | .done (.list :: fs) rest => skipWithin fuel (.list :: fs) rest
      | .done (.object :: fs) rest =>
        match skipName rest with
        | .failed e rest => .failed e rest
        | .done _ rest => skipWithin fuel (.object :: fs) rest

/-- Passes over one value. Each round consumes an octet at least, so the rounds never run out. -/
def skipValue : Reader Unit := fun bs => skipWithin (bs.length + 1) [] bs

end PushGateway.Json
