import PushGateway.Pem.Body
import PushGateway.Text.Printable
/-!
PEM files: sections between a line that begins and a line that ends them, with text around them that has
no meaning. Sections of unknown kinds are passed over.
-/

namespace PushGateway.Pem

inductive Kind where
  | certificate
  | publicKey
  | rsaPrivateKey
  | privateKey
  | ecPrivateKey
  | revocationList
  | certificateRequest
  | echConfig
  deriving DecidableEq, Repr

namespace Kind

def label : Kind → String
  | .certificate => "CERTIFICATE"
  | .publicKey => "PUBLIC KEY"
  | .rsaPrivateKey => "RSA PRIVATE KEY"
  | .privateKey => "PRIVATE KEY"
  | .ecPrivateKey => "EC PRIVATE KEY"
  | .revocationList => "X509 CRL"
  | .certificateRequest => "CERTIFICATE REQUEST"
  | .echConfig => "ECHCONFIG"

def all : List Kind :=
  [.certificate, .publicKey, .rsaPrivateKey, .privateKey, .ecPrivateKey, .revocationList,
    .certificateRequest, .echConfig]

def ofLabel? (label : Bytes) : Option Kind := all.find? fun k => Utf8.encode k.label = label

end Kind

structure Section where
  kind : Kind
  content : Bytes
  deriving DecidableEq, Repr

inductive Fault where
  | endMissing (label : Bytes)
  | illegalStart (line : Bytes)
  | body (cause : BodyFault)
  deriving DecidableEq, Repr

namespace Fault

def message : Fault → String
  | .endMissing label => s!"section end {Text.quoted (Utf8.decodeLossy label)} missing"
  | .illegalStart line => s!"illegal section start: {Text.quoted (Utf8.decodeLossy line)}"
  | .body e => e.message

end Fault

def dash : UInt8 := '-'.toUInt8

def newline : UInt8 := '\n'.toUInt8

def carriageReturn : UInt8 := '\r'.toUInt8

/-- Lines with the octet that ends them; a carriage return and a line feed both end a line. -/
def lines : Bytes → List Bytes
  | [] => []
  | b :: rest =>
    if b = newline ∨ b = carriageReturn then [b] :: lines rest
    else match lines rest with
      | l :: ls => (b :: l) :: ls
      | [] => [[b]]

def beginMark : Bytes := Utf8.encode "-----BEGIN "

def endMark (label : Bytes) : Bytes := Utf8.encode "-----END " ++ label ++ List.replicate 5 dash

/-- Whether an octet may stand among the dashes that close a line. -/
def isTrailing (b : UInt8) : Bool := b = dash ∨ b = newline ∨ b = carriageReturn ∨ b = ' '.toUInt8

/-- The label on a line that begins a section: it must be followed by five dashes. -/
def beginLabel? (line : Bytes) : Option Bytes :=
  let trailing := (line.reverse.takeWhile isTrailing).reverse
  if trailing.count dash = 5 then
    some ((line.take (line.length - (trailing.dropWhile (· ≠ dash)).length)).drop beginMark.length)
  else none

structure OpenSection where
  label : Bytes
  body : Bytes
  deriving DecidableEq, Repr

/-- The sections that were read, and the fault that ended the reading before the end of the file. -/
structure Contents where
  sections : List Section
  fault : Option Fault
  deriving DecidableEq, Repr

/-- Reads on with the given section open. A line that begins a section inside another one replaces the
label and keeps the body. -/
def readLines (current : Option OpenSection) : List Bytes → Contents
  | [] => ⟨[], current.map fun o => .endMissing o.label⟩
  | line :: rest =>
    if beginMark.isPrefixOf line then
      match beginLabel? line with
      | none => ⟨[], some (.illegalStart line)⟩
      | some label => readLines (some ⟨label, (current.map (·.body)).getD []⟩) rest
    else match current with
      | none => readLines none rest
      | some o =>
        if (endMark o.label).isPrefixOf line then
          match Kind.ofLabel? o.label with
          | none => readLines none rest
          | some kind =>
            match Body.decode o.body with
            | .error e => ⟨[], some (.body e)⟩
            | .ok content =>
              let later := readLines none rest
              { later with sections := ⟨kind, content⟩ :: later.sections }
        else readLines (some ⟨o.label, o.body ++ line⟩) rest

def read (file : Bytes) : Contents := readLines none (lines file)

end PushGateway.Pem
