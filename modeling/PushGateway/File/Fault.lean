/-!
Why a file cannot be read, in the words of the operating system.
-/

namespace PushGateway.File

inductive Fault where
  | notFound
  | permissionDenied
  | notDirectory
  | isDirectory
  | nameTooLong
  /-- The name holds a NUL, so the operating system was never asked. -/
  | nulInName
  /-- The content was to be text and is not UTF-8. -/
  | notText
  deriving DecidableEq, Repr

namespace Fault

/-- The number by which the operating system knows the fault. -/
def code? : Fault → Option Nat
  | .notFound => some 2
  | .permissionDenied => some 13
  | .notDirectory => some 20
  | .isDirectory => some 21
  | .nameTooLong => some 36
  | .nulInName => none
  | .notText => none

def text : Fault → String
  | .notFound => "No such file or directory"
  | .permissionDenied => "Permission denied"
  | .notDirectory => "Not a directory"
  | .isDirectory => "Is a directory"
  | .nameTooLong => "File name too long"
  | .nulInName => "file name contained an unexpected NUL byte"
  | .notText => "stream did not contain valid UTF-8"

/-- The class of the fault, as a fatal report names it. -/
def kind : Fault → String
  | .notFound => "NotFound"
  | .permissionDenied => "PermissionDenied"
  | .notDirectory => "NotADirectory"
  | .isDirectory => "IsADirectory"
  | .nameTooLong => "InvalidFilename"
  | .nulInName => "InvalidInput"
  | .notText => "InvalidData"

def message (f : Fault) : String :=
  match f.code? with
  | some code => s!"{f.text} (os error {code})"
  | none => f.text

end Fault
end PushGateway.File
