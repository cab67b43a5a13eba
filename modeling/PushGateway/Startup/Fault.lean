import PushGateway.Completion
import PushGateway.Gateway.State
import PushGateway.Settings
import PushGateway.Tls.Config
import PushGateway.Tls.Files
/-!
Why the program ends before it serves, and how a fatal report shows the cause: by its kind, with texts
quoted. Positions in a JSON text and details of a DER text are left out.
-/

namespace PushGateway.Startup

inductive Fault where
  | settings (cause : Settings.Error)
  | file (cause : Tls.FileError)
  | tls (cause : Tls.ConfigFault)
  | fixtureFile (cause : FixtureFileError)
  | fixtures (cause : FixtureFault)
  | server (cause : ServerError)
  deriving DecidableEq, Repr

/-- A cause by its kind and what belongs to it. -/
def node (kind : String) (parts : List String) : String := kind ++ "(" ++ ", ".intercalate parts ++ ")"

/-- A cause by its kind and named properties. -/
def record (kind : String) (properties : List (String × String)) : String :=
  kind ++ " \x7b " ++ ", ".intercalate (properties.map fun (name, value) => name ++ ": " ++ value) ++ " \x7d"

def omission : String := "..."

/-- A path as a report quotes it: single quotes are escaped too. -/
def quotedPath (path : String) : String :=
  String.ofList ((Text.quoted path).toList.flatMap fun c => if c = '\'' then ['\\', c] else [c])

/-- A file's fault with its number, or without when it has none. -/
def describeFileFault (f : File.Fault) : String :=
  match f.code? with
  | some code =>
    record "Os" [("code", toString code), ("kind", f.kind), ("message", Text.quoted f.text)]
  | none => record "Error" [("kind", f.kind), ("message", Text.quoted f.text)]

def describeFileError : Tls.FileError → String
  | .unreadable path fault => node "Io" [quotedPath path, describeFileFault fault]
  | .malformed path fault =>
    node "Io" [quotedPath path, record "Custom" [("kind", "InvalidData"), ("error", Text.quoted fault.message)]]
  | .lacking path lack => node "Pem" [quotedPath path, Text.quoted lack.message]

def describeConfigFault : Tls.ConfigFault → String
  | .noTrustAnchors => node "Verifier" [Text.quoted Tls.ConfigFault.noTrustAnchors.reason]
  | .unusableKey => node "Rustls" [node "General" [Text.quoted Tls.ConfigFault.unusableKey.reason]]
  | .noCertificates => node "Rustls" ["NoCertificatesPresented"]
  | .certificate fault => node "Rustls" [node "InvalidCertificate" [fault.name]]
  | .keyMismatch => node "Rustls" [node "InconsistentKeys" ["KeyMismatch"]]

def describeFixtureFileError : FixtureFileError → String
  | .unreadable path fault => node "Io" [quotedPath path, describeFileFault fault]
  | .json e => "Json(Error(" ++ Text.quoted e.message ++ omission

def describeRegistrationError : RegistrationError → String
  | .unsupportedAlgorithm name => node "Registration" [node "UnsupportedAlgorithm" [Text.quoted name]]
  | .invalidKey .der => "Registration(InvalidKey" ++ omission
  | .invalidKey fault => node "Registration" [node "InvalidKey" [Text.quoted fault.message]]

def describeFixtureFault : FixtureFault → String
  | .key keyId e => node "Key" [Text.quoted s!"{keyId}: {e.message}"]
  | .registration e => describeRegistrationError e
  | .timeOverflow => UnixTime.overflow

def describeServerError : ServerError → String
  | .terminated => "Terminated"
  | .alreadyRunning => "AlreadyRunning"
  | .bind cause => node "Bind" [cause]
  | .runtime cause => node "Runtime" [cause]
  | .abandoned => "Abandoned"

namespace Fault

def describe : Fault → String
  | .settings e => node "InvalidArgument" [Text.quoted e.argument]
  | .file e => describeFileError e
  | .tls e => describeConfigFault e
  | .fixtureFile e => describeFixtureFileError e
  | .fixtures e => describeFixtureFault e
  | .server e => describeServerError e

/-- Whether the program breaks down instead of reporting the cause. -/
def isCrash : Fault → Bool
  | .fixtures .timeOverflow => true
  | _ => false

def report (f : Fault) : List String :=
  if f.isCrash then ["thread 'main' panicked", f.describe] else [s!"Error: {f.describe}"]

def exitCode (f : Fault) : Nat := if f.isCrash then 101 else 1

end Fault
end PushGateway.Startup
