import PushGateway.Decimal.Unsigned
/-!
Settings from command-line arguments. Each flag is looked for by itself: the argument after its first
occurrence is its value, whatever that argument is, and without one the default stands.
-/

namespace PushGateway

structure Settings where
  port : Nat
  certificatePath : String
  keyPath : String
  clientRootsPath : Option String
  fixturesPath : Option String
  deriving DecidableEq, Repr

namespace Settings

/-- The port cannot be the number of one. -/
structure Error where
  port : String
  deriving DecidableEq, Repr

namespace Error

def argument (e : Error) : String := s!"--port {e.port}"

def message (e : Error) : String := s!"invalid argument: {e.argument}"

end Error

def defaultPort : Nat := 8443

def defaultCertificatePath : String := "certs/cert.pem"

def defaultKeyPath : String := "certs/key.pem"

def value? (flag : String) : List String → Option String
  | [] => none
  | a :: rest => if a = flag then rest.head? else value? flag rest

def ofArguments (arguments : List String) : Except Error Settings :=
  let settings (port : Nat) : Settings :=
    { port := port
      certificatePath := (value? "--cert" arguments).getD defaultCertificatePath
      keyPath := (value? "--key" arguments).getD defaultKeyPath
      clientRootsPath := value? "--client-ca" arguments
      fixturesPath := value? "--fixtures" arguments }
  match value? "--port" arguments with
  | none => .ok (settings defaultPort)
  | some text =>
    match Decimal.read? Decimal.maxU16 text with
    | none => .error ⟨text⟩
    | some port => .ok (settings port)

end Settings
end PushGateway
