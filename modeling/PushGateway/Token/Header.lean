import PushGateway.Token.Jwk
/-!
Token headers: the algorithm, the type and the key id. Other registered members are judged by their
kind alone.
-/

namespace PushGateway.Token

inductive Algorithm where
  | hs256 | hs384 | hs512
  | es256 | es384
  | rs256 | rs384 | rs512
  | ps256 | ps384 | ps512
  | edDSA
  deriving DecidableEq, Repr

namespace Algorithm

def names : List (String × Algorithm) :=
  [("HS256", .hs256), ("HS384", .hs384), ("HS512", .hs512), ("ES256", .es256), ("ES384", .es384),
    ("RS256", .rs256), ("RS384", .rs384), ("RS512", .rs512), ("PS256", .ps256), ("PS384", .ps384),
    ("PS512", .ps512), ("EdDSA", .edDSA)]

def name : Algorithm → String
  | .hs256 => "HS256"
  | .hs384 => "HS384"
  | .hs512 => "HS512"
  | .es256 => "ES256"
  | .es384 => "ES384"
  | .rs256 => "RS256"
  | .rs384 => "RS384"
  | .rs512 => "RS512"
  | .ps256 => "PS256"
  | .ps384 => "PS384"
  | .ps512 => "PS512"
  | .edDSA => "EdDSA"

end Algorithm

/-- A header as it is written: type and key id may be absent. -/
structure RawHeader where
  algorithm : Option Algorithm := none
  type : Option String := none
  keyId : Option String := none
  deriving DecidableEq, Repr

open Json

/-- A member whose value is a text or null and is not kept. -/
def unusedText (name : String) : Member RawHeader :=
  { name := name, read := fun h => optional (text "a string") >>= fun _ => pure h }

def headerRecord : Record RawHeader (Algorithm × RawHeader) where
  title := "struct Header"
  fields :=
    [{ name := "typ", read := fun h => optional (text "a string") >>= fun t => pure { h with type := t } },
      { name := "alg", read := fun h => variant Algorithm.names >>= fun a => pure { h with algorithm := some a } },
      unusedText "cty",
      unusedText "jku",
      { name := "jwk", read := fun h => optional Jwk.read >>= fun _ => pure h },
      { name := "kid", read := fun h => optional (text "a string") >>= fun k => pure { h with keyId := k } },
      unusedText "x5u",
      { name := "x5c", read := fun h => optional (list (text "a string")) >>= fun _ => pure h },
      unusedText "x5t",
      unusedText "x5t#S256"]
  start := {}
  finish := fun h => (required "alg" h.algorithm).map fun a => (a, h)

end PushGateway.Token
