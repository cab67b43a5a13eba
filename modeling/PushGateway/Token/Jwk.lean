import PushGateway.Json.Tree
/-!
Public keys embedded in a token header. The gateway never uses one, but a header that carries a
malformed one is refused.
-/

namespace PushGateway.Token.Jwk

open Json

abbrev Check := Tree → Except Error Unit

def isText : Check
  | .text _ => .ok ()
  | t => .error (.invalidType t.found "a string")

def isTexts : Check
  | .list ts => ts.forM isText
  | t => .error (.invalidType t.found "a sequence")

/-- One of the given names, as a text or as an object with that name and an empty value. -/
def isVariant (known : List String) : Check
  | .text s => if s ∈ known then .ok () else .error (.unknownVariant s known)
  | .object [(s, v)] =>
    if s ∈ known then
      match v with
      | .null => .ok ()
      | .object [] => .ok ()
      | v => .error (.invalidType v.found "unit")
    else .error (.unknownVariant s known)
  | .object _ => .error (.invalidValue .map "map with a single key")
  | t => .error (.invalidType t.found "string or map")

def algorithms : List String :=
  ["HS256", "HS384", "HS512", "ES256", "ES384", "RS256", "RS384", "RS512", "PS256", "PS384", "PS512",
    "EdDSA", "RSA1_5", "RSA-OAEP", "RSA-OAEP-256"]

/-- Members that a key of any kind may have; each may be null. -/
def common : List (String × Check) :=
  [("use", isText), ("key_ops", isTexts), ("alg", isVariant algorithms), ("kid", isText), ("x5u", isText),
    ("x5c", isTexts), ("x5t", isText), ("x5t#S256", isText)]

/-- Checks the common members in the order in which they are given. -/
def checkCommon (seen : List String) : List (String × Tree) → Except Error Unit
  | [] => .ok ()
  | (name, value) :: rest =>
    match common.lookup name with
    | none => checkCommon seen rest
    | some check =>
      if name ∈ seen then .error (.duplicateField name)
      else
        let checked : Except Error Unit := match value with
          | .null => .ok ()
          | v => check v
        match checked with
        | .error e => .error e
        | .ok _ => checkCommon (name :: seen) rest

/-- A name given as a text or as an object with that name and null. -/
def isNamed (known : List String) : Tree → Bool
  | .text s => s ∈ known
  | .object [(s, .null)] => s ∈ known
  | _ => false

def isPlain : Tree → Bool
  | .text _ => true
  | _ => false

def curves : List String := ["P-256", "P-384", "P-521", "Ed25519"]

/-- The members that each kind of key must have exactly once. -/
def kinds : List (List (String × (Tree → Bool))) :=
  [[("kty", isNamed ["EC"]), ("crv", isNamed curves), ("x", isPlain), ("y", isPlain)],
    [("kty", isNamed ["RSA"]), ("n", isPlain), ("e", isPlain)],
    [("kty", isNamed ["oct"]), ("k", isPlain)],
    [("kty", isNamed ["OKP"]), ("crv", isNamed curves), ("x", isPlain)]]

def matchesKind (members : List (String × Tree)) (kind : List (String × (Tree → Bool))) : Bool :=
  kind.all fun (name, fits) =>
    match members.filter (·.1 = name) with
    | [(_, v)] => fits v
    | _ => false

def check (members : List (String × Tree)) : Except Error Unit :=
  match checkCommon [] members with
  | .error e => .error e
  | .ok _ =>
    if kinds.any (matchesKind members) then .ok () else .error (.noVariant "AlgorithmParameters")

/-- Reads an embedded key, which stands one level inside a header. -/
def read : Reader Unit :=
  Tree.readMembers "struct Jwk" (nestingLimit - 2) >>= fun members => Reader.ofExcept (check members)

end PushGateway.Token.Jwk
