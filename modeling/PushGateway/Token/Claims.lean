import PushGateway.Json.Tree
/-!
Token claims: the issuer and the time of issue, which is carried as decimal text. The registered claims
`exp`, `nbf`, `sub`, `iss` and `aud` are passed over a second time without a judgement on their values.
-/

namespace PushGateway.Token

structure Claims where
  issuer : String
  issuedAtText : String
  deriving DecidableEq, Repr

/-- The time of issue in Unix seconds, when its text is a 64-bit count. -/
def Claims.issuedAt (c : Claims) : Option Nat := Decimal.read? Decimal.maxU64 c.issuedAtText

open Json

def claimsRecord : Record (Option String × Option String) Claims where
  title := "struct TokenClaims"
  fields :=
    [{ name := "iss", read := fun st => text "a string" >>= fun s => pure (some s, st.2) },
      { name := "iat", read := fun st => text "a string" >>= fun s => pure (st.1, some s) }]
  start := (none, none)
  finish := fun st => do
    let iss ← required "iss" st.1
    let iat ← required "iat" st.2
    return ⟨iss, iat⟩

/-- Reads a scalar; a list or an object is read only as far as its being empty. -/
def timeValue : Reader Unit :=
  onFirst fun b =>
    if b = Bracket.list.openMark then afterFirst closeList
    else if b = Bracket.object.openMark then afterFirst closeObject
    else unexpected "a time"

/-- The registered claims, whatever their values. A value that cannot be read to its end leaves the
reader inside it. -/
def registeredRecord : Record Unit Unit where
  title := "struct ClaimsForValidation"
  fields :=
    [{ name := "exp", read := fun _ => Reader.tolerate timeValue, omissible := true },
      { name := "nbf", read := fun _ => Reader.tolerate timeValue, omissible := true },
      { name := "sub", read := fun _ => Reader.tolerate (optional (text "a string")) },
      { name := "iss", read := fun _ => Reader.tolerate (optional (text "a string")) },
      { name := "aud", read := fun _ => Reader.tolerate (optional (Tree.read (nestingLimit - 1))) }]
  start := ()
  finish := fun _ => .ok ()

/-- Claims are read for their own members and then for the registered ones. -/
def readClaims (bs : Bytes) : Except Error Claims :=
  match readAll claimsRecord.read bs with
  | .error e => .error e
  | .ok claims => (readAll registeredRecord.read bs).map fun _ => claims

end PushGateway.Token
