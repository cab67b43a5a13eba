import PushGateway.Base64
import PushGateway.Device.Registry
import PushGateway.File.Tree
import PushGateway.Json.Expect
import PushGateway.Json.Message
import PushGateway.Key.Registry
/-!
Fixtures: keys and device tokens to register at start, read from JSON.
-/

namespace PushGateway

inductive FixtureFileError where
  | unreadable (path : String) (fault : File.Fault)
  | json (cause : Json.Error)
  deriving DecidableEq, Repr

namespace FixtureFileError

def message : FixtureFileError → String
  | .unreadable path fault => s!"failed to read {path}: {fault.message}"
  | .json e => s!"invalid fixtures file: {e.message}"

end FixtureFileError

/-- A key to register; its material is standard base64. -/
structure KeyFixture where
  team : String
  keyId : String
  publicKey : String
  topics : List String
  deriving DecidableEq, Repr

structure DeviceFixture where
  topic : String
  token : String
  expiresAt : Option Nat
  deriving DecidableEq, Repr

structure Fixtures where
  keys : List KeyFixture := []
  devices : List DeviceFixture := []
  deriving DecidableEq, Repr

namespace KeyFixture

open Json

structure Draft where
  team : Option String := none
  keyId : Option String := none
  publicKey : Option String := none
  topics : List String := []

def record : Record Draft KeyFixture where
  title := "struct KeyFixture"
  fields :=
    [{ name := "team_id", read := fun d => text "a string" >>= fun s => pure { d with team := some s } },
      { name := "key_id", read := fun d => text "a string" >>= fun s => pure { d with keyId := some s } },
      { name := "public_key", read := fun d => text "a string" >>= fun s => pure { d with publicKey := some s } },
      { name := "topics", read := fun d => list (text "a string") >>= fun ts => pure { d with topics := ts },
        omissible := true }]
  start := {}
  finish := fun d => do
    let team ← required "team_id" d.team
    let keyId ← required "key_id" d.keyId
    let publicKey ← required "public_key" d.publicKey
    return ⟨team, keyId, publicKey, d.topics⟩

end KeyFixture

namespace DeviceFixture

open Json

structure Draft where
  topic : Option String := none
  token : Option String := none
  expiresAt : Option Nat := none

def record : Record Draft DeviceFixture where
  title := "struct DeviceTokenFixture"
  fields :=
    [{ name := "topic", read := fun d => text "a string" >>= fun s => pure { d with topic := some s } },
      { name := "token", read := fun d => text "a string" >>= fun s => pure { d with token := some s } },
      { name := "expires_at", read := fun d => optional count >>= fun n => pure { d with expiresAt := n },
        omissible := true }]
  start := {}
  finish := fun d => do
    let topic ← required "topic" d.topic
    let token ← required "token" d.token
    return ⟨topic, token, d.expiresAt⟩

end DeviceFixture

namespace Fixtures

open Json

def record : Record Fixtures Fixtures where
  title := "struct Fixtures"
  fields :=
    [{ name := "keys", read := fun f => list KeyFixture.record.read >>= fun ks => pure { f with keys := ks },
        omissible := true },
      { name := "device_tokens",
        read := fun f => list DeviceFixture.record.read >>= fun ds => pure { f with devices := ds },
        omissible := true }]
  start := {}
  finish := .ok

def ofJson (bs : Bytes) : Except FixtureFileError Fixtures :=
  match readAll record.read bs with
  | .ok f => .ok f
  | .error e => .error (.json e)

def ofFile (path : String) (content : Except File.Fault Bytes) : Except FixtureFileError Fixtures :=
  match content with
  | .error fault => .error (.unreadable path fault)
  | .ok bs =>
    match Utf8.decode? bs with
    | none => .error (.unreadable path .notText)
    | some _ => ofJson bs

end Fixtures
end PushGateway
