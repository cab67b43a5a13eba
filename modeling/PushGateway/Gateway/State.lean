import PushGateway.Fixtures
import PushGateway.Text.Fields
import PushGateway.Token.Basic
/-!
The state that all connections of a gateway share: the key registry, the device registry, and whether
handlers answer every request with an internal error. Fixtures are applied to it, and tokens are
authorized against it.
-/

namespace PushGateway

structure Gateway where
  keys : KeyRegistry := {}
  devices : DeviceRegistry := {}
  emulateErrors : Bool := false
  deriving DecidableEq, Repr

namespace Gateway

def empty : Gateway := {}

def setEmulation (g : Gateway) (enabled : Bool) : Gateway := { g with emulateErrors := enabled }

def setEmulationLog (enabled : Bool) : Log.Record :=
  Log.info .state ("Internal error emulation " ++ if enabled then "enabled" else "disabled")

def registerKey (g : Gateway) (q : KeyRegistration) : Except RegistrationError Gateway :=
  (g.keys.register q).map fun ks => { g with keys := ks }

def clearKeys (g : Gateway) : Gateway := { g with keys := .empty }

def registerDevice (g : Gateway) (topic token : String) (expiration : Option UnixTime) : Gateway :=
  { g with devices := g.devices.register topic token expiration }

def clearDevices (g : Gateway) : Gateway := { g with devices := .empty }

/-- What a token is worth: its signature checked with the key registered under its key id, the owner of
that key id, whether the token names that team as its issuer, and the topics of its issuer. -/
structure Authorization where
  verified : Option Bool
  team : Option String
  teamMatches : Option Bool
  topics : Option (List String)
  deriving DecidableEq, Repr

def authorize (g : Gateway) (t : Token) : Authorization where
  verified := (g.keys.verifier t.header.keyId).map t.verify
  team := g.keys.team t.header.keyId
  teamMatches := (g.keys.team t.header.keyId).map fun team => team = t.claims.issuer
  topics := g.keys.topics t.claims.issuer

def authorizeLog (g : Gateway) (t : Token) : List Log.Record :=
  match g.keys.verifier t.header.keyId with
  | some v => t.checkLog v
  | none => []

end Gateway

inductive FixtureFault where
  /-- A key's material is not base64. -/
  | key (keyId : String) (cause : Base64.Error)
  | registration (cause : RegistrationError)
  | timeOverflow
  deriving DecidableEq, Repr

namespace FixtureFault

def message : FixtureFault → String
  | .key keyId e => s!"invalid fixture key: {keyId}: {e.message}"
  | .registration e => s!"fixture key rejected: {e.message}"
  | .timeOverflow => UnixTime.overflow

end FixtureFault

/-- What came of applying fixtures, the state that is left, and what was reported. -/
structure Application where
  result : Except FixtureFault Unit
  gateway : Gateway
  log : List Log.Record

namespace KeyFixture

def registration (k : KeyFixture) : Except FixtureFault KeyRegistration :=
  match Base64.decode Base64.standard (Utf8.encode (Text.trim k.publicKey)) with
  | .error e => .error (.key k.keyId e)
  | .ok material => .ok ⟨tokenAlgorithm, material, k.team, k.keyId, k.topics⟩

end KeyFixture

namespace DeviceFixture

/-- The expiration a device fixture asks for, when the clock can hold it. -/
def expiration? (d : DeviceFixture) : Option (Option UnixTime) :=
  match d.expiresAt with
  | none => some none
  | some seconds => (UnixTime.ofSeconds? seconds).map some

end DeviceFixture

namespace Fixtures

/-- Registers keys in order and stops at the first that is not accepted. -/
def applyKeys (g : Gateway) : List KeyFixture → Application
  | [] => ⟨.ok (), g, []⟩
  | k :: ks =>
    match k.registration with
    | .error e => ⟨.error e, g, []⟩
    | .ok q =>
      match g.registerKey q with
      | .error e => ⟨.error (.registration e), g, []⟩
      | .ok g' =>
        let rest := applyKeys g' ks
        { rest with log := g.keys.registerLog q :: rest.log }

/-- Registers device tokens in order and stops at one whose expiration is too late. -/
def applyDevices (g : Gateway) : List DeviceFixture → Application
  | [] => ⟨.ok (), g, []⟩
  | d :: ds =>
    match d.expiration? with
    | none => ⟨.error .timeOverflow, g, []⟩
    | some expiration =>
      let rest := applyDevices (g.registerDevice d.topic d.token expiration) ds
      { rest with log := DeviceRegistry.registerLog d.topic :: rest.log }

def appliedLog (f : Fixtures) : Log.Record :=
  Log.info .fixtures s!"Loaded {f.keys.length} key(s) and {f.devices.length} device token(s) from fixtures"

def apply (f : Fixtures) (g : Gateway) : Application :=
  let keys := applyKeys g f.keys
  match keys.result with
  | .error _ => keys
  | .ok _ =>
    let devices := applyDevices keys.gateway f.devices
    match devices.result with
    | .error _ => { devices with log := keys.log ++ devices.log }
    | .ok _ => { devices with log := keys.log ++ devices.log ++ [f.appliedLog] }

end Fixtures
end PushGateway
