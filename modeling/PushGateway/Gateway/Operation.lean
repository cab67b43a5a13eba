import PushGateway.Gateway.State
/-!
What can be asked of a gateway: each operation answers, reports, and leaves a gateway behind. Looking
something up leaves it as it was.
-/

namespace PushGateway.Gateway

inductive Operation where
  | registerKey (q : KeyRegistration)
  | clearKeys
  | verifier (keyId : String)
  | team (keyId : String)
  | key (keyId : String)
  | topics (team : String)
  | registerDevice (topic token : String) (expiration : Option UnixTime)
  | clearDevices
  | isRegistered (token topic : String)
  | expiration (token topic : String)
  | setEmulation (enabled : Bool)
  | applyFixtures (f : Fixtures)
  | authorize (t : Token)
  deriving DecidableEq, Repr

inductive Answer where
  | done
  | notRegistered (cause : RegistrationError)
  | verifier (found : Option Verifier)
  | team (found : Option String)
  | key (found : Option KeyRecord)
  | topics (found : Option (List String))
  | registered (found : Bool)
  | expiration (found : Option Expiration)
  | notApplied (cause : FixtureFault)
  | authorized (worth : Authorization)
  deriving DecidableEq, Repr

/-- An answer, what was reported, and the gateway that is left. -/
structure Outcome where
  answer : Answer
  log : List Log.Record
  gateway : Gateway

def perform (g : Gateway) : Operation → Outcome
  | .registerKey q =>
    match g.registerKey q with
    | .error e => ⟨.notRegistered e, [], g⟩
    | .ok g' => ⟨.done, [g.keys.registerLog q], g'⟩
  | .clearKeys => ⟨.done, [KeyRegistry.clearLog], g.clearKeys⟩
  | .verifier keyId => ⟨.verifier (g.keys.verifier keyId), [], g⟩
  | .team keyId => ⟨.team (g.keys.team keyId), [], g⟩
  | .key keyId => ⟨.key (g.keys.key keyId), [], g⟩
  | .topics team => ⟨.topics (g.keys.topics team), [], g⟩
  | .registerDevice topic token expiration =>
    ⟨.done, [DeviceRegistry.registerLog topic], g.registerDevice topic token expiration⟩
  | .clearDevices => ⟨.done, [DeviceRegistry.clearLog], g.clearDevices⟩
  | .isRegistered token topic => ⟨.registered (g.devices.isRegistered token topic), [], g⟩
  | .expiration token topic => ⟨.expiration (g.devices.expiration token topic), [], g⟩
  | .setEmulation enabled => ⟨.done, [setEmulationLog enabled], g.setEmulation enabled⟩
  | .applyFixtures f =>
    let a := f.apply g
    match a.result with
    | .error e => ⟨.notApplied e, a.log, a.gateway⟩
    | .ok _ => ⟨.done, a.log, a.gateway⟩
  | .authorize t => ⟨.authorized (g.authorize t), g.authorizeLog t, g⟩

def run (g : Gateway) : List Operation → List Answer × Gateway
  | [] => ([], g)
  | o :: os => ((g.perform o).answer :: (run (g.perform o).gateway os).1, (run (g.perform o).gateway os).2)

end PushGateway.Gateway
