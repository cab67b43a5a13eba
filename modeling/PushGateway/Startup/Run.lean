import PushGateway.Server.Lifecycle
import PushGateway.Startup.Fault
import PushGateway.Tls.P256
/-!
A run of the program. Settings, certificate chain, private key, client roots, TLS configuration and
fixtures come in this order, and only when all of them are there is a listener bound. The program then
serves until a signal arrives.
-/

namespace PushGateway.Startup

structure Environment where
  read : String → Except File.Fault Bytes
  /-- What binding a port comes to: the port that is bound. -/
  bind : Nat → Except String Nat
  /-- The time at which client certificates are judged. -/
  now : Nat

structure Plan where
  settings : Settings
  tls : Tls.Config
  gateway : Gateway

def openingLog (s : Settings) : List Log.Record :=
  [Log.info .program "Mock push gateway starting...",
    Log.info .program s!"  Port:      {s.port}",
    Log.info .program s!"  Cert:      {s.certificatePath}",
    Log.info .program s!"  Key:       {s.keyPath}",
    Log.info .program s!"  Client CA: {s.clientRootsPath.getD noClientRoots}"]
where
  /-- What is shown when clients cannot authenticate by certificate. -/
  noClientRoots : String := "none (token authentication only)"

def loadRoots (env : Environment) : Option String → Except Fault (Option (List Tls.TrustAnchor))
  | none => .ok none
  | some path => ((Tls.clientRoots path (env.read path)).mapError Fault.file).map some

def loadTls [Tls.Provider] (env : Environment) (s : Settings) : Except Fault Tls.Config := do
  let chain ← (Tls.certificates s.certificatePath (env.read s.certificatePath)).mapError Fault.file
  let key ← (Tls.privateKey s.keyPath (env.read s.keyPath)).mapError Fault.file
  let roots ← loadRoots env s.clientRootsPath
  (Tls.Config.new chain key roots).mapError Fault.tls

def loadFixtures (env : Environment) : Option String → Except Fault (Option Fixtures)
  | none => .ok none
  | some path => ((Fixtures.ofFile path (env.read path)).mapError Fault.fixtureFile).map some

def applyFixtures : Option Fixtures → Except Fault Gateway × List Log.Record
  | none => (.ok .empty, [])
  | some f =>
    let a := f.apply .empty
    ((a.result.mapError Fault.fixtures).map fun _ => a.gateway, a.log)

/-- Everything up to the point where the server could start. -/
def prepare [Tls.Provider] (env : Environment) (arguments : List String) : Except Fault Plan × List Log.Record :=
  match Settings.ofArguments arguments with
  | .error e => (.error (.settings e), [])
  | .ok settings =>
    match loadTls env settings with
    | .error fault => (.error fault, openingLog settings)
    | .ok tls =>
      match loadFixtures env settings.fixturesPath with
      | .error fault => (.error fault, openingLog settings)
      | .ok fixtures =>
        let (gateway, log) := applyFixtures fixtures
        (gateway.map fun g => ⟨settings, tls, g⟩, openingLog settings ++ log)

/-- The setup of the program's server: it listens on every address and holds connections open. -/
def Plan.setup (p : Plan) (env : Environment) : Lifecycle.Setup where
  tls := p.tls.policy
  factory := Handler.idleFactory
  address := Endpoint.anyAddress
  now := env.now
  reachable := true

/-- The program's server before its start: it owns its workers. -/
def Plan.server (p : Plan) : Lifecycle.State :=
  { server := { Server.new (.owned true) with gateway := p.gateway } }

def launch [Tls.Provider] (env : Environment) (arguments : List String) :
    Except Fault Lifecycle.State × List Log.Record :=
  match prepare env arguments with
  | (.error fault, log) => (.error fault, log)
  | (.ok plan, log) =>
    let port := plan.settings.port
    match Lifecycle.start (plan.setup env) plan.server (env.bind port) port with
    | (⟨.started address, more⟩, state) =>
      (.ok state, log ++ more ++ [Log.info .program s!"Ready on {address.render}"])
    | (⟨.failed e, more⟩, _) => (.error (.server e), log ++ more)
    | (⟨_, more⟩, state) => (.ok state, log ++ more)

def finish (signal : Nat) (state : Lifecycle.State) : List Log.Record :=
  Log.info .program s!"Received signal {signal}, shutting down" :: (Lifecycle.shutdown state).1.log

/-- What is seen of a run: the lines it writes and the status it ends with. -/
structure Transcript where
  exitCode : Nat
  lines : List String
  deriving DecidableEq, Repr

/-- A run that ends with a signal, if it gets so far. -/
def run [Tls.Provider] (env : Environment) (signal : Nat) (arguments : List String) : Transcript :=
  match launch env arguments with
  | (.error fault, log) => ⟨fault.exitCode, Log.lines log ++ fault.report⟩
  | (.ok state, log) => ⟨0, Log.lines (log ++ finish signal state)⟩

end PushGateway.Startup
