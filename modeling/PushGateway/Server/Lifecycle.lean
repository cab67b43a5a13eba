import PushGateway.Connection.Negotiation
import PushGateway.Server.Basic
/-!
A server's life as its owner and its clients see it: every step waits until all that it sets going has
come to rest. Starts are bound or fail, shutdowns wait for all connections, and each client knows how its
connection stands.
-/

namespace PushGateway.Lifecycle

structure Setup where
  tls : Tls.Policy
  factory : HandlerFactory
  address : String
  /-- The time at which certificates are judged. -/
  now : Nat
  /-- Whether clients have a way to the server at all. -/
  reachable : Bool

inductive Progress where
  | handshaking
  | served (handler : Handler)

/-- A client's connection: where it comes from, and its listener, number and progress while it is open. -/
structure Link where
  peer : Endpoint
  place : Option (Nat × Nat × Progress)

structure State where
  server : Server
  /-- The connections of clients by the clients' names, the latest first. -/
  links : List (String × Link) := []
  /-- What the factory was asked to build handlers from, the latest first. -/
  requested : List HandlerContext := []

inductive Step where
  /-- A start, and what binding the address comes to: the port, or the reason why not. -/
  | start (binding : Except String Nat) (requested : Nat)
  | shutdown
  | drop
  | status
  | registerDevice (topic token : String) (expiration : Option UnixTime)
  | setEmulation (enabled : Bool)
  | connect (name : String) (peer : Endpoint) (client : Tls.Client)
  /-- A client that does not speak TLS: it breaks the handshake off, or leaves it hanging. -/
  | connectRaw (name : String) (peer : Endpoint) (stall : Bool)
  /-- A client closes its connection after sending some octets. -/
  | finish (name : String) (sent : Nat)
  | abort (name : String)
  | probe (name : String)

inductive Result where
  | done
  | failed (error : ServerError)
  | started (address : Endpoint)
  | notRunning
  | unreachable
  | negotiated (verdict : Negotiation.Verdict) (transitions : List (Negotiation.Stage × Negotiation.Stage))
      (context : Option HandlerContext)
  | stalled
  | noClient
  | connectionOpen
  | connectionClosed
  | reported (record : Log.Record)

structure Answer where
  result : Result
  log : List Log.Record

namespace State

def new (pool : Pool) : State := { server := .new pool }

def link? (s : State) (name : String) : Option Link := s.links.lookup name

def isOpen (s : State) (l : Link) : Bool :=
  l.place.any fun (i, c, _) => (s.server.listeners[i]?).any fun listener => listener.connections.contains c

/-- The open connections of a listener by their clients' addresses, the oldest first. -/
def openPeers (s : State) (listener : Nat) : List Endpoint :=
  (s.links.reverse.filter fun (_, l) => l.place.any (·.1 = listener) && s.isOpen l).map (·.2.peer)

def disconnect (s : State) (l : Link) : State :=
  match l.place with
  | some (i, c, _) => { s with server := s.server.modify i (·.endConnection c) }
  | none => s

/-- The state after the tasks of a listener that was let go of have ended, if there was one. -/
def settle (s : State) (listener : Option Nat) : State :=
  match listener with
  | some i => { s with server := s.server.modify i .windUp }
  | none => s

end State

def stopLog (s : State) (listener : Nat) : List Log.Record :=
  let closing := (s.openPeers listener).map fun peer =>
    Log.debug .connection s!"Closing connection from {peer.render} for shutdown"
  let closed := match s.server.listeners[listener]? with
    | some l =>
      match l.stage, l.address with
      | .listening, some address => [Log.info .server s!"Listener on {address.render} closed"]
      | _, _ => []
    | none => []
  [Log.info .server "Shutting down mock push server"] ++ closed ++ closing ++
    [Log.info .server "All connections closed"]

def start (setup : Setup) (s : State) (binding : Except String Nat) (requested : Nat) : Answer × State :=
  match s.server.start with
  | .error e => (⟨.failed e, []⟩, s)
  | .ok server =>
    let i := s.server.listeners.length
    let result := binding.map fun port => Endpoint.mk setup.address port
    let s := { s with server := server.modify i fun l => (l.bound result).tell }
    match result with
    | .ok address =>
      (⟨.started address, [Log.info .server s!"Mock push server listening on {address.render}"]⟩, s)
    | .error cause =>
      let wanted := Endpoint.mk setup.address requested
      (⟨.failed (.bind cause), [Log.error .server s!"Failed to bind {wanted.render}: {cause}"]⟩, s)

/-- Shuts the server down and waits until nothing is open any more. -/
def shutdown (s : State) : Answer × State :=
  let poolLog := if s.server.pool = .owned true then [Log.info .server "Worker pool terminated"] else []
  let log := match s.server.current with
    | some i => stopLog s i ++ poolLog
    | none => poolLog
  let after := State.settle { s with server := s.server.shutdown .runs } s.server.current
  (⟨.done, log⟩, { after with server := after.server.resolve s.server.stops.length })

/-- Drops the server, and waits until its connections have noticed. -/
def drop (s : State) : Answer × State :=
  (⟨.done, []⟩, State.settle { s with server := s.server.drop } s.server.current)

def acceptedLog (peer : Endpoint) : Log.Record := Log.debug .server s!"Accepted connection from {peer.render}"

/-- Takes a connection, and tells how it stands when its negotiation has ended or hangs. -/
def accept (s : State) (i : Nat) (name : String) (peer : Endpoint) (progress : Option Progress) : State :=
  let c := s.server.nextConnection
  match progress, s.server.step (.task i (.accept c)) with
  | some p, some server => { s with server := server, links := (name, ⟨peer, some (i, c, p)⟩) :: s.links }
  | none, some server =>
    { s with server := server.modify i (·.endConnection c), links := (name, ⟨peer, none⟩) :: s.links }
  | _, none => s

/-- A client tries to connect; `attempt` says what becomes of the connection once it is taken. -/
def reach (setup : Setup) (s : State) (attempt : Nat → Answer × State) : Answer × State :=
  match s.server.isRunning, s.server.localAddress, s.server.current with
  | true, some _, some i => if setup.reachable then attempt i else (⟨.unreachable, []⟩, s)
  | _, _, _ => (⟨.notRunning, []⟩, s)

/-- How far a connection stays open after its negotiation. -/
def progressAfter (r : Negotiation.Result) : Option Progress :=
  match r.result with
  | .ok installed => if installed.handler.holds then some (.served installed.handler) else none
  | .error _ => none

/-- The negotiation of a client's connection as the server stands. -/
def negotiate [Tls.Provider] (setup : Setup) (s : State) (peer : Endpoint) (client : Tls.Client) :
    Negotiation.Result :=
  Negotiation.run (setup.tls.handshake? setup.now client) setup.factory s.requested s.server.gateway peer

def connect [Tls.Provider] (setup : Setup) (s : State) (name : String) (peer : Endpoint) (client : Tls.Client) :
    Answer × State :=
  reach setup s fun i =>
    let r := negotiate setup s peer client
    (⟨.negotiated r.verdict r.transitions (r.result.toOption.map (·.context)), acceptedLog peer :: r.log peer⟩,
      accept { s with requested := r.requests ++ s.requested } i name peer (progressAfter r))

def connectRaw (setup : Setup) (s : State) (name : String) (peer : Endpoint) (stall : Bool) : Answer × State :=
  reach setup s fun i =>
    let r := Negotiation.run none setup.factory s.requested s.server.gateway peer
    if stall then
      (⟨.stalled, acceptedLog peer :: r.transitions.map (Negotiation.Result.transitionLog peer)⟩,
        accept s i name peer (some .handshaking))
    else
      (⟨.negotiated r.verdict r.transitions none, acceptedLog peer :: r.log peer⟩, accept s i name peer none)

/-- What is reported when a client closes its connection cleanly, or vanishes. -/
def endLog (peer : Endpoint) (sent : Option Nat) : Progress → Log.Record
  | .handshaking =>
    Log.debug .connection s!"Dropped connection from {peer.render}: {Negotiation.Error.handshake.message}"
  | .served handler => handler.report peer sent

def leave (s : State) (name : String) (sent : Option Nat) : Answer × State :=
  match s.link? name with
  | none => (⟨.noClient, []⟩, s)
  | some l =>
    match l.place with
    | some (_, _, progress) =>
      if s.isOpen l then
        let record := endLog l.peer sent progress
        (⟨.reported record, [record]⟩, s.disconnect l)
      else (⟨.noClient, []⟩, s)
    | none => (⟨.noClient, []⟩, s)

def probe (s : State) (name : String) : Answer :=
  match s.link? name with
  | none => ⟨.noClient, []⟩
  | some l => if s.isOpen l then ⟨.connectionOpen, []⟩ else ⟨.connectionClosed, []⟩

def modifyGateway (s : State) (f : Gateway → Gateway) : State :=
  { s with server := { s.server with gateway := f s.server.gateway } }

/-- A server that was given up cannot be asked for anything any more. -/
def asked (s : State) (outcome : Answer × State) : Answer × State :=
  if s.server.dropped then (⟨.notRunning, []⟩, s) else outcome

def step [Tls.Provider] (setup : Setup) (s : State) : Step → Answer × State
  | .start binding requested => asked s (start setup s binding requested)
  | .shutdown => asked s (shutdown s)
  | .drop => asked s (drop s)
  | .status => (⟨.done, []⟩, s)
  | .registerDevice topic token expiration =>
    (⟨.done, [DeviceRegistry.registerLog topic]⟩, modifyGateway s (·.registerDevice topic token expiration))
  | .setEmulation enabled =>
    (⟨.done, [Gateway.setEmulationLog enabled]⟩, modifyGateway s (·.setEmulation enabled))
  | .connect name peer client => connect setup s name peer client
  | .connectRaw name peer stall => connectRaw setup s name peer stall
  | .finish name sent => leave s name (some sent)
  | .abort name => leave s name none
  | .probe name => (probe s name, s)

def run [Tls.Provider] (setup : Setup) (s : State) : List Step → List (Answer × State)
  | [] => []
  | x :: xs => step setup s x :: run setup (step setup s x).2 xs

end PushGateway.Lifecycle
