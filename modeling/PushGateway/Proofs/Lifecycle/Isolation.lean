import PushGateway.Proofs.Lifecycle.View
import PushGateway.Proofs.Server.Removal
import PushGateway.Tls.P256
/-!
Clients do not disturb one another, unless the factory of handlers remembers them: without the steps of one
client a run is answered and observed at all its other steps as it was with them, and so is a run of the
server's tasks in any order without one of its connections.
-/

namespace PushGateway

/-- What the factory answers does not depend on what it was asked for before. -/
def HandlerFactory.Steady (factory : HandlerFactory) : Prop :=
  ∀ (earlier earlier' : List HandlerContext) (context : HandlerContext),
    factory (context :: earlier) = factory (context :: earlier')

theorem Negotiation.run_steady {factory : HandlerFactory} (steady : factory.Steady)
    (session : Option Tls.Session) (earlier earlier' : List HandlerContext) (gateway : Gateway)
    (peer : Endpoint) : run session factory earlier gateway peer = run session factory earlier' gateway peer := by
  simp only [run, steady earlier earlier']

namespace Lifecycle

variable {setup : Setup} {v w : View} {name : String} {x : Step}

def Step.client? : Step → Option String
  | .connect name _ _ => some name
  | .connectRaw name _ _ => some name
  | .finish name _ => some name
  | .abort name => some name
  | .probe name => some name
  | _ => none

def others (name : String) (clients : List Client) : List Client := clients.filter fun c => c.1 ≠ name

theorem others_cons (name : String) (c : Client) (clients : List Client) :
    others name (c :: clients) = if c.1 = name then others name clients else c :: others name clients := by
  simp only [others, List.filter_cons, decide_not, Bool.not_eq_true', decide_eq_false_iff_not]
  split <;> simp [*]

theorem lookup_others {asked : String} (other : asked ≠ name) (clients : List Client) :
    (others name clients).lookup asked = clients.lookup asked := by
  induction clients with
  | nil => rfl
  | cons c clients ih =>
    obtain ⟨n, rest⟩ := c
    rw [others_cons]
    by_cases hidden : n = name
    · subst hidden
      simp [ih, List.lookup_cons, beq_eq_false_iff_ne.mpr other]
    · simp [hidden, List.lookup_cons, ih]

theorem closeLatest_others {asked : String} (other : asked ≠ name) (clients : List Client) :
    View.closeLatest asked (others name clients) = others name (View.closeLatest asked clients) := by
  induction clients with
  | nil => rfl
  | cons c clients ih =>
    obtain ⟨n, peer, progress⟩ := c
    rw [others_cons]
    by_cases hidden : n = name
    · subst hidden
      simp [ih, View.closeLatest, others_cons, other.symm]
    · by_cases same : n = asked
      · simp [same, View.closeLatest, others_cons, other]
      · simp [hidden, same, View.closeLatest, others_cons, ih]

theorem others_closeLatest (clients : List Client) :
    others name (View.closeLatest name clients) = others name clients := by
  induction clients with
  | nil => rfl
  | cons c clients ih =>
    obtain ⟨n, peer, progress⟩ := c
    by_cases same : n = name
    · simp [View.closeLatest, same, others_cons]
    · simp [View.closeLatest, same, others_cons, ih]

namespace View

/-- What can be seen is the same but for a client, whatever the factory was asked for. -/
structure Omits (name : String) (v w : View) : Prop where
  pool : w.pool = v.pool
  gateway : w.gateway = v.gateway
  dropped : w.dropped = v.dropped
  address : w.address = v.address
  clients : w.clients = others name v.clients

def Alike (name : String) (o o' : Result × View) : Prop := o'.1 = o.1 ∧ Omits name o.2 o'.2

namespace Omits

theorem asked (h : Omits name v w) {o o' : Result × View} (same : Alike name o o') :
    Alike name (v.asked o) (w.asked o') := by
  unfold View.asked
  rw [h.dropped]
  split
  · exact ⟨rfl, h⟩
  · exact same

theorem start (h : Omits name v w) (binding : Except String Nat) :
    Alike name (v.start setup binding) (w.start setup binding) := by
  unfold View.start
  rw [h.address, h.pool]
  split
  · exact ⟨rfl, h⟩
  · split
    · exact ⟨rfl, h⟩
    · cases binding with
      | ok port => exact ⟨rfl, rfl, h.gateway, h.dropped, rfl, h.clients⟩
      | error cause => exact ⟨rfl, h⟩

theorem close (h : Omits name v w) : Omits name v.close w.close where
  pool := congrArg Pool.terminate h.pool
  gateway := h.gateway
  dropped := h.dropped
  address := rfl
  clients := by simp [View.close, h.clients, others, List.filter_map, Function.comp_def]

theorem reach (h : Omits name v w) {client : String} (other : client ≠ name) (peer : Endpoint)
    (requests requests' : List HandlerContext) (attempt : Result × Option Progress) :
    Alike name (v.reach setup client peer requests attempt) (w.reach setup client peer requests' attempt) := by
  unfold View.reach
  rw [h.address]
  split
  · split
    · exact ⟨rfl, h.pool, h.gateway, h.dropped, rfl, by simp [h.clients, others_cons, other]⟩
    · exact ⟨rfl, h⟩
  · exact ⟨rfl, h⟩

theorem leave (h : Omits name v w) {client : String} (other : client ≠ name) (sent : Option Nat) :
    Alike name (v.leave client sent) (w.leave client sent) := by
  unfold View.leave
  rw [h.clients, lookup_others other]
  split
  · exact ⟨rfl, { h with clients := closeLatest_others other v.clients }⟩
  · exact ⟨rfl, h⟩

theorem probe (h : Omits name v w) {client : String} (other : client ≠ name) : w.probe client = v.probe client := by
  unfold View.probe
  rw [h.clients, lookup_others other]

/-- A step of the owner, or of another client, is answered without regard to a client. -/
theorem step [Tls.Provider] (h : Omits name v w) (steady : setup.factory.Steady)
    (other : x.client? ≠ some name) : Alike name (v.step setup x) (w.step setup x) := by
  have distinct : ∀ client, x.client? = some client → client ≠ name := by
    rintro client same rfl
    exact other same
  cases x with
  | start binding requested => exact h.asked (h.start binding)
  | shutdown => exact h.asked ⟨rfl, h.close⟩
  | drop => exact h.asked ⟨rfl, { h.close with dropped := rfl }⟩
  | connect client peer tls =>
    have same := Negotiation.run_steady steady (setup.tls.handshake? setup.now tls) w.requested v.requested
      v.gateway peer
    simp only [View.step, h.gateway, same]
    exact h.reach (distinct client rfl) peer _ _ _
  | connectRaw client peer stall =>
    have same := Negotiation.run_steady steady none w.requested v.requested v.gateway peer
    simp only [View.step, h.gateway, same]
    exact h.reach (distinct client rfl) peer _ _ _
  | finish client sent => exact h.leave (distinct client rfl) (some sent)
  | abort client => exact h.leave (distinct client rfl) none
  | probe client => exact ⟨h.probe (distinct client rfl), h⟩
  | status => exact ⟨rfl, h⟩
  | registerDevice topic token expiration =>
    exact ⟨rfl, { h with gateway := congrArg (·.registerDevice topic token expiration) h.gateway }⟩
  | setEmulation enabled => exact ⟨rfl, { h with gateway := congrArg (·.setEmulation enabled) h.gateway }⟩

theorem reach_self (h : Omits name v w) (peer : Endpoint) (requests : List HandlerContext)
    (attempt : Result × Option Progress) : Omits name (v.reach setup name peer requests attempt).2 w := by
  unfold View.reach
  split
  · split
    · exact { h with clients := by simp [h.clients, others_cons] }
    · exact h
  · exact h

theorem leave_self (h : Omits name v w) (sent : Option Nat) : Omits name (v.leave name sent).2 w := by
  unfold View.leave
  split
  · exact { h with clients := h.clients.trans (others_closeLatest v.clients).symm }
  · exact h

/-- A client's step changes nothing but what can be seen of that client. -/
theorem step_self [Tls.Provider] (h : Omits name v w) (own : x.client? = some name) :
    Omits name (v.step setup x).2 w := by
  cases x with
  | connect client peer tls =>
    cases own
    exact h.reach_self peer _ _
  | connectRaw client peer stall =>
    cases own
    exact h.reach_self peer _ _
  | finish client sent =>
    cases own
    exact h.leave_self (some sent)
  | abort client =>
    cases own
    exact h.leave_self none
  | probe client => exact h
  | _ => cases own

end Omits
end View

def Observation.hide (name : String) (o : Observation) : Observation :=
  { o with connections := o.connections.filter fun c => c.1 ≠ name }

namespace View

theorem Omits.openConnections (h : Omits name v w) :
    w.openConnections = v.openConnections.filter fun c => c.1 ≠ name := by
  unfold View.openConnections
  rw [h.clients]
  induction v.clients with
  | nil => rfl
  | cons c clients ih =>
    obtain ⟨n, peer, progress⟩ := c
    cases progress <;> by_cases hidden : n = name <;> simp [others_cons, hidden, ih]

theorem Alike.observation {o o' : Result × View} (h : Alike name o o') :
    View.observation o' = (View.observation o).hide name := by
  obtain ⟨answer, seen⟩ := h
  simp only [View.observation, Observation.hide, answer, seen.address, seen.pool, seen.openConnections]

theorem Omits.run [Tls.Provider] (h : Omits name v w) (steady : setup.factory.Steady) (xs : List Step) :
    (w.run setup (xs.filter fun x => x.client? ≠ some name)).map View.observation =
      ((xs.zip ((v.run setup xs).map View.observation)).filter fun p => p.1.client? ≠ some name).map
        fun p => p.2.hide name := by
  induction xs generalizing v w with
  | nil => rfl
  | cons x xs ih =>
    by_cases own : x.client? = some name
    · simpa [View.run, own] using ih (h.step_self own)
    · have now := h.step steady own
      simpa [View.run, own, now.observation] using ih now.2

end View

end Lifecycle

/-! ### The owner and the tasks, in any order -/

namespace Server

/-- Two servers show the same, but for a connection that only the first one took. -/
structure Spares (c : Nat) (s s' : Server) : Prop where
  running : s'.isRunning = s.isRunning
  terminated : s'.isTerminated = s.isTerminated
  address : s'.localAddress = s.localAddress
  gateway : s'.gateway = s.gateway
  refused : ∀ error, s'.start = .error error ↔ s.start = .error error
  started : ∀ i, s'.started? i = s.started? i
  stopped : ∀ k, s'.stopped? k = s.stopped? k
  /-- Later connections have moved up by one. -/
  connections : ∀ i d, d ≠ c → s'.hasOpen i (renumber c d) = s.hasOpen i d

theorem spares_without (c : Nat) (s : Server) : Spares c s (s.without c) where
  running := isRunning_without c s
  terminated := rfl
  address := localAddress_without c s
  gateway := rfl
  refused error := by
    rw [start_without]
    cases s.start <;> simp [Except.map]
  started := started?_without c s
  stopped := stopped?_without c s
  connections i _ other := hasOpen_without other s i

end Server

namespace Lifecycle

/-- Whatever a client's connections come to, if the factory does not remember them: without all steps of
that client, all other steps are answered as they were, and after each of them the server runs, is
terminated and listens as it did, and the other clients' connections stand as they did. And if the owner and
the tasks take their steps in any order: without the steps of one connection, all others can be taken, the
server tells the same, and every other connection stands as it did and is negotiated to the same result. -/
theorem observe_run_others [Tls.Provider] (setup : Setup) (steady : setup.factory.Steady) (pool : Pool) :
    (∀ (xs : List Step) (name : String),
      (run setup (.new pool) (xs.filter fun x => x.client? ≠ some name)).map observe =
        ((xs.zip (run setup (.new pool) xs)).filter fun p => p.1.client? ≠ some name).map
          fun p => (observe p.2).hide name) ∧
    ∀ (es : List Server.Event) (s : Server) (c : Nat), (Server.new pool).run es = some s →
      ∃ s', (Server.new pool).run (es.filterMap (Server.Event.without? c)) = some s' ∧ s.Spares c s' ∧
        ∀ session earlier earlier' peer, Negotiation.run session setup.factory earlier' s'.gateway peer =
          Negotiation.run session setup.factory earlier s.gateway peer := by
  constructor
  · intro xs name
    have rests := rests_new pool
    have fresh : View.Omits name (State.new pool).view (State.new pool).view := ⟨rfl, rfl, rfl, rfl, rfl⟩
    have same := fresh.run steady xs
    rw [← observe_run rests, ← observe_run rests, List.zip_map_right, List.filter_map, List.map_map] at same
    exact same
  · intro es s c run
    have shorter := (Server.coherent_new pool).run_without c run
    have unchanged : (Server.new pool).without c = Server.new pool := by
      simp [Server.without, Server.new, renumber]
    rw [unchanged] at shorter
    exact ⟨_, shorter, Server.spares_without c s, fun session earlier earlier' peer =>
      Negotiation.run_steady steady session earlier' earlier s.gateway peer⟩

def Result.verdict? : Result → Option Negotiation.Verdict
  | .negotiated verdict _ _ => some verdict
  | _ => none

/-- A factory that refuses some clients and remembers nothing. -/
theorem observe_run_others_refused :
    let factory : HandlerFactory := fun asked =>
      if asked.head?.any (·.peer.port = 1) then .error ⟨"refused"⟩ else .ok .idle
    let setup : Setup := ⟨⟨none, [Tls.pushProtocol]⟩, factory, "::1", 0, true⟩
    let refused : Step := .connect "refused" ⟨"::1", 1⟩ ⟨[Tls.pushProtocol], []⟩
    let served : Step := .connect "served" ⟨"::1", 2⟩ ⟨[Tls.pushProtocol], []⟩
    let xs : List Step := [.start (.ok 80) 80, refused, served, .shutdown]
    let es : List Server.Event := [.start, .task 0 (.bound (.ok ⟨"::1", 80⟩)), .task 0 .tell, .task 0 (.accept 0),
      .task 0 (.accept 1), .task 0 (.endConnection 0)]
    (run setup (.new .shared) xs).map (·.1.result.verdict?) = [none, some .dropped, some .served, none] ∧
    (run setup (.new .shared) (xs.filter fun x => x.client? ≠ some "refused")).map observe =
      ((xs.zip (run setup (.new .shared) xs)).filter fun p => p.1.client? ≠ some "refused").map
        (fun p => (observe p.2).hide "refused") ∧
    ∃ s s' : Server, (Server.new .shared).run es = some s ∧
      (Server.new .shared).run (es.filterMap (Server.Event.without? 0)) = some s' ∧ s.Spares 0 s' := by
  intro factory setup refused served xs es
  obtain ⟨atRest, inAnyOrder⟩ := observe_run_others setup (fun _ _ _ => rfl) .shared
  have run : ∃ s, (Server.new .shared).run es = some s := ⟨_, rfl⟩
  obtain ⟨s, run⟩ := run
  obtain ⟨s', shorter, spares, _⟩ := inAnyOrder es s 0 run
  exact ⟨rfl, atRest xs "refused", s, s', run, shorter, spares⟩

/-- A factory that refuses the first handler it is asked for: without the client that was refused, the next
one is. -/
theorem observe_run_remembered :
    let factory : HandlerFactory := fun asked => if asked.length = 1 then .error ⟨"first"⟩ else .ok .idle
    let setup : Setup := ⟨⟨none, [Tls.pushProtocol]⟩, factory, "::1", 0, true⟩
    let first : Step := .connect "first" ⟨"::1", 1⟩ ⟨[Tls.pushProtocol], []⟩
    let second : Step := .connect "second" ⟨"::1", 2⟩ ⟨[Tls.pushProtocol], []⟩
    let xs : List Step := [.start (.ok 80) 80, first, second]
    (run setup (.new .shared) xs).map (·.1.result.verdict?) = [none, some .dropped, some .served] ∧
    (run setup (.new .shared) (xs.filter fun x => x.client? ≠ some "first")).map observe ≠
      ((xs.zip (run setup (.new .shared) xs)).filter fun p => p.1.client? ≠ some "first").map
        fun p => (observe p.2).hide "first" := by
  intro factory setup first second xs
  refine ⟨rfl, fun same => ?_⟩
  have verdicts := congrArg (List.map (·.result.verdict?)) same
  have now : [none, some Negotiation.Verdict.dropped] = [none, some .served] := verdicts
  simp at now

end Lifecycle
end PushGateway
