import PushGateway.Proofs.Lifecycle.Rest
/-!
What can be seen of a server's life from outside: its pool, where it listens, the state that connections share, and
how far each client's connection has come.
-/

namespace PushGateway.Lifecycle

variable {setup : Setup} {s : State}

def State.progress? (s : State) (l : Link) : Option Progress :=
  l.place.bind fun (i, c, p) => if s.server.hasOpen i c then some p else none

abbrev Client := String × Endpoint × Option Progress

def State.client (s : State) (entry : String × Link) : Client :=
  (entry.1, entry.2.peer, s.progress? entry.2)

structure View where
  pool : Pool
  gateway : Gateway
  dropped : Bool
  /-- Where the server listens, while it runs. -/
  address : Option Endpoint
  /-- The latest first. -/
  clients : List Client
  /-- What the factory was asked to build handlers from, the latest first. -/
  requested : List HandlerContext

def State.view (s : State) : View :=
  ⟨s.server.pool, s.server.gateway, s.server.dropped, s.server.localAddress, s.links.map s.client, s.requested⟩

namespace View

variable {v : View}

def asked (v : View) (outcome : Result × View) : Result × View :=
  if v.dropped then (.notRunning, v) else outcome

def start (setup : Setup) (v : View) (binding : Except String Nat) : Result × View :=
  if v.address.isSome then (.failed .alreadyRunning, v)
  else if v.pool.isTerminated then (.failed .terminated, v)
  else
    match binding with
    | .ok port => (.started ⟨setup.address, port⟩, { v with address := some ⟨setup.address, port⟩ })
    | .error cause => (.failed (.bind cause), v)

def close (v : View) : View :=
  { v with
    pool := v.pool.terminate
    address := none
    clients := v.clients.map fun (name, peer, _) => (name, peer, none) }

/-- A client tries to connect: what it is answered, and how far its connection stays open then, when the
factory was asked for these handlers. -/
def reach (setup : Setup) (v : View) (name : String) (peer : Endpoint) (requests : List HandlerContext)
    (attempt : Result × Option Progress) : Result × View :=
  if v.address.isSome then
    if setup.reachable then
      (attempt.1, { v with clients := (name, peer, attempt.2) :: v.clients, requested := requests ++ v.requested })
    else (.unreachable, v)
  else (.notRunning, v)

def closeLatest (name : String) : List Client → List Client
  | [] => []
  | (n, peer, progress) :: rest =>
    if n = name then (n, peer, none) :: rest else (n, peer, progress) :: closeLatest name rest

def leave (v : View) (name : String) (sent : Option Nat) : Result × View :=
  match v.clients.lookup name with
  | some (peer, some progress) =>
    (.reported (endLog peer sent progress), { v with clients := closeLatest name v.clients })
  | _ => (.noClient, v)

def probe (v : View) (name : String) : Result :=
  match v.clients.lookup name with
  | some (_, some _) => .connectionOpen
  | some (_, none) => .connectionClosed
  | none => .noClient

def step [Tls.Provider] (setup : Setup) (v : View) : Step → Result × View
  | .start binding _ => v.asked (v.start setup binding)
  | .shutdown => v.asked (.done, v.close)
  | .drop => v.asked (.done, { v.close with dropped := true })
  | .status => (.done, v)
  | .registerDevice topic token expiration =>
    (.done, { v with gateway := v.gateway.registerDevice topic token expiration })
  | .setEmulation enabled => (.done, { v with gateway := v.gateway.setEmulation enabled })
  | .connect name peer client =>
    let r := Negotiation.run (setup.tls.handshake? setup.now client) setup.factory v.requested v.gateway peer
    v.reach setup name peer r.requests
      (.negotiated r.verdict r.transitions (r.result.toOption.map (·.context)), progressAfter r)
  | .connectRaw name peer stall =>
    let r := Negotiation.run none setup.factory v.requested v.gateway peer
    v.reach setup name peer []
      (if stall then (.stalled, some .handshaking) else (.negotiated r.verdict r.transitions none, none))
  | .finish name sent => v.leave name (some sent)
  | .abort name => v.leave name none
  | .probe name => (v.probe name, v)

end View

/-! ### The clients after each move -/

theorem isOpen_eq (s : State) (l : Link) : s.isOpen l = (s.progress? l).isSome := by
  unfold State.isOpen State.progress?
  cases l.place with
  | none => rfl
  | some place =>
    obtain ⟨i, c, p⟩ := place
    change s.server.hasOpen i c = (if s.server.hasOpen i c then some p else none).isSome
    cases s.server.hasOpen i c <;> rfl

theorem map_client_congr (s s' : State) {links : List (String × Link)}
    (same : ∀ entry ∈ links, ∀ (i c : Nat) (p : Progress), entry.2.place = some (i, c, p) →
      s'.server.hasOpen i c = s.server.hasOpen i c) : links.map s'.client = links.map s.client := by
  refine List.map_congr_left fun entry member => ?_
  have kept : s'.progress? entry.2 = s.progress? entry.2 := by
    unfold State.progress?
    cases place : entry.2.place with
    | none => rfl
    | some found =>
      obtain ⟨i, c, p⟩ := found
      simp only [Option.bind_some, same entry member i c p place]
  simp only [State.client, kept]

theorem mem_numbers {entry : String × Link} (member : entry ∈ s.links) {i c : Nat} {p : Progress}
    (place : entry.2.place = some (i, c, p)) : c ∈ s.numbers :=
  List.mem_filterMap.mpr ⟨entry, member, by simp [Link.number?, place]⟩

theorem view_settledStart (s : State) (result : Except String Endpoint) :
    State.view { s with server := s.server.settledStart result } =
      { s.view with address := result.toOption } := by
  have clients : s.links.map (State.client { s with server := s.server.settledStart result }) =
      s.links.map s.client :=
    map_client_congr s _ fun _ _ i c _ _ => Server.hasOpen_settledStart s.server result i c
  have address := Server.localAddress_settledStart s.server result
  simp only [State.view, clients, address]
  rfl

theorem view_released (s : State) {t : Server} (gone : t.current = none)
    (idle : ∀ (j : Nat) (l : Listener), t.listeners[j]? = some l → l.connections = [])
    (pool : t.pool = s.server.pool.terminate) (gateway : t.gateway = s.server.gateway) :
    State.view { s with server := t } = { s.view.close with dropped := t.dropped } := by
  have clients : s.links.map (State.client { s with server := t }) =
      (s.links.map s.client).map fun (name, peer, _) => (name, peer, none) := by
    rw [List.map_map]
    refine List.map_congr_left fun entry _ => ?_
    have closed : State.progress? { s with server := t } entry.2 = none := by
      unfold State.progress?
      cases entry.2.place with
      | none => rfl
      | some found => simp [Server.hasOpen_of_idle idle]
    simp [State.client, closed]
  have address : t.localAddress = none := by simp [Server.localAddress, Server.currentListener, gone]
  simp only [State.view, clients, address, pool, gateway, View.close]

theorem view_stopped (h : s.Rests) : State.view { s with server := s.server.stopped } = s.view.close := by
  have current : s.server.stopped.current = none := Server.current_windUp (s.server.shutdown .runs) _
  have pool : s.server.stopped.pool = s.server.pool.terminate := Server.pool_windUp (s.server.shutdown .runs) _
  have gateway : s.server.stopped.gateway = s.server.gateway :=
    Server.gateway_windUp (s.server.shutdown .runs) _
  have held : s.server.stopped.dropped = s.server.dropped :=
    Server.dropped_windUp (s.server.shutdown .runs) _
  rw [view_released s current (h.resting.stopped h.coherent).2 pool gateway, held]
  rfl

theorem view_gone (h : s.Rests) :
    State.view { s with server := s.server.gone } = { s.view.close with dropped := true } := by
  have current : s.server.gone.current = none := Server.current_windUp s.server.drop _
  have pool : s.server.gone.pool = s.server.pool.terminate := Server.pool_windUp s.server.drop _
  have gateway : s.server.gone.gateway = s.server.gateway := Server.gateway_windUp s.server.drop _
  have dropped : s.server.gone.dropped = true := Server.dropped_windUp s.server.drop _
  rw [view_released s current (h.resting.gone h.coherent).2 pool gateway, dropped]

section Connections

variable {i : Nat} {l : Listener}

theorem hasOpen_received_old (h : s.Rests) (stands : s.server.listeners[i]? = some l) {entry : String × Link}
    (member : entry ∈ s.links) {j c : Nat} {p : Progress} (place : entry.2.place = some (j, c, p)) :
    (s.server.received i).hasOpen j c = s.server.hasOpen j c := by
  have older := h.numbered c (mem_numbers member place)
  have other : c ≠ s.server.nextConnection := Nat.ne_of_lt older
  simp [Server.hasOpen_received stands, other]

theorem view_opens (h : s.Rests) (stands : s.server.listeners[i]? = some l) (name : String) (peer : Endpoint)
    (progress : Progress) :
    (s.opened i name peer progress).view =
      { s.view with clients := (name, peer, some progress) :: s.view.clients } := by
  have clients := map_client_congr s (s.opened i name peer progress) fun _ member _ _ _ place =>
    hasOpen_received_old h stands member place
  have latest : (s.opened i name peer progress).client
      (name, ⟨peer, some (i, s.server.nextConnection, progress)⟩) = (name, peer, some progress) := by
    simp [State.client, State.progress?, State.opened, Server.hasOpen_received stands]
  have address : (s.opened i name peer progress).server.localAddress = s.server.localAddress :=
    Server.localAddress_received s.server i
  have links : (s.opened i name peer progress).links =
      (name, ⟨peer, some (i, s.server.nextConnection, progress)⟩) :: s.links := rfl
  rw [State.view, links, List.map_cons, clients, latest, address]
  rfl

theorem view_fails (h : s.Rests) (stands : s.server.listeners[i]? = some l) (name : String)
    (peer : Endpoint) :
    (s.failed i name peer).view = { s.view with clients := (name, peer, none) :: s.view.clients } := by
  have clients := map_client_congr s (s.failed i name peer) fun entry member j c p place => by
    have other : c ≠ s.server.nextConnection := Nat.ne_of_lt (h.numbered c (mem_numbers member place))
    simp [State.failed, Server.hasOpen_endConnection, hasOpen_received_old h stands member place, other]
  have ends := Server.localAddress_modify (s.server.received i) i
    (f := (·.endConnection s.server.nextConnection)) fun _ => rfl
  have address : (s.failed i name peer).server.localAddress = s.server.localAddress :=
    ends.trans (Server.localAddress_received s.server i)
  have links : (s.failed i name peer).links = (name, ⟨peer, none⟩) :: s.links := rfl
  rw [State.view, links, List.map_cons, clients, address]
  rfl

theorem map_client_closes (s s' : State) {c : Nat}
    (kept : ∀ m : Link, m.number? ≠ some c → s'.progress? m = s.progress? m)
    {name : String} {l : Link} (number : l.number? = some c) (closed : s'.progress? l = none)
    {links : List (String × Link)} (found : links.lookup name = some l)
    (distinct : (links.filterMap (·.2.number?)).Nodup) :
    links.map s'.client = View.closeLatest name (links.map s.client) := by
  induction links with
  | nil => cases found
  | cons entry links ih =>
    obtain ⟨n, m⟩ := entry
    by_cases same : n = name
    · -- the client in question; all others have connections of other numbers
      subst same
      simp only [List.lookup_cons_self, Option.some.injEq] at found
      subst found
      simp only [List.filterMap_cons, number, List.nodup_cons] at distinct
      have rest : links.map s'.client = links.map s.client := by
        refine List.map_congr_left fun other member => ?_
        have apart : other.2.number? ≠ some c := fun same =>
          distinct.1 (List.mem_filterMap.mpr ⟨other, member, same⟩)
        simp only [State.client, kept other.2 apart]
      simp [View.closeLatest, State.client, closed, rest]
    · have later : links.lookup name = some l := by
        have differs : (name == n) = false := beq_eq_false_iff_ne.mpr (Ne.symm same)
        simpa [List.lookup_cons, differs] using found
      have among : c ∈ links.filterMap (·.2.number?) := by
        obtain ⟨before, after, split, _⟩ := List.lookup_eq_some_iff.mp later
        rw [split]
        exact List.mem_filterMap.mpr ⟨(name, l), by simp, number⟩
      have apart : m.number? ≠ some c := by
        intro here
        simp only [List.filterMap_cons, here, List.nodup_cons] at distinct
        exact distinct.1 among
      have fewer : (links.filterMap (·.2.number?)).Nodup :=
        distinct.sublist ((List.sublist_cons_self (n, m) links).filterMap _)
      simp [View.closeLatest, State.client, same, kept m apart, ih later fewer]

theorem view_closes (h : s.Rests) {name : String} {link : Link} (found : s.link? name = some link) {c : Nat}
    {p : Progress} (place : link.place = some (i, c, p)) :
    State.view { s with server := s.server.modify i (·.endConnection c) } =
      { s.view with clients := View.closeLatest name s.view.clients } := by
  let s' : State := { s with server := s.server.modify i (·.endConnection c) }
  have kept : ∀ m : Link, m.number? ≠ some c → s'.progress? m = s.progress? m := by
    intro m apart
    unfold State.progress?
    cases other : m.place with
    | none => rfl
    | some found =>
      obtain ⟨j, d, q⟩ := found
      have differs : d ≠ c := fun same => apart (by simp [Link.number?, other, same])
      simp [s', Server.hasOpen_endConnection, differs]
  have number : link.number? = some c := by simp [Link.number?, place]
  have closed : s'.progress? link = none := by simp [s', State.progress?, place, Server.hasOpen_endConnection]
  have clients : s.links.map s'.client = View.closeLatest name (s.links.map s.client) :=
    map_client_closes s s' kept number closed found h.distinct
  have address : s'.server.localAddress = s.server.localAddress :=
    Server.localAddress_modify s.server i fun _ => rfl
  change s'.view = _
  simp only [State.view, address]
  rw [show s'.links = s.links from rfl, clients]
  rfl

end Connections

theorem lookup_clients (s : State) (name : String) (links : List (String × Link)) :
    (links.map s.client).lookup name = (links.lookup name).map fun l => (l.peer, s.progress? l) := by
  induction links with
  | nil => rfl
  | cons entry links ih =>
    obtain ⟨n, m⟩ := entry
    by_cases same : name = n
    · simp [State.client, same]
    · simp [State.client, List.lookup_cons, beq_eq_false_iff_ne.mpr same, ih]

/-! ### Steps -/

def seen (answer : Answer × State) : Result × View := (answer.1.result, answer.2.view)

theorem seen_asked (s : State) (outcome : Answer × State) :
    seen (asked s outcome) = s.view.asked (seen outcome) := by
  have dropped : s.view.dropped = s.server.dropped := rfl
  unfold asked View.asked
  rw [dropped]
  split <;> rfl

theorem seen_start (h : s.Rests) (binding : Except String Nat) (requested : Nat) :
    seen (start setup s binding requested) = s.view.start setup binding := by
  have listens : s.view.address.isSome = s.server.isRunning := (h.resting.isRunning_eq h.coherent).symm
  have ended : s.view.pool.isTerminated = s.server.isTerminated := rfl
  unfold View.start
  rw [listens, ended]
  cases running : s.server.isRunning with
  | true => rw [start_of_error (Server.start_eq_alreadyRunning.mpr running), if_pos rfl, seen]
  | false =>
    cases terminated : s.server.isTerminated with
    | true =>
      rw [start_of_error (Server.start_eq_terminated.mpr ⟨running, terminated⟩), if_neg Bool.false_ne_true,
        if_pos rfl, seen]
    | false =>
      have started := Server.start_eq_ok.mpr ⟨running, terminated, rfl⟩
      have state : (start setup s binding requested).2 = _ := start_of_ok running terminated binding requested
      rw [seen, state, view_settledStart]
      simp only [start, started]
      cases binding with
      | ok port => rfl
      | error cause =>
        have unbound : s.view.address = none := Option.not_isSome_iff_eq_none.mp (by simp [listens, running])
        simp [Except.map, Except.toOption, ← unbound]

theorem State.Rests.ask (h : s.Rests) (requested : List HandlerContext) :
    State.Rests { s with requested := requested } :=
  ⟨h.coherent, h.resting, h.numbered, h.distinct⟩

theorem view_accept (h : s.Rests) {i : Nat} {l : Listener} (stands : s.server.listeners[i]? = some l)
    (stage : l.stage = .listening) (name : String) (peer : Endpoint) (progress : Option Progress) :
    (accept s i name peer progress).view =
      { s.view with clients := (name, peer, progress) :: s.view.clients } := by
  rw [accept_of_listening stands stage]
  cases progress with
  | none => exact view_fails h stands name peer
  | some p => exact view_opens h stands name peer p

theorem seen_reach (h : s.Rests) {attempt : Nat → Answer × State} {name : String} {peer : Endpoint}
    {requests : List HandlerContext} {result : Result} {progress : Option Progress}
    (tries : ∀ i, attempt i = (⟨result, (attempt i).1.log⟩,
      accept { s with requested := requests ++ s.requested } i name peer progress)) :
    seen (reach setup s attempt) = s.view.reach setup name peer requests (result, progress) := by
  have listens : s.view.address.isSome = s.server.isRunning := (h.resting.isRunning_eq h.coherent).symm
  unfold reach View.reach
  rw [listens]
  cases running : s.server.isRunning with
  | true =>
    obtain ⟨a, address⟩ := Option.isSome_iff_exists.mp (listens.trans running)
    have address : s.server.localAddress = some a := address
    obtain ⟨i, l, current, stands, stage⟩ := h.resting.serves_of_running running
    simp only [address, current, if_true]
    split
    · have accepted := view_accept (h.ask (requests ++ s.requested)) stands stage name peer progress
      rw [tries i, seen, accepted]
      rfl
    · rfl
  | false => simp [seen]

theorem seen_leave (h : s.Rests) (name : String) (sent : Option Nat) :
    seen (leave s name sent) = s.view.leave name sent := by
  have found := lookup_clients s name s.links
  unfold leave View.leave
  rw [show s.view.clients.lookup name = _ from found]
  cases latest : s.link? name with
  | none =>
    rw [show s.links.lookup name = none from latest]
    rfl
  | some l =>
    rw [show s.links.lookup name = some l from latest]
    simp only [Option.map_some, isOpen_eq]
    cases place : l.place with
    | none => simp [State.progress?, place, seen]
    | some where_ =>
      obtain ⟨i, c, p⟩ := where_
      cases opened : s.server.hasOpen i c with
      | true =>
        have gone := view_closes (i := i) h latest place
        simp [State.progress?, place, opened, seen, State.disconnect, gone]
      | false => simp [State.progress?, place, opened, seen]

theorem seen_probe (s : State) (name : String) : (probe s name).result = s.view.probe name := by
  have found := lookup_clients s name s.links
  unfold probe View.probe
  rw [show s.view.clients.lookup name = _ from found]
  cases latest : s.link? name with
  | none =>
    rw [show s.links.lookup name = none from latest]
    rfl
  | some l =>
    rw [show s.links.lookup name = some l from latest]
    simp only [Option.map_some, isOpen_eq]
    cases s.progress? l <;> rfl

/-- What is answered to a step, and what can be seen after it, follow from what could be seen before. -/
theorem seen_step [Tls.Provider] (h : s.Rests) (setup : Setup) (x : Step) :
    seen (step setup s x) = s.view.step setup x := by
  cases x with
  | start binding requested =>
    rw [step, seen_asked, seen_start h]
    rfl
  | shutdown =>
    rw [step, seen_asked, seen, shutdown_state, view_stopped h]
    rfl
  | drop =>
    rw [step, seen_asked, seen, drop_state, view_gone h]
    rfl
  | connect name peer client => exact seen_reach h fun i => rfl
  | connectRaw name peer stall =>
    cases stall with
    | true => exact seen_reach h fun i => rfl
    | false => exact seen_reach h fun i => rfl
  | finish name sent => exact seen_leave h name (some sent)
  | abort name => exact seen_leave h name none
  | probe name =>
    have result := seen_probe s name
    simp only [step, View.step, seen, result]
  | status => rfl
  | registerDevice topic token expiration => rfl
  | setEmulation enabled => rfl

/-! ### Observations -/

/-- What can be asked after a step: its answer, how the server stands, and the open connections with their
clients and how far they have come. -/
structure Observation where
  result : Result
  running : Bool
  terminated : Bool
  address : Option Endpoint
  connections : List (String × Endpoint × Progress)

def State.openConnections (s : State) : List (String × Endpoint × Progress) :=
  (s.links.filter fun entry => s.isOpen entry.2).filterMap fun (name, l) =>
    l.place.map fun (_, _, progress) => (name, l.peer, progress)

def observe (answer : Answer × State) : Observation :=
  ⟨answer.1.result, answer.2.server.isRunning, answer.2.server.isTerminated, answer.2.server.localAddress,
    answer.2.openConnections⟩

namespace View

def openConnections (v : View) : List (String × Endpoint × Progress) :=
  v.clients.filterMap fun (name, peer, progress) => progress.map fun p => (name, peer, p)

def observation (outcome : Result × View) : Observation :=
  ⟨outcome.1, outcome.2.address.isSome, outcome.2.pool.isTerminated, outcome.2.address,
    outcome.2.openConnections⟩

def run [Tls.Provider] (setup : Setup) (v : View) : List Step → List (Result × View)
  | [] => []
  | x :: xs => v.step setup x :: run setup (v.step setup x).2 xs

end View

theorem openConnections_eq (s : State) : s.openConnections = s.view.openConnections := by
  unfold State.openConnections View.openConnections State.view
  induction s.links with
  | nil => rfl
  | cons entry links ih =>
    obtain ⟨name, l⟩ := entry
    cases place : l.place with
    | none => simpa [List.filter_cons, isOpen_eq, State.client, State.progress?, place] using ih
    | some found =>
      obtain ⟨i, c, p⟩ := found
      cases opened : s.server.hasOpen i c with
      | true =>
        simpa [List.filter_cons, isOpen_eq, State.client, State.progress?, place, opened] using ih
      | false =>
        simpa [List.filter_cons, isOpen_eq, State.client, State.progress?, place, opened] using ih

theorem observe_eq {answer : Answer × State} (h : answer.2.Rests) :
    observe answer = View.observation (seen answer) := by
  have running := h.resting.isRunning_eq h.coherent
  simp only [observe, View.observation, seen, running, openConnections_eq]
  rfl

theorem seen_run [Tls.Provider] (h : s.Rests) (setup : Setup) (xs : List Step) :
    (run setup s xs).map seen = s.view.run setup xs := by
  induction xs generalizing s with
  | nil => rfl
  | cons x xs ih =>
    have now := seen_step h setup x
    have next : (step setup s x).2.view = (s.view.step setup x).2 := congrArg Prod.snd now
    rw [run, List.map_cons, View.run, now, ih (h.step setup x), next]

theorem observe_run [Tls.Provider] (h : s.Rests) (setup : Setup) (xs : List Step) :
    (run setup s xs).map observe = (s.view.run setup xs).map View.observation := by
  rw [← seen_run h, List.map_map]
  exact List.map_congr_left fun answer member => observe_eq (h.run setup xs answer member).1

end PushGateway.Lifecycle
