import PushGateway.Proofs.Server.Rest
import PushGateway.Server.Lifecycle
/-!
A server between two steps of its life: it is at rest, and the connections of clients are numbered apart.
-/

namespace PushGateway.Lifecycle

variable {setup : Setup} {s : State}

def Link.number? (l : Link) : Option Nat := l.place.map (·.2.1)

def State.numbers (s : State) : List Nat := s.links.filterMap (·.2.number?)

structure State.Rests (s : State) : Prop where
  coherent : s.server.Coherent
  resting : s.server.Resting
  numbered : ∀ c ∈ s.numbers, c < s.server.nextConnection
  distinct : s.numbers.Nodup

theorem rests_new (pool : Pool) : (State.new pool).Rests where
  coherent := Server.coherent_new pool
  resting _ _ stands := nomatch stands
  numbered _ member := nomatch member
  distinct := .nil

def State.opened (s : State) (i : Nat) (name : String) (peer : Endpoint) (progress : Progress) : State :=
  { s with
    server := s.server.received i
    links := (name, ⟨peer, some (i, s.server.nextConnection, progress)⟩) :: s.links }

def State.failed (s : State) (i : Nat) (name : String) (peer : Endpoint) : State :=
  { s with
    server := (s.server.received i).modify i (·.endConnection s.server.nextConnection)
    links := (name, ⟨peer, none⟩) :: s.links }

inductive Moves (s : State) : State → Prop where
  | stays : Moves s s
  | starts (held : s.server.dropped = false) (idle : s.server.isRunning = false)
      (alive : s.server.isTerminated = false) (result : Except String Endpoint) :
      Moves s { s with server := s.server.settledStart result }
  | shutdown (held : s.server.dropped = false) : Moves s { s with server := s.server.stopped }
  | drop (held : s.server.dropped = false) : Moves s { s with server := s.server.gone }
  | configure (gateway : Gateway) : Moves s { s with server := { s.server with gateway := gateway } }
  | opens (requested : List HandlerContext) (name : String) (peer : Endpoint) (progress : Progress) (i : Nat)
      (l : Listener) (stands : s.server.listeners[i]? = some l) (stage : l.stage = .listening) :
      Moves s (State.opened { s with requested := requested } i name peer progress)
  | fails (requested : List HandlerContext) (name : String) (peer : Endpoint) (i : Nat) (l : Listener)
      (stands : s.server.listeners[i]? = some l) (stage : l.stage = .listening) :
      Moves s (State.failed { s with requested := requested } i name peer)
  | closes (i c : Nat) (l : Listener) (stands : s.server.listeners[i]? = some l)
      (isOpen : c ∈ l.connections) : Moves s { s with server := s.server.modify i (·.endConnection c) }

theorem start_of_ok (idle : s.server.isRunning = false) (alive : s.server.isTerminated = false)
    (binding : Except String Nat) (requested : Nat) :
    (start setup s binding requested).2 =
      { s with server := s.server.settledStart (binding.map fun port => ⟨setup.address, port⟩) } := by
  have started := Server.start_eq_ok.mpr ⟨idle, alive, rfl⟩
  simp only [start, started]
  cases binding <;> rfl

theorem start_of_error {error : ServerError} (refused : s.server.start = .error error)
    (binding : Except String Nat) (requested : Nat) :
    start setup s binding requested = (⟨.failed error, []⟩, s) := by
  simp only [start, refused]

theorem shutdown_state (s : State) : (shutdown s).2 = { s with server := s.server.stopped } := by
  unfold shutdown State.settle Server.stopped Server.windUp
  cases s.server.current <;> rfl

theorem drop_state (s : State) : (drop s).2 = { s with server := s.server.gone } := by
  unfold drop State.settle Server.gone Server.windUp
  cases s.server.current <;> rfl

theorem accept_of_listening {i : Nat} {l : Listener} (stands : s.server.listeners[i]? = some l)
    (stage : l.stage = .listening) (name : String) (peer : Endpoint) (progress : Option Progress) :
    accept s i name peer progress =
      match progress with
      | some p => s.opened i name peer p
      | none => s.failed i name peer := by
  have took := Server.step_accept stands stage
  cases progress <;> simp only [accept, took, State.opened, State.failed]

theorem moves_accept {i : Nat} {l : Listener} (stands : s.server.listeners[i]? = some l)
    (stage : l.stage = .listening) (requested : List HandlerContext) (name : String) (peer : Endpoint)
    (progress : Option Progress) : Moves s (accept { s with requested := requested } i name peer progress) := by
  rw [accept_of_listening (s := { s with requested := requested }) stands stage]
  cases progress with
  | none => exact .fails requested name peer i l stands stage
  | some p => exact .opens requested name peer p i l stands stage

theorem moves_reach (h : s.Rests) {attempt : Nat → Answer × State}
    (tries : ∀ (i : Nat) (l : Listener), s.server.listeners[i]? = some l → l.stage = .listening →
      Moves s (attempt i).2) : Moves s (reach setup s attempt).2 := by
  unfold reach
  split
  · rename_i i running _ current
    obtain ⟨j, l, same, stands, stage⟩ := h.resting.serves_of_running running
    cases current.symm.trans same
    split
    · exact tries i l stands stage
    · exact .stays
  · exact .stays

theorem moves_asked {outcome : Answer × State}
    (moves : s.server.dropped = false → Moves s outcome.2) : Moves s (asked s outcome).2 := by
  unfold asked
  split
  · exact .stays
  · rename_i held
    exact moves (eq_false_of_ne_true held)

theorem moves_leave (s : State) (name : String) (sent : Option Nat) : Moves s (leave s name sent).2 := by
  unfold leave
  split
  · exact .stays
  · rename_i l _
    split
    · rename_i i c progress place
      split
      · rename_i isOpen
        simp only [State.isOpen, place, Option.any_some, Option.any_eq_true] at isOpen
        obtain ⟨m, stands, among⟩ := isOpen
        simp only [State.disconnect, place]
        exact .closes i c m stands (List.contains_iff_mem.mp among)
      · exact .stays
    · exact .stays

theorem moves_of_step [Tls.Provider] (h : s.Rests) (setup : Setup) (x : Step) : Moves s (step setup s x).2 := by
  cases x with
  | start binding requested =>
    refine moves_asked fun held => ?_
    cases started : s.server.start with
    | error error =>
      rw [start_of_error started]
      exact .stays
    | ok server =>
      obtain ⟨idle, alive, _⟩ := Server.start_eq_ok.mp started
      rw [start_of_ok idle alive]
      exact .starts held idle alive _
  | shutdown =>
    refine moves_asked fun held => ?_
    rw [shutdown_state]
    exact .shutdown held
  | drop =>
    refine moves_asked fun held => ?_
    rw [drop_state]
    exact .drop held
  | registerDevice topic token expiration => exact .configure _
  | setEmulation enabled => exact .configure _
  | connect name peer client =>
    exact moves_reach h fun i l stands stage => moves_accept stands stage _ name peer _
  | connectRaw name peer stall =>
    refine moves_reach h fun i l stands stage => ?_
    cases stall with
    | true => exact moves_accept stands stage s.requested name peer (some .handshaking)
    | false => exact moves_accept stands stage s.requested name peer none
  | finish name sent => exact moves_leave s name (some sent)
  | abort name => exact moves_leave s name none
  | status => exact .stays
  | probe name => exact .stays

/-- Each step of a server's life is a run of what its owner and its tasks do. -/
theorem Moves.refines {s' : State} (moves : Moves s s') (h : s.Rests) :
    ∃ es, s.server.run es = some s'.server := by
  cases moves with
  | stays => exact ⟨[], rfl⟩
  | starts held idle alive result => exact ⟨_, Server.run_settledStart held idle alive result⟩
  | shutdown held => exact h.coherent.run_shutdown h.resting held
  | drop held => exact h.coherent.run_drop h.resting held
  | configure gateway => exact ⟨[.configure gateway], rfl⟩
  | opens requested name peer progress i l stands stage =>
    refine ⟨[.task i (.accept s.server.nextConnection)], ?_⟩
    simp [Server.run, Server.step_accept stands stage, State.opened]
  | fails requested name peer i l stands stage =>
    have after : (s.server.received i).listeners[i]? = some (l.take s.server.nextConnection) := by
      simp [Server.received, stands]
    have ends := Server.step_endConnection after (c := s.server.nextConnection) List.mem_cons_self
    exact ⟨[.task i (.accept s.server.nextConnection), .task i (.endConnection s.server.nextConnection)],
      by simp [Server.run, Server.step_accept stands stage, ends, State.failed]⟩
  | closes i c l stands isOpen =>
    exact ⟨[.task i (.endConnection c)], by simp [Server.run, Server.step_endConnection stands isOpen]⟩

theorem Moves.resting {s' : State} (moves : Moves s s') (h : s.Rests) : s'.server.Resting := by
  cases moves with
  | stays => exact h.resting
  | starts held idle alive result => exact h.resting.settledStart result
  | shutdown => exact (h.resting.stopped h.coherent).1
  | drop => exact (h.resting.gone h.coherent).1
  | configure => exact h.resting
  | opens requested name peer progress i l stands stage => exact h.resting.received stands stage
  | fails requested name peer i l stands stage =>
    have received := h.resting.received stands stage
    exact received.modify fun m found => (received i m found).endConnection _
  | closes i c l stands isOpen => exact h.resting.modify fun m found => (h.resting i m found).endConnection c

theorem Moves.numbered {s' : State} (moves : Moves s s') (h : s.Rests) :
    ∀ c ∈ s'.numbers, c < s'.server.nextConnection := by
  intro c member
  have before := h.numbered c
  cases moves with
  | stays => exact before member
  | starts => exact before member
  | shutdown =>
    exact Nat.lt_of_lt_of_eq (before member) (Server.nextConnection_windUp (s.server.shutdown .runs) _).symm
  | drop => exact Nat.lt_of_lt_of_eq (before member) (Server.nextConnection_windUp s.server.drop _).symm
  | configure => exact before member
  | opens =>
    rcases List.mem_cons.mp member with rfl | member
    · exact Nat.lt_succ_self _
    · exact Nat.lt_succ_of_lt (before member)
  | fails => exact Nat.lt_succ_of_lt (before member)
  | closes => exact before member

theorem Moves.distinct {s' : State} (moves : Moves s s') (h : s.Rests) : s'.numbers.Nodup := by
  cases moves with
  | opens =>
    exact h.distinct.cons fun member => Nat.lt_irrefl _ (h.numbered _ member)
  | _ => exact h.distinct

theorem State.Rests.step [Tls.Provider] (h : s.Rests) (setup : Setup) (x : Step) : (step setup s x).2.Rests := by
  have moves := moves_of_step h setup x
  obtain ⟨es, run⟩ := moves.refines h
  exact ⟨h.coherent.run run, moves.resting h, moves.numbered h, moves.distinct h⟩

theorem State.Rests.run [Tls.Provider] (h : s.Rests) (setup : Setup) (xs : List Step) :
    ∀ answer ∈ run setup s xs, answer.2.Rests ∧ ∃ es, s.server.run es = some answer.2.server := by
  induction xs generalizing s with
  | nil => exact fun _ member => absurd member List.not_mem_nil
  | cons x xs ih =>
    intro answer member
    obtain ⟨es, step⟩ := (moves_of_step h setup x).refines h
    rcases List.mem_cons.mp member with rfl | member
    · exact ⟨h.step setup x, es, step⟩
    · obtain ⟨rests, fs, rest⟩ := ih (h.step setup x) answer member
      exact ⟨rests, es ++ fs, (Server.run_after step fs).trans rest⟩

end PushGateway.Lifecycle
