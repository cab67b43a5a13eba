import PushGateway.Proofs.Server.Coherence

namespace PushGateway.Server

variable {s s' : Server} {e : Event} {es : List Event} {i : Nat} {l : Listener}

def started? (s : Server) (i : Nat) : Option (Outcome Endpoint) :=
  (s.listeners[i]?).bind (·.completion.outcome?)

/-! ### Termination -/

theorem isOwned_of_step (step : s.step e = some s') : s'.pool.isOwned = s.pool.isOwned := by
  have terminate : ∀ p : Pool, p.terminate.isOwned = p.isOwned := by rintro (_ | _) <;> rfl
  cases moves_of_step step with
  | shutdown => exact terminate s.pool
  | drop => exact terminate s.pool
  | _ => rfl

theorem isTerminated_of_step (step : s.step e = some s') (held : s'.dropped = false) :
    s'.isTerminated = true ↔
      s.isTerminated = true ∨ s.pool.isOwned = true ∧ ∃ thread, e = .shutdown thread := by
  cases moves_of_step step with
  | shutdown _ thread =>
    have after : (s.shutdown thread).isTerminated = s.pool.terminate.isTerminated := rfl
    rw [after, isTerminated]
    cases s.pool <;> simp [Pool.isTerminated, Pool.terminate, Pool.isOwned]
  | drop => cases held
  | _ => simp [isTerminated, opened, modify, resolve]

theorem held_of_run (run : s.run es = some s') (held : s'.dropped = false) : s.dropped = false := by
  refine eq_false_of_ne_true fun before => ?_
  have after : s'.dropped = true := run_keeps (P := fun s => s.dropped = true) dropped_of_step run before
  exact absurd (held.symm.trans after) Bool.false_ne_true

/-- A server is terminated by the first shutdown, if it owns its pool. -/
theorem isTerminated_of_run (run : s.run es = some s') (held : s'.dropped = false) :
    s'.isTerminated = true ↔
      s.isTerminated = true ∨ s.pool.isOwned = true ∧ ∃ thread, .shutdown thread ∈ es := by
  induction es generalizing s with
  | nil =>
    cases run
    simp
  | cons e es ih =>
    obtain ⟨t, step, rest⟩ := Option.bind_eq_some_iff.mp run
    rw [ih rest, isTerminated_of_step step (held_of_run rest held), isOwned_of_step step]
    constructor
    · rintro ((terminated | ⟨owned, thread, rfl⟩) | ⟨owned, thread, member⟩)
      · exact .inl terminated
      · exact .inr ⟨owned, thread, List.mem_cons_self⟩
      · exact .inr ⟨owned, thread, List.mem_cons_of_mem _ member⟩
    · rintro (terminated | ⟨owned, thread, member⟩)
      · exact .inl (.inl terminated)
      · rcases List.mem_cons.mp member with rfl | member
        · exact .inl (.inr ⟨owned, thread, rfl⟩)
        · exact .inr ⟨owned, thread, member⟩

theorem drop_not_mem (run : s.run es = some s') (held : s'.dropped = false) : .drop ∉ es := by
  induction es generalizing s with
  | nil => exact List.not_mem_nil
  | cons e es ih =>
    obtain ⟨t, step, rest⟩ := Option.bind_eq_some_iff.mp run
    intro member
    rcases List.mem_cons.mp member with rfl | member
    · cases moves_of_step step
      exact absurd (held_of_run rest held) Bool.noConfusion
    · exact ih rest member

theorem quiet_of_run (run : s.run es = some s') (held : s'.dropped = false)
    (kept : ∀ thread, .shutdown thread ∉ es) : ∀ e ∈ es, e.stops = false := by
  intro e member
  cases e with
  | shutdown thread => exact absurd member (kept thread)
  | drop => exact absurd member (drop_not_mem run held)
  | _ => rfl

/-! ### The current listener -/

theorem isRunning_eq_true : s.isRunning = true ↔
    ∃ (i : Nat) (l : Listener), s.current = some i ∧ s.listeners[i]? = some l ∧ l.cancelled = false := by
  simp only [isRunning, currentListener, Option.any_eq_true, Option.bind_eq_some_iff, Bool.not_eq_true']
  constructor
  · rintro ⟨l, ⟨i, current, stands⟩, live⟩
    exact ⟨i, l, current, stands, live⟩
  · rintro ⟨i, l, current, stands, live⟩
    exact ⟨l, ⟨i, current, stands⟩, live⟩

theorem localAddress_eq_some {a : Endpoint} : s.localAddress = some a ↔
    ∃ (i : Nat) (l : Listener), s.current = some i ∧ s.listeners[i]? = some l ∧ l.address = some a := by
  simp only [localAddress, currentListener, Option.bind_eq_some_iff]
  constructor
  · rintro ⟨l, ⟨i, current, stands⟩, address⟩
    exact ⟨i, l, current, stands, address⟩
  · rintro ⟨i, l, current, stands, address⟩
    exact ⟨l, ⟨i, current, stands⟩, address⟩

theorem Coherent.current_of_isTerminated (h : s.Coherent) (ended : s.isTerminated = true) :
    s.current = none := by
  apply h.ended
  unfold isTerminated Pool.isTerminated at ended
  split at ended
  · cases ended
  · rename_i pool
    rw [pool, (Bool.not_eq_true' _).mp ended]

theorem Coherent.live_of_address (h : s.Coherent) (current : s.current = some i)
    (stands : s.listeners[i]? = some l) {a : Endpoint} (address : l.address = some a) :
    l.cancelled = false := by
  cases told : l.cancelled with
  | false => rfl
  | true =>
    have unbound := (h.failed i l stands current told).2.1
    rw [unbound] at address
    cases address

/-- A listener stays the current one until the owner lets go of it, unless it could not be bound. -/
theorem Coherent.current_of_step (h : s.Coherent) (step : s.step e = some s') (kept : e.stops = false)
    (stands : s.listeners[i]? = some l) (before : s.current = some i ∨ l.Failed) :
    ∃ l' : Listener, s'.listeners[i]? = some l' ∧ (s'.current = some i ∨ l'.Failed) := by
  obtain ⟨l', after, change⟩ := change_of_step step stands
  refine ⟨l', after, ?_⟩
  rcases before with current | failed
  · cases moves_of_step step with
    | starts _ idle =>
      have failed := h.failed i l stands current (cancelled_of_idle idle current stands)
      exact .inr (change.failed failed)
    | shutdown => cases kept
    | drop => cases kept
    | _ => exact .inl current
  · exact .inr (change.failed failed)

theorem Coherent.current_of_run (h : s.Coherent) (run : s.run es = some s')
    (kept : ∀ e ∈ es, e.stops = false) (stands : s.listeners[i]? = some l)
    (before : s.current = some i ∨ l.Failed) :
    ∃ l' : Listener, s'.listeners[i]? = some l' ∧ (s'.current = some i ∨ l'.Failed) := by
  induction es generalizing s l with
  | nil =>
    cases run
    exact ⟨l, stands, before⟩
  | cons e es ih =>
    obtain ⟨t, step, rest⟩ := Option.bind_eq_some_iff.mp run
    obtain ⟨m, after, now⟩ := h.current_of_step step (kept e List.mem_cons_self) stands before
    exact ih (h.step step) rest (fun e member => kept e (List.mem_cons_of_mem _ member)) after now

/-! ### Starts -/

theorem start_eq_alreadyRunning : s.start = .error .alreadyRunning ↔ s.isRunning = true := by
  unfold start
  split
  · simp [*]
  · split <;> simp [*]

theorem start_eq_terminated : s.start = .error .terminated ↔ s.isRunning = false ∧ s.isTerminated = true := by
  unfold start
  split
  · simp [*]
  · split <;> simp [*]

theorem step_start (held : s.dropped = false) (idle : s.isRunning = false) (alive : s.isTerminated = false) :
    s.step .start = some s.opened := by
  have started := start_eq_ok.mpr ⟨idle, alive, rfl⟩
  simp [Server.step, held, started, Except.toOption]

theorem modify_modify (s : Server) (i : Nat) (f g : Listener → Listener) :
    (s.modify i f).modify i g = s.modify i (g ∘ f) := by
  simp only [modify, List.modify_modify_eq]

theorem modify_congr {f g : Listener → Listener} (stands : s.listeners[i]? = some l) (same : f l = g l) :
    s.modify i f = s.modify i g := by
  have listeners : s.listeners.modify i f = s.listeners.modify i g := by
    refine List.ext_getElem? fun j => ?_
    rw [List.getElem?_modify, List.getElem?_modify]
    by_cases here : i = j
    · subst here
      simp [stands, same]
    · simp [here]
  simp only [modify, listeners]

theorem step_task {f : Listener → Listener} {event : Listener.Event} (stands : s.listeners[i]? = some l)
    (moved : l.step event = some (f l)) (allowed : s.allows event = true) (untaken : taken event = 0) :
    s.step (.task i event) = some (s.modify i f) := by
  have same : s.modify i (fun _ => f l) = s.modify i f := modify_congr stands rfl
  simp only [Server.step, stands, Option.bind_some, moved, allowed, if_true, untaken, Nat.add_zero, same]
  rfl

/-- The server after a start whose listener has tried to bind and has told its start what came of it. -/
def settledStart (s : Server) (result : Except String Endpoint) : Server :=
  s.opened.modify s.listeners.length fun l => (l.bound result).tell

theorem run_settledStart (held : s.dropped = false) (idle : s.isRunning = false)
    (alive : s.isTerminated = false) (result : Except String Endpoint) :
    s.run [.start, .task s.listeners.length (.bound result), .task s.listeners.length .tell] =
      some (s.settledStart result) := by
  have fresh : s.opened.listeners[s.listeners.length]? = some {} := List.getElem?_concat_length
  have binds : s.opened.step (.task s.listeners.length (.bound result)) =
      some (s.opened.modify s.listeners.length (·.bound result)) := step_task fresh rfl rfl rfl
  have tells : (s.opened.modify s.listeners.length (·.bound result)).step (.task s.listeners.length .tell) =
      some ((s.opened.modify s.listeners.length (·.bound result)).modify s.listeners.length .tell) := by
    refine step_task (l := Listener.bound {} result) ?_ ?_ rfl rfl
    · simp [fresh]
    · cases result <;> rfl
  simp only [run, step_start held idle alive, Option.bind_some, binds, tells, modify_modify]
  rfl

theorem run_start (held : s.dropped = false) (idle : s.isRunning = false) (alive : s.isTerminated = false)
    (a : Endpoint) : ∃ t : Server,
      s.run [.start, .task s.listeners.length (.bound (.ok a)), .task s.listeners.length .tell] = some t ∧
      t.isRunning = true ∧ t.localAddress = some a ∧ t.started? s.listeners.length = some (.ok a) := by
  refine ⟨_, run_settledStart held idle alive (.ok a), ?_, ?_, ?_⟩
  · simp [settledStart, isRunning, currentListener, opened, Listener.bound, Listener.tell]
  · simp [settledStart, localAddress, currentListener, opened, Listener.bound, Listener.tell]
  · simp [settledStart, started?, opened, Listener.bound, Listener.tell, Completion.Source.deliver]

/-! ### The whole run -/

/-- In a run of the server, the start that was accepted as the one numbered `i`, and the steps since. -/
def Accepted (s : Server) (es : List Event) (i : Nat) (since : List Event) : Prop :=
  ∃ (before : List Event) (t t' : Server),
    es = before ++ .start :: since ∧ s.run before = some t ∧ t.start = .ok t' ∧ i = t.listeners.length

theorem Accepted.run {since : List Event} (accepted : s.Accepted es i since) (run : s.run es = some s')
    (h : s.Coherent) :
    ∃ t : Server, t.Coherent ∧ t.run since = some s' ∧ t.current = some i ∧ t.listeners[i]? = some {} := by
  obtain ⟨before, t, t', rfl, ran, started, rfl⟩ := accepted
  obtain ⟨_, _, rfl⟩ := start_eq_ok.mp started
  rw [run_after ran] at run
  obtain ⟨u, step, rest⟩ := Option.bind_eq_some_iff.mp run
  have coherent := (h.run ran).step step
  cases moves_of_step step with
  | starts => exact ⟨_, coherent, rest, rfl, List.getElem?_concat_length⟩
  | fails _ _ refused => cases refused.symm.trans started

theorem started?_eq_some {outcome : Outcome Endpoint} : s.started? i = some outcome ↔
    ∃ l : Listener, s.listeners[i]? = some l ∧ l.completion.outcome? = some outcome :=
  Option.bind_eq_some_iff

/-- What a start has been told holds of the server until it is shut down. -/
theorem Coherent.running_of_started {since : List Event} (h : s.Coherent) (run : s.run es = some s')
    (held : s'.dropped = false) (accepted : s.Accepted es i since) (kept : ∀ thread, .shutdown thread ∉ since)
    {a : Endpoint} (started : s'.started? i = some (.ok a)) :
    s'.isRunning = true ∧ s'.localAddress = some a := by
  obtain ⟨t, coherent, rest, current, stands⟩ := accepted.run run h
  obtain ⟨l, after, told⟩ := started?_eq_some.mp started
  have address := ((coherent.run rest).listeners i l after).address_of_ok told
  obtain ⟨l', after', now⟩ :=
    coherent.current_of_run rest (quiet_of_run rest held kept) stands (.inl current)
  cases after.symm.trans after'
  -- it is still the current one, since a listener that could not be bound has no address
  rcases now with current | failed
  · have live := (coherent.run rest).live_of_address current after address
    exact ⟨isRunning_eq_true.mpr ⟨i, l, current, after, live⟩,
      localAddress_eq_some.mpr ⟨i, l, current, after, address⟩⟩
  · cases failed.2.1.symm.trans address

theorem Accepted.cons {since : List Event} (step : s.step e = some s') (accepted : s'.Accepted es i since) :
    s.Accepted (e :: es) i since := by
  obtain ⟨before, t, t', rfl, ran, started, rfl⟩ := accepted
  exact ⟨e :: before, t, t', rfl, by rw [Server.run, step, Option.bind_some, ran], started, rfl⟩

/-- The current listener is that of a start which was accepted, and not shut down since. -/
theorem accepted_of_current (run : s.run es = some s') (current : s'.current = some i) :
    (s.current = some i ∧ ∀ thread, .shutdown thread ∉ es) ∨
      ∃ since, s.Accepted es i since ∧ ∀ thread, .shutdown thread ∉ since := by
  induction es generalizing s with
  | nil =>
    cases run
    exact .inl ⟨current, fun _ => List.not_mem_nil⟩
  | cons e es ih =>
    obtain ⟨t, step, rest⟩ := Option.bind_eq_some_iff.mp run
    rcases ih rest with ⟨now, kept⟩ | ⟨since, accepted, kept⟩
    · cases moves_of_step step with
      | starts _ idle alive =>
        have started := start_eq_ok.mpr ⟨idle, alive, rfl⟩
        exact .inr ⟨es, ⟨[], s, _, rfl, rfl, started, (Option.some.inj now).symm⟩, kept⟩
      | shutdown => cases now
      | drop => cases now
      | _ => exact .inl ⟨now, by simpa using kept⟩
    · exact .inr ⟨since, accepted.cons step, kept⟩

/-- A later start than the one numbered `i` is in effect: it was accepted, the server was not shut down since,
and it has not been told that it could not be bound. -/
def Overtaken (pool : Pool) (es : List Event) (s : Server) (i : Nat) : Prop :=
  ∃ (j : Nat) (since : List Event), i < j ∧ (new pool).Accepted es j since ∧
    (∀ thread, .shutdown thread ∉ since) ∧ ∀ cause, s.started? j ≠ some (.error (.bind cause))

theorem idle_of_refused {pool : Pool} (run : (new pool).run es = some s) {cause : String}
    (refused : s.started? i = some (.error (.bind cause))) (last : ¬Overtaken pool es s i) :
    s.isRunning = false ∧ s.localAddress = none := by
  have h := coherent_run run
  have given : ∀ (j : Nat) (m : Listener), s.current = some j → s.listeners[j]? = some m →
      m.cancelled = true ∧ m.address = none := by
    intro j m current found
    have told : ∃ cause, s.started? j = some (.error (.bind cause)) := by
      obtain ⟨l, stands, _⟩ := started?_eq_some.mp refused
      have known := (List.getElem?_eq_some_iff.mp stands).1
      have latest := h.latest j current
      rcases Nat.lt_or_eq_of_le (show i ≤ j by omega) with later | rfl
      · rcases accepted_of_current run current with ⟨⟨⟩, _⟩ | ⟨since, accepted, kept⟩
        refine Classical.byContradiction fun untold => last ⟨j, since, later, accepted, kept, fun cause told => ?_⟩
        exact untold ⟨cause, told⟩
      · exact ⟨cause, refused⟩
    obtain ⟨cause, told⟩ := told
    obtain ⟨l, stands, told⟩ := started?_eq_some.mp told
    cases found.symm.trans stands
    exact (h.listeners j m stands).refused_of_bind told
  constructor
  · refine eq_false_of_ne_true fun running => ?_
    obtain ⟨j, m, current, found, live⟩ := isRunning_eq_true.mp running
    exact absurd (live.symm.trans (given j m current found).1) Bool.false_ne_true
  · refine Option.eq_none_iff_forall_ne_some.mpr fun a address => ?_
    obtain ⟨j, m, current, found, bound⟩ := localAddress_eq_some.mp address
    cases (given j m current found).2.symm.trans bound

/-- What a server that its owner still holds tells about itself, after the steps `es` since it was made. -/
structure Agrees (pool : Pool) (es : List Event) (s : Server) : Prop where
  address : s.localAddress.isSome = true → s.isRunning = true
  exclusive : ¬(s.isRunning = true ∧ s.isTerminated = true)
  terminated : s.isTerminated = true ↔ pool.isOwned = true ∧ ∃ thread, .shutdown thread ∈ es
  alreadyRunning : s.start = .error .alreadyRunning ↔ s.isRunning = true
  ended : s.start = .error .terminated ↔ s.isRunning = false ∧ s.isTerminated = true
  /-- A start that is not refused gets a listener of its own, and that listener's completion to wait on. -/
  opens : s.isRunning = false → s.isTerminated = false → s.start = .ok s.opened
  started : ∀ (i : Nat) (since : List Event) (a : Endpoint), (new pool).Accepted es i since →
    (∀ thread, .shutdown thread ∉ since) → s.started? i = some (.ok a) →
    s.isRunning = true ∧ s.localAddress = some a
  refused : ∀ (i : Nat) (cause : String), s.started? i = some (.error (.bind cause)) → ¬Overtaken pool es s i →
    s.isRunning = false ∧ s.localAddress = none ∧
      (s.isTerminated = false → ∀ a : Endpoint, ∃ t : Server,
        s.run [.start, .task s.listeners.length (.bound (.ok a)), .task s.listeners.length .tell] = some t ∧
        t.isRunning = true ∧ t.localAddress = some a ∧ t.started? s.listeners.length = some (.ok a))

/-- After any calls and any steps of its tasks, in any order, everything that a server tells agrees. -/
theorem agrees_run (pool : Pool) (alive : pool.isTerminated = false) (es : List Event) (s : Server)
    (run : (new pool).run es = some s) (held : s.dropped = false) : Agrees pool es s := by
  have h := coherent_run run
  constructor
  · intro known
    obtain ⟨a, address⟩ := Option.isSome_iff_exists.mp known
    obtain ⟨i, l, current, stands, bound⟩ := localAddress_eq_some.mp address
    exact isRunning_eq_true.mpr ⟨i, l, current, stands, h.live_of_address current stands bound⟩
  · rintro ⟨running, ended⟩
    obtain ⟨i, l, current, _, _⟩ := isRunning_eq_true.mp running
    cases current.symm.trans (h.current_of_isTerminated ended)
  · rw [isTerminated_of_run run held]
    simp [isTerminated, new, alive]
  · exact start_eq_alreadyRunning
  · exact start_eq_terminated
  · intro idle alive
    exact start_eq_ok.mpr ⟨idle, alive, rfl⟩
  · intro i since a accepted kept told
    exact (coherent_new pool).running_of_started run held accepted kept told
  · intro i cause told last
    obtain ⟨idle, unbound⟩ := idle_of_refused run told last
    exact ⟨idle, unbound, run_start held idle⟩

/-- A start on an address that is taken, one on an address that is free, and a client that connects. -/
theorem agrees_after_retry :
    let es := [.start, .task 0 (.bound (.error "in use")), .task 0 .tell, .start,
      .task 1 (.bound (.ok ⟨"::1", 80⟩)), .task 1 .tell, .task 1 (.accept 0)]
    ∃ s : Server, (new (.owned true)).run es = some s ∧ s.dropped = false ∧
      s.started? 0 = some (.error (.bind "in use")) ∧ s.started? 1 = some (.ok ⟨"::1", 80⟩) ∧
      Agrees (.owned true) es s :=
  ⟨_, rfl, rfl, rfl, rfl, agrees_run (.owned true) rfl _ _ rfl rfl⟩

/-- A start that was told that binding failed does not leave the server idle: the next one succeeds before the
first is told, or after it. -/
theorem running_of_refused :
    let early := [.start, .task 0 (.bound (.error "in use")), .start, .task 1 (.bound (.ok ⟨"::1", 80⟩)),
      .task 1 .tell, .task 0 .tell]
    let late := [.start, .task 0 (.bound (.error "in use")), .task 0 .tell, .start,
      .task 1 (.bound (.ok ⟨"::1", 80⟩)), .task 1 .tell]
    ∀ es ∈ [early, late], ∃ s : Server, (new .shared).run es = some s ∧ s.dropped = false ∧
      s.started? 0 = some (.error (.bind "in use")) ∧ s.isRunning = true ∧ s.localAddress = some ⟨"::1", 80⟩ := by
  intro early late es member
  rcases List.mem_pair.mp member with rfl | rfl <;> exact ⟨_, rfl, rfl, rfl, rfl, rfl⟩

end PushGateway.Server
