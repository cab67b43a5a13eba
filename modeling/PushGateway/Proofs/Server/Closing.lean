import PushGateway.Proofs.Server.Status

namespace PushGateway

namespace Listener

variable {l l' : Listener}

def Over (l : Listener) : Prop := l.Finished ∨ l.Failed

theorem Over.connections (h : l.Over) : l.connections = [] := by
  rcases h with finished | failed
  · exact finished.2
  · exact failed.2.2.1

theorem Over.accept_eq_none (h : l.Over) (c : Nat) : l.step (.accept c) = none := by
  rcases h with finished | failed
  · exact finished.step_eq_none (.accept c)
  · exact failed.accept_eq_none c

/-- Its tasks have noticed that it was told to stop: none of them has a step to take on that account. -/
def Settled (l : Listener) : Prop :=
  (∀ result, l.step (.bound result) = none) ∧ l.step .tell = none ∧ l.step .close = none ∧
    ∀ c, l.step (.cutConnection c) = none

theorem Settled.finished (h : l.Settled) (told : l.cancelled = true) : l.Finished := by
  obtain ⟨bound, tell, close, cut⟩ := h
  constructor
  · cases stage : l.stage with
    | binding => simpa [Listener.step, stage] using bound (.error "")
    | bound a => simp [Listener.step, stage] at tell
    | refused cause => simp [Listener.step, stage] at tell
    | listening => simp [Listener.step, stage, told] at close
    | closed => rfl
  · refine List.eq_nil_iff_forall_not_mem.mpr fun c isOpen => ?_
    simpa [Listener.step, told, isOpen] using cut c

end Listener

namespace Server

variable {s s' t : Server} {e : Event} {es more : List Event} {i k : Nat} {l : Listener}

def stopped? (s : Server) (k : Nat) : Option (Outcome Unit) := (s.stops[k]?).bind (·.completion.outcome?)

/-! ### What stays as it is -/

theorem Change.over {l' : Listener} (h : Change s i l e l') (done : l.Over) : l'.Over :=
  done.imp h.finished h.failed

/-- What every change of a listener keeps, every run keeps. -/
theorem listener_of_run {P : Listener → Prop}
    (keeps : ∀ {s : Server} {i : Nat} {l l' : Listener} {e : Event}, Change s i l e l' → P l → P l')
    (run : s.run es = some s') (stands : s.listeners[i]? = some l) (holds : P l) :
    ∃ l' : Listener, s'.listeners[i]? = some l' ∧ P l' := by
  induction es generalizing s l with
  | nil =>
    cases run
    exact ⟨l, stands, holds⟩
  | cons e es ih =>
    obtain ⟨t, step, rest⟩ := Option.bind_eq_some_iff.mp run
    obtain ⟨m, after, change⟩ := change_of_step step stands
    exact ih rest after (keeps change holds)

theorem stop_of_run (run : s.run es = some s') {w : Stop} (stands : s.stops[k]? = some w) :
    ∃ w' : Stop, s'.stops[k]? = some w' ∧ w'.listener = w.listener := by
  induction es generalizing s w with
  | nil =>
    cases run
    exact ⟨w, stands, rfl⟩
  | cons e es ih =>
    obtain ⟨t, step, rest⟩ := Option.bind_eq_some_iff.mp run
    obtain ⟨v, after, same, _⟩ := stop_of_step step stands
    obtain ⟨w', now, kept⟩ := ih rest after
    exact ⟨w', now, kept.trans same⟩

theorem length_of_run (run : s.run es = some s') : s.listeners.length ≤ s'.listeners.length := by
  refine run_keeps (P := fun u => s.listeners.length ≤ u.listeners.length) ?_ run (Nat.le_refl _)
  intro u u' e step least
  rcases listeners_of_step step with same | ⟨_, _, _, rfl⟩
  · omega
  · simp only [opened, List.length_append, List.length_singleton]
    omega

theorem pool_of_step (step : s.step e = some s') :
    s'.pool = if e.stops then s.pool.terminate else s.pool := by
  cases moves_of_step step <;> rfl

theorem terminate_terminate : ∀ p : Pool, p.terminate.terminate = p.terminate
  | .shared => rfl
  | .owned _ => rfl

theorem pool_of_run {pool : Pool} (run : s.run es = some s') (ended : s.pool = pool.terminate) :
    s'.pool = pool.terminate := by
  refine run_keeps (P := fun u => u.pool = pool.terminate) ?_ run ended
  intro u u' e step ended
  rw [pool_of_step step, ended, terminate_terminate, ite_self]

theorem pool_of_run_new {pool : Pool} (run : (new pool).run es = some s) :
    s.pool = pool.terminate ∨ s.pool = pool ∧ s.dropped = false := by
  refine run_keeps (P := fun u => u.pool = pool.terminate ∨ u.pool = pool ∧ u.dropped = false) ?_ run
    (.inr ⟨rfl, rfl⟩)
  intro u u' e step before
  have ended : u.pool.terminate = pool.terminate := by
    rcases before with ended | ⟨same, _⟩
    · rw [ended, terminate_terminate]
    · rw [same]
  cases moves_of_step step with
  | shutdown => exact .inl ended
  | drop => exact .inl ended
  | _ => exact before

theorem run_shutdown {thread : Thread} (run : t.run (.shutdown thread :: es) = some s) :
    t.dropped = false ∧ (t.shutdown thread).run es = some s := by
  obtain ⟨u, step, rest⟩ := Option.bind_eq_some_iff.mp run
  cases moves_of_step step with
  | shutdown held => exact ⟨held, rest⟩

/-! ### The end -/

/-- What the start numbered `i` set going has been brought to its end in the run `es`, which led to `s`:
the first shutdown after it has ended well, or the server was dropped and the tasks have noticed. When the
owner let go of it, the server was `t`. -/
inductive Ended (pool : Pool) (i : Nat) (t : Server) : List Event → Server → Prop where
  | shutdown (opening since after : List Event) (thread : Thread) (s : Server)
      (accepted : (new pool).Accepted opening i since) (first : ∀ thread, .shutdown thread ∉ since)
      (before : (new pool).run opening = some t) (resolved : s.stopped? t.stops.length = some (.ok ())) :
      Ended pool i t (opening ++ .shutdown thread :: after) s
  | drop (es since : List Event) (accepted : (new pool).Accepted es i since) (dropped : t.dropped = true)
      (noticed : ∀ l : Listener, t.listeners[i]? = some l → l.Settled) : Ended pool i t es t

theorem Coherent.finished_of_stopped (h : t.Coherent) {thread : Thread}
    (run : t.run (.shutdown thread :: es) = some s) (current : t.current = some i)
    (resolved : s.stopped? t.stops.length = some (.ok ())) :
    ∃ l : Listener, s.listeners[i]? = some l ∧ l.Finished := by
  obtain ⟨_, rest⟩ := run_shutdown run
  obtain ⟨v, found, told⟩ := Option.bind_eq_some_iff.mp resolved
  have made : (t.shutdown thread).stops[t.stops.length]? = some ⟨t.current, t.stopCompletion thread⟩ :=
    List.getElem?_concat_length
  obtain ⟨w, stands, named⟩ := stop_of_run rest made
  cases found.symm.trans stands
  obtain ⟨l, after, _, finished⟩ := (h.run run).stops t.stops.length v i stands (named.trans current)
  exact ⟨l, after, finished told⟩

theorem Ended.over {pool : Pool} (ended : Ended pool i t es s) (run : (new pool).run es = some s) :
    ∃ l : Listener, s.listeners[i]? = some l ∧ l.Over := by
  cases ended with
  | shutdown opening since after thread _ accepted first before resolved =>
    rw [run_after before] at run
    obtain ⟨held, rest⟩ := run_shutdown run
    obtain ⟨o, coherent, opened, current, stands⟩ := accepted.run before (coherent_new pool)
    obtain ⟨l, found, now⟩ :=
      coherent.current_of_run opened (quiet_of_run opened held first) stands (.inl current)
    -- the shutdown finds the listener current, or it could not be bound and has long been over
    rcases now with current | failed
    · obtain ⟨m, after, finished⟩ := (coherent_run before).finished_of_stopped run current resolved
      exact ⟨m, after, .inl finished⟩
    · obtain ⟨m, after, failed⟩ := listener_of_run Change.failed run found failed
      exact ⟨m, after, .inr failed⟩
  | drop _ since accepted dropped noticed =>
    have h := coherent_run run
    obtain ⟨o, coherent, rest, _, stands⟩ := accepted.run run (coherent_new pool)
    obtain ⟨l, found, _⟩ := listener_of_run (P := fun _ => True) (fun _ _ => trivial) rest stands trivial
    have told := h.retired i l found (by simp [h.gone dropped])
    exact ⟨l, found, .inl ((noticed l found).finished told)⟩

theorem Ended.pool {pool : Pool} (ended : Ended pool i t es s) (run : (new pool).run es = some s) :
    s.pool = pool.terminate := by
  cases ended with
  | shutdown opening since after thread _ accepted first before resolved =>
    rw [run_after before] at run
    obtain ⟨_, rest⟩ := run_shutdown run
    refine pool_of_run rest ?_
    have ended : t.pool.terminate = pool.terminate := by
      rcases pool_of_run_new before with ended | ⟨same, _⟩
      · rw [ended, terminate_terminate]
      · rw [same]
    exact ended
  | drop _ _ _ dropped _ =>
    rcases pool_of_run_new run with ended | ⟨_, held⟩
    · exact ended
    · exact absurd (held.symm.trans dropped) Bool.false_ne_true

theorem accept_eq_none (stands : s.listeners[i]? = some l) (refused : ∀ c, l.step (.accept c) = none)
    (c : Nat) : s.step (.task i (.accept c)) = none := by
  simp only [Server.step, stands, Option.bind_some, refused c]

theorem Coherent.started_of_accept (h : s.Coherent) {c : Nat}
    (taken : s.step (.task i (.accept c)) = some s') :
    ∃ (l : Listener) (a : Endpoint), s.listeners[i]? = some l ∧ s.started? i = some (.ok a) := by
  cases moves_of_step taken with
  | task _ _ l l' stands moved _ =>
    cases Listener.moves_of_step moved with
    | accept stage c =>
      obtain ⟨a, _, started⟩ := (h.listeners i l stands).started_of_listening stage
      exact ⟨l, a, stands, started?_eq_some.mpr ⟨l, stands, by rw [started]; rfl⟩⟩

/-- Whoever still takes a connection after a shutdown that has ended well was started after it, or has a
shutdown of its own to wait for. -/
theorem Coherent.accept_after_end (h : t.Coherent) (held : t.dropped = false) {thread : Thread}
    (run : t.run (.shutdown thread :: es) = some s) (resolved : s.stopped? t.stops.length = some (.ok ()))
    (later : s.run more = some s') {j c : Nat} {u : Server} (taken : s'.step (.task j (.accept c)) = some u) :
    (t.listeners.length ≤ j ∧ ∃ a, s'.started? j = some (.ok a)) ∨
      ∃ (k : Nat) (w : Stop), k < t.stops.length ∧ s'.stops[k]? = some w ∧ w.listener = some j ∧
        s'.stopped? k ≠ some (.ok ()) := by
  have coherent := (h.run run).run later
  obtain ⟨l, a, stands, started⟩ := coherent.started_of_accept taken
  have busy : ∀ l' : Listener, s'.listeners[j]? = some l' → ¬l'.Over := by
    intro l' found finished
    rw [accept_eq_none found finished.accept_eq_none c] at taken
    cases taken
  by_cases after : t.listeners.length ≤ j
  · exact .inl ⟨after, a, started⟩
  · refine .inr ?_
    have stood := List.getElem?_eq_getElem (Nat.lt_of_not_le after)
    have whole : t.run ((.shutdown thread :: es) ++ more) = some s' := (run_after run more).trans later
    -- an older listener: the one that the shutdown waited for is finished; any other was shut down before
    by_cases current : t.current = some j
    · obtain ⟨m, found, finished⟩ := h.finished_of_stopped run current resolved
      obtain ⟨m', found', finished⟩ := listener_of_run Change.finished later found finished
      exact absurd (.inl finished) (busy m' found')
    · rcases h.accounted held j _ stood current with failed | ⟨k, w, before, named⟩
      · obtain ⟨m', found', failed⟩ := listener_of_run Change.failed whole stood failed
        exact absurd (.inr failed) (busy m' found')
      · obtain ⟨w', now, same⟩ := stop_of_run whole before
        refine ⟨k, w', (List.getElem?_eq_some_iff.mp before).1, now, same.trans named, fun resolved => ?_⟩
        obtain ⟨v, found, told⟩ := Option.bind_eq_some_iff.mp resolved
        cases now.symm.trans found
        obtain ⟨m, stands', _, finished⟩ := coherent.stops k w' j now (same.trans named)
        exact busy m stands' (.inl (finished told))

theorem length_of_dropped (dropped : s.dropped = true) (run : s.run es = some s') :
    s'.listeners.length = s.listeners.length := by
  have kept : s'.dropped = true ∧ s'.listeners.length = s.listeners.length := by
    refine run_keeps (P := fun u => u.dropped = true ∧ u.listeners.length = s.listeners.length) ?_ run ⟨dropped, rfl⟩
    rintro u u' e step ⟨dropped, same⟩
    refine ⟨dropped_of_step step dropped, ?_⟩
    rcases listeners_of_step step with unchanged | ⟨rfl, _⟩
    · exact unchanged.trans same
    · simp [Server.step, dropped] at step
  exact kept.2

theorem Coherent.accept_after_drop (h : t.Coherent) (dropped : t.dropped = true)
    (noticed : ∀ (j : Nat) (l : Listener), t.listeners[j]? = some l → l.Settled)
    (later : t.run more = some s) (j c : Nat) : s.step (.task j (.accept c)) = none := by
  by_cases known : j < t.listeners.length
  · have stood := List.getElem?_eq_getElem known
    have told := h.retired j _ stood (by simp [h.gone dropped])
    obtain ⟨l, stands, finished⟩ :=
      listener_of_run Change.finished later stood ((noticed j _ stood).finished told)
    exact accept_eq_none stands (fun c => finished.step_eq_none (.accept c)) c
  · have same := length_of_dropped dropped later
    have nobody : s.listeners[j]? = none := List.getElem?_eq_none (by omega)
    simp [Server.step, nobody]

/-- What is left, in the server `s`, of a start that was brought to its end; the server was `t` when the
owner let go of it. -/
structure Closed (pool : Pool) (i : Nat) (t s : Server) : Prop where
  idle : ∀ l : Listener, s.listeners[i]? = some l → l.connections = []
  takes : ∀ c, s.step (.task i (.accept c)) = none
  /-- Nobody else takes a connection either, but one that was started since, or one of before that has a
  shutdown of its own to wait for. -/
  others : t.dropped = false → ∀ (j c : Nat) (u : Server), s.step (.task j (.accept c)) = some u →
    (t.listeners.length ≤ j ∧ ∃ a, s.started? j = some (.ok a)) ∨
      ∃ (k : Nat) (w : Stop), k < t.stops.length ∧ s.stops[k]? = some w ∧ w.listener = some j ∧
        s.stopped? k ≠ some (.ok ())
  nobody : t.dropped = true → (∀ (j : Nat) (l : Listener), t.listeners[j]? = some l → l.Settled) →
    ∀ j c, s.step (.task j (.accept c)) = none
  /-- A shared pool is still there, and the server may be started again. -/
  shared : pool = .shared → s.pool = .shared ∧
    (s.dropped = false → s.listeners.length = t.listeners.length → ∀ a : Endpoint, ∃ u : Server,
      s.run [.start, .task s.listeners.length (.bound (.ok a)), .task s.listeners.length .tell] = some u ∧
      u.isRunning = true ∧ u.localAddress = some a ∧ u.started? s.listeners.length = some (.ok a))
  owned : pool.isOwned = true → s.pool = .owned false ∧ s.start = .error .terminated

theorem idle_of_run (released : t.current = none) (run : t.run es = some s)
    (same : s.listeners.length = t.listeners.length) : s.current = none := by
  induction es generalizing t with
  | nil =>
    cases run
    exact released
  | cons e es ih =>
    obtain ⟨u, step, rest⟩ := Option.bind_eq_some_iff.mp run
    cases moves_of_step step with
    | starts =>
      have least := length_of_run rest
      simp only [opened, List.length_append, List.length_singleton] at least
      omega
    | shutdown => exact ih rfl rest (same.trans (length_release t .drain).symm)
    | drop => exact ih rfl rest (same.trans (length_release t .cancel).symm)
    | task =>
      refine ih ?_ rest (same.trans (List.length_modify ..).symm)
      exact released
    | _ =>
      refine ih ?_ rest same
      exact released

theorem Ended.current_of_run {pool : Pool} (ended : Ended pool i t es s) (run : (new pool).run es = some s)
    (later : s.run more = some s') (same : s'.listeners.length = t.listeners.length) : s'.current = none := by
  cases ended with
  | shutdown opening since after thread _ _ _ before _ =>
    rw [run_after before] at run
    obtain ⟨_, rest⟩ := run_shutdown run
    exact idle_of_run rfl ((run_after rest more).trans later) (same.trans (length_release t .drain).symm)
  | drop _ _ _ dropped _ => exact idle_of_run ((coherent_run run).gone dropped) later same

/-- Once the first shutdown after a start has ended well, or the server was dropped and the tasks have
noticed, no connection of that start is open and none will be, whatever happens then. -/
theorem closed_run (pool : Pool) (es : List Event) (s : Server) (run : (new pool).run es = some s) (i : Nat)
    (t : Server) (ended : Ended pool i t es s) (more : List Event) (s' : Server)
    (later : s.run more = some s') : Closed pool i t s' := by
  have coherent := (coherent_run run).run later
  obtain ⟨m, found, finished⟩ := ended.over run
  obtain ⟨l, stands, finished⟩ := listener_of_run Change.over later found finished
  have pooled : s'.pool = pool.terminate := pool_of_run later (ended.pool run)
  constructor
  · intro l' stands'
    cases stands.symm.trans stands'
    exact finished.connections
  · exact accept_eq_none stands finished.accept_eq_none
  · intro held j c u taken
    cases ended with
    | shutdown opening since after thread _ _ _ before resolved =>
      rw [run_after before] at run
      exact (coherent_run before).accept_after_end held run resolved later taken
    | drop _ _ _ dropped _ => exact absurd (held.symm.trans dropped) Bool.false_ne_true
  · intro dropped noticed
    cases ended with
    | shutdown opening since after thread _ _ _ before _ =>
      rw [run_after before] at run
      exact absurd ((run_shutdown run).1.symm.trans dropped) Bool.false_ne_true
    | drop => exact (coherent_run run).accept_after_drop dropped noticed later
  · rintro rfl
    refine ⟨pooled, fun held same a => run_start held ?_ ?_ a⟩
    · simp [isRunning, currentListener, ended.current_of_run run later same]
    · simp [isTerminated, pooled, Pool.terminate, Pool.isTerminated]
  · intro owned
    have gone : s'.pool = .owned false := by
      cases pool with
      | shared => cases owned
      | owned _ => exact pooled
    refine ⟨gone, start_eq_terminated.mpr ⟨?_, ?_⟩⟩
    · simp [isRunning, currentListener, coherent.ended gone]
    · simp [isTerminated, gone, Pool.isTerminated]

/-- A listener takes one more connection after it was told to stop; then everything closes, the shutdown
ends, and the server is started again. -/
theorem closed_after_late_accept :
    let opening := [.start, .task 0 (.bound (.ok ⟨"::1", 80⟩)), .task 0 .tell, .task 0 (.accept 0)]
    let after := [.task 0 (.accept 1), .task 0 .close, .task 0 (.cutConnection 0), .task 0 (.cutConnection 1),
      .stopped 0]
    let more := [.start, .task 1 (.bound (.ok ⟨"::1", 80⟩)), .task 1 .tell, .task 1 (.accept 2)]
    ∃ t s s' : Server, (new .shared).run (opening ++ .shutdown .runs :: after) = some s ∧
      Ended .shared 0 t (opening ++ .shutdown .runs :: after) s ∧ s.run more = some s' ∧
      Closed .shared 0 t s' := by
  intro opening after more
  have ended : ∃ t s : Server, (new .shared).run (opening ++ .shutdown .runs :: after) = some s ∧
      Ended .shared 0 t (opening ++ .shutdown .runs :: after) s ∧ (s.run more).isSome = true :=
    ⟨_, _, rfl, .shutdown opening opening.tail after .runs _ ⟨[], new .shared, _, rfl, rfl, rfl, rfl⟩
      (by simp [opening]) rfl rfl, rfl⟩
  obtain ⟨t, s, run, ended, goes⟩ := ended
  obtain ⟨s', later⟩ := Option.isSome_iff_exists.mp goes
  exact ⟨t, s, s', run, ended, later, closed_run .shared _ s run 0 t ended more s' later⟩

/-- A shutdown does not wait for what an earlier one is still waiting for: it ends well while the listener of the
start before, told to stop long ago, takes one more connection. -/
theorem accept_after_stopped :
    let opening := [.start, .task 0 (.bound (.ok ⟨"::1", 80⟩)), .task 0 .tell, .shutdown .runs, .start,
      .task 1 (.bound (.ok ⟨"::1", 81⟩)), .task 1 .tell]
    let after := [.task 1 .close, .stopped 1]
    ∃ t s u : Server, (new .shared).run (opening ++ .shutdown .runs :: after) = some s ∧
      Ended .shared 1 t (opening ++ .shutdown .runs :: after) s ∧ s.listeners.length = t.listeners.length ∧
      s.step (.task 0 (.accept 0)) = some u ∧ (u.listeners[0]?).map (·.connections) = some [0] := by
  intro opening after
  exact ⟨_, _, _, rfl, .shutdown opening (opening.drop 5) after .runs _
    ⟨opening.take 4, _, _, rfl, rfl, rfl, rfl⟩ (by simp [opening]) rfl rfl, rfl, rfl, rfl⟩

end Server
end PushGateway
