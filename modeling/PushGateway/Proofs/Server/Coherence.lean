import PushGateway.Proofs.Server.Listener
import PushGateway.Server.Basic
/-!
What holds of a server at all times, whatever its callers and its tasks have done.
-/

namespace PushGateway.Server

variable {s s' : Server} {e : Event}

@[simp] theorem listeners_modify (s : Server) (i : Nat) (f : Listener → Listener) :
    (s.modify i f).listeners = s.listeners.modify i f := rfl

@[simp] theorem current_modify (s : Server) (i : Nat) (f : Listener → Listener) :
    (s.modify i f).current = s.current := rfl

def opened (s : Server) : Server :=
  { s with listeners := s.listeners ++ [{}], current := some s.listeners.length }

theorem start_eq_ok : s.start = .ok s' ↔ s.isRunning = false ∧ s.isTerminated = false ∧ s' = s.opened := by
  unfold start opened
  split
  · simp [*]
  · split
    · simp [*]
    · simp [*, eq_comm]

inductive Moves (s : Server) : Event → Server → Prop where
  | starts (held : s.dropped = false) (idle : s.isRunning = false) (alive : s.isTerminated = false) :
      Moves s .start s.opened
  | fails (held : s.dropped = false) (error : ServerError) (refused : s.start = .error error) :
      Moves s .start s
  | shutdown (held : s.dropped = false) (thread : Thread) : Moves s (.shutdown thread) (s.shutdown thread)
  | drop (held : s.dropped = false) : Moves s .drop s.drop
  | configure (gateway : Gateway) : Moves s (.configure gateway) { s with gateway := gateway }
  | task (i : Nat) (event : Listener.Event) (l l' : Listener) (stands : s.listeners[i]? = some l)
      (moved : l.step event = some l') (allowed : s.allows event = true) :
      Moves s (.task i event)
        { s.modify i fun _ => l' with nextConnection := s.nextConnection + taken event }
  | stopped (k : Nat) (w : Stop) (stands : s.stops[k]? = some w) (drained : s.isDrained w = true) :
      Moves s (.stopped k) (s.resolve k)

theorem moves_of_step (step : s.step e = some s') : Moves s e s' := by
  cases e with
  | start =>
    obtain ⟨held, ⟨⟩⟩ := Option.ite_none_left_eq_some.mp step
    have held := eq_false_of_ne_true held
    cases started : s.start with
    | error error => exact .fails held error started
    | ok _ =>
      obtain ⟨idle, alive, rfl⟩ := start_eq_ok.mp started
      exact .starts held idle alive
  | shutdown thread =>
    obtain ⟨held, ⟨⟩⟩ := Option.ite_none_left_eq_some.mp step
    exact .shutdown (eq_false_of_ne_true held) thread
  | drop =>
    obtain ⟨held, ⟨⟩⟩ := Option.ite_none_left_eq_some.mp step
    exact .drop (eq_false_of_ne_true held)
  | configure gateway =>
    cases step
    exact .configure gateway
  | task i event =>
    simp only [Server.step] at step
    split at step
    · rename_i l' found
      obtain ⟨l, stands, moved⟩ := Option.bind_eq_some_iff.mp found
      obtain ⟨allowed, ⟨⟩⟩ := Option.ite_none_right_eq_some.mp step
      exact .task i event l l' stands moved allowed
    · cases step
  | stopped k =>
    simp only [Server.step] at step
    split at step
    · rename_i w stands
      obtain ⟨drained, ⟨⟩⟩ := Option.ite_none_right_eq_some.mp step
      exact .stopped k w stands drained
    · cases step

/-! ### The listeners of a server in a step -/

theorem getElem?_modify (s : Server) (i j : Nat) (f : Listener → Listener) :
    (s.modify i f).listeners[j]? = (s.listeners[j]?).map fun l => if i = j then f l else l :=
  List.getElem?_modify f i s.listeners j

theorem getElem?_release (s : Server) (j : Nat) (f : Listener → Listener) :
    (s.release f).listeners[j]? = (s.listeners[j]?).map fun l => if s.current = some j then f l else l := by
  unfold release
  cases current : s.current with
  | none => simp
  | some i => simp [List.getElem?_modify, Option.map_eq_map]

theorem length_release (s : Server) (f : Listener → Listener) :
    (s.release f).listeners.length = s.listeners.length := by
  unfold release
  split <;> simp

@[simp] theorem listeners_shutdown (s : Server) (thread : Thread) :
    (s.shutdown thread).listeners = (s.release .drain).listeners := rfl

@[simp] theorem listeners_drop (s : Server) : s.drop.listeners = (s.release .cancel).listeners := rfl

def Event.stops : Event → Bool
  | .shutdown _ => true
  | .drop => true
  | _ => false

inductive Change (s : Server) (i : Nat) (l : Listener) : Event → Listener → Prop where
  | none (e : Event) (kept : e.stops = true → s.current ≠ some i) : Change s i l e l
  | task (event : Listener.Event) (l' : Listener) (moved : l.step event = some l')
      (allowed : s.allows event = true) : Change s i l (.task i event) l'
  | drain (thread : Thread) (current : s.current = some i) : Change s i l (.shutdown thread) l.drain
  | cancel (current : s.current = some i) : Change s i l .drop l.cancel

theorem change_of_step (step : s.step e = some s') {i : Nat} {l : Listener}
    (stands : s.listeners[i]? = some l) :
    ∃ l', s'.listeners[i]? = some l' ∧ Change s i l e l' := by
  cases moves_of_step step with
  | starts =>
    have bound := (List.getElem?_eq_some_iff.mp stands).1
    exact ⟨l, (List.getElem?_append_left bound).trans stands, .none _ nofun⟩
  | fails => exact ⟨l, stands, .none _ nofun⟩
  | shutdown held thread =>
    have found := getElem?_release s i .drain
    rw [stands] at found
    by_cases current : s.current = some i
    · exact ⟨l.drain, by simpa [current] using found, .drain thread current⟩
    · exact ⟨l, by simpa [current] using found, .none _ fun _ => current⟩
  | drop held =>
    have found := getElem?_release s i .cancel
    rw [stands] at found
    by_cases current : s.current = some i
    · exact ⟨l.cancel, by simpa [current] using found, .cancel current⟩
    · exact ⟨l, by simpa [current] using found, .none _ fun _ => current⟩
  | configure => exact ⟨l, stands, .none _ nofun⟩
  | task j event m m' found moved allowed =>
    have after := getElem?_modify s j i fun _ => m'
    rw [stands] at after
    by_cases same : j = i
    · subst same
      cases found.symm.trans stands
      exact ⟨m', by simpa using after, .task event m' moved allowed⟩
    · exact ⟨l, by simpa [same] using after, .none _ nofun⟩
  | stopped => exact ⟨l, stands, .none _ nofun⟩

/-- The listeners after a step are those before it, each with its change, and one more after a start that
was accepted. -/
theorem listeners_of_step (step : s.step e = some s') :
    (s'.listeners.length = s.listeners.length) ∨
      (e = .start ∧ s.isRunning = false ∧ s.isTerminated = false ∧ s' = s.opened) := by
  cases moves_of_step step with
  | starts _ idle alive => exact .inr ⟨rfl, idle, alive, rfl⟩
  | shutdown => exact .inl (length_release s .drain)
  | drop => exact .inl (length_release s .cancel)
  | task => exact .inl (List.length_modify ..)
  | _ => exact .inl rfl

theorem origin_of_step (step : s.step e = some s') {i : Nat} {l' : Listener}
    (stands : s'.listeners[i]? = some l') :
    (∃ l, s.listeners[i]? = some l ∧ Change s i l e l') ∨
      (e = .start ∧ s.isRunning = false ∧ s' = s.opened ∧ i = s.listeners.length ∧ l' = {}) := by
  cases found : s.listeners[i]? with
  | some l =>
    obtain ⟨l'', stands', change⟩ := change_of_step step found
    cases stands.symm.trans stands'
    exact .inl ⟨l, rfl, change⟩
  | none =>
    have beyond := List.getElem?_eq_none_iff.mp found
    have within := (List.getElem?_eq_some_iff.mp stands).1
    rcases listeners_of_step step with same | ⟨start, idle, _, rfl⟩
    · omega
    · have last : i = s.listeners.length := by
        simp only [opened, List.length_append, List.length_singleton] at within
        omega
      subst last
      simp only [opened, List.getElem?_concat_length, Option.some.injEq] at stands
      exact .inr ⟨start, idle, rfl, rfl, stands.symm⟩

namespace Change

variable {i : Nat} {l l' : Listener}

theorem cancelled (h : Change s i l e l') (told : l.cancelled = true) : l'.cancelled = true := by
  cases h with
  | none => exact told
  | task _ _ moved _ => exact Listener.cancelled_of_step moved told
  | drain => rfl
  | cancel => rfl

theorem draining (h : Change s i l e l') (told : l.Draining) : l'.Draining := by
  cases h with
  | none => exact told
  | task _ _ moved _ => exact told.step moved
  | drain => exact ⟨rfl, rfl⟩
  | cancel => exact ⟨rfl, told.2⟩

theorem finished (h : Change s i l e l') (done : l.Finished) : l'.Finished := by
  cases h with
  | none => exact done
  | task event _ moved _ =>
    rw [done.step_eq_none event] at moved
    cases moved
  | drain => exact done
  | cancel => exact done

theorem failed (h : Change s i l e l') (done : l.Failed) : l'.Failed := by
  cases h with
  | none => exact done
  | task _ _ moved _ => exact done.step moved
  | drain => exact ⟨rfl, done.2⟩
  | cancel => exact ⟨rfl, done.2⟩

end Change

/-! ### The shutdowns of a server in a step -/

theorem getElem?_resolve (s : Server) (j k : Nat) :
    (s.resolve j).stops[k]? = (s.stops[k]?).map fun w =>
      if j = k then { w with completion := w.completion.deliver (.ok ()) } else w :=
  List.getElem?_modify _ j s.stops k

theorem stop_of_step (step : s.step e = some s') {k : Nat} {w : Stop} (stands : s.stops[k]? = some w) :
    ∃ w', s'.stops[k]? = some w' ∧ w'.listener = w.listener ∧
      (w' = w ∨ e = .stopped k ∧ s.isDrained w = true) := by
  cases moves_of_step step with
  | shutdown held thread =>
    have bound := (List.getElem?_eq_some_iff.mp stands).1
    exact ⟨w, (List.getElem?_append_left bound).trans stands, rfl, .inl rfl⟩
  | stopped j v found drained =>
    have after := getElem?_resolve s j k
    rw [stands] at after
    by_cases same : j = k
    · subst same
      cases found.symm.trans stands
      exact ⟨_, after, by simp, .inr ⟨rfl, drained⟩⟩
    · exact ⟨w, by simpa [same] using after, rfl, .inl rfl⟩
  | _ => exact ⟨w, stands, rfl, .inl rfl⟩

theorem stop_origin_of_step (step : s.step e = some s') {k : Nat} {w' : Stop}
    (stands : s'.stops[k]? = some w') :
    (∃ w, s.stops[k]? = some w ∧ w'.listener = w.listener ∧
        (w' = w ∨ e = .stopped k ∧ s.isDrained w = true)) ∨
      (∃ thread, e = .shutdown thread ∧ k = s.stops.length ∧ w' = ⟨s.current, s.stopCompletion thread⟩) := by
  cases found : s.stops[k]? with
  | some w =>
    obtain ⟨w'', stands', kept⟩ := stop_of_step step found
    cases stands.symm.trans stands'
    exact .inl ⟨w, rfl, kept⟩
  | none =>
    have beyond := List.getElem?_eq_none_iff.mp found
    have within := (List.getElem?_eq_some_iff.mp stands).1
    cases moves_of_step step with
    | shutdown held thread =>
      have stops : (s.shutdown thread).stops = s.stops ++ [⟨s.current, s.stopCompletion thread⟩] := rfl
      have last : k = s.stops.length := by
        simp only [stops, List.length_append, List.length_singleton] at within
        omega
      subst last
      rw [stops, List.getElem?_concat_length] at stands
      exact .inr ⟨thread, rfl, rfl, (Option.some.inj stands).symm⟩
    | stopped j v _ _ =>
      have same : (s.resolve j).stops.length = s.stops.length := List.length_modify ..
      omega
    | _ => exact absurd within (Nat.not_lt.mpr beyond)

/-! ### The invariant -/

structure Coherent (s : Server) : Prop where
  listeners : ∀ (i : Nat) (l : Listener), s.listeners[i]? = some l → l.Coherent
  numbered : ∀ (i : Nat) (l : Listener) (c : Nat), s.listeners[i]? = some l → c ∈ l.connections →
    c < s.nextConnection
  latest : ∀ i, s.current = some i → i + 1 = s.listeners.length
  /-- Every listener but the current one has been told to stop. -/
  retired : ∀ (i : Nat) (l : Listener), s.listeners[i]? = some l → s.current ≠ some i → l.cancelled = true
  /-- The current one has not, unless it could not be bound. -/
  failed : ∀ (i : Nat) (l : Listener), s.listeners[i]? = some l → s.current = some i → l.cancelled = true →
    l.Failed
  ended : s.pool = .owned false → s.current = none
  gone : s.dropped = true → s.current = none
  /-- A shutdown has told its listener to stop, and when it has ended well, nothing is left of it. -/
  stops : ∀ (k : Nat) (w : Stop) (i : Nat), s.stops[k]? = some w → w.listener = some i →
    ∃ l : Listener, s.listeners[i]? = some l ∧ l.Draining ∧
      (w.completion.outcome? = some (.ok ()) → l.Finished)
  /-- A listener that was let go of, and not with the server, could not be bound or was shut down. -/
  accounted : s.dropped = false → ∀ (i : Nat) (l : Listener), s.listeners[i]? = some l →
    s.current ≠ some i → l.Failed ∨ ∃ (k : Nat) (w : Stop), s.stops[k]? = some w ∧ w.listener = some i

theorem coherent_new (pool : Pool) : (new pool).Coherent where
  listeners _ _ stands := nomatch stands
  numbered _ _ _ stands := nomatch stands
  latest _ current := nomatch current
  retired _ _ stands := nomatch stands
  failed _ _ stands := nomatch stands
  ended _ := rfl
  gone dropped := nomatch dropped
  stops _ _ _ stands := nomatch stands
  accounted _ _ _ stands := nomatch stands

section Step

variable {i : Nat} {l : Listener}

theorem cancelled_of_idle (idle : s.isRunning = false) (current : s.current = some i)
    (stands : s.listeners[i]? = some l) : l.cancelled = true := by
  simpa [isRunning, currentListener, current, stands] using idle

theorem current_of_step (step : s.step e = some s') (current : s'.current = some i) :
    s.current = some i ∨ (e = .start ∧ i = s.listeners.length) := by
  cases moves_of_step step with
  | starts => exact .inr ⟨rfl, (Option.some.inj current).symm⟩
  | shutdown => cases current
  | drop => cases current
  | _ => exact .inl current

theorem held_of_step (step : s.step e = some s') (held : s'.dropped = false) : s.dropped = false := by
  cases moves_of_step step with
  | starts before => exact before
  | fails before => exact before
  | shutdown before => exact before
  | drop before => exact before
  | _ => exact held

theorem dropped_of_step (step : s.step e = some s') (dropped : s.dropped = true) : s'.dropped = true := by
  cases kept : s'.dropped with
  | true => rfl
  | false => exact absurd ((held_of_step step kept).symm.trans dropped) Bool.false_ne_true

theorem Coherent.step_listeners (h : s.Coherent) (step : s.step e = some s')
    (stands : s'.listeners[i]? = some l) : l.Coherent := by
  rcases origin_of_step step stands with ⟨m, stood, change⟩ | ⟨_, _, _, _, rfl⟩
  · cases change with
    | none => exact h.listeners i l stood
    | task event _ moved allowed =>
      refine (h.listeners i m stood).step moved ?_
      rintro c rfl isOpen
      -- a new connection has a number of its own
      have number := h.numbered i m c stood isOpen
      rw [of_decide_eq_true allowed] at number
      exact Nat.lt_irrefl _ number
    | drain => exact (h.listeners i m stood).drain
    | cancel => exact (h.listeners i m stood).cancel
  · exact Listener.coherent_new

theorem nextConnection_of_step (step : s.step e = some s') : s.nextConnection ≤ s'.nextConnection := by
  cases moves_of_step step with
  | task => exact Nat.le_add_right ..
  | _ => exact Nat.le_refl _

theorem Coherent.step_numbered (h : s.Coherent) (step : s.step e = some s')
    (stands : s'.listeners[i]? = some l) {c : Nat} (isOpen : c ∈ l.connections) : c < s'.nextConnection := by
  have later := nextConnection_of_step step
  rcases origin_of_step step stands with ⟨m, stood, change⟩ | ⟨_, _, _, _, rfl⟩
  · have number := h.numbered i m c stood
    cases change with
    | none => exact Nat.lt_of_lt_of_le (number isOpen) later
    | task event _ moved allowed =>
      rcases Listener.mem_connections_of_step moved isOpen with isOpen | rfl
      · exact Nat.lt_of_lt_of_le (number isOpen) later
      · cases of_decide_eq_true allowed
        cases moves_of_step step
        exact Nat.lt_succ_self _
    | drain => exact Nat.lt_of_lt_of_le (number isOpen) later
    | cancel => exact Nat.lt_of_lt_of_le (number isOpen) later
  · cases isOpen

theorem Coherent.step_latest (h : s.Coherent) (step : s.step e = some s') (current : s'.current = some i) :
    i + 1 = s'.listeners.length := by
  rcases current_of_step step current with before | ⟨rfl, rfl⟩
  · rcases listeners_of_step step with same | ⟨_, _, _, rfl⟩
    · rw [same]
      exact h.latest i before
    · cases current
      simp [opened]
  · rcases listeners_of_step step with same | ⟨_, _, _, rfl⟩
    · -- the start was refused, and the current listener is an older one
      cases moves_of_step step with
      | starts => simp [opened] at same
      | fails => exact h.latest _ current
    · simp [opened]

theorem Coherent.step_retired (h : s.Coherent) (step : s.step e = some s')
    (stands : s'.listeners[i]? = some l) (other : s'.current ≠ some i) : l.cancelled = true := by
  rcases origin_of_step step stands with ⟨m, stood, change⟩ | ⟨_, _, rfl, rfl, _⟩
  · by_cases current : s.current = some i
    · cases change with
      | none e kept =>
        cases moves_of_step step with
        | starts held idle alive => exact cancelled_of_idle idle current stood
        | shutdown => exact absurd current (kept rfl)
        | drop => exact absurd current (kept rfl)
        | _ => exact absurd current other
      | task event _ moved allowed =>
        cases moves_of_step step
        exact absurd current other
      | drain => rfl
      | cancel => rfl
    · exact change.cancelled (h.retired i m stood current)
  · exact absurd rfl other

theorem Coherent.step_failed (h : s.Coherent) (step : s.step e = some s')
    (stands : s'.listeners[i]? = some l) (current : s'.current = some i) (told : l.cancelled = true) :
    l.Failed := by
  rcases origin_of_step step stands with ⟨m, stood, change⟩ | ⟨_, _, _, _, rfl⟩
  · have within := (List.getElem?_eq_some_iff.mp stood).1
    have before : s.current = some i := by
      rcases current_of_step step current with before | ⟨_, rfl⟩
      · exact before
      · exact absurd within (Nat.lt_irrefl _)
    -- the current listener is told to stop by nobody; it gives up by itself when it cannot be bound
    cases running : m.cancelled with
    | true => exact change.failed (h.failed i m stood before running)
    | false =>
      cases change with
      | none => exact absurd (running.symm.trans told) Bool.false_ne_true
      | task event _ moved allowed => exact (h.listeners i m stood).failed_of_step moved running told
      | drain => cases moves_of_step step; cases current
      | cancel => cases moves_of_step step; cases current
  · cases told

theorem Coherent.step_ended (h : s.Coherent) (step : s.step e = some s') (ended : s'.pool = .owned false) :
    s'.current = none := by
  cases moves_of_step step with
  | starts held idle alive =>
    have ended : s.pool = .owned false := ended
    simp [isTerminated, Pool.isTerminated, ended] at alive
  | shutdown => rfl
  | drop => rfl
  | _ => exact h.ended ended

theorem Coherent.step_gone (h : s.Coherent) (step : s.step e = some s') (gone : s'.dropped = true) :
    s'.current = none := by
  cases moves_of_step step with
  | starts held => exact absurd (held.symm.trans gone) Bool.false_ne_true
  | shutdown => rfl
  | drop => rfl
  | _ => exact h.gone gone

theorem Coherent.finished_of_isDrained (h : s.Coherent) {w : Stop} (drained : s.isDrained w = true)
    (named : w.listener = some i) (stands : s.listeners[i]? = some l) : l.Finished := by
  have done : l.tracker.isDone = true := by simpa [isDrained, named, stands] using drained
  exact (h.listeners i l stands).finished_of_isDone done

theorem Coherent.stopCompletion_ne_ok (h : s.Coherent) (current : s.current = some i) (thread : Thread) :
    (s.stopCompletion thread).outcome? ≠ some (.ok ()) := by
  have alive : s.pool ≠ .owned false := fun ended => by simp [h.ended ended] at current
  intro well
  cases pool : s.pool with
  | shared => simp [stopCompletion, pool, current] at well
  | owned running =>
    cases running with
    | false => exact alive pool
    | true =>
      cases thread <;> simp [stopCompletion, pool] at well

theorem Coherent.step_stops (h : s.Coherent) (step : s.step e = some s') {k : Nat} {w : Stop}
    (stands : s'.stops[k]? = some w) (named : w.listener = some i) :
    ∃ l : Listener, s'.listeners[i]? = some l ∧ l.Draining ∧
      (w.completion.outcome? = some (.ok ()) → l.Finished) := by
  rcases stop_origin_of_step step stands with ⟨v, stood, same, kept⟩ | ⟨thread, rfl, _, rfl⟩
  · obtain ⟨m, before, draining, finished⟩ := h.stops k v i stood (same ▸ named)
    obtain ⟨l, after, change⟩ := change_of_step step before
    refine ⟨l, after, change.draining draining, fun well => change.finished ?_⟩
    rcases kept with rfl | ⟨_, drained⟩
    · exact finished well
    · exact h.finished_of_isDrained drained (same ▸ named) before
  · have within : i < s.listeners.length := Nat.lt_of_succ_le (Nat.le_of_eq (h.latest i named))
    obtain ⟨l, after, change⟩ := change_of_step step (List.getElem?_eq_getElem within)
    refine ⟨l, after, ?_, fun well => absurd well (h.stopCompletion_ne_ok named thread)⟩
    cases change with
    | none _ kept => exact absurd named (kept rfl)
    | drain => exact ⟨rfl, rfl⟩

theorem Coherent.step_accounted (h : s.Coherent) (step : s.step e = some s') (held : s'.dropped = false)
    (stands : s'.listeners[i]? = some l) (other : s'.current ≠ some i) :
    l.Failed ∨ ∃ (k : Nat) (w : Stop), s'.stops[k]? = some w ∧ w.listener = some i := by
  have before := held_of_step step held
  have later : (∃ (k : Nat) (w : Stop), s.stops[k]? = some w ∧ w.listener = some i) →
      ∃ (k : Nat) (w : Stop), s'.stops[k]? = some w ∧ w.listener = some i := by
    rintro ⟨k, w, stood, named⟩
    obtain ⟨w', stands', same, _⟩ := stop_of_step step stood
    exact ⟨k, w', stands', same.trans named⟩
  rcases origin_of_step step stands with ⟨m, stood, change⟩ | ⟨_, _, rfl, rfl, _⟩
  · by_cases current : s.current = some i
    · cases moves_of_step step with
      | starts _ idle =>
        have failed := h.failed i m stood current (cancelled_of_idle idle current stood)
        exact .inl (change.failed failed)
      | shutdown _ thread => exact .inr ⟨s.stops.length, _, List.getElem?_concat_length, current⟩
      | drop => cases held
      | _ => exact absurd current other
    · exact (h.accounted before i m stood current).imp change.failed later
  · exact absurd rfl other

end Step

theorem Coherent.step (h : s.Coherent) (step : s.step e = some s') : s'.Coherent where
  listeners _ _ stands := h.step_listeners step stands
  numbered _ _ _ stands isOpen := h.step_numbered step stands isOpen
  latest _ current := h.step_latest step current
  retired _ _ stands other := h.step_retired step stands other
  failed _ _ stands current told := h.step_failed step stands current told
  ended := h.step_ended step
  gone := h.step_gone step
  stops _ _ _ stands named := h.step_stops step stands named
  accounted held _ _ stands other := h.step_accounted step held stands other

/-! ### Runs -/

theorem run_append (s : Server) (es fs : List Event) : s.run (es ++ fs) = (s.run es).bind (·.run fs) := by
  induction es generalizing s with
  | nil => rfl
  | cons e es ih =>
    simp only [List.cons_append, run]
    cases s.step e with
    | none => rfl
    | some s => exact ih s

theorem run_after {es : List Event} (before : s.run es = some s') (fs : List Event) :
    s.run (es ++ fs) = s'.run fs := by
  rw [run_append, before, Option.bind_some]

/-- What every step keeps, every run keeps. -/
theorem run_keeps {P : Server → Prop} (keeps : ∀ {s s' : Server} {e : Event}, s.step e = some s' → P s → P s')
    {es : List Event} (run : s.run es = some s') (holds : P s) : P s' := by
  induction es generalizing s with
  | nil =>
    cases run
    exact holds
  | cons e es ih =>
    obtain ⟨t, step, rest⟩ := Option.bind_eq_some_iff.mp run
    exact ih rest (keeps step holds)

theorem Coherent.run {es : List Event} (h : s.Coherent) (run : s.run es = some s') : s'.Coherent :=
  run_keeps (fun step h => h.step step) run h

theorem coherent_run {pool : Pool} {es : List Event} (run : (new pool).run es = some s) : s.Coherent :=
  (coherent_new pool).run run

end PushGateway.Server
