import PushGateway.Proofs.Server.Closing

namespace PushGateway

namespace Listener

variable {l l' : Listener}

def run (l : Listener) : List Event → Option Listener
  | [] => some l
  | e :: es => (l.step e).bind fun l => run l es

/-- Whether a step is one that any server allows, and takes no connection. -/
def Event.isQuiet : Event → Bool
  | .accept _ => false
  | .discard => false
  | _ => true

def closing (l : Listener) : List Event :=
  (if l.stage = .listening then [.close] else []) ++ l.connections.map .cutConnection

theorem quiet_closing : ∀ e ∈ l.closing, e.isQuiet = true := by
  intro e member
  rcases List.mem_append.mp member with close | cut
  · split at close
    · rw [List.mem_singleton.mp close]
      rfl
    · cases close
  · obtain ⟨c, _, rfl⟩ := List.mem_map.mp cut
    rfl

theorem run_cuts (told : l.cancelled = true) (nodup : l.connections.Nodup) :
    l.run (l.connections.map .cutConnection) =
      some { l with
        connections := []
        tracker := { l.tracker with tasks := l.tracker.tasks - l.connections.length } } := by
  generalize opened : l.connections = cs
  induction cs generalizing l with
  | nil =>
    cases l
    cases opened
    rfl
  | cons c cs ih =>
    have rest : (l.endConnection c).connections = cs := by
      rw [opened, List.nodup_cons] at nodup
      simp only [endConnection, opened, List.filter_cons, ne_eq, not_true_eq_false, decide_false,
        Bool.false_eq_true, if_false]
      exact List.filter_eq_self.mpr fun d member => decide_eq_true fun same => nodup.1 (same ▸ member)
    have cut : l.step (.cutConnection c) = some (l.endConnection c) := by simp [Listener.step, told, opened]
    have cuts := ih (l := l.endConnection c) told (by rw [rest]; exact (opened ▸ nodup).of_cons) rest
    simp only [List.map_cons, run, cut, Option.bind_some, cuts]
    simp [endConnection, Tracker.finish, Nat.sub_sub, Nat.add_comm]

theorem Coherent.run_closing (h : l.Coherent) (told : l.cancelled = true)
    (stage : l.stage = .listening ∨ l.stage = .closed) : l.run l.closing = some l.windUp := by
  have tasks := h.tasks
  rcases stage with stage | stage
  · have close : l.step .close = some l.close := by simp [Listener.step, stage, told]
    have cuts := run_cuts (l := l.close) told h.nodup
    simp only [closing, stage, if_true, List.singleton_append, run, close, Option.bind_some]
    rw [show l.connections = l.close.connections from rfl, cuts]
    simp only [stage, reduceCtorEq, if_false] at tasks
    simp [windUp, Listener.close, Tracker.finish, tasks]
  · have cuts := run_cuts told h.nodup
    simp only [closing, stage, reduceCtorEq, if_false, List.nil_append, cuts]
    simp only [stage, if_true, Nat.zero_add] at tasks
    simp [windUp, tasks]

/-- A listener that was told to stop can always come to its end. -/
theorem Coherent.run_end (h : l.Coherent) (told : l.cancelled = true) :
    ∃ (es : List Event) (l' : Listener), l.run es = some l' ∧ l'.Finished ∧ ∀ e ∈ es, e.isQuiet = true := by
  have how := h.told
  unfold Told at how
  have closes : l.stage = .listening ∨ l.stage = .closed →
      ∃ (es : List Event) (l' : Listener), l.run es = some l' ∧ l'.Finished ∧ ∀ e ∈ es, e.isQuiet = true :=
    fun stage => ⟨l.closing, l.windUp, h.run_closing told stage, ⟨rfl, rfl⟩, quiet_closing⟩
  cases stage : l.stage with
  | binding =>
    simp only [stage] at how
    refine ⟨[.bound (.error ""), .tell], (l.bound (.error "")).tell, ?_, ⟨rfl, how.2.2⟩, ?_⟩
    · simp [run, Listener.step, stage, Listener.bound]
    · simp [Event.isQuiet]
  | bound a =>
    have tell : l.step .tell = some l.tell := by simp [Listener.step, stage]
    have listens : l.tell.stage = .listening := by simp [Listener.tell, stage]
    have still : l.tell.cancelled = true := cancelled_of_step tell told
    have ends := (h.step tell (by rintro c ⟨⟩)).run_closing still (.inl listens)
    refine ⟨.tell :: l.tell.closing, l.tell.windUp, ?_, ⟨rfl, rfl⟩, ?_⟩
    · simp [run, tell, ends]
    · exact List.forall_mem_cons.mpr ⟨rfl, quiet_closing⟩
  | refused cause =>
    simp only [stage] at how
    refine ⟨[.tell], l.tell, ?_, ?_, by simp [Event.isQuiet]⟩
    · simp [run, Listener.step, stage]
    · simp [Finished, Listener.tell, stage, Listener.close, how.2.2.2]
  | listening => exact closes (.inl stage)
  | closed => exact closes (.inr stage)

theorem Coherent.isDone (h : l.Coherent) (draining : l.Draining) (finished : l.Finished) :
    l.tracker.isDone = true := by
  have tasks := h.tasks
  simp only [finished.1, if_true, finished.2, List.length_nil] at tasks
  exact decide_eq_true ⟨draining.2, tasks⟩

end Listener

namespace Server

variable {s t : Server} {i k : Nat} {l l' : Listener}

theorem taken_of_isQuiet {e : Listener.Event} (quiet : e.isQuiet = true) : taken e = 0 := by
  cases e with
  | accept => cases quiet
  | _ => rfl

theorem allows_of_isQuiet {e : Listener.Event} (quiet : e.isQuiet = true) (s : Server) :
    s.allows e = true := by
  cases e with
  | accept => cases quiet
  | discard => cases quiet
  | _ => rfl

theorem run_tasks {es : List Listener.Event} (stands : s.listeners[i]? = some l) (run : l.run es = some l')
    (quiet : ∀ e ∈ es, e.isQuiet = true) : s.run (es.map (.task i)) = some (s.modify i fun _ => l') := by
  induction es generalizing s l with
  | nil =>
    cases run
    have same : s.modify i (fun _ => l') = s.modify i id := modify_congr stands rfl
    rw [same]
    simp [Server.run, modify]
  | cons e es ih =>
    obtain ⟨m, step, rest⟩ := Option.bind_eq_some_iff.mp run
    have calm := quiet e List.mem_cons_self
    have moves : s.step (.task i e) = some (s.modify i fun _ => m) :=
      step_task stands step (allows_of_isQuiet calm s) (taken_of_isQuiet calm)
    have after := ih (s := s.modify i fun _ => m) (by simp [stands]) rest
      fun e member => quiet e (List.mem_cons_of_mem _ member)
    simp only [List.map_cons, Server.run, moves, Option.bind_some, after, modify_modify]
    rfl

theorem step_stopped {w : Stop} (stands : s.stops[k]? = some w) (drained : s.isDrained w = true) :
    s.step (.stopped k) = some (s.resolve k) := by
  simp [Server.step, stands, drained]

/-- Every shutdown that waits can come to its end. -/
theorem Coherent.run_stopped (h : s.Coherent) {w : Stop} (stands : s.stops[k]? = some w)
    (waits : w.completion = .channel .waiting) :
    ∃ (es : List Event) (t : Server), s.run es = some t ∧ t.stopped? k = some (.ok ()) := by
  have told : ∀ t : Server, t.stops = s.stops → (t.resolve k).stopped? k = some (.ok ()) := by
    intro t same
    simp [stopped?, getElem?_resolve, same, stands, waits, Completion.Source.deliver]
  cases named : w.listener with
  | none =>
    have drained : s.isDrained w = true := by simp [isDrained, named]
    exact ⟨[.stopped k], s.resolve k, by simp [Server.run, step_stopped stands drained], told s rfl⟩
  | some i =>
    obtain ⟨l, found, draining, _⟩ := h.stops k w i stands named
    obtain ⟨es, l', run, finished, quiet⟩ := (h.listeners i l found).run_end draining.1
    have ran := run_tasks found run quiet
    have h' := h.run ran
    have found' : (s.modify i fun _ => l').listeners[i]? = some l' := by simp [found]
    obtain ⟨m, again, draining, _⟩ := h'.stops k w i stands named
    cases found'.symm.trans again
    have done := (h'.listeners i l' found').isDone draining finished
    have drained : (s.modify i fun _ => l').isDrained w = true := by simp [isDrained, named, found, done]
    have stops := step_stopped (s := s.modify i fun _ => l') stands drained
    refine ⟨es.map (.task i) ++ [.stopped k], _, ?_, told (s.modify i fun _ => l') rfl⟩
    rw [run_after ran]
    simp [Server.run, stops]

end Server
end PushGateway
