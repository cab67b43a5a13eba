import Mathlib.Data.List.Nodup
import PushGateway.Server.Listener

namespace PushGateway.Listener

variable {l l' : Listener} {e : Event}

inductive Moves (l : Listener) : Event → Listener → Prop where
  | bound (stage : l.stage = .binding) (result : Except String Endpoint) :
      Moves l (.bound result) (l.bound result)
  | listens (address : Endpoint) (stage : l.stage = .bound address) :
      Moves l .tell { l with stage := .listening, completion := l.completion.deliver (.ok address) }
  | fails (cause : String) (stage : l.stage = .refused cause) :
      Moves l .tell { l.close with completion := l.completion.deliver (.error (.bind cause)) }
  | accept (stage : l.stage = .listening) (c : Nat) : Moves l (.accept c) (l.take c)
  | close (stage : l.stage = .listening) (told : l.cancelled = true) : Moves l .close l.close
  | ends (c : Nat) (isOpen : c ∈ l.connections) : Moves l (.endConnection c) (l.endConnection c)
  | cut (c : Nat) (told : l.cancelled = true) (isOpen : c ∈ l.connections) :
      Moves l (.cutConnection c) (l.endConnection c)
  | discard (stage : l.stage ≠ .closed) : Moves l .discard l.discard

theorem moves_of_step (step : l.step e = some l') : Moves l e l' := by
  cases e with
  | bound result =>
    obtain ⟨stage, ⟨⟩⟩ := Option.ite_none_right_eq_some.mp step
    exact .bound stage result
  | tell =>
    cases stage : l.stage with
    | bound address =>
      simp only [Listener.step, tell, stage, Option.some.injEq] at step
      exact step ▸ .listens address stage
    | refused cause =>
      simp only [Listener.step, tell, stage, Option.some.injEq] at step
      exact step ▸ .fails cause stage
    | _ =>
      simp only [Listener.step, stage] at step
      cases step
  | accept c =>
    obtain ⟨stage, ⟨⟩⟩ := Option.ite_none_right_eq_some.mp step
    exact .accept stage c
  | close =>
    obtain ⟨⟨stage, told⟩, ⟨⟩⟩ := Option.ite_none_right_eq_some.mp step
    exact .close stage told
  | endConnection c =>
    obtain ⟨isOpen, ⟨⟩⟩ := Option.ite_none_right_eq_some.mp step
    exact .ends c isOpen
  | cutConnection c =>
    obtain ⟨⟨told, isOpen⟩, ⟨⟩⟩ := Option.ite_none_right_eq_some.mp step
    exact .cut c told isOpen
  | discard =>
    obtain ⟨stage, ⟨⟩⟩ := Option.ite_none_right_eq_some.mp step
    exact .discard stage

theorem cancelled_of_step (step : l.step e = some l') (told : l.cancelled = true) : l'.cancelled = true := by
  cases moves_of_step step with
  | bound _ result => cases result with
    | ok address => exact told
    | error cause => rfl
  | _ => exact told

/-- It was told to stop by a shutdown, which waits for its tasks. -/
def Draining (l : Listener) : Prop := l.cancelled = true ∧ l.tracker.closed = true

theorem Draining.step (h : l.Draining) (step : l.step e = some l') : l'.Draining := by
  refine ⟨cancelled_of_step step h.1, ?_⟩
  cases moves_of_step step with
  | bound _ result => cases result <;> exact h.2
  | _ => exact h.2

/-- How a listener that is closed has ended: after it had listened, because it could not be bound, or with
its pool before its start was told anything. -/
def Ended (l : Listener) : Prop :=
  (∃ a, l.address = some a ∧ l.completion = .channel (.delivered (.ok a))) ∨
  (∃ cause, l.address = none ∧ l.cancelled = true ∧
    l.completion = .channel (.delivered (.error (.bind cause))) ∧ l.connections = []) ∨
  (l.completion = .channel .abandoned ∧ l.connections = [])

def Told (l : Listener) : Prop :=
  match l.stage with
  | .binding => l.address = none ∧ l.completion = .channel .waiting ∧ l.connections = []
  | .bound a => l.address = some a ∧ l.completion = .channel .waiting ∧ l.connections = []
  | .refused _ =>
    l.address = none ∧ l.cancelled = true ∧ l.completion = .channel .waiting ∧ l.connections = []
  | .listening => ∃ a, l.address = some a ∧ l.completion = .channel (.delivered (.ok a))
  | .closed => l.Ended

structure Coherent (l : Listener) : Prop where
  told : l.Told
  nodup : l.connections.Nodup
  /-- The tracker counts the listener's own task and its open connections. -/
  tasks : l.tracker.tasks = (if l.stage = .closed then 0 else 1) + l.connections.length

theorem coherent_new : Coherent {} := ⟨⟨rfl, rfl, rfl⟩, .nil, rfl⟩

theorem Coherent.cancel (h : l.Coherent) : l.cancel.Coherent := by
  refine ⟨?_, h.nodup, h.tasks⟩
  have told := h.told
  unfold Told at told ⊢
  simp only [Listener.cancel, Ended, true_and] at told ⊢
  split at told
  · exact told
  · exact told
  · exact ⟨told.1, told.2.2⟩
  · exact told
  · exact told.imp_right (Or.imp_left fun ⟨cause, address, _, rest⟩ => ⟨cause, address, rest⟩)

theorem Coherent.drain (h : l.Coherent) : l.drain.Coherent := ⟨h.cancel.told, h.nodup, h.tasks⟩

theorem Coherent.started_of_listening (h : l.Coherent) (stage : l.stage = .listening) :
    ∃ a, l.address = some a ∧ l.completion = .channel (.delivered (.ok a)) := by
  have told := h.told
  unfold Told at told
  rw [stage] at told
  exact told

theorem Coherent.address_of_connection (h : l.Coherent) {c : Nat} (isOpen : c ∈ l.connections) :
    (l.stage = .listening ∨ l.stage = .closed) ∧
      ∃ a, l.address = some a ∧ l.completion = .channel (.delivered (.ok a)) := by
  have busy : l.connections ≠ [] := List.ne_nil_of_mem isOpen
  have told := h.told
  unfold Told at told
  split at told
  · exact absurd told.2.2 busy
  · exact absurd told.2.2 busy
  · exact absurd told.2.2.2 busy
  · rename_i stage
    exact ⟨.inl stage, told⟩
  · rename_i stage
    rcases told with served | ⟨_, _, _, _, idle⟩ | ⟨_, idle⟩
    · exact ⟨.inr stage, served⟩
    · exact absurd idle busy
    · exact absurd idle busy

theorem Coherent.address_of_ok (h : l.Coherent) {a : Endpoint}
    (started : l.completion.outcome? = some (.ok a)) : l.address = some a := by
  have told := h.told
  unfold Told at told
  split at told
  · simp [told.2.1] at started
  · simp [told.2.1] at started
  · simp [told.2.2.1] at started
  · obtain ⟨b, address, told⟩ := told
    simp only [told, Completion.Source.outcome?_delivered, Option.some.injEq, Except.ok.injEq] at started
    exact started ▸ address
  · rcases told with ⟨b, address, told⟩ | ⟨cause, _, _, told, _⟩ | ⟨told, _⟩
    · simp only [told, Completion.Source.outcome?_delivered, Option.some.injEq, Except.ok.injEq] at started
      exact started ▸ address
    · simp [told] at started
    · simp [told] at started

theorem Coherent.refused_of_bind (h : l.Coherent) {cause : String}
    (started : l.completion.outcome? = some (.error (.bind cause))) :
    l.cancelled = true ∧ l.address = none := by
  have told := h.told
  unfold Told at told
  split at told
  · simp [told.2.1] at started
  · simp [told.2.1] at started
  · exact ⟨told.2.1, told.1⟩
  · obtain ⟨b, _, told⟩ := told
    simp [told] at started
  · rcases told with ⟨b, _, told⟩ | ⟨_, address, stopped, _, _⟩ | ⟨told, _⟩
    · simp [told] at started
    · exact ⟨stopped, address⟩
    · simp [told] at started

theorem length_endConnection (nodup : l.connections.Nodup) {c : Nat} (isOpen : c ∈ l.connections) :
    (l.endConnection c).connections.length + 1 = l.connections.length := by
  have erased : l.connections.erase c = (l.endConnection c).connections := by
    rw [nodup.erase_eq_filter, endConnection]
    exact List.filter_congr fun x _ => by by_cases same : x = c <;> simp [same]
  rw [← erased, List.length_erase_of_mem isOpen]
  exact Nat.sub_add_cancel (List.length_pos_of_mem isOpen)

theorem Coherent.endConnection (h : l.Coherent) {c : Nat} (isOpen : c ∈ l.connections) :
    (l.endConnection c).Coherent := by
  obtain ⟨stage, served⟩ := h.address_of_connection isOpen
  refine ⟨?_, h.nodup.filter _, ?_⟩
  · unfold Told
    rcases stage with stage | stage
    · rw [show (l.endConnection c).stage = .listening from stage]
      exact served
    · rw [show (l.endConnection c).stage = .closed from stage]
      exact .inl served
  · have fewer := length_endConnection h.nodup isOpen
    have tasks := h.tasks
    have same : (l.endConnection c).stage = l.stage := rfl
    have finished : (l.endConnection c).tracker.tasks = l.tracker.tasks - 1 := rfl
    rw [same, finished]
    omega

theorem Coherent.discard (h : l.Coherent) (stage : l.stage ≠ .closed) : l.discard.Coherent := by
  refine ⟨?_, h.nodup, ?_⟩
  · have told := h.told
    unfold Told at told
    split at told
    · exact .inr (.inr ⟨by rw [Listener.discard, told.2.1]; rfl, told.2.2⟩)
    · exact .inr (.inr ⟨by rw [Listener.discard, told.2.1]; rfl, told.2.2⟩)
    · exact .inr (.inr ⟨by rw [Listener.discard, told.2.2.1]; rfl, told.2.2.2⟩)
    · obtain ⟨a, address, started⟩ := told
      exact .inl ⟨a, address, by rw [Listener.discard, started]; rfl⟩
    · contradiction
  · have tasks := h.tasks
    rw [if_neg stage] at tasks
    simp [Listener.discard, Listener.close, Tracker.finish, tasks]

theorem Coherent.step (h : l.Coherent) (step : l.step e = some l')
    (fresh : ∀ c, e = .accept c → c ∉ l.connections) : l'.Coherent := by
  have told := h.told
  have tasks := h.tasks
  unfold Told at told
  cases moves_of_step step with
  | bound stage result =>
    simp only [stage] at told tasks
    cases result with
    | ok a => exact ⟨⟨rfl, told.2⟩, h.nodup, tasks⟩
    | error cause => exact ⟨⟨told.1, rfl, told.2⟩, h.nodup, tasks⟩
  | listens a stage =>
    simp only [stage] at told tasks
    obtain ⟨address, untold, _⟩ := told
    exact ⟨⟨a, address, by rw [untold]; rfl⟩, h.nodup, tasks⟩
  | fails cause stage =>
    simp only [stage] at told tasks
    obtain ⟨address, stopped, untold, idle⟩ := told
    refine ⟨.inr (.inl ⟨cause, address, stopped, by rw [untold]; rfl, idle⟩), h.nodup, ?_⟩
    simp [close, Tracker.finish, tasks]
  | accept stage c =>
    refine ⟨?_, h.nodup.cons (fresh c rfl), ?_⟩
    · simp only [stage] at told
      unfold Told
      rw [show (l.take c).stage = .listening from stage]
      exact told
    · simp only [take, Tracker.spawn, List.length_cons, tasks]
      omega
  | close stage stopped =>
    simp only [stage] at told tasks
    refine ⟨.inl told, h.nodup, ?_⟩
    simp [close, Tracker.finish, tasks]
  | ends c isOpen => exact h.endConnection isOpen
  | cut c stopped isOpen => exact h.endConnection isOpen
  | discard stage => exact h.discard stage

theorem mem_connections_of_step (step : l.step e = some l') {c : Nat} (isOpen : c ∈ l'.connections) :
    c ∈ l.connections ∨ e = .accept c := by
  cases moves_of_step step with
  | bound _ result => cases result <;> exact .inl isOpen
  | accept _ d =>
    rcases List.mem_cons.mp isOpen with rfl | isOpen
    · exact .inr rfl
    · exact .inl isOpen
  | ends d _ => exact .inl (List.mem_of_mem_filter isOpen)
  | cut d _ _ => exact .inl (List.mem_of_mem_filter isOpen)
  | _ => exact .inl isOpen

/-! ### Listeners that are over -/

def Finished (l : Listener) : Prop := l.stage = .closed ∧ l.connections = []

def Failed (l : Listener) : Prop :=
  l.cancelled = true ∧ l.address = none ∧ l.connections = [] ∧
    (l.stage = .closed ∨ ∃ cause, l.stage = .refused cause)

theorem Coherent.finished_of_isDone (h : l.Coherent) (done : l.tracker.isDone = true) : l.Finished := by
  have tasks := h.tasks
  rw [(of_decide_eq_true done).2] at tasks
  split at tasks
  · rename_i stage
    exact ⟨stage, List.eq_nil_of_length_eq_zero (by omega)⟩
  · omega

theorem Finished.step_eq_none (h : l.Finished) (e : Event) : l.step e = none := by
  obtain ⟨stage, idle⟩ := h
  cases e <;> simp [Listener.step, stage, idle]

theorem Failed.step (h : l.Failed) (step : l.step e = some l') : l'.Failed := by
  obtain ⟨stopped, address, idle, stage⟩ := h
  cases moves_of_step step with
  | bound now _ => simp [now] at stage
  | listens _ now => simp [now] at stage
  | fails _ _ => exact ⟨stopped, address, idle, .inl rfl⟩
  | accept now _ => simp [now] at stage
  | close now _ => simp [now] at stage
  | ends c isOpen => simp [idle] at isOpen
  | cut c _ isOpen => simp [idle] at isOpen
  | discard _ => exact ⟨stopped, address, idle, .inl rfl⟩

/-- A listener that gives up by itself could not be bound. -/
theorem Coherent.failed_of_step (h : l.Coherent) (step : l.step e = some l') (before : l.cancelled = false)
    (after : l'.cancelled = true) : l'.Failed := by
  have told := h.told
  unfold Told at told
  cases moves_of_step step with
  | bound stage result =>
    simp only [stage] at told
    cases result with
    | ok a => exact absurd (before.symm.trans after) Bool.false_ne_true
    | error cause => exact ⟨rfl, told.1, told.2.2, .inr ⟨cause, rfl⟩⟩
  | _ => exact absurd (before.symm.trans after) Bool.false_ne_true

theorem Failed.accept_eq_none (h : l.Failed) (c : Nat) : l.step (.accept c) = none := by
  have stage : l.stage ≠ .listening := by
    rcases h.2.2.2 with closed | ⟨cause, refused⟩ <;> simp [*]
  exact if_neg stage

end PushGateway.Listener
