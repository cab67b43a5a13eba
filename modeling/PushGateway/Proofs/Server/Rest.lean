import PushGateway.Proofs.Server.Draining
/-!
Servers at rest: every listener serves or is over.
-/

namespace PushGateway

namespace Listener

variable {l : Listener}

/-- It serves, or is over: nothing goes on in it by itself. -/
inductive Resting (l : Listener) : Prop where
  | serves (stage : l.stage = .listening) (untold : l.cancelled = false)
  | ended (stage : l.stage = .closed) (told : l.cancelled = true) (idle : l.connections = [])

theorem Resting.stage (h : l.Resting) : l.stage = .listening ∨ l.stage = .closed := by
  cases h with
  | serves stage _ => exact .inl stage
  | ended stage _ _ => exact .inr stage

theorem Resting.idle (h : l.Resting) (told : l.cancelled = true) : l.connections = [] := by
  cases h with
  | serves _ untold => exact absurd (untold.symm.trans told) Bool.false_ne_true
  | ended _ _ idle => exact idle

theorem resting_started (result : Except String Endpoint) : ((Listener.bound {} result).tell).Resting := by
  cases result with
  | ok a => exact .serves rfl rfl
  | error cause => exact .ended rfl rfl rfl

theorem resting_windUp (told : l.cancelled = true) : l.windUp.Resting := .ended rfl told rfl

theorem Resting.take (h : l.Resting) (stage : l.stage = .listening) (c : Nat) : (l.take c).Resting := by
  cases h with
  | serves stage untold => exact .serves stage untold
  | ended closed _ _ => cases stage.symm.trans closed

theorem Resting.endConnection (h : l.Resting) (c : Nat) : (l.endConnection c).Resting := by
  cases h with
  | serves stage untold => exact .serves stage untold
  | ended stage told idle => exact .ended stage told (by simp [Listener.endConnection, idle])

end Listener

namespace Server

variable {s : Server} {i : Nat} {l : Listener}

def Resting (s : Server) : Prop := ∀ (i : Nat) (l : Listener), s.listeners[i]? = some l → l.Resting

theorem Resting.modify (h : s.Resting) {f : Listener → Listener}
    (keeps : ∀ l : Listener, s.listeners[i]? = some l → (f l).Resting) : (s.modify i f).Resting := by
  intro j m stands
  rw [getElem?_modify] at stands
  obtain ⟨l, stood, rfl⟩ := Option.map_eq_some_iff.mp stands
  by_cases here : i = j
  · subst here
    simpa using keeps l stood
  · simpa [here] using h j l stood

theorem getElem?_settledStart (s : Server) (result : Except String Endpoint) (j : Nat) :
    (s.settledStart result).listeners[j]? =
      if j = s.listeners.length then some (Listener.bound {} result).tell else s.listeners[j]? := by
  unfold settledStart
  rw [getElem?_modify]
  by_cases last : j = s.listeners.length
  · simp [last, opened]
  · have other : ¬s.listeners.length = j := fun same => last same.symm
    rcases Nat.lt_or_gt_of_ne last with before | beyond
    · simp [last, other, opened, List.getElem?_append_left before]
    · have nothing : (s.listeners ++ [({} : Listener)])[j]? = none := by
        rw [List.getElem?_eq_none_iff, List.length_append, List.length_singleton]
        omega
      simp [last, opened, nothing, List.getElem?_eq_none (Nat.le_of_lt beyond)]

theorem Resting.settledStart (h : s.Resting) (result : Except String Endpoint) :
    (s.settledStart result).Resting := by
  intro j l stands
  rw [getElem?_settledStart] at stands
  split at stands
  · cases stands
    exact Listener.resting_started result
  · exact h j l stands

def windUp (s : Server) : Option Nat → Server
  | some i => s.modify i .windUp
  | none => s

section WindUp

variable (s : Server) (listener : Option Nat)

@[simp] theorem current_windUp : (s.windUp listener).current = s.current := by cases listener <;> rfl

@[simp] theorem pool_windUp : (s.windUp listener).pool = s.pool := by cases listener <;> rfl

@[simp] theorem gateway_windUp : (s.windUp listener).gateway = s.gateway := by cases listener <;> rfl

@[simp] theorem dropped_windUp : (s.windUp listener).dropped = s.dropped := by cases listener <;> rfl

@[simp] theorem nextConnection_windUp : (s.windUp listener).nextConnection = s.nextConnection := by
  cases listener <;> rfl

end WindUp

def stopped (s : Server) : Server := ((s.shutdown .runs).windUp s.current).resolve s.stops.length

def gone (s : Server) : Server := s.drop.windUp s.current

theorem Coherent.run_windUp (h : s.Coherent) (stands : s.listeners[i]? = some l) (told : l.cancelled = true)
    (stage : l.stage = .listening ∨ l.stage = .closed) :
    s.run (l.closing.map (.task i)) = some (s.modify i .windUp) := by
  have ran := run_tasks stands ((h.listeners i l stands).run_closing told stage) Listener.quiet_closing
  rw [ran, modify_congr (f := fun _ => l.windUp) (g := .windUp) stands rfl]

def received (s : Server) (i : Nat) : Server :=
  { s.modify i (·.take s.nextConnection) with nextConnection := s.nextConnection + 1 }

theorem Resting.received (h : s.Resting) (stands : s.listeners[i]? = some l) (stage : l.stage = .listening) :
    (s.received i).Resting := by
  have kept : (s.modify i (·.take s.nextConnection)).Resting := by
    refine h.modify fun m found => ?_
    cases found.symm.trans stands
    exact (h i l stands).take stage _
  exact kept

theorem step_accept (stands : s.listeners[i]? = some l) (stage : l.stage = .listening) :
    s.step (.task i (.accept s.nextConnection)) = some (s.received i) := by
  have took : l.step (.accept s.nextConnection) = some (l.take s.nextConnection) := if_pos stage
  have same : s.modify i (fun _ => l.take s.nextConnection) = s.modify i (·.take s.nextConnection) :=
    modify_congr stands rfl
  simp [Server.step, stands, took, allows, taken, same, received]

theorem step_endConnection {c : Nat} (stands : s.listeners[i]? = some l) (isOpen : c ∈ l.connections) :
    s.step (.task i (.endConnection c)) = some (s.modify i (·.endConnection c)) :=
  step_task stands (if_pos isOpen) rfl rfl

theorem Resting.serves_of_running (h : s.Resting) (running : s.isRunning = true) :
    ∃ (i : Nat) (l : Listener), s.current = some i ∧ s.listeners[i]? = some l ∧ l.stage = .listening := by
  obtain ⟨i, l, current, stands, live⟩ := isRunning_eq_true.mp running
  refine ⟨i, l, current, stands, ?_⟩
  cases h i l stands with
  | serves stage _ => exact stage
  | ended _ told _ => exact absurd (live.symm.trans told) Bool.false_ne_true

/-! ### Letting go -/

theorem getElem?_windUp {t : Server} {f : Listener → Listener}
    (released : t.listeners = (s.release f).listeners) (j : Nat) : (t.windUp s.current).listeners[j]? =
      (s.listeners[j]?).map fun l => if s.current = some j then (f l).windUp else l := by
  have before := getElem?_release s j f
  rw [← released] at before
  cases current : s.current with
  | none => simpa [windUp, current] using before
  | some i =>
    rw [windUp, getElem?_modify, before, Option.map_map]
    by_cases here : i = j
    · simp [Function.comp_def, current, here]
    · simp [Function.comp_def, current, here]

theorem Resting.windUp (h : s.Resting) (coherent : s.Coherent) {t : Server} {f : Listener → Listener}
    (released : t.listeners = (s.release f).listeners) (told : ∀ l, (f l).cancelled = true) :
    (t.windUp s.current).Resting ∧
      ∀ (j : Nat) (l : Listener), (t.windUp s.current).listeners[j]? = some l → l.connections = [] := by
  have each : ∀ (j : Nat) (l : Listener), (t.windUp s.current).listeners[j]? = some l →
      l.Resting ∧ l.connections = [] := by
    intro j m stands
    rw [getElem?_windUp released] at stands
    obtain ⟨l, stood, rfl⟩ := Option.map_eq_some_iff.mp stands
    by_cases current : s.current = some j
    · rw [if_pos current]
      exact ⟨Listener.resting_windUp (told l), rfl⟩
    · rw [if_neg current]
      exact ⟨h j l stood, (h j l stood).idle (coherent.retired j l stood current)⟩
  exact ⟨fun j l stands => (each j l stands).1, fun j l stands => (each j l stands).2⟩

theorem Resting.stopped (h : s.Resting) (coherent : s.Coherent) :
    s.stopped.Resting ∧ ∀ (j : Nat) (l : Listener), s.stopped.listeners[j]? = some l → l.connections = [] :=
  h.windUp coherent (listeners_shutdown s .runs) fun _ => rfl

theorem Resting.gone (h : s.Resting) (coherent : s.Coherent) :
    s.gone.Resting ∧ ∀ (j : Nat) (l : Listener), s.gone.listeners[j]? = some l → l.connections = [] :=
  h.windUp coherent (listeners_drop s) fun _ => rfl

theorem Coherent.listener_of_current (h : s.Coherent) (current : s.current = some i) :
    ∃ l : Listener, s.listeners[i]? = some l := by
  have last := h.latest i current
  exact ⟨_, List.getElem?_eq_getElem (by omega)⟩

theorem Coherent.run_shutdown (h : s.Coherent) (resting : s.Resting) (held : s.dropped = false) :
    ∃ es, s.run es = some s.stopped := by
  have step : s.step (.shutdown .runs) = some (s.shutdown .runs) := by simp [Server.step, held]
  have noted : (s.shutdown .runs).stops[s.stops.length]? = some ⟨s.current, s.stopCompletion .runs⟩ :=
    List.getElem?_concat_length
  cases current : s.current with
  | none =>
    have stops := step_stopped noted (by simp [isDrained, current])
    refine ⟨[.shutdown .runs, .stopped s.stops.length], ?_⟩
    simp [Server.run, step, stops, Server.stopped, current, windUp]
  | some i =>
    obtain ⟨l, stood⟩ := h.listener_of_current current
    have stands : (s.shutdown .runs).listeners[i]? = some l.drain := by
      rw [listeners_shutdown, getElem?_release]
      simp [stood, current]
    have ran := (h.step step).run_windUp stands rfl (resting i l stood).stage
    have drained :
        ((s.shutdown .runs).modify i .windUp).isDrained ⟨s.current, s.stopCompletion .runs⟩ = true := by
      have found := getElem?_modify (s.shutdown .runs) i i .windUp
      rw [stands, Option.map_some, if_pos rfl] at found
      simp only [isDrained, current, Option.all_some, found, Option.any_some]
      rfl
    have stops := step_stopped (s := (s.shutdown .runs).modify i .windUp) noted drained
    refine ⟨.shutdown .runs :: (l.drain.closing.map (.task i) ++ [.stopped s.stops.length]), ?_⟩
    rw [Server.run, step, Option.bind_some, run_after ran]
    simp [Server.run, stops, Server.stopped, current, windUp]

theorem Coherent.run_drop (h : s.Coherent) (resting : s.Resting) (held : s.dropped = false) :
    ∃ es, s.run es = some s.gone := by
  have step : s.step .drop = some s.drop := by simp [Server.step, held]
  cases current : s.current with
  | none => exact ⟨[.drop], by simp [Server.run, step, Server.gone, current, windUp]⟩
  | some i =>
    obtain ⟨l, stood⟩ := h.listener_of_current current
    have stands : s.drop.listeners[i]? = some l.cancel := by
      rw [listeners_drop, getElem?_release]
      simp [stood, current]
    have ran := (h.step step).run_windUp stands rfl (resting i l stood).stage
    refine ⟨.drop :: l.cancel.closing.map (.task i), ?_⟩
    simp [Server.run, step, ran, Server.gone, current, windUp]

/-! ### What is open, and where it listens -/

def hasOpen (s : Server) (i c : Nat) : Bool := (s.listeners[i]?).any (·.connections.contains c)

theorem hasOpen_settledStart (s : Server) (result : Except String Endpoint) (j c : Nat) :
    (s.settledStart result).hasOpen j c = s.hasOpen j c := by
  unfold hasOpen
  rw [getElem?_settledStart]
  split
  · rename_i last
    subst last
    cases result <;> simp [Listener.bound, Listener.tell, Listener.close]
  · rfl

theorem hasOpen_of_idle (idle : ∀ (j : Nat) (l : Listener), s.listeners[j]? = some l → l.connections = [])
    (j c : Nat) : s.hasOpen j c = false := by
  unfold hasOpen
  cases stands : s.listeners[j]? with
  | none => rfl
  | some l => simp [idle j l stands]

theorem hasOpen_endConnection (s : Server) (i d j c : Nat) :
    (s.modify i (·.endConnection d)).hasOpen j c = (s.hasOpen j c && !decide (i = j ∧ c = d)) := by
  unfold hasOpen
  rw [getElem?_modify]
  cases s.listeners[j]? with
  | none => rfl
  | some l =>
    by_cases here : i = j
    · by_cases same : c = d <;> simp [here, same, Listener.endConnection]
    · simp [here]

theorem hasOpen_received (stands : s.listeners[i]? = some l) (j c : Nat) :
    (s.received i).hasOpen j c = (s.hasOpen j c || decide (i = j ∧ c = s.nextConnection)) := by
  have after := getElem?_modify s i j (·.take s.nextConnection)
  have listeners : (s.received i).listeners = (s.modify i (·.take s.nextConnection)).listeners := rfl
  unfold hasOpen
  rw [listeners, after]
  by_cases here : i = j
  · subst here
    by_cases same : c = s.nextConnection <;> simp [stands, same, Listener.take]
  · cases s.listeners[j]? <;> simp [here]

theorem localAddress_modify (s : Server) (i : Nat) {f : Listener → Listener}
    (keeps : ∀ l, (f l).address = l.address) : (s.modify i f).localAddress = s.localAddress := by
  unfold localAddress currentListener
  rw [current_modify]
  cases s.current with
  | none => rfl
  | some j =>
    rw [Option.bind_some, Option.bind_some, getElem?_modify]
    cases s.listeners[j]? with
    | none => rfl
    | some l =>
      by_cases here : i = j <;> simp [here, keeps]

theorem localAddress_received (s : Server) (i : Nat) : (s.received i).localAddress = s.localAddress :=
  localAddress_modify s i fun _ => rfl

theorem localAddress_settledStart (s : Server) (result : Except String Endpoint) :
    (s.settledStart result).localAddress = result.toOption := by
  have found := getElem?_settledStart s result s.listeners.length
  rw [if_pos rfl] at found
  have current : (s.settledStart result).current = some s.listeners.length := rfl
  simp only [localAddress, currentListener, current, Option.bind_some, found]
  cases result <;> rfl

/-- A server at rest listens somewhere exactly while it runs. -/
theorem Resting.isRunning_eq (h : s.Resting) (coherent : s.Coherent) :
    s.isRunning = s.localAddress.isSome := by
  rw [Bool.eq_iff_iff, isRunning_eq_true, Option.isSome_iff_exists]
  constructor
  · rintro ⟨i, l, current, stands, live⟩
    cases h i l stands with
    | serves stage _ =>
      obtain ⟨a, address, _⟩ := (coherent.listeners i l stands).started_of_listening stage
      exact ⟨a, localAddress_eq_some.mpr ⟨i, l, current, stands, address⟩⟩
    | ended _ told _ => exact absurd (live.symm.trans told) Bool.false_ne_true
  · rintro ⟨a, address⟩
    obtain ⟨i, l, current, stands, bound⟩ := localAddress_eq_some.mp address
    exact ⟨i, l, current, stands, coherent.live_of_address current stands bound⟩

end Server
end PushGateway
