import PushGateway.Proofs.Server.Rest
/-!
A run of a server without one of the connections that it took: every step of the others can be taken as
before, and leaves the server as it was but for that connection.
-/

namespace PushGateway

/-- The number of a connection when another one was never taken. -/
def renumber (c d : Nat) : Nat := if c < d then d - 1 else d

theorem renumber_inj {c d e : Nat} (other : d ≠ c) (other' : e ≠ c) : renumber c d = renumber c e ↔ d = e := by
  unfold renumber
  split <;> split <;> omega

theorem renumber_succ {c n : Nat} (other : n ≠ c) : renumber c (n + 1) = renumber c n + 1 := by
  simp only [renumber]
  by_cases before : c < n
  · rw [if_pos (Nat.lt_succ_of_lt before), if_pos before]
    omega
  · rw [if_neg (by omega), if_neg before]

theorem renumber_succ_self (c : Nat) : renumber c (c + 1) = renumber c c := by simp [renumber]

namespace Listener

variable {l l' : Listener} {c d : Nat}

/-- The listener as if it had never taken a connection. -/
def without (c : Nat) (l : Listener) : Listener :=
  { l with
    connections := (l.connections.filter (· ≠ c)).map (renumber c)
    tracker := { l.tracker with tasks := l.tracker.tasks - if l.connections.contains c then 1 else 0 } }

def Event.without? (c : Nat) : Event → Option Event
  | .accept d => if d = c then none else some (.accept (renumber c d))
  | .endConnection d => if d = c then none else some (.endConnection (renumber c d))
  | .cutConnection d => if d = c then none else some (.cutConnection (renumber c d))
  | e => some e

theorem mem_without (other : d ≠ c) : renumber c d ∈ (l.without c).connections ↔ d ∈ l.connections := by
  simp only [without, List.mem_map, List.mem_filter, decide_eq_true_eq]
  constructor
  · rintro ⟨e, ⟨member, apart⟩, same⟩
    exact (renumber_inj apart other).mp same ▸ member
  · intro member
    exact ⟨d, ⟨member, other⟩, rfl⟩

theorem without_endConnection (other : d ≠ c) :
    (l.endConnection d).without c = (l.without c).endConnection (renumber c d) := by
  have connections : ((l.connections.filter (· ≠ d)).filter (· ≠ c)).map (renumber c) =
      ((l.connections.filter (· ≠ c)).map (renumber c)).filter (· ≠ renumber c d) := by
    rw [List.filter_map, List.filter_filter, List.filter_filter]
    congr 1
    refine List.filter_congr fun e _ => ?_
    by_cases same : e = c
    · simp [same]
    · simp [same, renumber_inj same other]
  have counted : (l.connections.filter (· ≠ d)).contains c = l.connections.contains c := by
    simp [other.symm]
  simp only [without, endConnection, Tracker.finish, connections, counted, Nat.sub_right_comm]

theorem without_endConnection_self (isOpen : c ∈ l.connections) : (l.endConnection c).without c = l.without c := by
  have counted : (l.connections.filter (· ≠ c)).contains c = false := by simp
  have before : l.connections.contains c = true := List.contains_iff_mem.mpr isOpen
  simp only [without, endConnection, Tracker.finish, List.filter_filter, Bool.and_self, before, counted, if_true,
    Bool.false_eq_true, if_false, Nat.sub_zero]

theorem without_take_self (fresh : c ∉ l.connections) : (l.take c).without c = l.without c := by
  simp [without, take, Tracker.spawn, fresh]

theorem Coherent.without_take (h : l.Coherent) (other : d ≠ c) :
    (l.take d).without c = (l.without c).take (renumber c d) := by
  have counted : (if l.connections.contains c then 1 else 0) ≤ l.tracker.tasks := by
    split
    · rename_i member
      have tasks := h.tasks
      have busy := List.length_pos_of_mem (List.contains_iff_mem.mp member)
      omega
    · exact Nat.zero_le _
  have kept : (d :: l.connections).contains c = l.connections.contains c := by simp [other.symm]
  have connections : (d :: l.connections).filter (· ≠ c) = d :: l.connections.filter (· ≠ c) :=
    List.filter_cons_of_pos (decide_eq_true other)
  simp only [without, take, Tracker.spawn, kept, connections, List.map_cons, Nat.sub_add_comm counted]

theorem without_close (c : Nat) (l : Listener) : l.close.without c = (l.without c).close := by
  simp only [without, close, Tracker.finish, Nat.sub_right_comm]
  rfl

theorem without_bound (c : Nat) (l : Listener) (result : Except String Endpoint) :
    (l.bound result).without c = (l.without c).bound result := by
  cases result <;> rfl

theorem isDone_without (done : l.tracker.isDone = true) : (l.without c).tracker.isDone = true := by
  obtain ⟨closed, idle⟩ := of_decide_eq_true done
  exact decide_eq_true ⟨closed, by simp [without, idle]⟩

/-- A step that is not about the connection can be taken without it. -/
theorem Coherent.step_without (h : l.Coherent) {e e' : Event} (kept : e.without? c = some e')
    (step : l.step e = some l') : (l.without c).step e' = some (l'.without c) := by
  cases moves_of_step step with
  | bound stage result =>
    cases kept
    rw [without_bound]
    exact if_pos stage
  | listens address stage =>
    cases kept
    simp only [Listener.step, tell, without, stage]
  | fails cause stage =>
    cases kept
    have closed := without_close c l
    simp only [Listener.step, tell, show (l.without c).stage = .refused cause from stage, ← closed]
    rfl
  | accept stage d =>
    obtain ⟨other, ⟨⟩⟩ := Option.ite_none_left_eq_some.mp kept
    rw [h.without_take other]
    exact if_pos stage
  | close stage told =>
    cases kept
    rw [without_close]
    exact if_pos ⟨stage, told⟩
  | ends d isOpen =>
    obtain ⟨other, ⟨⟩⟩ := Option.ite_none_left_eq_some.mp kept
    rw [without_endConnection other]
    exact if_pos ((mem_without other).mpr isOpen)
  | cut d told isOpen =>
    obtain ⟨other, ⟨⟩⟩ := Option.ite_none_left_eq_some.mp kept
    rw [without_endConnection other]
    exact if_pos ⟨told, (mem_without other).mpr isOpen⟩
  | discard stage =>
    cases kept
    have gone : l.discard.without c = (l.without c).discard :=
      congrArg (fun m : Listener => { m with completion := l.completion.abandon }) (without_close c l)
    rw [gone]
    exact if_pos stage

theorem without_of_step {e : Event} (own : e.without? c = none) (fresh : e = .accept c → c ∉ l.connections)
    (step : l.step e = some l') : l'.without c = l.without c := by
  cases moves_of_step step with
  | accept stage d =>
    have same : d = c := by simpa [Event.without?] using own
    subst same
    exact without_take_self (fresh rfl)
  | ends d isOpen =>
    have same : d = c := by simpa [Event.without?] using own
    subst same
    exact without_endConnection_self isOpen
  | cut d told isOpen =>
    have same : d = c := by simpa [Event.without?] using own
    subst same
    exact without_endConnection_self isOpen
  | _ => cases own

end Listener

namespace Server

variable {s s' : Server} {c d : Nat} {e e' : Event} {es : List Event}

def without (c : Nat) (s : Server) : Server :=
  { s with
    listeners := s.listeners.map (·.without c)
    nextConnection := renumber c s.nextConnection }

def Event.without? (c : Nat) : Event → Option Event
  | .task i e => (e.without? c).map (.task i)
  | e => some e

theorem getElem?_without (c : Nat) (s : Server) (i : Nat) :
    (s.without c).listeners[i]? = (s.listeners[i]?).map (·.without c) :=
  List.getElem?_map

theorem currentListener_without (c : Nat) (s : Server) :
    (s.without c).currentListener = s.currentListener.map (·.without c) := by
  have current : (s.without c).current = s.current := rfl
  unfold currentListener
  rw [current]
  cases s.current with
  | none => rfl
  | some i => exact getElem?_without c s i

@[simp] theorem isRunning_without (c : Nat) (s : Server) : (s.without c).isRunning = s.isRunning := by
  unfold isRunning
  rw [currentListener_without]
  cases s.currentListener <;> rfl

@[simp] theorem localAddress_without (c : Nat) (s : Server) : (s.without c).localAddress = s.localAddress := by
  unfold localAddress
  rw [currentListener_without]
  cases s.currentListener <;> rfl

@[simp] theorem isTerminated_without (c : Nat) (s : Server) : (s.without c).isTerminated = s.isTerminated := rfl

theorem modify_without {i : Nat} {f g : Listener → Listener} (same : ∀ l, (f l).without c = g (l.without c)) :
    (s.modify i f).without c = (s.without c).modify i g := by
  have listeners : (s.listeners.modify i f).map (·.without c) = (s.listeners.map (·.without c)).modify i g := by
    refine List.ext_getElem? fun j => ?_
    simp only [List.getElem?_map, List.getElem?_modify]
    cases s.listeners[j]? with
    | none => rfl
    | some l => by_cases here : i = j <;> simp [here, same]
  simp only [without, modify, listeners]

theorem release_without {f : Listener → Listener} (same : ∀ l, (f l).without c = f (l.without c)) :
    (s.release f).without c = (s.without c).release f := by
  have current : (s.without c).current = s.current := rfl
  unfold release
  rw [current]
  cases s.current with
  | none => rfl
  | some i => exact congrArg (fun t : Server => { t with current := none }) (modify_without (i := i) same)

theorem opened_without (c : Nat) (s : Server) : s.opened.without c = (s.without c).opened := by
  simp only [opened, without, List.map_append, List.length_map]
  rfl

theorem start_without (c : Nat) (s : Server) : (s.without c).start = s.start.map (·.without c) := by
  have opened := opened_without c s
  unfold start
  rw [isRunning_without, isTerminated_without]
  split
  · rfl
  · split
    · rfl
    · exact congrArg Except.ok opened.symm

theorem isDrained_without {w : Stop} (drained : s.isDrained w = true) : (s.without c).isDrained w = true := by
  unfold isDrained at drained ⊢
  cases named : w.listener with
  | none => rfl
  | some i =>
    rw [named, Option.all_some, Option.any_eq_true] at drained
    obtain ⟨l, stands, done⟩ := drained
    simp [getElem?_without, stands, Listener.isDone_without done]

theorem shutdown_without (c : Nat) (s : Server) (thread : Thread) :
    (s.shutdown thread).without c = (s.without c).shutdown thread := by
  have released : (s.release .drain).without c = (s.without c).release .drain := release_without fun _ => rfl
  have stops : (s.without c).stops ++ [⟨(s.without c).current, (s.without c).stopCompletion thread⟩] =
      s.stops ++ [⟨s.current, s.stopCompletion thread⟩] := rfl
  simp only [shutdown, ← released, stops]
  rfl

theorem drop_without (c : Nat) (s : Server) : s.drop.without c = (s.without c).drop := by
  have released : (s.release .cancel).without c = (s.without c).release .cancel := release_without fun _ => rfl
  simp only [drop, ← released]
  rfl

theorem allows_without {event event' : Listener.Event} (kept : event.without? c = some event')
    (allowed : s.allows event = true) : (s.without c).allows event' = true ∧
      renumber c (s.nextConnection + taken event) = renumber c s.nextConnection + taken event' := by
  cases event with
  | accept d =>
    obtain ⟨other, ⟨⟩⟩ := Option.ite_none_left_eq_some.mp kept
    have next : d = s.nextConnection := of_decide_eq_true allowed
    exact ⟨decide_eq_true (congrArg (renumber c) next), renumber_succ (next ▸ other)⟩
  | endConnection d =>
    obtain ⟨_, ⟨⟩⟩ := Option.ite_none_left_eq_some.mp kept
    exact ⟨rfl, rfl⟩
  | cutConnection d =>
    obtain ⟨_, ⟨⟩⟩ := Option.ite_none_left_eq_some.mp kept
    exact ⟨rfl, rfl⟩
  | _ =>
    cases kept
    exact ⟨allowed, rfl⟩

theorem Coherent.step_without (h : s.Coherent) (kept : e.without? c = some e') (step : s.step e = some s') :
    (s.without c).step e' = some (s'.without c) := by
  cases moves_of_step step with
  | starts held idle alive =>
    cases kept
    rw [opened_without]
    exact step_start held ((isRunning_without c s).trans idle) alive
  | fails held error refused =>
    cases kept
    have held : (s.without c).dropped = false := held
    have same : (s.without c).start = .error error := by rw [start_without, refused]; rfl
    simp [Server.step, held, same, Except.toOption]
  | shutdown held thread =>
    cases kept
    rw [shutdown_without]
    exact if_neg (ne_true_of_eq_false held)
  | drop held =>
    cases kept
    rw [drop_without]
    exact if_neg (ne_true_of_eq_false held)
  | configure gateway =>
    cases kept
    rfl
  | task i event l l' stands moved allowed =>
    obtain ⟨event', rest, rfl⟩ := Option.map_eq_some_iff.mp kept
    obtain ⟨allowed, next⟩ := allows_without rest allowed
    have moved := (h.listeners i l stands).step_without rest moved
    have found : (s.without c).listeners[i]? = some (l.without c) := by rw [getElem?_without, stands]; rfl
    have modified : (s.modify i fun _ => l').without c = (s.without c).modify i fun _ => l'.without c :=
      modify_without fun _ => rfl
    simp only [Server.step, found, Option.bind_some, moved, allowed, if_true]
    rw [← modified]
    simp only [without, modify, next]
  | stopped k w stands drained =>
    cases kept
    have stands : (s.without c).stops[k]? = some w := stands
    exact step_stopped stands (isDrained_without drained)

/-- A step of the connection itself leaves the server as it was without it. -/
theorem Coherent.without_of_step (h : s.Coherent) (own : e.without? c = none) (step : s.step e = some s') :
    s'.without c = s.without c := by
  cases moves_of_step step with
  | task i event l l' stands moved allowed =>
    have own : event.without? c = none := Option.map_eq_none_iff.mp own
    have fresh : event = .accept c → c ∉ l.connections := by
      rintro rfl isOpen
      have next : c = s.nextConnection := of_decide_eq_true allowed
      exact absurd (h.numbered i l c stands isOpen) (by omega)
    have same := Listener.without_of_step own fresh moved
    have found : (s.without c).listeners[i]? = some (l.without c) := by rw [getElem?_without, stands]; rfl
    have modified : (s.modify i fun _ => l').without c = s.without c := by
      rw [modify_without (g := fun _ => l'.without c) fun _ => rfl, modify_congr (g := id) found same]
      simp [modify]
    have next : renumber c (s.nextConnection + taken event) = renumber c s.nextConnection := by
      cases event with
      | accept d =>
        have same : d = c := by simpa [Listener.Event.without?] using own
        have next : d = s.nextConnection := of_decide_eq_true allowed
        rw [← next, same]
        exact renumber_succ_self c
      | _ => rfl
    have listeners : (s.listeners.modify i fun _ => l').map (·.without c) = s.listeners.map (·.without c) :=
      congrArg Server.listeners modified
    simp only [without, next, modify, listeners]
  | _ => cases own

theorem Coherent.run_without (h : s.Coherent) (c : Nat) (run : s.run es = some s') :
    (s.without c).run (es.filterMap (Event.without? c)) = some (s'.without c) := by
  induction es generalizing s with
  | nil =>
    cases run
    rfl
  | cons e es ih =>
    obtain ⟨t, step, rest⟩ := Option.bind_eq_some_iff.mp run
    have later := ih (h.step step) rest
    cases kept : e.without? c with
    | none =>
      rw [h.without_of_step kept step] at later
      rwa [List.filterMap_cons_none kept]
    | some e' =>
      rw [List.filterMap_cons_some kept, Server.run, h.step_without kept step]
      exact later

theorem started?_without (c : Nat) (s : Server) (i : Nat) : (s.without c).started? i = s.started? i := by
  unfold started?
  rw [getElem?_without, Option.bind_map]
  rfl

theorem stopped?_without (c : Nat) (s : Server) (k : Nat) : (s.without c).stopped? k = s.stopped? k := rfl

theorem hasOpen_without (other : d ≠ c) (s : Server) (i : Nat) :
    (s.without c).hasOpen i (renumber c d) = s.hasOpen i d := by
  unfold hasOpen
  rw [getElem?_without, Option.any_map]
  congr 1
  funext l
  rw [Bool.eq_iff_iff, List.contains_iff_mem, List.contains_iff_mem]
  exact Listener.mem_without other

end Server
end PushGateway
