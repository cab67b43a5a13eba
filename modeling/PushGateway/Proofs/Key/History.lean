import Mathlib.Data.Set.Card
import PushGateway.Key.Registry

namespace PushGateway

theorem toOption_eq_some {ε α : Type} {x : Except ε α} {a : α} : x.toOption = some a ↔ x = .ok a := by
  cases x <;> simp [Except.toOption]

theorem nodup_eraseDups (xs : List String) : xs.eraseDups.Nodup := by
  match xs with
  | [] => simp
  | x :: xs =>
    rw [List.eraseDups_cons, List.nodup_cons]
    exact ⟨by simp [List.mem_eraseDups], nodup_eraseDups (xs.filter fun y => !y == x)⟩
termination_by xs.length
decreasing_by exact Nat.lt_succ_of_le (List.length_filter_le ..)

theorem nodup_topicSet (topics : List String) : (topicSet topics).Nodup :=
  (List.mergeSort_perm ..).nodup_iff.mpr (nodup_eraseDups topics)

def KeyRegistration.verifier? (q : KeyRegistration) : Option Verifier :=
  (Verifier.new q.algorithm q.material).toOption

def KeyRegistration.record (q : KeyRegistration) (v : Verifier) : KeyRecord := ⟨q.keyId, q.team, v⟩

namespace KeyRegistry

inductive Call where
  | register (q : KeyRegistration)
  | clear
  deriving DecidableEq, Repr

def Call.succeeds : Call → Bool
  | .register q => q.verifier?.isSome
  | .clear => true

/-- The registry after a call; a failed registration leaves the registry it found. -/
def step (r : KeyRegistry) : Call → KeyRegistry
  | .register q =>
    match r.register q with
    | .ok r' => r'
    | .error _ => r
  | .clear => .empty

def run (r : KeyRegistry) (calls : List Call) : KeyRegistry := calls.foldl step r

/-- The call at position `i` succeeds in registering `q`, and after it nothing is cleared and no rival
of `q` is registered with success. -/
structure StandsAt (rival : KeyRegistration → KeyRegistration → Prop) (calls : List Call) (i : Nat)
    (q : KeyRegistration) (v : Verifier) : Prop where
  call : calls[i]? = some (.register q)
  accepted : q.verifier? = some v
  uncleared : ∀ j, i < j → calls[j]? ≠ some .clear
  unrivalled : ∀ j q', i < j → calls[j]? = some (.register q') → q'.verifier?.isSome → ¬ rival q' q

/-- A registration is live until its key id is taken or its team registers again. -/
abbrev LiveAt (calls : List Call) (i : Nat) (q : KeyRegistration) (v : Verifier) : Prop :=
  StandsAt (fun q' q => q'.keyId = q.keyId ∨ q'.team = q.team) calls i q v

abbrev NewestAt (calls : List Call) (i : Nat) (q : KeyRegistration) (v : Verifier) : Prop :=
  StandsAt (fun q' q => q'.team = q.team) calls i q v

section History

variable {rival : KeyRegistration → KeyRegistration → Prop} {calls : List Call} {c : Call} {i : Nat}
  {q q₀ : KeyRegistration} {v v₀ : Verifier}

theorem StandsAt.lt_length (h : StandsAt rival calls i q v) : i < calls.length :=
  (List.getElem?_eq_some_iff.mp h.call).1

theorem getElem?_snoc {j : Nat} {d : Call} :
    (calls ++ [c])[j]? = some d ↔ calls[j]? = some d ∨ (j = calls.length ∧ c = d) := by
  rcases Nat.lt_trichotomy j calls.length with before | rfl | after
  · rw [List.getElem?_append_left before]
    have other : j ≠ calls.length := by omega
    simp [other]
  · simp
  · have nothing : calls[j]? = none := List.getElem?_eq_none (by omega)
    have other : j ≠ calls.length := by omega
    have past : (calls ++ [c])[j]? = none := List.getElem?_eq_none (by simp; omega)
    simp [nothing, past, other]

theorem standsAt_snoc :
    StandsAt rival (calls ++ [c]) i q v ↔
      (i = calls.length ∧ c = .register q ∧ q.verifier? = some v) ∨
      (StandsAt rival calls i q v ∧ c ≠ .clear ∧
        ∀ q', c = .register q' → q'.verifier?.isSome → ¬ rival q' q) := by
  constructor
  · intro h
    rcases getElem?_snoc.mp h.call with old | ⟨new, made⟩
    · have before := (List.getElem?_eq_some_iff.mp old).1
      refine .inr ⟨⟨old, h.accepted, ?_, ?_⟩, ?_, ?_⟩
      · intro j hj hd
        exact h.uncleared j hj (getElem?_snoc.mpr (.inl hd))
      · intro j q' hj hd
        exact h.unrivalled j q' hj (getElem?_snoc.mpr (.inl hd))
      · intro hc
        exact h.uncleared _ before (getElem?_snoc.mpr (.inr ⟨rfl, hc⟩))
      · intro q' hc
        exact h.unrivalled _ q' before (getElem?_snoc.mpr (.inr ⟨rfl, hc⟩))
    · exact .inl ⟨new, made, h.accepted⟩
  · rintro (⟨rfl, rfl, accepted⟩ | ⟨h, uncleared, unrivalled⟩)
    · -- nothing comes after the new call itself
      have last : ∀ j d, calls.length < j → (calls ++ [.register q])[j]? ≠ some d := by
        intro j d hj hd
        have bound := (List.getElem?_eq_some_iff.mp hd).1
        rw [List.length_append, List.length_singleton] at bound
        omega
      refine ⟨getElem?_snoc.mpr (.inr ⟨rfl, rfl⟩), accepted, ?_, ?_⟩
      · intro j hj
        exact last j _ hj
      · intro j q' hj hd
        exact absurd hd (last j _ hj)
    · refine ⟨getElem?_snoc.mpr (.inl h.call), h.accepted, ?_, ?_⟩
      · intro j hj hd
        rcases getElem?_snoc.mp hd with hd | ⟨_, hc⟩
        · exact h.uncleared j hj hd
        · exact uncleared hc
      · intro j q' hj hd
        rcases getElem?_snoc.mp hd with hd | ⟨_, hc⟩
        · exact h.unrivalled j q' hj hd
        · exact unrivalled q' hc

theorem standsAt_clear : ¬ StandsAt rival (calls ++ [.clear]) i q v := by
  intro h
  rcases standsAt_snoc.mp h with ⟨_, impossible, _⟩ | ⟨_, impossible, _⟩
  · cases impossible
  · exact impossible rfl

theorem standsAt_failed (failed : q₀.verifier? = none) :
    StandsAt rival (calls ++ [.register q₀]) i q v ↔ StandsAt rival calls i q v := by
  rw [standsAt_snoc]
  constructor
  · rintro (⟨_, made, accepted⟩ | ⟨h, _⟩)
    · cases made
      rw [failed] at accepted
      cases accepted
    · exact h
  · intro h
    refine .inr ⟨h, nofun, ?_⟩
    intro q' made succeeded
    cases made
    simp [failed] at succeeded

theorem standsAt_registered (accepted : q₀.verifier? = some v₀) :
    StandsAt rival (calls ++ [.register q₀]) i q v ↔
      (i = calls.length ∧ q = q₀ ∧ v = v₀) ∨ (StandsAt rival calls i q v ∧ ¬ rival q₀ q) := by
  rw [standsAt_snoc]
  constructor
  · rintro (⟨hi, made, hv⟩ | ⟨h, _, unrivalled⟩)
    · cases made
      exact .inl ⟨hi, rfl, Option.some.inj (hv.symm.trans accepted)⟩
    · exact .inr ⟨h, unrivalled q₀ rfl (by simp [accepted])⟩
  · rintro (⟨hi, rfl, rfl⟩ | ⟨h, unrivalled⟩)
    · exact .inl ⟨hi, rfl, accepted⟩
    · refine .inr ⟨h, nofun, ?_⟩
      intro q' made _
      cases made
      exact unrivalled

/-- Of two registrations that rival each other only one stands. -/
theorem StandsAt.unique {j : Nat} {q' : KeyRegistration} {v' : Verifier} (h : StandsAt rival calls i q v)
    (h' : StandsAt rival calls j q' v') (forth : rival q q') (back : rival q' q) :
    i = j ∧ q = q' ∧ v = v' := by
  rcases Nat.lt_trichotomy i j with lt | rfl | lt
  · exact absurd back (h.unrivalled j q' lt h'.call (by simp [h'.accepted]))
  · have hq : q = q' := Call.register.inj (Option.some.inj (h.call.symm.trans h'.call))
    subst hq
    exact ⟨rfl, rfl, Option.some.inj (h.accepted.symm.trans h'.accepted)⟩
  · exact absurd forth (h'.unrivalled i q lt h.call (by simp [h.accepted]))

theorem LiveAt.newest (h : LiveAt calls i q v) : NewestAt calls i q v where
  call := h.call
  accepted := h.accepted
  uncleared := h.uncleared
  unrivalled := fun j q' hj hc accepted own => h.unrivalled j q' hj hc accepted (.inr own)

end History

section Registry

variable {r : KeyRegistry} {calls : List Call} {live : List (Nat × KeyRegistration × Verifier)}
  {q : KeyRegistration} {v : Verifier}

theorem verifier?_eq_some : q.verifier? = some v ↔ Verifier.new q.algorithm q.material = .ok v :=
  toOption_eq_some

theorem register_accepted (accepted : q.verifier? = some v) :
    r.register q = .ok (r.insert (q.record v) q.topics) := by
  unfold register
  rw [verifier?_eq_some.mp accepted]
  rfl

theorem register_refused (refused : q.verifier? = none) : ∃ e, r.register q = .error e := by
  unfold register
  cases hv : Verifier.new q.algorithm q.material with
  | error e => exact ⟨e, rfl⟩
  | ok v =>
    have accepted := verifier?_eq_some.mpr hv
    rw [refused] at accepted
    cases accepted

theorem step_accepted (accepted : q.verifier? = some v) :
    r.step (.register q) = r.insert (q.record v) q.topics := by
  simp only [step, register_accepted accepted]

theorem step_refused (refused : q.verifier? = none) : r.step (.register q) = r := by
  obtain ⟨e, he⟩ := register_refused (r := r) refused
  simp only [step, he]

theorem run_append (r : KeyRegistry) (first second : List Call) :
    r.run (first ++ second) = (r.run first).run second := List.foldl_append

theorem run_snoc (c : Call) : r.run (calls ++ [c]) = (r.run calls).step c := run_append r calls [c]

theorem run_filter_succeeds (r : KeyRegistry) (calls : List Call) :
    r.run (calls.filter Call.succeeds) = r.run calls := by
  induction calls generalizing r with
  | nil => rfl
  | cons c calls ih =>
    by_cases h : c.succeeds
    · rw [List.filter_cons_of_pos h]
      exact ih (r.step c)
    · rw [List.filter_cons_of_neg h]
      cases c with
      | clear => exact absurd rfl h
      | register q =>
        have refused : q.verifier? = none := by simpa [Call.succeeds] using h
        have idle : r.run (.register q :: calls) = r.run calls := by
          simp only [run, List.foldl_cons, step_refused refused]
        exact (ih r).trans idle.symm

structure Reflects (calls : List Call) (live : List (Nat × KeyRegistration × Verifier))
    (r : KeyRegistry) : Prop where
  records : r.records = live.map fun e => e.2.1.record e.2.2
  mem : ∀ i q v, (i, q, v) ∈ live ↔ LiveAt calls i q v
  distinct : (live.map Prod.fst).Nodup
  topics : ∀ team topics, r.topics team = some topics ↔
    ∃ i q v, NewestAt calls i q v ∧ q.team = team ∧ topicSet q.topics = topics

theorem reflects_empty
    (nothing : ∀ (rival : KeyRegistration → KeyRegistration → Prop) i q v, ¬ StandsAt rival calls i q v) :
    Reflects calls [] .empty := by
  constructor
  · rfl
  · intro i q v
    exact ⟨nofun, fun h => absurd h (nothing _ i q v)⟩
  · exact List.nodup_nil
  · intro team topics
    constructor
    · nofun
    · rintro ⟨i, q, v, h, _⟩
      exact absurd h (nothing _ i q v)

theorem reflects_refused (h : Reflects calls live r)
    (refused : q.verifier? = none) : Reflects (calls ++ [.register q]) live r := by
  constructor
  · exact h.records
  · intro i q' v'
    exact (h.mem i q' v').trans (standsAt_failed refused).symm
  · exact h.distinct
  · intro team topics
    simp only [h.topics, standsAt_failed refused]

def liveAfter (position : Nat) (q : KeyRegistration) (v : Verifier)
    (live : List (Nat × KeyRegistration × Verifier)) : List (Nat × KeyRegistration × Verifier) :=
  (position, q, v) :: live.filter fun e => e.2.1.team ≠ q.team ∧ e.2.1.keyId ≠ q.keyId

theorem mem_liveAfter (h : Reflects calls live r) (i : Nat) (q' : KeyRegistration) (v' : Verifier) :
    (i, q', v') ∈ liveAfter calls.length q v live ↔
      (i = calls.length ∧ q' = q ∧ v' = v) ∨
      (LiveAt calls i q' v' ∧ ¬ (q.keyId = q'.keyId ∨ q.team = q'.team)) := by
  have kept : (i, q', v') ∈ live.filter (fun e => e.2.1.team ≠ q.team ∧ e.2.1.keyId ≠ q.keyId) ↔
      LiveAt calls i q' v' ∧ ¬ (q.keyId = q'.keyId ∨ q.team = q'.team) := by
    simp only [List.mem_filter, h.mem, decide_eq_true_eq]
    grind
  rw [liveAfter, List.mem_cons, kept]
  simp only [Prod.mk.injEq]

theorem nodup_liveAfter (h : Reflects calls live r) :
    ((liveAfter calls.length q v live).map Prod.fst).Nodup := by
  have fresh : calls.length ∉ (live.filter fun e =>
      e.2.1.team ≠ q.team ∧ e.2.1.keyId ≠ q.keyId).map Prod.fst := by
    intro hm
    obtain ⟨⟨i, q', v'⟩, he, hi⟩ := List.mem_map.mp hm
    have old := ((h.mem i q' v').mp (List.mem_filter.mp he).1).lt_length
    exact absurd hi (Nat.ne_of_lt old)
  refine List.nodup_cons.mpr ⟨fresh, ?_⟩
  exact h.distinct.sublist (List.filter_sublist.map Prod.fst)

theorem reflects_accepted (h : Reflects calls live r) (accepted : q.verifier? = some v) :
    Reflects (calls ++ [.register q]) (liveAfter calls.length q v live)
      (r.insert (q.record v) q.topics) := by
  constructor
  · simp only [insert, liveAfter, h.records, List.map_cons, List.filter_map]
    rfl
  · intro i q' v'
    exact (mem_liveAfter h i q' v').trans (standsAt_registered accepted).symm
  · exact nodup_liveAfter h
  · intro team topics
    rw [topics_insert]
    simp only [standsAt_registered accepted]
    by_cases own : team = q.team
    · subst own
      rw [if_pos (show q.team = (q.record v).team from rfl)]
      constructor
      · intro ht
        exact ⟨calls.length, q, v, .inl ⟨rfl, rfl, rfl⟩, rfl, Option.some.inj ht⟩
      · rintro ⟨i, q', v', ⟨_, rfl, _⟩ | ⟨_, other⟩, team, ht⟩
        · exact congrArg some ht
        · exact absurd team.symm other
    · rw [if_neg (show team ≠ (q.record v).team from own), h.topics]
      constructor
      · rintro ⟨i, q', v', stands, rfl, ht⟩
        exact ⟨i, q', v', .inr ⟨stands, fun same => own same.symm⟩, rfl, ht⟩
      · rintro ⟨i, q', v', ⟨_, rfl, _⟩ | ⟨stands, _⟩, team, ht⟩
        · exact absurd team.symm own
        · exact ⟨i, q', v', stands, team, ht⟩

theorem reflects_run (calls : List Call) : ∃ live, Reflects calls live (run .empty calls) := by
  -- calls are added at the end: only a later call decides whether an earlier one still stands
  induction calls using List.reverseRecOn with
  | nil =>
    refine ⟨[], reflects_empty ?_⟩
    intro rival i q v h
    exact absurd h.lt_length (Nat.not_lt_zero i)
  | append_singleton calls c ih =>
    obtain ⟨live, h⟩ := ih
    rw [run_snoc]
    cases c with
    | clear => exact ⟨[], reflects_empty fun _ _ _ _ => standsAt_clear⟩
    | register q =>
      cases accepted : q.verifier? with
      | none =>
        rw [step_refused accepted]
        exact ⟨live, reflects_refused h accepted⟩
      | some v =>
        rw [step_accepted accepted]
        exact ⟨_, reflects_accepted h accepted⟩

theorem Reflects.key_eq_some (h : Reflects calls live r)
    (k : String) (record : KeyRecord) :
    r.key k = some record ↔ ∃ i q v, LiveAt calls i q v ∧ q.keyId = k ∧ q.record v = record := by
  unfold key
  rw [h.records]
  constructor
  · intro found
    have named : record.keyId = k := by simpa using List.find?_some found
    obtain ⟨⟨i, q, v⟩, listed, rfl⟩ := List.mem_map.mp (List.mem_of_find?_eq_some found)
    exact ⟨i, q, v, (h.mem i q v).mp listed, named, rfl⟩
  · rintro ⟨i, q, v, stands, named, rfl⟩
    have listed : q.record v ∈ live.map fun e => e.2.1.record e.2.2 :=
      List.mem_map.mpr ⟨(i, q, v), (h.mem i q v).mpr stands, rfl⟩
    cases found : (live.map fun e => e.2.1.record e.2.2).find? (fun e => e.keyId = k) with
    | none =>
      have missing := List.find?_eq_none.mp found (q.record v) listed
      exact absurd (decide_eq_true named) missing
    | some other =>
      -- two records under one key id come from one live registration
      have named' : other.keyId = k := by simpa using List.find?_some found
      obtain ⟨⟨j, q', v'⟩, listed', rfl⟩ := List.mem_map.mp (List.mem_of_find?_eq_some found)
      have same : q'.keyId = q.keyId := named'.trans named.symm
      obtain ⟨_, rfl, rfl⟩ := ((h.mem j q' v').mp listed').unique stands (.inl same) (.inl same.symm)
      rfl

theorem Reflects.verifier_eq_some (h : Reflects calls live r) (k : String) (v : Verifier) :
    r.verifier k = some v ↔ ∃ i q, LiveAt calls i q v ∧ q.keyId = k := by
  simp only [verifier, Option.map_eq_some_iff, h.key_eq_some]
  constructor
  · rintro ⟨_, ⟨i, q, v, stands, named, rfl⟩, rfl⟩
    exact ⟨i, q, stands, named⟩
  · rintro ⟨i, q, stands, named⟩
    exact ⟨q.record v, ⟨i, q, v, stands, named, rfl⟩, rfl⟩

theorem Reflects.team_eq_some (h : Reflects calls live r) (k team : String) :
    r.team k = some team ↔ ∃ i q v, LiveAt calls i q v ∧ q.keyId = k ∧ q.team = team := by
  simp only [KeyRegistry.team, Option.map_eq_some_iff, h.key_eq_some]
  constructor
  · rintro ⟨_, ⟨i, q, v, stands, named, rfl⟩, rfl⟩
    exact ⟨i, q, v, stands, named, rfl⟩
  · rintro ⟨i, q, v, stands, named, rfl⟩
    exact ⟨q.record v, ⟨i, q, v, stands, named, rfl⟩, rfl⟩

theorem Reflects.key_eq_none (h : Reflects calls live r)
    {k : String} (none : ¬ ∃ i q v, LiveAt calls i q v ∧ q.keyId = k) : r.key k = .none := by
  refine Option.eq_none_iff_forall_ne_some.mpr ?_
  intro record found
  obtain ⟨i, q, v, stands, named, _⟩ := (h.key_eq_some k record).mp found
  exact none ⟨i, q, v, stands, named⟩

theorem Reflects.topics_eq_none (h : Reflects calls live r) {team : String}
    (none : ¬ ∃ i q v, NewestAt calls i q v ∧ q.team = team) : r.topics team = .none := by
  refine Option.eq_none_iff_forall_ne_some.mpr ?_
  intro topics found
  obtain ⟨i, q, v, stands, own, _⟩ := (h.topics team topics).mp found
  exact none ⟨i, q, v, stands, own⟩

theorem Reflects.size_eq (h : Reflects calls live r) :
    r.size = {i | ∃ q v, LiveAt calls i q v}.ncard := by
  have positions : {i | ∃ q v, LiveAt calls i q v} = ((live.map Prod.fst).toFinset : Set Nat) := by
    ext i
    constructor
    · rintro ⟨q, v, stands⟩
      have listed := (h.mem i q v).mpr stands
      simpa using ⟨q, v, listed⟩
    · intro hi
      obtain ⟨⟨j, q, v⟩, listed, rfl⟩ := List.mem_map.mp (List.mem_toFinset.mp hi)
      exact ⟨q, v, (h.mem j q v).mp listed⟩
  rw [positions, Set.ncard_coe_finset, List.toFinset_card_of_nodup h.distinct, size, h.records]
  simp only [List.length_map]

end Registry

/-- After any history of registrations, failed ones among them, and clears: a key id leads to its live
registration and to nothing else, a team to the topics of its last registration since the last clear,
and there are as many keys as live registrations. Failed calls leave no trace. -/
theorem lookup_run (calls : List Call) :
    (∀ k record, (run .empty calls).key k = some record ↔
      ∃ i q v, LiveAt calls i q v ∧ q.keyId = k ∧ q.record v = record) ∧
    (∀ k v, (run .empty calls).verifier k = some v ↔ ∃ i q, LiveAt calls i q v ∧ q.keyId = k) ∧
    (∀ k team, (run .empty calls).team k = some team ↔
      ∃ i q v, LiveAt calls i q v ∧ q.keyId = k ∧ q.team = team) ∧
    (∀ k, (¬ ∃ i q v, LiveAt calls i q v ∧ q.keyId = k) →
      (run .empty calls).key k = none ∧ (run .empty calls).verifier k = none ∧
        (run .empty calls).team k = none) ∧
    (∀ i q v, NewestAt calls i q v → ∃ topics, (run .empty calls).topics q.team = some topics ∧
      topics.Nodup ∧ ∀ topic, topic ∈ topics ↔ topic ∈ q.topics) ∧
    (∀ team, (¬ ∃ i q v, NewestAt calls i q v ∧ q.team = team) →
      (run .empty calls).topics team = none) ∧
    (run .empty calls).size = {i | ∃ q v, LiveAt calls i q v}.ncard ∧
    run .empty (calls.filter Call.succeeds) = run .empty calls := by
  obtain ⟨live, h⟩ := reflects_run calls
  refine ⟨h.key_eq_some, h.verifier_eq_some, h.team_eq_some, ?_, ?_, ?_, h.size_eq,
    run_filter_succeeds .empty calls⟩
  · intro k none
    have unknown := h.key_eq_none none
    exact ⟨unknown, by simp [verifier, unknown], by simp [team, unknown]⟩
  · intro i q v newest
    exact ⟨topicSet q.topics, (h.topics _ _).mpr ⟨i, q, v, newest, rfl, rfl⟩, nodup_topicSet q.topics,
      fun _ => mem_topicSet⟩
  · intro team none
    exact h.topics_eq_none none

end KeyRegistry
end PushGateway
