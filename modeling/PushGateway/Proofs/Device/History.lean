import Mathlib.Data.Set.Card
import PushGateway.Device.Registry
import PushGateway.Proofs.Table.Change

namespace PushGateway.DeviceRegistry

variable {τ : Type} {r : DeviceRegistry τ} {pairs : Finset (String × String)}

/-- The registry holds these pairs, each of them once, and no other. -/
structure Holds (r : DeviceRegistry τ) (pairs : Finset (String × String)) : Prop where
  once : (r.entries.map Prod.fst).Nodup
  pairs : (r.entries.map Prod.fst).toFinset = pairs

theorem holds_empty : Holds (.empty : DeviceRegistry τ) ∅ := ⟨List.nodup_nil, rfl⟩

theorem Holds.size_eq (h : Holds r pairs) : r.size = pairs.card := by
  rw [← h.pairs, List.toFinset_card_of_nodup h.once, List.length_map]
  rfl

theorem Holds.register (h : Holds r pairs) (topic token : String) (expiration : Option τ) :
    Holds (r.register topic token expiration) (insert (topic, token) pairs) := by
  constructor
  · refine List.nodup_cons.mpr ⟨?_, h.once.sublist (List.filter_sublist.map Prod.fst)⟩
    intro member
    obtain ⟨e, kept, same⟩ := List.mem_map.mp member
    exact of_decide_eq_true (List.mem_filter.mp kept).2 same
  · ext pair
    simp only [DeviceRegistry.register, ← h.pairs, List.map_cons, List.toFinset_cons, Finset.mem_insert,
      List.mem_toFinset, List.mem_map, List.mem_filter]
    grind

inductive Call (τ : Type := UnixTime) where
  | register (topic token : String) (expiration : Option τ)
  | clear
  deriving DecidableEq, Repr

def step (r : DeviceRegistry τ) : Call τ → DeviceRegistry τ
  | .register topic token expiration => r.register topic token expiration
  | .clear => .empty

def run (r : DeviceRegistry τ) (calls : List (Call τ)) : DeviceRegistry τ := calls.foldl step r

theorem run_append (r : DeviceRegistry τ) (first second : List (Call τ)) :
    r.run (first ++ second) = (r.run first).run second := List.foldl_append

section Replay

open Table

/-- What a call does to the entries: a registration enters its own in place of the one of its pair. -/
def Call.change : Call τ → Change ((String × String) × Expiration τ)
  | .register topic token expiration =>
    .put ((topic, token), .ofOption expiration) (fun e => e.1 ≠ (topic, token)) (by simp)
  | .clear => .wipe

theorem entries_step (r : DeviceRegistry τ) (c : Call τ) : (r.step c).entries = c.change.apply r.entries := by
  cases c with
  | register topic token expiration => rfl
  | clear => exact (Change.apply_wipe _).symm

theorem entries_run (r : DeviceRegistry τ) (calls : List (Call τ)) :
    (r.run calls).entries = Change.run r.entries (calls.map Call.change) := by
  induction calls generalizing r with
  | nil => rfl
  | cons c calls ih =>
    have later := ih (r.step c)
    rw [entries_step] at later
    exact later

theorem run_run (r : DeviceRegistry τ) (calls : List (Call τ)) : (r.run calls).run calls = r.run calls := by
  have entries : ((r.run calls).run calls).entries = (r.run calls).entries := by
    rw [entries_run _ calls, entries_run r calls, Change.run_run]
  exact congrArg DeviceRegistry.mk entries

end Replay

theorem Holds.mem_iff (h : Holds r pairs) (topic token : String) :
    (topic, token) ∈ pairs ↔ r.isRegistered token topic := by
  rw [← h.pairs, isRegistered, expiration, List.mem_toFinset]
  induction r.entries with
  | nil => simp
  | cons e es ih =>
    obtain ⟨pair, stored⟩ := e
    simp only [List.map_cons, List.mem_cons, ih, List.lookup_cons]
    by_cases same : (topic, token) = pair
    · simp [same]
    · simp [same, beq_false_of_ne same]

theorem Holds.size_register (h : Holds r pairs) (topic token : String) (expiration : Option τ) :
    (r.register topic token expiration).size = if r.isRegistered token topic then r.size else r.size + 1 := by
  rw [(h.register topic token expiration).size_eq, h.size_eq]
  have known := h.mem_iff topic token
  split
  · next present => rw [Finset.insert_eq_of_mem (known.mpr present)]
  · next absent => rw [Finset.card_insert_of_notMem (mt known.mp absent)]

section History

variable {calls : List (Call τ)} {c x : Call τ} {stays : Call τ → Prop} {topic token : String} {given : Option τ}

theorem ofOption_injective : Function.Injective (Expiration.ofOption : Option τ → Expiration τ) := by
  intro a b same
  cases a <;> cases b <;> cases same <;> rfl

theorem ofOption_surjective : Function.Surjective (Expiration.ofOption : Option τ → Expiration τ)
  | .never => ⟨none, rfl⟩
  | .at time => ⟨some time, rfl⟩

theorem run_snoc (calls : List (Call τ)) (c : Call τ) :
    run .empty (calls ++ [c]) = (run .empty calls).step c := run_append .empty calls [c]

theorem holds_history (calls : List (Call τ)) : ∃ pairs, Holds (run .empty calls) pairs := by
  induction calls using List.reverseRecOn with
  | nil => exact ⟨∅, holds_empty⟩
  | append_singleton calls c ih =>
    obtain ⟨pairs, holds⟩ := ih
    rw [run_snoc]
    cases c with
    | register topic token expiration => exact ⟨_, holds.register topic token expiration⟩
    | clear => exact ⟨∅, holds_empty⟩

def Stands (x : Call τ) (stays : Call τ → Prop) (calls : List (Call τ)) : Prop :=
  ∃ before after, calls = before ++ x :: after ∧ ∀ d ∈ after, stays d

def Registers (calls : List (Call τ)) (topic token : String) : Prop :=
  ∃ given, Stands (.register topic token given) (· ≠ .clear) calls

def LastGiven (calls : List (Call τ)) (topic token : String) (given : Option τ) : Prop :=
  Stands (.register topic token given) (fun d => d ≠ .clear ∧ ∀ other, d ≠ .register topic token other) calls

theorem stands_snoc : Stands x stays (calls ++ [c]) ↔ c = x ∨ stays c ∧ Stands x stays calls := by
  constructor
  · rintro ⟨before, after, cut, kept⟩
    obtain rfl | ⟨after, d, rfl⟩ := List.eq_nil_or_concat after
    · exact .inl (List.singleton_inj.mp (List.append_inj' cut rfl).2)
    · rw [List.concat_eq_append, ← List.cons_append, ← List.append_assoc] at cut
      obtain ⟨earlier, last⟩ := List.append_inj' cut rfl
      cases last
      exact .inr ⟨kept c (by simp), before, after, earlier, fun d member => kept d (by simp [member])⟩
  · rintro (rfl | ⟨own, before, after, rfl, kept⟩)
    · exact ⟨calls, [], rfl, nofun⟩
    · refine ⟨before, after ++ [c], by simp, ?_⟩
      intro d member
      rcases List.mem_append.mp member with earlier | last
      · exact kept d earlier
      · exact List.mem_singleton.mp last ▸ own

theorem not_stands_nil : ¬ Stands x stays [] := by
  rintro ⟨before, after, cut, -⟩
  simp at cut

theorem registers_iff_lastGiven : Registers calls topic token ↔ ∃ given, LastGiven calls topic token given := by
  unfold Registers LastGiven
  induction calls using List.reverseRecOn with
  | nil => simp only [not_stands_nil]
  | append_singleton calls c ih =>
    simp only [stands_snoc, exists_or, exists_and_left, ih]
    grind

theorem expiration_run (calls : List (Call τ)) (topic token : String) (given : Option τ) :
    (run .empty calls).expiration token topic = some (.ofOption given) ↔ LastGiven calls topic token given := by
  -- from the last call back: it gives the expiration, takes every one away, or lets the earlier calls decide
  induction calls using List.reverseRecOn with
  | nil => simp [LastGiven, not_stands_nil, run, expiration, empty]
  | append_singleton calls c ih =>
    rw [run_snoc, LastGiven, stands_snoc, ← LastGiven, ← ih]
    cases c with
    | clear => simp [step, expiration, empty]
    | register topic' token' given' =>
      rw [step, expiration_register]
      by_cases same : (topic, token) = (topic', token')
      · cases same
        simp [ofOption_injective.eq_iff]
      · have apart : ∀ g, Call.register topic' token' given' ≠ .register topic token g := by
          intro g equal
          cases equal
          exact same rfl
        rw [if_neg same]
        simp [apart]

theorem isRegistered_run (calls : List (Call τ)) (topic token : String) :
    (run .empty calls).isRegistered token topic ↔ Registers calls topic token := by
  rw [isRegistered, Option.isSome_iff_exists, ofOption_surjective.exists, registers_iff_lastGiven]
  simp only [expiration_run]

/-- After any history of registrations and clears: a pair has the expiration that it was given last, and is
registered, exactly when it was registered after the last clear. There are as many entries as such pairs; one
more registration adds one when its pair is new and none when it is not. -/
theorem answers_run (calls : List (Call τ)) :
    (∀ topic token time, (run .empty calls).expiration token topic = some (.at time) ↔
      LastGiven calls topic token (some time)) ∧
    (∀ topic token, (run .empty calls).expiration token topic = some .never ↔
      LastGiven calls topic token none) ∧
    (∀ topic token, (run .empty calls).expiration token topic = none ↔ ¬ Registers calls topic token) ∧
    (∀ topic token, (run .empty calls).isRegistered token topic ↔ Registers calls topic token) ∧
    (run .empty calls).size = {pair : String × String | Registers calls pair.1 pair.2}.ncard ∧
    (∀ topic token given, (run .empty (calls ++ [.register topic token given])).size =
      if (run .empty calls).isRegistered token topic then (run .empty calls).size
      else (run .empty calls).size + 1) ∧
    ((run .empty calls).isEmpty ↔ ∀ topic token, ¬ Registers calls topic token) := by
  obtain ⟨pairs, holds⟩ := holds_history calls
  have members (topic token : String) : (topic, token) ∈ pairs ↔ Registers calls topic token :=
    (holds.mem_iff topic token).trans (isRegistered_run calls topic token)
  refine ⟨fun topic token time => expiration_run calls topic token (some time),
    fun topic token => expiration_run calls topic token none, ?_, isRegistered_run calls, ?_, ?_, ?_⟩
  · intro topic token
    rw [← isRegistered_run, isRegistered, Bool.not_eq_true, Option.isSome_eq_false_iff, Option.isNone_iff_eq_none]
  · have same : {pair : String × String | Registers calls pair.1 pair.2} = (pairs : Set (String × String)) := by
      ext pair
      exact (members pair.1 pair.2).symm
    rw [holds.size_eq, same, Set.ncard_coe_finset]
  · intro topic token given
    rw [run_snoc]
    exact holds.size_register topic token given
  · rw [isEmpty, decide_eq_true_iff, holds.size_eq, Finset.card_eq_zero, Finset.eq_empty_iff_forall_notMem]
    simp [Prod.forall, members]

end History

end PushGateway.DeviceRegistry
