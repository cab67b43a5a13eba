import PushGateway.Proofs.Key.Isolation
import PushGateway.Proofs.Table.Change

namespace PushGateway.KeyRegistry

open Table

/-- What a call does to the records: an accepted registration enters its own in place of those of its team
and the one under its key id. -/
def Call.recordChange : Call → Change KeyRecord
  | .register q =>
    match q.verifier? with
    | none => .idle
    | some v =>
      .put (q.record v) (fun e => e.team ≠ q.team ∧ e.keyId ≠ q.keyId) (by simp [KeyRegistration.record])
  | .clear => .wipe

def Call.topicChange : Call → Change (String × List String)
  | .register q =>
    match q.verifier? with
    | none => .idle
    | some _ => .put (q.team, topicSet q.topics) (fun e => e.1 ≠ q.team) (by simp)
  | .clear => .wipe

section Tables

variable {r r' : KeyRegistry}

theorem eq_of_tables (records : r.records = r'.records) (topics : r.topicsByTeam = r'.topicsByTeam) :
    r = r' := by
  cases r
  cases r'
  cases records
  cases topics
  rfl

theorem tables_step (r : KeyRegistry) (c : Call) :
    (r.step c).records = c.recordChange.apply r.records ∧
      (r.step c).topicsByTeam = c.topicChange.apply r.topicsByTeam := by
  cases c with
  | clear => exact ⟨(Change.apply_wipe _).symm, (Change.apply_wipe _).symm⟩
  | register q =>
    simp only [Call.recordChange, Call.topicChange]
    cases accepted : q.verifier? with
    | none =>
      rw [step_refused accepted]
      exact ⟨(Change.apply_idle _).symm, (Change.apply_idle _).symm⟩
    | some v =>
      rw [step_accepted accepted]
      exact ⟨rfl, rfl⟩

theorem tables_run (r : KeyRegistry) (calls : List Call) :
    (r.run calls).records = Change.run r.records (calls.map Call.recordChange) ∧
      (r.run calls).topicsByTeam = Change.run r.topicsByTeam (calls.map Call.topicChange) := by
  induction calls generalizing r with
  | nil => exact ⟨rfl, rfl⟩
  | cons c calls ih =>
    have later := ih (r.step c)
    rw [(tables_step r c).1, (tables_step r c).2] at later
    exact later

/-- A history repeated finds the registry as it left it: what it enters it has removed first, and what it
spares it has spared before. -/
theorem run_run (r : KeyRegistry) (calls : List Call) : (r.run calls).run calls = r.run calls := by
  apply eq_of_tables
  · rw [(tables_run _ calls).1, (tables_run r calls).1, Change.run_run]
  · rw [(tables_run _ calls).2, (tables_run r calls).2, Change.run_run]

end Tables

section Order

variable {p q : KeyRegistration}

def answer (r : KeyRegistry) (q : KeyRegistration) : Except RegistrationError Unit :=
  (r.register q).map fun _ => ()

/-- Whatever is asked of one registry, the other answers the same. -/
structure SameAnswers (r r' : KeyRegistry) : Prop where
  key : ∀ k, r.key k = r'.key k
  verifier : ∀ k, r.verifier k = r'.verifier k
  team : ∀ k, r.team k = r'.team k
  topics : ∀ team, r.topics team = r'.topics team
  size : r.size = r'.size

theorem answer_eq (r : KeyRegistry) (q : KeyRegistration) :
    r.answer q = (Verifier.new q.algorithm q.material).map fun _ => () := by
  unfold answer register
  cases Verifier.new q.algorithm q.material <;> rfl

theorem mem_entered {e : KeyRecord} (entered : e ∈ (Call.register q).recordChange.entered) :
    e.team = q.team ∧ e.keyId = q.keyId := by
  simp only [Call.recordChange] at entered
  cases accepted : q.verifier? with
  | none =>
    rw [accepted] at entered
    cases entered
  | some v =>
    rw [accepted] at entered
    rw [List.mem_singleton.mp entered]
    exact ⟨rfl, rfl⟩

theorem spares_entered {e : KeyRecord} (teams : p.team ≠ q.team) (keyIds : p.keyId ≠ q.keyId)
    (entered : e ∈ (Call.register p).recordChange.entered) : (Call.register q).recordChange.spares e := by
  obtain ⟨team, keyId⟩ := mem_entered entered
  simp only [Call.recordChange]
  cases q.verifier? with
  | none => rfl
  | some v => simp [Change.put, team, keyId, teams, keyIds]

theorem recordChange_apart (teams : p.team ≠ q.team) (keyIds : p.keyId ≠ q.keyId) :
    (Call.register p).recordChange.Apart (Call.register q).recordChange where
  first _ entered := spares_entered teams keyIds entered
  second _ entered := spares_entered teams.symm keyIds.symm entered

theorem key_comm (r : KeyRegistry) (teams : p.team ≠ q.team) (keyIds : p.keyId ≠ q.keyId) (k : String) :
    ((r.step (.register p)).step (.register q)).key k =
      ((r.step (.register q)).step (.register p)).key k := by
  simp only [key, (tables_step _ _).1]
  apply (recordChange_apart teams keyIds).find?_eq
  -- the key id asked for is at most one of the two
  by_cases own : q.keyId = k
  · refine .inl fun e entered => ?_
    rw [(mem_entered entered).2]
    exact decide_eq_false fun same => keyIds (same.trans own.symm)
  · refine .inr fun e entered => ?_
    rw [(mem_entered entered).2]
    exact decide_eq_false own

theorem topics_comm (r : KeyRegistry) (teams : p.team ≠ q.team) (team : String) :
    ((r.step (.register p)).step (.register q)).topics team =
      ((r.step (.register q)).step (.register p)).topics team := by
  by_cases own : team = q.team
  · have other : team ≠ p.team := own ▸ teams.symm
    simp only [topics_step, other, false_and, if_false]
  · simp only [topics_step, own, false_and, if_false]

theorem size_comm (r : KeyRegistry) (teams : p.team ≠ q.team) (keyIds : p.keyId ≠ q.keyId) :
    ((r.step (.register p)).step (.register q)).size = ((r.step (.register q)).step (.register p)).size := by
  simp only [size, (tables_step _ _).1]
  exact ((recordChange_apart teams keyIds).perm r.records).length_eq

end Order

/-- Two registrations for different teams under different key ids, accepted or not and whoever owns the key
ids before: in either order each answers the same, and so does the registry they leave to whatever is asked. -/
theorem register_comm (r : KeyRegistry) (p q : KeyRegistration) (teams : p.team ≠ q.team)
    (keyIds : p.keyId ≠ q.keyId) :
    (r.answer p = (r.step (.register q)).answer p ∧ (r.step (.register p)).answer q = r.answer q) ∧
    SameAnswers ((r.step (.register p)).step (.register q)) ((r.step (.register q)).step (.register p)) := by
  have keys := key_comm r teams keyIds
  refine ⟨⟨?_, ?_⟩, ⟨keys, ?_, ?_, topics_comm r teams, size_comm r teams keyIds⟩⟩
  · rw [answer_eq, answer_eq]
  · rw [answer_eq, answer_eq]
  · intro k
    rw [verifier, verifier, keys]
  · intro k
    rw [KeyRegistry.team, KeyRegistry.team, keys]

def keyOf (team keyId : String) : KeyRegistration := { ownerKey with team := team, keyId := keyId }

def crossed : KeyRegistry := run .empty [.register (keyOf "TEAM1" "KEY2"), .register (keyOf "TEAM2" "KEY1")]

theorem register_comm_crossed :
    crossed.team "KEY1" = some "TEAM2" ∧ crossed.team "KEY2" = some "TEAM1" ∧
    ((crossed.step (.register (keyOf "TEAM2" "KEY2"))).answer (keyOf "TEAM1" "KEY1") = .ok () ∧
      crossed.answer (keyOf "TEAM2" "KEY2") = .ok ()) ∧
    SameAnswers ((crossed.step (.register (keyOf "TEAM1" "KEY1"))).step (.register (keyOf "TEAM2" "KEY2")))
      ((crossed.step (.register (keyOf "TEAM2" "KEY2"))).step (.register (keyOf "TEAM1" "KEY1"))) ∧
    ((crossed.step (.register (keyOf "TEAM2" "KEY2"))).step (.register (keyOf "TEAM1" "KEY1"))).team "KEY1" =
      some "TEAM1" := by
  obtain ⟨⟨first, second⟩, same⟩ :=
    register_comm crossed (keyOf "TEAM1" "KEY1") (keyOf "TEAM2" "KEY2") (by decide) (by decide)
  have accepted : crossed.answer (keyOf "TEAM1" "KEY1") = .ok () ∧
      (crossed.step (.register (keyOf "TEAM1" "KEY1"))).answer (keyOf "TEAM2" "KEY2") = .ok () := by
    decide +kernel
  have exchanged : ((crossed.step (.register (keyOf "TEAM1" "KEY1"))).step
      (.register (keyOf "TEAM2" "KEY2"))).team "KEY1" = some "TEAM1" := by decide +kernel
  refine ⟨by decide +kernel, by decide +kernel, ⟨?_, ?_⟩, same, ?_⟩
  · exact first.symm.trans accepted.1
  · exact second.symm.trans accepted.2
  · exact (same.team "KEY1").symm.trans exchanged

end PushGateway.KeyRegistry
