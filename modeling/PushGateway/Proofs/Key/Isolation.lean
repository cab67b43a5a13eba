import PushGateway.Proofs.Key.History

namespace PushGateway.KeyRegistry

variable {calls : List Call} {q : KeyRegistration} {v : Verifier} {record : KeyRecord} {team : String}

structure Undisturbed (team : String) (r r' : KeyRegistry) : Prop where
  keys : ∀ k v, r'.key k = some ⟨k, team, v⟩ ↔ r.key k = some ⟨k, team, v⟩
  topics : r'.topics team = r.topics team

/-- The key id of a team's last registration has been registered again since. -/
def Taken (calls : List Call) (team : String) : Prop :=
  ∃ i q v, NewestAt calls i q v ∧ q.team = team ∧
    ∃ j q', i < j ∧ calls[j]? = some (.register q') ∧ q'.verifier?.isSome ∧ q'.keyId = q.keyId

/-- An accepted registration puts its own record under its key id, and removes nothing but what stood
there and what its team had. -/
theorem key_registered (accepted : q.verifier? = some v) (k : String) (record : KeyRecord) :
    ((run .empty calls).step (.register q)).key k = some record ↔
      (k = q.keyId ∧ record = q.record v) ∨
      ((run .empty calls).key k = some record ∧ k ≠ q.keyId ∧ record.team ≠ q.team) := by
  obtain ⟨_, before⟩ := reflects_run calls
  obtain ⟨_, after⟩ := reflects_run (calls ++ [.register q])
  rw [← run_snoc, after.key_eq_some, before.key_eq_some]
  simp only [standsAt_registered accepted]
  constructor
  · rintro ⟨i, q', v', ⟨_, rfl, rfl⟩ | ⟨live, apart⟩, rfl, rfl⟩
    · exact .inl ⟨rfl, rfl⟩
    · rw [not_or] at apart
      exact .inr ⟨⟨i, q', v', live, rfl, rfl⟩, Ne.symm apart.1, Ne.symm apart.2⟩
  · rintro (⟨rfl, rfl⟩ | ⟨⟨i, q', v', live, rfl, rfl⟩, otherKey, otherTeam⟩)
    · exact ⟨calls.length, q, v, .inl ⟨rfl, rfl, rfl⟩, rfl, rfl⟩
    · exact ⟨i, q', v', .inr ⟨live, not_or.mpr ⟨Ne.symm otherKey, Ne.symm otherTeam⟩⟩, rfl, rfl⟩

theorem topics_step (r : KeyRegistry) (q : KeyRegistration) (team : String) :
    (r.step (.register q)).topics team =
      if team = q.team ∧ q.verifier?.isSome then some (topicSet q.topics) else r.topics team := by
  cases accepted : q.verifier? with
  | none => simp [step_refused accepted]
  | some v => simp [step_accepted accepted, KeyRegistration.record]

theorem topics_registered (r : KeyRegistry) (other : team ≠ q.team) :
    (r.step (.register q)).topics team = r.topics team := by
  rw [topics_step]
  exact if_neg fun own => other own.1

theorem keyId_of_key {r : KeyRegistry} {k : String} (found : r.key k = some record) : record.keyId = k := by
  simpa using List.find?_some found

theorem key_of_team {r : KeyRegistry} {k : String} (owned : r.team k = some team) :
    ∃ v, r.key k = some ⟨k, team, v⟩ := by
  obtain ⟨⟨keyId, owner, v⟩, found, rfl⟩ := Option.map_eq_some_iff.mp owned
  cases keyId_of_key found
  exact ⟨v, found⟩

theorem team_of_key {r : KeyRegistry} {k : String} (found : r.key k = some ⟨k, team, v⟩) :
    r.team k = some team := by
  rw [KeyRegistry.team, found, Option.map_some]

theorem undisturbed_register (calls : List Call) (other : team ≠ q.team) :
    Undisturbed team (run .empty calls) ((run .empty calls).step (.register q)) ↔
      (q.verifier?.isSome → (run .empty calls).team q.keyId ≠ some team) := by
  cases accepted : q.verifier? with
  | none =>
    rw [step_refused accepted]
    exact ⟨fun _ => nofun, fun _ => ⟨fun _ _ => Iff.rfl, rfl⟩⟩
  | some w =>
    constructor
    · intro same _ owned
      obtain ⟨v, found⟩ := key_of_team owned
      rcases (key_registered accepted _ _).mp ((same.keys _ v).mpr found) with ⟨_, own⟩ | ⟨_, apart, _⟩
      · exact other (congrArg KeyRecord.team own)
      · exact apart rfl
    · intro free
      refine ⟨fun k v => ?_, topics_registered _ other⟩
      rw [key_registered accepted]
      constructor
      · rintro (⟨_, own⟩ | ⟨found, _⟩)
        · exact absurd (congrArg KeyRecord.team own) other
        · exact found
      · intro found
        refine .inr ⟨found, ?_, other⟩
        rintro rfl
        exact free rfl (team_of_key found)

/-- A team's last registration is live as long as nobody takes its key id. -/
theorem live_iff_not_taken {i : Nat} (newest : NewestAt calls i q v) :
    LiveAt calls i q v ↔ ¬ Taken calls q.team := by
  constructor
  · rintro live ⟨i', q', v', newest', team, j, q'', later, call, accepted, same⟩
    obtain ⟨rfl, rfl, _⟩ := newest.unique newest' team.symm team
    exact live.unrivalled j q'' later call accepted (.inl same)
  · intro free
    refine ⟨newest.call, newest.accepted, newest.uncleared, ?_⟩
    rintro j q' later call accepted (same | own)
    · exact free ⟨i, q, v, newest, rfl, j, q', later, call, accepted, same⟩
    · exact newest.unrivalled j q' later call accepted own

theorem owns_iff_not_taken {topics : List String} (authorized : (run .empty calls).topics team = some topics) :
    (∃ k, (run .empty calls).team k = some team) ↔ ¬ Taken calls team := by
  obtain ⟨_, h⟩ := reflects_run calls
  obtain ⟨i, q, v, newest, rfl, _⟩ := (h.topics team topics).mp authorized
  rw [← live_iff_not_taken newest]
  constructor
  · rintro ⟨k, owned⟩
    obtain ⟨j, q', v', live, _, own⟩ := (h.team_eq_some k q.team).mp owned
    obtain ⟨rfl, rfl, rfl⟩ := live.newest.unique newest own own.symm
    exact live
  · intro live
    exact ⟨q.keyId, (h.team_eq_some q.keyId q.team).mpr ⟨i, q, v, live, rfl, rfl⟩⟩

/-- After any history: a registration, accepted or not, keeps the topics of every other team and its keys
under all other key ids; it keeps all that the team has exactly when it is refused or its key id is not one
of the team's. A team that has topics has a key exactly when nobody has taken the key id of its last
registration since. -/
theorem isolation_run (calls : List Call) :
    (∀ q team, team ≠ q.team →
      ((run .empty calls).step (.register q)).topics team = (run .empty calls).topics team ∧
      (∀ k v, k ≠ q.keyId →
        (((run .empty calls).step (.register q)).key k = some ⟨k, team, v⟩ ↔
          (run .empty calls).key k = some ⟨k, team, v⟩)) ∧
      (Undisturbed team (run .empty calls) ((run .empty calls).step (.register q)) ↔
        (q.verifier?.isSome → (run .empty calls).team q.keyId ≠ some team))) ∧
    (∀ team topics, (run .empty calls).topics team = some topics →
      ((∃ k, (run .empty calls).team k = some team) ↔ ¬ Taken calls team)) := by
  constructor
  · intro q team other
    refine ⟨topics_registered _ other, fun k v apart => ?_, undisturbed_register calls other⟩
    cases accepted : q.verifier? with
    | none => rw [step_refused accepted]
    | some w =>
      rw [key_registered accepted]
      constructor
      · rintro (⟨same, _⟩ | ⟨found, _⟩)
        · exact absurd same apart
        · exact found
      · exact fun found => .inr ⟨found, apart, other⟩
  · intro team topics authorized
    exact owns_iff_not_taken authorized

def ownerKey : KeyRegistration where
  algorithm := "ES256"
  material := P256.generator.encode
  team := "TEAM1"
  keyId := "KEY"
  topics := ["one"]

def takerKey : KeyRegistration := { ownerKey with team := "TEAM2", topics := ["two"] }

/-- Two teams that choose different key ids. -/
theorem isolation_run_apart :
    Undisturbed "TEAM2" (run .empty [.register takerKey])
      ((run .empty [.register takerKey]).step (.register { ownerKey with keyId := "KEY1" })) ∧
    ∃ k, (run .empty [.register takerKey]).team k = some "TEAM2" := by
  have other : (run .empty [.register takerKey]).team "KEY1" = none := by decide +kernel
  have authorized : (run .empty [.register takerKey]).topics "TEAM2" = some ["two"] := by decide +kernel
  constructor
  · apply ((isolation_run _).1 { ownerKey with keyId := "KEY1" } "TEAM2" (by decide)).2.2.mpr
    intro _ owned
    cases other.symm.trans owned
  · apply ((isolation_run _).2 "TEAM2" ["two"] authorized).mpr
    rintro ⟨i, q, v, newest, _, j, q', later, call, _⟩
    have first := newest.lt_length
    have last := (List.getElem?_eq_some_iff.mp call).1
    rw [List.length_singleton] at first last
    omega

/-- A registration under another team's key id leaves that team with its topics and without a key. -/
theorem taking_disturbs :
    ¬ Undisturbed "TEAM1" (run .empty [.register ownerKey])
      ((run .empty [.register ownerKey]).step (.register takerKey)) ∧
    (run .empty [.register ownerKey, .register takerKey]).topics "TEAM1" = some ["one"] ∧
    ¬ ∃ k, (run .empty [.register ownerKey, .register takerKey]).team k = some "TEAM1" := by
  have owned : (run .empty [.register ownerKey]).team "KEY" = some "TEAM1" := by decide +kernel
  have taken : (run .empty [.register ownerKey, .register takerKey]).team "KEY" = some "TEAM2" := by
    decide +kernel
  have alone : (run .empty [.register ownerKey, .register takerKey]).records.map (·.team) = ["TEAM2"] := by
    decide +kernel
  refine ⟨fun same => ?_, by decide +kernel, ?_⟩
  · obtain ⟨v, found⟩ := key_of_team owned
    have kept := team_of_key ((same.keys "KEY" v).mpr found)
    exact absurd (Option.some.inj (taken.symm.trans kept)) (by decide)
  · rintro ⟨k, owns⟩
    obtain ⟨v, found⟩ := key_of_team owns
    have among := List.mem_map_of_mem (f := (·.team)) (List.mem_of_find?_eq_some found)
    rw [alone] at among
    have other : "TEAM1" ≠ "TEAM2" := by decide
    exact other (List.mem_singleton.mp among)

end PushGateway.KeyRegistry
