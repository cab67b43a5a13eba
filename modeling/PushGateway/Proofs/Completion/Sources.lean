import Mathlib.Data.List.Induction
import PushGateway.Proofs.Completion.Delivery
/-!
A completion that is ready from the start against one whose channel has been completed: they answer alike until one
of them is asked again.
-/

namespace PushGateway.Completion

variable {α : Type} {before rest steps : List (Step α)} {s : Step α} {fresh spent : Source α}
  {outcome : Outcome α}

def Ends.completed (outcome : Outcome α) : Ends α := Ends.channel.after [.complete outcome]

def AsksAgain (before : List (Step α)) (s : Step α) : Prop :=
  s.asks = true ∧ before.any Step.asks = true ∧ released before = false

instance : Decidable (AsksAgain before s) := inferInstanceAs (Decidable (_ ∧ _ ∧ _))

/-- A lone completion after these steps, when the first to ask leaves the source spent. -/
def Ends.spending (fresh spent : Source α) (before : List (Step α)) : Ends α where
  completion := if released before then none else some (if before.any Step.asks then spent else fresh)
  completer := false

theorem spending_step (first : fresh.poll.2 = spent) (again : spent.poll.2 = spent)
    (before : List (Step α)) (s : Step α) :
    ((Ends.spending fresh spent before).step s).2 = Ends.spending fresh spent (before ++ [s]) := by
  unfold Ends.spending
  cases gone : released before with
  | true => cases s <;> simp [Ends.step, gone]
  | false =>
    cases s with
    | poll =>
      cases asked : before.any Step.asks with
      | false => simp [Ends.step, gone, asked, Step.releases, Step.asks, first]
      | true => simp [Ends.step, gone, asked, Step.releases, Step.asks, again]
    | complete | dropCompleter | dropCompletion | wait =>
      simp [Ends.step, gone, Step.releases, Step.asks]

theorem after_spending (first : fresh.poll.2 = spent) (again : spent.poll.2 = spent)
    (before : List (Step α)) :
    (Ends.spending fresh spent []).after before = Ends.spending fresh spent before := by
  induction before using List.reverseRecOn with
  | nil => rfl
  | append_singleton before s ih => rw [Ends.after_snoc, ih, spending_step first again]

theorem run_spending (first : fresh.poll.2 = spent) (again : spent.poll.2 = spent)
    (cut : steps = before ++ s :: rest) :
    ((Ends.spending fresh spent []).run steps)[before.length]? =
      some ((Ends.spending fresh spent before).step s).1 := by
  rw [cut, Ends.run_getElem?, after_spending first again]

theorem run_ready (cut : steps = before ++ s :: rest) :
    ((Ends.ready outcome).run steps)[before.length]? =
      some ((Ends.spending (.ready (some outcome)) (.ready none) before).step s).1 := run_spending rfl rfl cut

theorem run_completed (cut : steps = before ++ s :: rest) :
    ((Ends.completed outcome).run steps)[before.length]? =
      some ((Ends.spending (.channel (.delivered outcome)) (.channel .taken) before).step s).1 :=
  run_spending rfl rfl cut

theorem spending_alike (alike : ¬ AsksAgain before s) :
    ((Ends.spending (.ready (some outcome)) (.ready none) before).step s).1 =
      ((Ends.spending (.channel (.delivered outcome)) (.channel .taken) before).step s).1 := by
  unfold Ends.spending
  cases gone : released before with
  | true => cases s <;> rfl
  | false =>
    have unasked : s.asks = true → before.any Step.asks = false := by
      intro asks
      exact Bool.eq_false_iff.mpr fun asked => alike ⟨asks, asked, gone⟩
    cases s with
    | poll | wait =>
      rw [unasked rfl]
      rfl
    | complete | dropCompleter | dropCompletion => rfl

theorem spending_again (again : AsksAgain before s) :
    ((Ends.spending (.ready (some outcome)) (.ready none) before).step s).1 =
        .outcome (.error .abandoned) ∧
      ((Ends.spending (.channel (.delivered outcome)) (.channel .taken) before).step s).1 =
        .calledAfterComplete := by
  obtain ⟨asks, asked, held⟩ := again
  unfold Ends.spending
  rw [asked, held]
  cases s with
  | poll | wait => exact ⟨rfl, rfl⟩
  | complete | dropCompleter | dropCompletion => cases asks

/-- A ready completion and one whose channel was completed with the same outcome answer every step alike, but
for a step that asks what was asked before: the ready one is then abandoned, and the channel breaks down. So
their answers are the same exactly when no step of the run asks again. -/
theorem run_sources_eq_iff (outcome : Outcome α) (steps : List (Step α)) :
    (∀ before s rest, steps = before ++ s :: rest →
      if AsksAgain before s then
        ((Ends.ready outcome).run steps)[before.length]? = some (.outcome (.error .abandoned)) ∧
          ((Ends.completed outcome).run steps)[before.length]? = some .calledAfterComplete
      else
        ((Ends.ready outcome).run steps)[before.length]? =
          ((Ends.completed outcome).run steps)[before.length]?) ∧
    ((Ends.ready outcome).run steps = (Ends.completed outcome).run steps ↔
      ∀ before s rest, steps = before ++ s :: rest → ¬ AsksAgain before s) := by
  refine ⟨?_, ?_, ?_⟩
  · intro before s rest cut
    rw [run_ready cut, run_completed cut]
    split
    · rename_i again
      exact ⟨congrArg some (spending_again again).1, congrArg some (spending_again again).2⟩
    · rename_i alike
      exact congrArg some (spending_alike alike)
  · intro same before s rest cut again
    rw [List.ext_getElem?_iff] at same
    have answers := same before.length
    rw [run_ready cut, run_completed cut, (spending_again again).1, (spending_again again).2] at answers
    cases answers
  · intro never
    apply List.ext_getElem?
    intro i
    by_cases bound : i < steps.length
    · obtain ⟨before, s, rest, cut, rfl⟩ := exists_cut bound
      rw [run_ready cut, run_completed cut, spending_alike (never _ _ _ cut)]
    · have past (e : Ends α) : (e.run steps)[i]? = none := by
        rw [List.getElem?_eq_none_iff, e.length_run]
        exact Nat.le_of_not_lt bound
      rw [past, past]

theorem sources_differ :
    (Ends.ready (.ok 7 : Outcome Nat)).run [.poll, .poll] ≠ (Ends.completed (.ok 7)).run [.poll, .poll] := by
  have ready : (Ends.ready (.ok 7 : Outcome Nat)).run [.poll, .poll] =
      [.outcome (.ok 7), .outcome (.error .abandoned)] := rfl
  have completed : (Ends.completed (.ok 7 : Outcome Nat)).run [.poll, .poll] =
      [.outcome (.ok 7), .calledAfterComplete] := rfl
  rw [ready, completed]
  nofun

end PushGateway.Completion
