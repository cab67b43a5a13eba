import PushGateway.Proofs.Lifecycle.View
import PushGateway.Tls.P256

namespace PushGateway.Lifecycle

namespace View

variable {setup : Setup} {v : View} {e : ServerError}

theorem asked_failed {outcome : Result × View} (failed : (v.asked outcome).1 = .failed e) :
    v.asked outcome = outcome := by
  unfold asked at failed ⊢
  split at failed
  · cases failed
  · exact if_neg ‹_›

theorem start_failed {binding : Except String Nat} (failed : (v.start setup binding).1 = .failed e) :
    (v.start setup binding).2 = v := by
  unfold start at failed ⊢
  split
  · rfl
  · split
    · rfl
    · cases binding with
      | ok port => simp [*] at failed
      | error cause => rfl

theorem reach_ne_failed {name : String} {peer : Endpoint} {requests : List HandlerContext}
    {attempt : Result × Option Progress} (answered : attempt.1 ≠ .failed e) :
    (v.reach setup name peer requests attempt).1 ≠ .failed e := by
  unfold reach
  split
  · split
    · exact answered
    · exact nofun
  · exact nofun

theorem leave_ne_failed {name : String} {sent : Option Nat} : (v.leave name sent).1 ≠ .failed e := by
  unfold leave
  split <;> exact nofun

/-- Only a start is answered by a failure, and then nothing that can be seen has changed. -/
theorem step_failed [Tls.Provider] {x : Step} (failed : (v.step setup x).1 = .failed e) : (v.step setup x).2 = v := by
  cases x with
  | start binding requested =>
    have held := asked_failed failed
    rw [step, held] at failed ⊢
    exact start_failed failed
  | shutdown =>
    rw [step, asked_failed failed] at failed
    cases failed
  | drop =>
    rw [step, asked_failed failed] at failed
    cases failed
  | connect name peer client => exact absurd failed (reach_ne_failed (by simp))
  | connectRaw name peer stall => exact absurd failed (reach_ne_failed (by cases stall <;> simp))
  | finish name sent => exact absurd failed leave_ne_failed
  | abort name => exact absurd failed leave_ne_failed
  | probe name => rfl
  | status => rfl
  | registerDevice topic token expiration => cases failed
  | setEmulation enabled => cases failed

end View

def kept {α : Type} (deleted : Nat → Bool) : List α → List α
  | [] => []
  | x :: xs =>
    if deleted 0 then kept (fun k => deleted (k + 1)) xs else x :: kept (fun k => deleted (k + 1)) xs

theorem map_kept {α β : Type} (f : α → β) (deleted : Nat → Bool) (xs : List α) :
    (kept deleted xs).map f = kept deleted (xs.map f) := by
  induction xs generalizing deleted with
  | nil => rfl
  | cons x xs ih =>
    simp only [kept, List.map_cons]
    split
    · exact ih _
    · rw [List.map_cons, ih]

theorem View.run_kept [Tls.Provider] {setup : Setup} {v : View} {xs : List Step} {deleted : Nat → Bool}
    (failing : ∀ (k : Nat) (outcome : Result × View), (v.run setup xs)[k]? = some outcome → deleted k = true →
      ∃ e, outcome.1 = .failed e) :
    v.run setup (kept deleted xs) = kept deleted (v.run setup xs) := by
  induction xs generalizing v deleted with
  | nil => rfl
  | cons x xs ih =>
    have rest : (v.step setup x).2.run setup (kept (fun k => deleted (k + 1)) xs) =
        kept (fun k => deleted (k + 1)) ((v.step setup x).2.run setup xs) :=
      ih fun k outcome found => failing (k + 1) outcome found
    simp only [kept, View.run]
    split
    · rename_i gone
      obtain ⟨e, failed⟩ := failing 0 _ rfl gone
      rw [View.step_failed failed] at rest ⊢
      exact rest
    · rw [View.run, rest]

/-- Whatever of the starts that failed is deleted from a run: all other steps are answered as they were, and
the server runs, is terminated, listens and has the connections open after them as it did. -/
theorem observe_run_kept [Tls.Provider] (setup : Setup) (pool : Pool) (xs : List Step) (deleted : Nat → Bool)
    (failing : ∀ (k : Nat) (answer : Answer × State), (run setup (.new pool) xs)[k]? = some answer →
      deleted k = true → ∃ e, answer.1.result = .failed e) :
    (run setup (.new pool) (kept deleted xs)).map observe =
      kept deleted ((run setup (.new pool) xs).map observe) := by
  have rests := rests_new pool
  have viewed := seen_run rests setup xs
  have same : (State.new pool).view.run setup (kept deleted xs) =
      kept deleted ((State.new pool).view.run setup xs) := by
    refine View.run_kept fun k outcome found gone => ?_
    rw [← viewed, List.getElem?_map] at found
    obtain ⟨answer, there, rfl⟩ := Option.map_eq_some_iff.mp found
    exact failing k answer there gone
  rw [observe_run rests, observe_run rests, same, map_kept]

/-- Starts on an address that is taken, on a free one, while the server runs, and after it was shut down. -/
theorem observe_run_retried :
    let setup : Setup := ⟨⟨none, [Tls.pushProtocol]⟩, Handler.idleFactory, "::1", 0, true⟩
    let xs : List Step := [.start (.error "in use") 80, .start (.ok 81) 81, .start (.ok 82) 82,
      .connectRaw "client" ⟨"::1", 9⟩ true, .shutdown, .start (.ok 81) 81, .probe "client"]
    let deleted : Nat → Bool := fun k => k = 0 ∨ k = 2 ∨ k = 5
    kept deleted xs = [.start (.ok 81) 81, .connectRaw "client" ⟨"::1", 9⟩ true, .shutdown, .probe "client"] ∧
      (run setup (.new (.owned true)) (kept deleted xs)).map observe =
        kept deleted ((run setup (.new (.owned true)) xs).map observe) := by
  intro setup xs deleted
  refine ⟨rfl, observe_run_kept setup (.owned true) xs deleted fun k answer found gone => ?_⟩
  rcases of_decide_eq_true gone with rfl | rfl | rfl
  · exact ⟨.bind "in use", by cases found; rfl⟩
  · exact ⟨.alreadyRunning, by cases found; rfl⟩
  · exact ⟨.terminated, by cases found; rfl⟩

end PushGateway.Lifecycle
