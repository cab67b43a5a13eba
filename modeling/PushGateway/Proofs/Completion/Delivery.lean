import Mathlib.Data.List.Basic
import PushGateway.Completion

namespace PushGateway.Completion

namespace Step

variable {α : Type}

def settles? : Step α → Option (Outcome α)
  | .complete outcome => some outcome
  | .dropCompleter => some (.error .abandoned)
  | .dropCompletion | .poll | .wait => none

def asks : Step α → Bool
  | .poll | .wait => true
  | .complete _ | .dropCompleter | .dropCompletion => false

def releases : Step α → Bool
  | .dropCompletion | .wait => true
  | .complete _ | .dropCompleter | .poll => false

end Step

section Histories

variable {α : Type} {before rest : List (Step α)} {s : Step α} {outcome : Outcome α}

/-- What these steps settle the channel to: the first of the completer's steps decides. -/
def settled? (before : List (Step α)) : Option (Outcome α) := before.findSome? Step.settles?

def released (before : List (Step α)) : Bool := before.any Step.releases

def answered : List (Step α) → Bool
  | [] => false
  | s :: rest => if s.settles?.isSome then rest.any Step.asks else answered rest

/-- The end that a step after these needs is there. Only a settled channel is waited for. -/
def Allowed (before : List (Step α)) : Step α → Prop
  | .complete _ | .dropCompleter => settled? before = none
  | .dropCompletion | .poll => released before = false
  | .wait => released before = false ∧ settled? before ≠ none

inductive Owned : List (Step α) → Prop where
  | nil : Owned []
  | snoc {before : List (Step α)} {s : Step α} (owned : Owned before) (allowed : Allowed before s) :
      Owned (before ++ [s])

theorem settled?_eq_none : settled? before = none ↔ ∀ t ∈ before, t.settles? = none :=
  List.findSome?_eq_none_iff

theorem settled?_append (before rest : List (Step α)) :
    settled? (before ++ rest) = (settled? before).or (settled? rest) := List.findSome?_append

@[simp] theorem settled?_singleton (s : Step α) : settled? [s] = s.settles? := by
  cases s <;> rfl

@[simp] theorem released_append (before rest : List (Step α)) :
    released (before ++ rest) = (released before || released rest) := List.any_append

@[simp] theorem released_singleton (s : Step α) : released [s] = s.releases := by
  cases s <;> rfl

theorem answered_append (before rest : List (Step α)) :
    answered (before ++ rest) =
      if (settled? before).isSome then answered before || rest.any Step.asks else answered rest := by
  induction before with
  | nil => rfl
  | cons t before ih =>
    rw [List.cons_append, answered, answered, settled?, List.findSome?_cons]
    cases t.settles? with
    | none => exact ih
    | some outcome => simp

theorem exists_cut {steps : List (Step α)} {i : Nat} (bound : i < steps.length) :
    ∃ before s rest, steps = before ++ s :: rest ∧ before.length = i :=
  ⟨steps.take i, steps[i], steps.drop (i + 1), by simp, List.length_take_of_le (Nat.le_of_lt bound)⟩

theorem Owned.cut {steps : List (Step α)} (owned : Owned steps) (cut : steps = before ++ s :: rest) :
    Owned before ∧ Allowed before s := by
  induction owned generalizing rest with
  | nil => simp at cut
  | @snoc front last owned allowed ih =>
    rcases List.eq_nil_or_concat rest with rfl | ⟨rest', t, rfl⟩
    · obtain ⟨rfl, rfl⟩ := List.append_inj' cut rfl |>.imp id List.singleton_inj.mp
      exact ⟨owned, allowed⟩
    · rw [List.concat_eq_append, ← List.cons_append, ← List.append_assoc] at cut
      exact ih (List.append_inj' cut rfl).1

def answer (before : List (Step α)) (s : Step α) : Reply α :=
  if s.asks then
    match settled? before with
    | none => .pending
    | some outcome => if answered before then .calledAfterComplete else .outcome outcome
  else .done

theorem answer_eq_pending : answer before s = .pending ↔ s.asks = true ∧ settled? before = none := by
  unfold answer
  grind

theorem answer_eq_outcome : answer before s = .outcome outcome ↔
    s.asks = true ∧ settled? before = some outcome ∧ answered before = false := by
  unfold answer
  grind

end Histories

section Channel

variable {α : Type} {before steps : List (Step α)} {s : Step α} {e : Ends α} {slot : Slot α}
  {outcome : Outcome α}

inductive Standing (before : List (Step α)) : Slot α → Prop where
  | waiting (unsettled : settled? before = none) : Standing before .waiting
  | delivered {outcome : Outcome α} (settled : settled? before = some outcome)
      (unanswered : answered before = false) : Standing before (.delivered outcome)
  | abandoned (settled : settled? before = some (.error .abandoned))
      (unanswered : answered before = false) : Standing before .abandoned
  | taken {outcome : Outcome α} (settled : settled? before = some outcome)
      (answered : answered before = true) : Standing before .taken

/-- The two ends of a channel after these steps, each as far as it is still held. -/
structure Reflects (before : List (Step α)) (e : Ends α) : Prop where
  completer : e.completer = (settled? before).isNone
  gone : released before = true → e.completion = none
  held : released before = false → ∃ slot, e.completion = some (.channel slot) ∧ Standing before slot

theorem Source.wait_eq {source : Source α} (now : source.poll.1 ≠ .pending) :
    source.wait = source.poll.1 := by
  unfold Source.wait
  split
  · rename_i polled
    rw [polled] at now
    exact absurd rfl now
  · rename_i polled
    rw [polled]

namespace Standing

theorem poll_fst (h : Standing before slot) : (Source.channel slot).poll.1 = answer before .poll := by
  cases h with
  | waiting unsettled => simp [answer, Step.asks, unsettled, Source.poll]
  | delivered settled unanswered => simp [answer, Step.asks, settled, unanswered, Source.poll]
  | abandoned settled unanswered => simp [answer, Step.asks, settled, unanswered, Source.poll]
  | taken settled answered => simp [answer, Step.asks, settled, answered, Source.poll]

theorem poll_snd (h : Standing before slot) :
    ∃ slot', (Source.channel slot).poll.2 = .channel slot' ∧ Standing (before ++ [.poll]) slot' := by
  have settled := settled?_append before [.poll]
  have answered := answered_append before [.poll]
  cases h with
  | waiting unsettled =>
    exact ⟨.waiting, rfl, .waiting (by simpa [unsettled, Step.settles?] using settled)⟩
  | delivered h unanswered =>
    exact ⟨.taken, rfl, .taken (by simpa [h] using settled) (by simpa [h, Step.asks] using answered)⟩
  | abandoned h unanswered =>
    exact ⟨.taken, rfl, .taken (by simpa [h] using settled) (by simpa [h, Step.asks] using answered)⟩
  | taken h already =>
    exact ⟨.taken, rfl, .taken (by simpa [h] using settled) (by simpa [h, Step.asks] using answered)⟩

theorem wait (h : Standing before slot) (settled : settled? before ≠ none) :
    (Source.channel slot).wait = answer before .wait := by
  have now : (Source.channel slot).poll.1 ≠ .pending := by
    rw [h.poll_fst]
    exact fun pending => settled (answer_eq_pending.mp pending).2
  rw [Source.wait_eq now, h.poll_fst]
  rfl

theorem deliver (h : Standing before slot) (unsettled : settled? before = none) (outcome : Outcome α) :
    ∃ slot', (Source.channel slot).deliver outcome = .channel slot' ∧
      Standing (before ++ [.complete outcome]) slot' := by
  have unanswered : answered (before ++ [.complete outcome]) = false := by
    simp [answered_append, unsettled, answered]
  have settled := settled?_append before [.complete outcome]
  cases h with
  | waiting => exact ⟨_, rfl, .delivered (by simpa [unsettled, Step.settles?] using settled) unanswered⟩
  | delivered h | abandoned h | taken h =>
    rw [unsettled] at h
    cases h

theorem abandon (h : Standing before slot) (unsettled : settled? before = none) :
    ∃ slot', (Source.channel slot).abandon = .channel slot' ∧
      Standing (before ++ [.dropCompleter]) slot' := by
  have unanswered : answered (before ++ [.dropCompleter]) = false := by
    simp [answered_append, unsettled, answered]
  have settled := settled?_append before [.dropCompleter]
  cases h with
  | waiting => exact ⟨_, rfl, .abandoned (by simpa [unsettled, Step.settles?] using settled) unanswered⟩
  | delivered h | abandoned h | taken h =>
    rw [unsettled] at h
    cases h

end Standing

namespace Reflects

theorem channel : Reflects [] (.channel : Ends α) where
  completer := rfl
  gone := nofun
  held := fun _ => ⟨.waiting, rfl, .waiting rfl⟩

theorem settle (h : Reflects before e) (settles : s.settles?.isSome) (keeps : s.releases = false)
    {change : Source α → Source α} (standing : ∀ slot, Standing before slot →
      ∃ slot', change (.channel slot) = .channel slot' ∧ Standing (before ++ [s]) slot') :
    Reflects (before ++ [s]) ⟨e.completion.map change, false⟩ := by
  constructor
  · simp [settled?_append, settles]
  · intro away
    simp [h.gone (by simpa [keeps] using away)]
  · intro still
    obtain ⟨slot, held, stands⟩ := h.held (by simpa [keeps] using still)
    obtain ⟨slot', changed, stands'⟩ := standing slot stands
    exact ⟨slot', by simp [held, changed], stands'⟩

theorem release (h : Reflects before e) (settles : s.settles? = none) (gone : s.releases = true) :
    Reflects (before ++ [s]) { e with completion := none } where
  completer := by simp [settled?_append, settles, h.completer]
  gone := fun _ => rfl
  held := by simp [gone]

theorem step (h : Reflects before e) (allowed : Allowed before s) :
    (e.step s).1 = answer before s ∧ Reflects (before ++ [s]) (e.step s).2 := by
  cases s with
  | complete outcome =>
    have there : e.completer = true := by simp [h.completer, show settled? before = none from allowed]
    simp only [Ends.step, there, if_true]
    exact ⟨rfl, h.settle rfl rfl fun slot standing => standing.deliver allowed outcome⟩
  | dropCompleter =>
    have there : e.completer = true := by simp [h.completer, show settled? before = none from allowed]
    simp only [Ends.step, there, if_true]
    exact ⟨rfl, h.settle rfl rfl fun slot standing => standing.abandon allowed⟩
  | dropCompletion =>
    obtain ⟨slot, held, standing⟩ := h.held allowed
    simp only [Ends.step, held]
    exact ⟨rfl, h.release rfl rfl⟩
  | wait =>
    obtain ⟨slot, held, standing⟩ := h.held allowed.1
    simp only [Ends.step, held]
    exact ⟨standing.wait allowed.2, h.release rfl rfl⟩
  | poll =>
    obtain ⟨slot, held, standing⟩ := h.held allowed
    obtain ⟨slot', polled, standing'⟩ := standing.poll_snd
    simp only [Ends.step, held, polled]
    refine ⟨standing.poll_fst, ?_, ?_, fun _ => ⟨slot', rfl, standing'⟩⟩
    · simp [settled?_append, h.completer, Step.settles?]
    · intro away
      simp [show released before = false from allowed, Step.releases] at away

end Reflects

def Ends.after (e : Ends α) (steps : List (Step α)) : Ends α := steps.foldl (fun e s => (e.step s).2) e

theorem Ends.after_snoc (e : Ends α) (before : List (Step α)) (s : Step α) :
    e.after (before ++ [s]) = ((e.after before).step s).2 := List.foldl_append

theorem Ends.run_append (e : Ends α) (before rest : List (Step α)) :
    e.run (before ++ rest) = e.run before ++ (e.after before).run rest := by
  induction before generalizing e with
  | nil => rfl
  | cons t before ih => exact congrArg _ (ih _)

theorem Ends.length_run (e : Ends α) (steps : List (Step α)) : (e.run steps).length = steps.length := by
  induction steps generalizing e with
  | nil => rfl
  | cons t steps ih => exact congrArg _ (ih _)

theorem Ends.run_getElem? (e : Ends α) (before : List (Step α)) (s : Step α) (rest : List (Step α)) :
    (e.run (before ++ s :: rest))[before.length]? = some ((e.after before).step s).1 := by
  rw [run_append, List.getElem?_append_right (Nat.le_of_eq (e.length_run before)), length_run, Nat.sub_self]
  rfl

theorem reflects_after (owned : Owned steps) : Reflects steps (Ends.channel.after steps) := by
  induction owned with
  | nil => exact .channel
  | snoc owned allowed ih =>
    rw [Ends.after_snoc]
    exact (ih.step allowed).2

theorem run_channel (owned : Owned steps) {rest : List (Step α)} (cut : steps = before ++ s :: rest) :
    (Ends.channel.run steps)[before.length]? = some (answer before s) := by
  obtain ⟨earlier, allowed⟩ := owned.cut cut
  rw [cut, Ends.run_getElem?, ((reflects_after earlier).step allowed).1]

theorem run_channel_cut (owned : Owned steps) {i : Nat} {reply : Reply α}
    (given : (Ends.channel.run steps)[i]? = some reply) :
    ∃ before s rest, steps = before ++ s :: rest ∧ before.length = i ∧ answer before s = reply := by
  have bound : i < steps.length := by
    rw [← Ends.channel.length_run steps]
    exact (List.getElem?_eq_some_iff.mp given).1
  obtain ⟨before, s, rest, cut, rfl⟩ := exists_cut bound
  have answered := run_channel owned cut
  rw [given] at answered
  exact ⟨before, s, rest, cut, rfl, (Option.some.inj answered).symm⟩

theorem run_channel_once (owned : Owned steps) {i j : Nat} {first second : Outcome α} (order : i < j)
    (given : (Ends.channel.run steps)[i]? = some (.outcome first)) :
    (Ends.channel.run steps)[j]? ≠ some (.outcome second) := by
  intro again
  obtain ⟨before, s, rest, cut, rfl, outcome⟩ := run_channel_cut owned given
  obtain ⟨before', s', rest', cut', rfl, outcome'⟩ := run_channel_cut owned again
  obtain ⟨asks, settled, -⟩ := answer_eq_outcome.mp outcome
  obtain ⟨-, -, unanswered⟩ := answer_eq_outcome.mp outcome'
  -- the first step asked when the channel was settled, and the second comes after it
  have part : before ++ [s] <+: steps := ⟨rest, by rw [cut, List.append_assoc, List.singleton_append]⟩
  have part' : before' <+: steps := ⟨s' :: rest', cut'.symm⟩
  have shorter : (before ++ [s]).length ≤ before'.length := by
    rw [List.length_append]
    exact order
  obtain ⟨between, rfl⟩ := List.prefix_of_prefix_length_le part part' shorter
  rw [List.append_assoc, answered_append, settled] at unanswered
  simp [asks] at unanswered

theorem not_allowed_dropped (dropped : .dropCompletion ∈ before) (asks : s.asks = true) :
    ¬ Allowed before s := by
  have gone : released before = true := List.any_eq_true.mpr ⟨_, dropped, rfl⟩
  intro allowed
  cases s with
  | poll => exact Bool.false_ne_true (allowed.symm.trans gone)
  | wait => exact Bool.false_ne_true (allowed.1.symm.trans gone)
  | complete | dropCompleter | dropCompletion => cases asks

theorem run_channel_unheard (owned : Owned steps) {rest : List (Step α)} {outcome given : Outcome α}
    (cut : steps = before ++ .complete outcome :: rest) (dropped : .dropCompletion ∈ before) (i : Nat) :
    (Ends.channel.run steps)[i]? ≠ some (.outcome given) := by
  intro answered
  obtain ⟨before', s', rest', cut', -, outcome'⟩ := run_channel_cut owned answered
  obtain ⟨asks, settled, -⟩ := answer_eq_outcome.mp outcome'
  have unsettled : settled? before = none := (owned.cut cut).2
  have allowed := (owned.cut cut').2
  have part : before <+: steps := ⟨_, cut.symm⟩
  have part' : before' <+: steps := ⟨_, cut'.symm⟩
  rcases Nat.le_total before.length before'.length with early | late
  · -- whoever asks after the completion was dropped has nothing to ask
    have within := List.prefix_of_prefix_length_le part part' early
    exact not_allowed_dropped (within.subset dropped) asks allowed
  · have within := List.prefix_of_prefix_length_le part' part late
    have unsettled' := settled?_eq_none.mpr fun t ht => settled?_eq_none.mp unsettled t (within.subset ht)
    rw [settled] at unsettled'
    cases unsettled'

theorem after_complete_dropped (owned : Owned before) (dropped : .dropCompletion ∈ before) :
    Ends.channel.after (before ++ [.complete outcome]) = Ends.channel.after (before ++ [.dropCompleter]) := by
  have gone := (reflects_after owned).gone (List.any_eq_true.mpr ⟨_, dropped, rfl⟩)
  rw [Ends.after_snoc, Ends.after_snoc, Ends.step, Ends.step, gone]
  rfl

theorem run_channel_first (owned : Owned steps) {settling : Step α} {between rest : List (Step α)}
    (cut : steps = before ++ settling :: (between ++ s :: rest)) (settles : settling.settles? = some outcome)
    (quiet : ∀ t ∈ between, t.asks = false) (asks : s.asks = true) :
    (Ends.channel.run steps)[before.length + 1 + between.length]? = some (.outcome outcome) := by
  have unsettled : settled? before = none := by
    have allowed := (owned.cut cut).2
    cases settling with
    | complete | dropCompleter => exact allowed
    | dropCompletion | poll | wait => cases settles
  have settled : settled? (before ++ settling :: between) = some outcome := by
    rw [settled?_append, unsettled, settled?, List.findSome?_cons, settles]
    rfl
  have unanswered : answered (before ++ settling :: between) = false := by
    rw [answered_append, unsettled, answered, settles]
    simpa using quiet
  have position : before.length + 1 + between.length = (before ++ settling :: between).length := by
    rw [List.length_append, List.length_cons]
    omega
  have cut' : steps = (before ++ settling :: between) ++ s :: rest := by
    rw [cut, List.append_assoc, List.cons_append]
  rw [position, run_channel owned cut']
  exact congrArg some (answer_eq_outcome.mpr ⟨asks, settled, unanswered⟩)

/-- Over every order of steps that the two ends of a channel allow: no step blocks or lacks its end, asking
is pending exactly until the completer completes or goes away, the first to ask after that is given what it
completed with, or that it is gone, and no two steps are given an outcome. Completing when the completion was
dropped does no more than to drop the completer. -/
theorem run_delivers (owned : Owned steps) :
    (∀ reply ∈ Ends.channel.run steps, reply ≠ .blocks ∧ reply ≠ .notHeld) ∧
    (∀ before rest, steps = before ++ .poll :: rest →
      ((Ends.channel.run steps)[before.length]? = some .pending ↔ ∀ t ∈ before, t.settles? = none)) ∧
    (∀ before settling between s rest outcome, steps = before ++ settling :: (between ++ s :: rest) →
      settling.settles? = some outcome → (∀ t ∈ between, t.asks = false) → s.asks = true →
      (Ends.channel.run steps)[before.length + 1 + between.length]? = some (.outcome outcome)) ∧
    (∀ (i j : Nat) (first second : Outcome α), (Ends.channel.run steps)[i]? = some (.outcome first) →
      (Ends.channel.run steps)[j]? = some (.outcome second) → i = j) ∧
    (∀ before outcome rest, steps = before ++ .complete outcome :: rest →
      (Ends.channel.run steps)[before.length]? = some .done ∧
        (.dropCompletion ∈ before →
          Ends.channel.after (before ++ [.complete outcome]) =
            Ends.channel.after (before ++ [.dropCompleter]) ∧
          ∀ (i : Nat) (given : Outcome α), (Ends.channel.run steps)[i]? ≠ some (.outcome given))) := by
  refine ⟨?_, ?_, ?_, ?_, ?_⟩
  · intro reply member
    obtain ⟨i, given⟩ := List.getElem?_of_mem member
    obtain ⟨before, s, rest, -, -, rfl⟩ := run_channel_cut owned given
    unfold answer
    grind
  · intro before rest cut
    rw [run_channel owned cut, Option.some.injEq, answer_eq_pending, settled?_eq_none]
    exact and_iff_right rfl
  · intro before settling between s rest outcome cut settles quiet asks
    exact run_channel_first owned cut settles quiet asks
  · intro i j first second given again
    rcases Nat.lt_trichotomy i j with lt | same | gt
    · exact absurd again (run_channel_once owned lt given)
    · exact same
    · exact absurd given (run_channel_once owned gt again)
  · intro before outcome rest cut
    refine ⟨run_channel owned cut, fun dropped => ⟨?_, ?_⟩⟩
    · exact after_complete_dropped (owned.cut cut).1 dropped
    · intro i given
      exact run_channel_unheard owned cut dropped i

end Channel

/-- An outcome asked for before and twice after it is there, and one that nobody is left to hear of. -/
theorem run_delivers_seven :
    let steps : List (Step Nat) := [.poll, .complete (.ok 7), .poll, .poll]
    let late : List (Step Nat) := [.poll, .dropCompletion, .complete (.ok 7)]
    Owned steps ∧ Owned late ∧
      (Ends.channel.run steps)[0]? = some .pending ∧
      (Ends.channel.run steps)[2]? = some (.outcome (.ok 7)) ∧
      (∀ (j : Nat) (second : Outcome Nat), (Ends.channel.run steps)[j]? = some (.outcome second) → 2 = j) ∧
      (Ends.channel.run late)[2]? = some .done ∧
      ∀ (i : Nat) (given : Outcome Nat), (Ends.channel.run late)[i]? ≠ some (.outcome given) := by
  intro steps late
  have asked : Owned ([.poll] : List (Step Nat)) := Owned.nil.snoc (show Allowed [] .poll from rfl)
  have completed := asked.snoc (show Allowed [.poll] (.complete (.ok 7)) from rfl)
  have taken := completed.snoc (show Allowed [.poll, .complete (.ok 7)] .poll from rfl)
  have dropped := asked.snoc (show Allowed [.poll] .dropCompletion from rfl)
  have owned : Owned steps := taken.snoc (show Allowed [.poll, .complete (.ok 7), .poll] .poll from rfl)
  have owned' : Owned late :=
    dropped.snoc (show Allowed [.poll, .dropCompletion] (.complete (.ok 7)) from rfl)
  obtain ⟨-, pending, first, single, -⟩ := run_delivers owned
  obtain ⟨-, -, -, -, unheard⟩ := run_delivers owned'
  have given := first [.poll] (.complete (.ok 7)) [] .poll [.poll] (.ok 7) rfl rfl nofun rfl
  obtain ⟨done, none⟩ := unheard [.poll, .dropCompletion] (.ok 7) [] rfl
  exact ⟨owned, owned', (pending [] _ rfl).mpr nofun, given, fun j second => single 2 j _ second given, done,
    (none (by simp)).2⟩

end PushGateway.Completion
