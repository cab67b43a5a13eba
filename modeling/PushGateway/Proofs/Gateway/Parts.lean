import PushGateway.Proofs.Fixtures.Application

namespace PushGateway.Gateway

inductive Part where
  | keys
  | devices
  | emulation
  deriving DecidableEq, Repr

/-- The parts that an operation reads or writes. Applying fixtures writes keys and devices. -/
def Operation.parts : Operation → List Part
  | .registerKey _ | .clearKeys | .verifier _ | .team _ | .key _ | .topics _ | .authorize _ => [.keys]
  | .registerDevice _ _ _ | .clearDevices | .isRegistered _ _ | .expiration _ _ => [.devices]
  | .setEmulation _ => [.emulation]
  | .applyFixtures _ => [.keys, .devices]

def Alike : Part → Gateway → Gateway → Prop
  | .keys, g, g' => g.keys = g'.keys
  | .devices, g, g' => g.devices = g'.devices
  | .emulation, g, g' => g.emulateErrors = g'.emulateErrors

def only (p : Part) (ops : List Operation) : List Operation := ops.filter fun o => p ∈ o.parts

def answersOf (p : Part) (g : Gateway) (ops : List Operation) : List Answer :=
  ((ops.zip (g.run ops).1).filter fun e => p ∈ e.1.parts).map Prod.snd

section Runs

variable {g g' : Gateway} {p : Part} {o : Operation}

theorem perform_fixtures (g : Gateway) (f : Fixtures) :
    (g.perform (.applyFixtures f)).gateway = (f.apply g).gateway ∧
      (g.perform (.applyFixtures f)).answer =
        match (f.apply g).result with
        | .error e => .notApplied e
        | .ok _ => .done := by
  rw [perform]
  cases (f.apply g).result <;> exact ⟨rfl, rfl⟩

theorem perform_apart (apart : p ∉ o.parts) : Alike p (g.perform o).gateway g := by
  cases o with
  | registerKey q =>
    rw [perform, registerKey]
    cases g.keys.register q with
    | error e => cases p <;> rfl
    | ok ks =>
      cases p with
      | keys => exact absurd (List.mem_singleton_self _) apart
      | devices | emulation => rfl
  | applyFixtures f =>
    rw [(perform_fixtures g f).1]
    cases p with
    | keys | devices => simp [Operation.parts] at apart
    | emulation => exact f.apply_emulation g
  | clearKeys =>
    cases p with
    | keys => exact absurd (List.mem_singleton_self _) apart
    | devices | emulation => rfl
  | registerDevice | clearDevices =>
    cases p with
    | devices => exact absurd (List.mem_singleton_self _) apart
    | keys | emulation => rfl
  | setEmulation =>
    cases p with
    | emulation => exact absurd (List.mem_singleton_self _) apart
    | keys | devices => rfl
  | verifier | team | key | topics | isRegistered | expiration | authorize => cases p <;> rfl

/-- An operation that concerns a part does with it the same at any gateway that has it. -/
theorem perform_alike (concerns : p ∈ o.parts) (alike : Alike p g g') :
    (g.perform o).answer = (g'.perform o).answer ∧
      Alike p (g.perform o).gateway (g'.perform o).gateway := by
  cases p with
  | keys =>
    have keys : g.keys = g'.keys := alike
    refine ⟨?_, ?_⟩
    · cases o with
      | registerKey q =>
        rw [perform, perform, registerKey, registerKey, ← keys]
        cases g.keys.register q <;> rfl
      | applyFixtures f => rw [(perform_fixtures g f).2, (perform_fixtures g' f).2, f.apply_result g g']
      | clearKeys => rfl
      | verifier | team | key | topics | authorize => simp only [perform, authorize, keys]
      | _ => simp [Operation.parts] at concerns
    · rw [Alike, perform_keys, perform_keys, keys]
  | devices =>
    have devices : g.devices = g'.devices := alike
    cases o with
    | registerDevice topic token expiration =>
      exact ⟨rfl, by simp only [Alike, perform, registerDevice, devices]⟩
    | applyFixtures f =>
      refine ⟨?_, ?_⟩
      · rw [(perform_fixtures g f).2, (perform_fixtures g' f).2, f.apply_result g g']
      · rw [Alike, (perform_fixtures g f).1, (perform_fixtures g' f).1]
        exact f.apply_devices devices
    | clearDevices => exact ⟨rfl, rfl⟩
    | isRegistered | expiration => exact ⟨by simp only [perform, devices], devices⟩
    | _ => simp [Operation.parts] at concerns
  | emulation =>
    cases o with
    | setEmulation enabled => exact ⟨rfl, rfl⟩
    | _ => simp [Operation.parts] at concerns

theorem Alike.refl (p : Part) (g : Gateway) : Alike p g g := by
  cases p <;> rfl

theorem Alike.trans {g'' : Gateway} (h : Alike p g g') (h' : Alike p g' g'') : Alike p g g'' := by
  cases p <;> exact Eq.trans h h'

theorem answersOf_cons (p : Part) (g : Gateway) (o : Operation) (ops : List Operation) :
    answersOf p g (o :: ops) =
      if p ∈ o.parts then (g.perform o).answer :: answersOf p (g.perform o).gateway ops
      else answersOf p (g.perform o).gateway ops := by
  simp only [answersOf, run, List.zip_cons_cons, List.filter_cons, decide_eq_true_eq]
  split <;> rfl

theorem only_cons (p : Part) (o : Operation) (ops : List Operation) :
    only p (o :: ops) = if p ∈ o.parts then o :: only p ops else only p ops := by
  simp only [only, List.filter_cons, decide_eq_true_eq]

theorem run_alike (alike : Alike p g g') (ops : List Operation) :
    answersOf p g ops = (g'.run (only p ops)).1 ∧ Alike p (g.run ops).2 (g'.run (only p ops)).2 := by
  -- the two runs are at gateways that differ in the other parts
  induction ops generalizing g g' with
  | nil => exact ⟨rfl, alike⟩
  | cons o ops ih =>
    rw [answersOf_cons, only_cons]
    split
    · rename_i concerns
      obtain ⟨answer, after⟩ := perform_alike concerns alike
      obtain ⟨answers, left⟩ := ih after
      exact ⟨by rw [answer, answers, run], left⟩
    · rename_i apart
      exact ih ((perform_apart apart).trans alike)

def Operation.emulation? : Operation → Option Bool
  | .setEmulation enabled => some enabled
  | _ => none

theorem perform_emulation (g : Gateway) (o : Operation) :
    (g.perform o).gateway.emulateErrors = o.emulation?.getD g.emulateErrors := by
  cases o with
  | setEmulation enabled => rfl
  | _ => exact perform_apart (p := .emulation) (by simp [Operation.parts])

theorem run_emulation (g : Gateway) (ops : List Operation) :
    (g.run ops).2.emulateErrors = ((ops.filterMap Operation.emulation?).getLast?).getD g.emulateErrors := by
  induction ops generalizing g with
  | nil => rfl
  | cons o ops ih =>
    rw [run, ih, perform_emulation, List.filterMap_cons]
    cases o.emulation? with
    | none => rfl
    | some enabled => rw [List.getLast?_cons]; rfl

end Runs

/-- In a run of any operations on a gateway, the keys are answered and left as in the run of the operations on
keys alone, the devices as in the run of the operations on devices alone, and the emulation of errors is what
it was last set to. -/
theorem run_parts (g : Gateway) (ops : List Operation) :
    (answersOf .keys g ops = (g.run (only .keys ops)).1 ∧
      (g.run ops).2.keys = (g.run (only .keys ops)).2.keys) ∧
    (answersOf .devices g ops = (g.run (only .devices ops)).1 ∧
      (g.run ops).2.devices = (g.run (only .devices ops)).2.devices) ∧
    (answersOf .emulation g ops = (g.run (only .emulation ops)).1 ∧
      (g.run ops).2.emulateErrors = ((ops.filterMap Operation.emulation?).getLast?).getD g.emulateErrors) :=
  ⟨run_alike (.refl .keys g) ops, run_alike (.refl .devices g) ops, (run_alike (.refl .emulation g) ops).1,
    run_emulation g ops⟩

end PushGateway.Gateway
