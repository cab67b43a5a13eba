import PushGateway.Proofs.Key.History
import PushGateway.Proofs.Token.Issued
/-!
Generations of a signer's tokens: one token is signed for each, and a generation ends when a cached token is
invalidated.
-/

namespace PushGateway.Signer

def signedRecord (s : Signer) : Log.Record :=
  Log.debug .token s!"Signed new token for issuer '{s.issuer}' (kid={s.keyId})"

def removedRecord (s : Signer) : Log.Record := Log.debug .token s!"Invalidated token for issuer '{s.issuer}'"

def cachedAt (s : Signer) (calls : List Call) (i : Nat) : Option String := (s.run (calls.take i)).2.cached

def ReturnsAt (s : Signer) (calls : List Call) (i : Nat) (text : String) : Prop :=
  ∃ reply, (s.run calls).1[i]? = some reply ∧ reply.token = some (.ok text)

structure SignsAt (s : Signer) (calls : List Call) (i : Nat) (m : Moment) (text : String) : Prop where
  call : calls[i]? = some (.token m)
  signed : s.sign m = .ok text
  reply : (s.run calls).1[i]? = some ⟨some (.ok text), [s.signedRecord]⟩

structure RemovesAt (s : Signer) (calls : List Call) (i : Nat) : Prop where
  call : calls[i]? = some .invalidate
  cached : s.cachedAt calls i ≠ none

/-- No cached token is removed between two positions. -/
def SameGeneration (s : Signer) (calls : List Call) (i j : Nat) : Prop :=
  ∀ k, i < k → k < j → ¬ s.RemovesAt calls k

section Cache

variable {s : Signer} {calls : List Call} {c : Call} {i j : Nat} {m : Moment} {text : String}

theorem perform_invalidate (s : Signer) : s.perform .invalidate =
    (⟨none, if s.cached = none then [] else [s.removedRecord]⟩, { s with cached := none }) := by
  unfold perform invalidateLog removedRecord
  cases s.cached <;> rfl

theorem perform_token_cached (cached : s.cached = some text) (m : Moment) :
    s.perform (.token m) = (⟨some (.ok text), []⟩, s) := by
  simp only [perform, token, tokenLog, cached]

theorem perform_token_signed (empty : s.cached = none) (signed : s.sign m = .ok text) :
    s.perform (.token m) = (⟨some (.ok text), [s.signedRecord]⟩, { s with cached := some text }) := by
  simp only [perform, token, tokenLog, empty, signed]
  rfl

theorem perform_token_failed {e : SigningError} (empty : s.cached = none) (failed : s.sign m = .error e) :
    s.perform (.token m) = (⟨some (.error e), []⟩, s) := by
  simp only [perform, token, tokenLog, empty, failed]

theorem run_append (s : Signer) (first second : List Call) :
    s.run (first ++ second) =
      ((s.run first).1 ++ ((s.run first).2.run second).1, ((s.run first).2.run second).2) := by
  induction first generalizing s with
  | nil => rfl
  | cons c first ih => simp only [List.cons_append, run, ih]

theorem run_take_succ (called : calls[i]? = some c) :
    (s.run (calls.take (i + 1))).2 = ((s.run (calls.take i)).2.perform c).2 := by
  rw [List.take_add_one, called, run_append]
  rfl

theorem run_frame (s : Signer) (calls : List Call) :
    (s.run calls).2 = { s with cached := (s.run calls).2.cached } := by
  induction calls generalizing s with
  | nil => rfl
  | cons c calls ih =>
    have first : (s.perform c).2 = { s with cached := (s.perform c).2.cached } := by
      cases c with
      | invalidate => rfl
      | token m =>
        rcases s.token_cases m with ⟨_, _, h⟩ | ⟨_, _, _, h⟩ | ⟨_, _, _, h⟩ <;> simp only [perform, h]
    rw [run, ih, first]

theorem run_take (s : Signer) (calls : List Call) (i : Nat) :
    (s.run (calls.take i)).2 = { s with cached := s.cachedAt calls i } := s.run_frame _

theorem run_getElem? (called : calls[i]? = some c) :
    (s.run calls).1[i]? = some (({ s with cached := s.cachedAt calls i } : Signer).perform c).1 := by
  rw [← run_take]
  induction calls generalizing s i with
  | nil => cases called
  | cons d calls ih =>
    cases i with
    | zero =>
      cases called
      rfl
    | succ i => exact ih called

theorem calls_of_reply {reply : Reply} (given : (s.run calls).1[i]? = some reply) :
    ∃ c, calls[i]? = some c := by
  induction calls generalizing s i with
  | nil => cases given
  | cons d calls ih =>
    cases i with
    | zero => exact ⟨d, rfl⟩
    | succ i => exact ih given

theorem cachedAt_succ (called : calls[i]? = some c) :
    s.cachedAt calls (i + 1) = (({ s with cached := s.cachedAt calls i } : Signer).perform c).2.cached := by
  rw [cachedAt, run_take_succ called, run_take]

theorem cachedAt_invalidate (called : calls[i]? = some .invalidate) : s.cachedAt calls (i + 1) = none := by
  rw [cachedAt_succ called, perform_invalidate]

theorem cachedAt_kept (called : calls[i]? = some (.token m)) (cached : s.cachedAt calls i = some text) :
    s.cachedAt calls (i + 1) = some text := by
  rw [cachedAt_succ called, cached, perform_token_cached rfl]

theorem cachedAt_past (past : calls[i]? = none) : s.cachedAt calls (i + 1) = s.cachedAt calls i := by
  rw [cachedAt, List.take_add_one, past, Option.toList_none, List.append_nil]
  rfl

theorem token_at (called : calls[i]? = some (.token m)) :
    (∃ t, s.cachedAt calls i = some t ∧ (s.run calls).1[i]? = some ⟨some (.ok t), []⟩ ∧
      s.cachedAt calls (i + 1) = some t) ∨
    (∃ t, s.cachedAt calls i = none ∧ s.SignsAt calls i m t ∧ s.cachedAt calls (i + 1) = some t) ∨
    (∃ e, s.cachedAt calls i = none ∧ s.sign m = .error e ∧
      (s.run calls).1[i]? = some ⟨some (.error e), []⟩ ∧ s.cachedAt calls (i + 1) = none) := by
  cases cached : s.cachedAt calls i with
  | some t =>
    refine .inl ⟨t, rfl, ?_, cachedAt_kept called cached⟩
    rw [run_getElem? called, cached, perform_token_cached rfl]
  | none =>
    -- what is signed does not depend on the cache
    have same : ({ s with cached := none } : Signer).sign m = s.sign m := rfl
    cases signed : s.sign m with
    | ok t =>
      refine .inr (.inl ⟨t, rfl, ⟨called, signed, ?_⟩, ?_⟩)
      · rw [run_getElem? called, cached, perform_token_signed rfl (same.trans signed)]
        rfl
      · rw [cachedAt_succ called, cached, perform_token_signed rfl (same.trans signed)]
    | error e =>
      refine .inr (.inr ⟨e, rfl, rfl, ?_, ?_⟩)
      · rw [run_getElem? called, cached, perform_token_failed rfl (same.trans signed)]
      · rw [cachedAt_succ called, cached, perform_token_failed rfl (same.trans signed)]

theorem token_reply {reply : Reply} (called : calls[i]? = some (.token m))
    (given : (s.run calls).1[i]? = some reply) :
    (∃ t, reply = ⟨some (.ok t), []⟩ ∧ s.cachedAt calls (i + 1) = some t) ∨
    (∃ t, reply = ⟨some (.ok t), [s.signedRecord]⟩ ∧ s.cachedAt calls i = none ∧ s.SignsAt calls i m t ∧
      s.cachedAt calls (i + 1) = some t) ∨
    (∃ e, reply = ⟨some (.error e), []⟩ ∧ s.cachedAt calls (i + 1) = none) := by
  rcases token_at called with ⟨t, _, reply', after⟩ | ⟨t, empty, signs, after⟩ | ⟨e, _, _, reply', after⟩
  · exact .inl ⟨t, Option.some.inj (given.symm.trans reply'), after⟩
  · exact .inr (.inl ⟨t, Option.some.inj (given.symm.trans signs.reply), empty, signs, after⟩)
  · exact .inr (.inr ⟨e, Option.some.inj (given.symm.trans reply'), after⟩)

theorem SignsAt.cachedAt (h : s.SignsAt calls i m text) : s.cachedAt calls i = none := by
  -- what comes from the cache is not reported
  rcases token_reply h.call h.reply with ⟨t, same, -⟩ | ⟨t, -, empty, -⟩ | ⟨e, same, -⟩
  · cases same
  · exact empty
  · cases same

theorem SignsAt.returnsAt (h : s.SignsAt calls i m text) : s.ReturnsAt calls i text := ⟨_, h.reply, rfl⟩

theorem ReturnsAt.call (h : s.ReturnsAt calls i text) : ∃ m, calls[i]? = some (.token m) := by
  obtain ⟨reply, given, returned⟩ := h
  obtain ⟨c, called⟩ := calls_of_reply given
  cases c with
  | token m => exact ⟨m, called⟩
  | invalidate =>
    rw [run_getElem? called, Option.some.injEq] at given
    rw [← given] at returned
    cases returned

theorem ReturnsAt.cachedAt (h : s.ReturnsAt calls i text) : s.cachedAt calls (i + 1) = some text := by
  obtain ⟨m, called⟩ := h.call
  obtain ⟨reply, given, returned⟩ := h
  rcases token_reply called given with ⟨t, rfl, cached⟩ | ⟨t, rfl, -, -, cached⟩ | ⟨e, rfl, -⟩
  · cases returned
    exact cached
  · cases returned
    exact cached
  · cases returned

theorem cachedAt_unremoved (cached : s.cachedAt calls i = some text) (later : i ≤ j)
    (unremoved : ∀ k, i ≤ k → k < j → ¬ s.RemovesAt calls k) : s.cachedAt calls j = some text := by
  induction later with
  | refl => exact cached
  | @step j later ih =>
    have cached := ih fun k hk before => unremoved k hk (Nat.lt_succ_of_lt before)
    cases called : calls[j]? with
    | none => rw [cachedAt_past called, cached]
    | some c =>
      cases c with
      | token m => exact cachedAt_kept called cached
      | invalidate => exact absurd ⟨called, by simp [cached]⟩ (unremoved j later j.lt_succ_self)

theorem ReturnsAt.cachedAt_later (h : s.ReturnsAt calls i text) (later : i < j)
    (same : s.SameGeneration calls i j) : s.cachedAt calls j = some text :=
  cachedAt_unremoved h.cachedAt later fun k after before => same k after before

theorem ReturnsAt.again (h : s.ReturnsAt calls i text) (later : i < j) (same : s.SameGeneration calls i j)
    (called : calls[j]? = some (.token m)) : s.ReturnsAt calls j text := by
  have cached := h.cachedAt_later later same
  rcases token_at called with ⟨t, kept, reply, -⟩ | ⟨t, empty, -⟩ | ⟨e, empty, -⟩
  · cases cached.symm.trans kept
    exact ⟨_, reply, rfl⟩
  · cases cached.symm.trans empty
  · cases cached.symm.trans empty

/-- What is cached was signed by an earlier call, and nothing was invalidated since. -/
theorem signsAt_of_cachedAt (fresh : s.cached = none) (cached : s.cachedAt calls j = some text) :
    ∃ i m, i < j ∧ s.SignsAt calls i m text ∧ ∀ k, i < k → k < j → calls[k]? ≠ some .invalidate := by
  induction j with
  | zero =>
    rw [cachedAt, List.take_zero, run, fresh] at cached
    cases cached
  | succ j ih =>
    have further : s.cachedAt calls j = some text → calls[j]? ≠ some .invalidate →
        ∃ i m, i < j + 1 ∧ s.SignsAt calls i m text ∧
          ∀ k, i < k → k < j + 1 → calls[k]? ≠ some .invalidate := by
      intro cached valid
      obtain ⟨i, m, before, signs, kept⟩ := ih cached
      refine ⟨i, m, Nat.lt_succ_of_lt before, signs, ?_⟩
      intro k hi hk
      rcases Nat.lt_succ_iff_lt_or_eq.mp hk with hk | rfl
      · exact kept k hi hk
      · exact valid
    cases called : calls[j]? with
    | none =>
      rw [cachedAt_past called] at cached
      exact further cached (by simp [called])
    | some c =>
      cases c with
      | invalidate =>
        rw [cachedAt_invalidate called] at cached
        cases cached
      | token m =>
        rcases token_at called with ⟨t, earlier, -, now⟩ | ⟨t, -, signs, now⟩ | ⟨e, -, -, -, now⟩
        · rw [now, ← earlier] at cached
          exact further cached (by simp [called])
        · cases now.symm.trans cached
          exact ⟨j, m, j.lt_succ_self, signs, fun k after before => by omega⟩
        · rw [now] at cached
          cases cached

theorem tokenText_inj {time time' : UnixTime} {sig sig' : Signature}
    (reduced : sig.r < P256.order ∧ sig.s < P256.order)
    (reduced' : sig'.r < P256.order ∧ sig'.s < P256.order)
    (same : s.tokenText time sig = s.tokenText time' sig') : sig = sig' := by
  have fields := (s.tokenText_segments time sig).fields_eq
  rw [same, (s.tokenText_segments time' sig').fields_eq] at fields
  simp only [List.cons.injEq, Token.encode_segment, and_true] at fields
  have octets := congrArg (Base64.decode Base64.urlSafe) fields.2.2
  rw [Base64.decode_encode Base64.urlSafe_legible, Base64.decode_encode Base64.urlSafe_legible] at octets
  have read := congrArg Signature.decodeFixed? (Except.ok.inj octets)
  rw [Signature.decodeFixed?_encodeFixed reduced'.1 reduced'.2,
    Signature.decodeFixed?_encodeFixed reduced.1 reduced.2] at read
  exact (Option.some.inj read).symm

end Cache

def Unrepeated (s : Signer) (calls : List Call) : Prop :=
  ∀ i j m m' text text' sig, i < j → s.SignsAt calls i m text → s.SignsAt calls j m' text' →
    Ecdsa.sign? s.key.scalar m.nonce (s.signedPart m.time) = some sig →
    Ecdsa.sign? s.key.scalar m'.nonce (s.signedPart m'.time) ≠ some sig

structure Generations (s : Signer) (calls : List Call) : Prop where
  same : ∀ i j first second, i < j → s.ReturnsAt calls i first → s.ReturnsAt calls j second →
    (∀ k, i < k → k < j → calls[k]? ≠ some .invalidate) → first = second
  signed : ∀ j text, s.ReturnsAt calls j text →
    ∃ i m, i ≤ j ∧ s.SignsAt calls i m text ∧ s.SameGeneration calls i j
  once : ∀ i j m m' first second, i < j → s.SignsAt calls i m first → s.SignsAt calls j m' second →
    ¬ s.SameGeneration calls i j
  /-- The call that signs is the first of its generation at which signing succeeds. -/
  first : ∀ i m, calls[i]? = some (.token m) → ((∃ text, s.SignsAt calls i m text) ↔
    (∃ text, s.sign m = .ok text) ∧
      ∀ j text, j < i → s.ReturnsAt calls j text → ¬ s.SameGeneration calls j i)
  reported : ∀ i m reply, calls[i]? = some (.token m) → (s.run calls).1[i]? = some reply →
    reply.log ≠ [] → ∃ text, s.SignsAt calls i m text
  removed : ∀ i, s.RemovesAt calls i →
    (s.run calls).1[i]? = some ⟨none, [s.removedRecord]⟩ ∧ s.cachedAt calls (i + 1) = none
  idle : ∀ i, calls[i]? = some .invalidate → s.cachedAt calls i = none →
    (s.run calls).1[i]? = some ⟨none, []⟩ ∧ (s.run (calls.take (i + 1))).2 = (s.run (calls.take i)).2
  failed : ∀ i e reply, (s.run calls).1[i]? = some reply → reply.token = some (.error e) →
    s.cachedAt calls (i + 1) = none
  distinct : s.Unrepeated calls → ∀ i k j first second, i < k → k < j → s.ReturnsAt calls i first →
    calls[k]? = some .invalidate → s.ReturnsAt calls j second → first ≠ second

section Generations

variable {s : Signer} {calls : List Call} {i j k : Nat} {m m' : Moment} {text first second : String}

theorem RemovesAt.reply (h : s.RemovesAt calls i) :
    (s.run calls).1[i]? = some ⟨none, [s.removedRecord]⟩ ∧ s.cachedAt calls (i + 1) = none := by
  refine ⟨?_, cachedAt_invalidate h.call⟩
  rw [run_getElem? h.call, perform_invalidate]
  exact congrArg some (congrArg _ (if_neg h.cached))

theorem idle_invalidate (called : calls[i]? = some .invalidate) (empty : s.cachedAt calls i = none) :
    (s.run calls).1[i]? = some ⟨none, []⟩ ∧
      (s.run (calls.take (i + 1))).2 = (s.run (calls.take i)).2 := by
  constructor
  · rw [run_getElem? called, perform_invalidate, empty]
    rfl
  · rw [run_take, run_take, cachedAt_invalidate called, empty]

theorem SignsAt.not_sameGeneration (h : s.SignsAt calls j m text) (earlier : i < j)
    (returns : s.ReturnsAt calls i first) : ¬ s.SameGeneration calls i j := by
  intro same
  have cached := returns.cachedAt_later earlier same
  rw [h.cachedAt] at cached
  cases cached

theorem signsAt_iff (fresh : s.cached = none) (called : calls[i]? = some (.token m)) :
    (∃ text, s.SignsAt calls i m text) ↔ (∃ text, s.sign m = .ok text) ∧
      ∀ j text, j < i → s.ReturnsAt calls j text → ¬ s.SameGeneration calls j i := by
  constructor
  · rintro ⟨text, signs⟩
    exact ⟨⟨text, signs.signed⟩, fun j _ earlier returns => signs.not_sameGeneration earlier returns⟩
  · rintro ⟨⟨text, signed⟩, first⟩
    rcases token_at called with ⟨t, cached, -⟩ | ⟨t, -, signs, -⟩ | ⟨e, -, failed, -⟩
    · -- whoever signed the cached token was of this generation
      obtain ⟨j, m', earlier, signs, kept⟩ := signsAt_of_cachedAt fresh cached
      exact absurd (fun k after before removes => kept k after before removes.call)
        (first j t earlier signs.returnsAt)
    · exact ⟨t, signs⟩
    · rw [signed] at failed
      cases failed

theorem failed_cachedAt {e : SigningError} {reply : Reply} (given : (s.run calls).1[i]? = some reply)
    (failed : reply.token = some (.error e)) : s.cachedAt calls (i + 1) = none := by
  obtain ⟨c, called⟩ := calls_of_reply given
  cases c with
  | invalidate => exact cachedAt_invalidate called
  | token m =>
    rcases token_reply called given with ⟨t, rfl, -⟩ | ⟨t, rfl, -⟩ | ⟨_, -, empty⟩
    · cases failed
    · cases failed
    · exact empty

theorem reported_signsAt {reply : Reply} (called : calls[i]? = some (.token m))
    (given : (s.run calls).1[i]? = some reply) (reported : reply.log ≠ []) :
    ∃ text, s.SignsAt calls i m text := by
  rcases token_reply called given with ⟨t, rfl, -⟩ | ⟨t, -, -, signs, -⟩ | ⟨e, rfl, -⟩
  · exact absurd rfl reported
  · exact ⟨t, signs⟩
  · exact absurd rfl reported

theorem distinct_generations (fresh : s.cached = none) (unrepeated : s.Unrepeated calls) (after : i < k)
    (before : k < j) (returns : s.ReturnsAt calls i first) (called : calls[k]? = some .invalidate)
    (returns' : s.ReturnsAt calls j second) : first ≠ second := by
  rintro rfl
  obtain ⟨p, m, hp, signs, -⟩ := signsAt_of_cachedAt fresh returns.cachedAt
  obtain ⟨q, m', hq, signs', kept⟩ := signsAt_of_cachedAt fresh returns'.cachedAt
  -- nothing was invalidated after the second signing, so it comes after the call between
  have apart : p < q := by
    rcases Nat.lt_trichotomy k q with lt | rfl | gt
    · omega
    · cases called.symm.trans signs'.call
    · exact absurd called (kept k gt (by omega))
  obtain ⟨sig, made, text⟩ := sign_eq_ok.mp signs.signed
  obtain ⟨sig', made', text'⟩ := sign_eq_ok.mp signs'.signed
  have same := tokenText_inj (Signature.sign?_reduced made) (Signature.sign?_reduced made')
    (text.trans text'.symm)
  exact unrepeated p q m m' _ _ sig apart signs signs' made (same ▸ made')

end Generations

/-- Whatever is asked of a new signer, by however many callers in whatever order. -/
theorem generations_run {s : Signer} (fresh : s.cached = none) (calls : List Call) : s.Generations calls where
  same := by
    intro i j first second order returns returns' valid
    obtain ⟨m, called⟩ := returns'.call
    have again := returns.again order (fun k after before removes => valid k after before removes.call) called
    exact Option.some.inj (again.cachedAt.symm.trans returns'.cachedAt)
  signed := by
    intro j text returns
    obtain ⟨i, m, before, signs, kept⟩ := signsAt_of_cachedAt fresh returns.cachedAt
    refine ⟨i, m, Nat.lt_succ_iff.mp before, signs, ?_⟩
    intro k after earlier removes
    exact kept k after (Nat.lt_succ_of_lt earlier) removes.call
  once := fun i j m m' first second order signs signs' =>
    signs'.not_sameGeneration order signs.returnsAt
  first := fun i m called => signsAt_iff fresh called
  reported := fun i m reply called given reported => reported_signsAt called given reported
  removed := fun i removes => removes.reply
  idle := fun i called empty => idle_invalidate called empty
  failed := fun i e reply given failed => failed_cachedAt given failed
  distinct := fun unrepeated i k j first second after before returns called returns' =>
    distinct_generations fresh unrepeated after before returns called returns'

/-- One token is returned twice, and another one after the signer was invalidated. -/
theorem generations_run_awkward :
    let calls : List Call := [.token earlier, .token later, .invalidate, .token later]
    ∃ first second, awkward.ReturnsAt calls 0 first ∧ awkward.ReturnsAt calls 1 first ∧
      awkward.ReturnsAt calls 3 second ∧ first ≠ second := by
  intro calls
  have h : awkward.Generations calls := generations_run rfl calls
  have evaluated : (awkward.sign earlier).toOption.isSome ∧ (awkward.sign later).toOption.isSome ∧
      Ecdsa.sign? awkward.key.scalar earlier.nonce (awkward.signedPart earlier.time) ≠
        Ecdsa.sign? awkward.key.scalar later.nonce (awkward.signedPart later.time) := by
    decide +kernel
  obtain ⟨signs, signs', differ⟩ := evaluated
  obtain ⟨text, signed⟩ := Option.isSome_iff_exists.mp signs
  obtain ⟨text', signed'⟩ := Option.isSome_iff_exists.mp signs'
  obtain ⟨first, begins⟩ := (h.first 0 earlier rfl).mpr ⟨⟨text, toOption_eq_some.mp signed⟩, nofun⟩
  have again : awkward.ReturnsAt calls 1 first :=
    begins.returnsAt.again (by decide) (fun k after before => by omega) (m := later) rfl
  have removes : awkward.RemovesAt calls 2 := ⟨rfl, by simp [again.cachedAt]⟩
  have apart : ∀ j text, j < 3 → awkward.ReturnsAt calls j text → ¬ awkward.SameGeneration calls j 3 := by
    intro j text before returns same
    obtain ⟨m, called⟩ := returns.call
    rcases j with _ | _ | _ | j
    · exact same 2 (by decide) (by decide) removes
    · exact same 2 (by decide) (by decide) removes
    · cases called
    · omega
  obtain ⟨second, renewed⟩ := (h.first 3 later rfl).mpr ⟨⟨text', toOption_eq_some.mp signed'⟩, apart⟩
  have position : ∀ i m text, awkward.SignsAt calls i m text →
      (i = 0 ∧ m = earlier) ∨ (i = 3 ∧ m = later) := by
    intro i m text signs
    have call := signs.call
    rcases i with _ | _ | _ | _ | i
    · exact .inl ⟨rfl, (Call.token.inj (Option.some.inj call)).symm⟩
    · cases begins.returnsAt.cachedAt.symm.trans signs.cachedAt
    · cases call
    · exact .inr ⟨rfl, (Call.token.inj (Option.some.inj call)).symm⟩
    · cases call
  have unrepeated : awkward.Unrepeated calls := by
    intro i j m m' _ _ sig order signs signs' made made'
    rcases position i m _ signs with ⟨rfl, rfl⟩ | ⟨rfl, rfl⟩
    · rcases position j m' _ signs' with ⟨rfl, rfl⟩ | ⟨rfl, rfl⟩
      · omega
      · exact differ (made.trans made'.symm)
    · rcases position j m' _ signs' with ⟨rfl, rfl⟩ | ⟨rfl, rfl⟩ <;> omega
  exact ⟨first, second, begins.returnsAt, again, renewed.returnsAt,
    h.distinct unrepeated 0 2 3 first second (by decide) (by decide) begins.returnsAt rfl renewed.returnsAt⟩

end PushGateway.Signer
