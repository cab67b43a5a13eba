import PushGateway.Gateway.Operation
import PushGateway.Proofs.Key.History
import PushGateway.Proofs.Token.Signing

namespace PushGateway

open KeyRegistry

/-- The registrations that a list of fixtures attempts: up to the first key that is not accepted. -/
def KeyFixture.calls : List KeyFixture → List KeyRegistry.Call
  | [] => []
  | k :: ks =>
    match k.registration with
    | .error _ => []
    | .ok q => .register q :: if q.verifier?.isSome then calls ks else []

namespace Gateway

def Operation.keyCalls : Operation → List KeyRegistry.Call
  | .registerKey q => [.register q]
  | .clearKeys => [.clear]
  | .applyFixtures f => KeyFixture.calls f.keys
  | _ => []

def keyHistory (ops : List Operation) : List KeyRegistry.Call := ops.flatMap Operation.keyCalls

section Projection

variable {g : Gateway} {q : KeyRegistration} {v : Verifier}

theorem registerKey_accepted (accepted : q.verifier? = some v) :
    g.registerKey q = .ok { g with keys := g.keys.insert (q.record v) q.topics } := by
  rw [registerKey, register_accepted accepted]
  rfl

theorem registerKey_refused (refused : q.verifier? = none) : ∃ e, g.registerKey q = .error e := by
  obtain ⟨e, failed⟩ := register_refused (r := g.keys) refused
  exact ⟨e, by rw [registerKey, failed]; rfl⟩

theorem applyKeys_keys (ks : List KeyFixture) (g : Gateway) :
    (Fixtures.applyKeys g ks).gateway.keys = g.keys.run (KeyFixture.calls ks) := by
  -- a key that is refused ends both the application and the calls
  induction ks generalizing g with
  | nil => rfl
  | cons k ks ih =>
    unfold Fixtures.applyKeys KeyFixture.calls
    cases k.registration with
    | error e => rfl
    | ok q =>
      cases accepted : q.verifier? with
      | none =>
        obtain ⟨e, failed⟩ := registerKey_refused (g := g) accepted
        simp only [failed, accepted, Option.isSome_none, Bool.false_eq_true, if_false]
        exact (step_refused accepted).symm
      | some v =>
        simp only [registerKey_accepted accepted, accepted, Option.isSome_some, if_true, ih]
        rw [← step_accepted accepted]
        rfl

theorem applyDevices_keys (ds : List DeviceFixture) (g : Gateway) :
    (Fixtures.applyDevices g ds).gateway.keys = g.keys := by
  induction ds generalizing g with
  | nil => rfl
  | cons d ds ih =>
    unfold Fixtures.applyDevices
    cases d.expiration? with
    | none => rfl
    | some expiration => exact ih _

theorem apply_keys (f : Fixtures) (g : Gateway) :
    (f.apply g).gateway.keys = g.keys.run (KeyFixture.calls f.keys) := by
  have registered := applyKeys_keys f.keys g
  have devices := applyDevices_keys f.devices (Fixtures.applyKeys g f.keys).gateway
  rw [← registered]
  cases hk : (Fixtures.applyKeys g f.keys).result with
  | error e => simp only [Fixtures.apply, hk]
  | ok _ =>
    cases hd : (Fixtures.applyDevices (Fixtures.applyKeys g f.keys).gateway f.devices).result with
    | error e => simp only [Fixtures.apply, hk, hd, devices]
    | ok _ => simp only [Fixtures.apply, hk, hd, devices]

theorem perform_keys (g : Gateway) (o : Operation) : (g.perform o).gateway.keys = g.keys.run o.keyCalls := by
  cases o with
  | registerKey q =>
    cases accepted : q.verifier? with
    | none =>
      obtain ⟨e, failed⟩ := registerKey_refused (g := g) accepted
      simp only [perform, failed]
      exact (step_refused accepted).symm
    | some v =>
      simp only [perform, registerKey_accepted accepted]
      exact (step_accepted accepted).symm
  | applyFixtures f =>
    have applied := apply_keys f g
    cases h : (f.apply g).result with
    | error e =>
      simp only [perform, h]
      exact applied
    | ok _ =>
      simp only [perform, h]
      exact applied
  | _ => rfl

theorem run_keys (g : Gateway) (ops : List Operation) :
    (g.run ops).2.keys = g.keys.run (keyHistory ops) := by
  induction ops generalizing g with
  | nil => rfl
  | cons o ops ih =>
    have first : keyHistory (o :: ops) = o.keyCalls ++ keyHistory ops := List.flatMap_cons
    rw [run, ih, perform_keys, first, run_append]

end Projection

section Authorization

variable {ops : List Operation} {t : Token} {live : List (Nat × KeyRegistration × Verifier)}

/-- The registration at position `i` of the history is the one that decides what the token is worth: no
other live one has its key id or its issuer as team. -/
structure Backs (calls : List KeyRegistry.Call) (t : Token) (i : Nat) (q : KeyRegistration) (v : Verifier) :
    Prop where
  live : LiveAt calls i q v
  keyId : q.keyId = t.header.keyId
  team : q.team = t.claims.issuer
  only : ∀ j q' v', LiveAt calls j q' v' → q'.keyId = t.header.keyId ∨ q'.team = t.claims.issuer →
    j = i ∧ q' = q ∧ v' = v

theorem backs_of_live {calls : List KeyRegistry.Call} {i : Nat} {q : KeyRegistration} {v : Verifier}
    (live : LiveAt calls i q v) (keyId : q.keyId = t.header.keyId) (team : q.team = t.claims.issuer) :
    Backs calls t i q v := by
  refine ⟨live, keyId, team, ?_⟩
  intro j q' v' live' same
  have rival : q'.keyId = q.keyId ∨ q'.team = q.team :=
    same.imp (fun h => h.trans keyId.symm) (fun h => h.trans team.symm)
  exact live'.unique live rival (rival.imp Eq.symm Eq.symm)

theorem authorize_backed {g : Gateway} {calls : List KeyRegistry.Call} {i : Nat} {q : KeyRegistration}
    {v : Verifier} (h : Reflects calls live g.keys) (backs : Backs calls t i q v) :
    g.authorize t = ⟨some (t.verify v), some t.claims.issuer, some true, some (topicSet q.topics)⟩ := by
  have verifier : g.keys.verifier t.header.keyId = some v :=
    (h.verifier_eq_some _ _).mpr ⟨i, q, backs.live, backs.keyId⟩
  have team : g.keys.team t.header.keyId = some t.claims.issuer :=
    (h.team_eq_some _ _).mpr ⟨i, q, v, backs.live, backs.keyId, backs.team⟩
  have topics : g.keys.topics t.claims.issuer = some (topicSet q.topics) :=
    (h.topics _ _).mpr ⟨i, q, v, backs.live.newest, backs.team, rfl⟩
  simp only [authorize, verifier, team, topics, Option.map_some, decide_true]

theorem backs_of_team {g : Gateway} {calls : List KeyRegistry.Call} (h : Reflects calls live g.keys)
    (owned : (g.authorize t).team = some t.claims.issuer) : ∃ i q v, Backs calls t i q v := by
  obtain ⟨i, q, v, live, keyId, team⟩ := (h.team_eq_some _ _).mp owned
  exact ⟨i, q, v, backs_of_live live keyId team⟩

end Authorization

/-- After any operations on a new gateway, fixtures and failures among them: if a token's signature is
verified and its key id is owned by its issuer, one live registration backs it, the signature was checked
with that registration's key, and the issuer's topics are the ones that registration named. Conversely
the tokens of a signer are authorized with the topics of any live registration of its public key under
its issuer and key id, as far as its signatures hold for its public key. -/
theorem authorize_run (ops : List Operation) :
    (∀ text t, Token.parse text = .ok t →
      ((empty.run ops).2.authorize t).verified = some true →
      ((empty.run ops).2.authorize t).team = some t.claims.issuer →
      ∃ i q v, Backs (keyHistory ops) t i q v ∧
        (empty.run ops).2.keys.verifier t.header.keyId = some v ∧ t.verify v = true ∧
        ((empty.run ops).2.authorize t).topics = some (topicSet q.topics) ∧
        ∀ topic, topic ∈ topicSet q.topics ↔ topic ∈ q.topics) ∧
    (∀ algorithm pkcs8 issuer keyId s, Signer.new algorithm pkcs8 issuer keyId = .ok s →
      ∀ i q v, LiveAt (keyHistory ops) i q v →
        q.material = s.publicKey → q.team = issuer → q.keyId = keyId →
      ∀ calls reply text, s.Sound calls → reply ∈ (s.run calls).1 → reply.token = some (.ok text) →
      ∃ t, Token.parse text = .ok t ∧ t.claims.issuer = issuer ∧ t.header.keyId = keyId ∧
        (empty.run ops).2.authorize t =
          ⟨some true, some issuer, some true, some (topicSet q.topics)⟩ ∧
        ∀ topic, topic ∈ topicSet q.topics ↔ topic ∈ q.topics) := by
  obtain ⟨live, h⟩ := reflects_run (keyHistory ops)
  have h : Reflects (keyHistory ops) live (empty.run ops).2.keys := by
    rw [run_keys]
    exact h
  constructor
  · intro text t _ verified owned
    obtain ⟨i, q, v, backs⟩ := backs_of_team h owned
    have worth := authorize_backed h backs
    rw [worth] at verified
    refine ⟨i, q, v, backs, ?_, Option.some.inj verified, by rw [worth], fun _ => mem_topicSet⟩
    exact (h.verifier_eq_some _ _).mpr ⟨i, q, backs.live, backs.keyId⟩
  · intro algorithm pkcs8 issuer keyId s made i q v stands material team named calls reply text sound member
      given
    obtain ⟨hi, hk, fresh⟩ := Signer.new_eq_ok made
    obtain ⟨t, parsed, kid, iss, verifies⟩ := Signer.run_verified fresh sound member given
    have accepted : Verifier.new q.algorithm s.key.publicKey = .ok v := by
      have accepted := verifier?_eq_some.mp stands.accepted
      rwa [material] at accepted
    have verified := verifies v (s.key.point_of_verifier accepted)
    have backs : Backs (keyHistory ops) t i q v :=
      backs_of_live stands (by rw [named, kid, hk]) (by rw [team, iss, hi])
    refine ⟨t, parsed, iss.trans hi, kid.trans hk, ?_, fun _ => mem_topicSet⟩
    rw [authorize_backed h backs, verified, iss.trans hi]

def keyDocument (scalar : Nat) (p : P256.Point) : Bytes :=
  [0x30, 0x81, 0x87, 0x02, 0x01, 0x00, 0x30, 0x13] ++ SigningKey.ecAlgorithm ++
    [0x04, 0x6D, 0x30, 0x6B, 0x02, 0x01, 0x01, 0x04, 0x20] ++ P256.octets32 scalar ++
    [0xA1, 0x44, 0x03, 0x42, 0x00] ++ p.encode

def providerScalar : Nat := 0x622c603d6e8b1dc76e415cde73f79878d78a4b5838778ea8ecd4534c736ccb88

def providerPoint : P256.Point where
  x := 0x765dc1cc879fffd7dbab97cf6d8d1839b437631ee82dd16c19039481fd4f5164
  y := 0x9e185e722df470e5ed106ccfb37befe0ebf714699ede18f99281adf8314e1d96

def providerKey : KeyRegistration where
  algorithm := "ES256"
  material := providerPoint.encode
  team := "TEAM123"
  keyId := "KEY1"
  topics := ["com.example.app"]

def supersededKey : KeyRegistration := { providerKey with keyId := "KEY0", topics := ["com.example.old"] }

def providerMoment : Moment := ⟨⟨1700000000, by decide⟩, 12345⟩

/-- The provider signs a token, and its second registration backs it. -/
theorem authorize_run_provider :
    ∃ s text t v, Signer.new "ES256" (keyDocument providerScalar providerPoint) "TEAM123" "KEY1" = .ok s ∧
      s.sign providerMoment = .ok text ∧ Token.parse text = .ok t ∧
      Backs [.register supersededKey, .register providerKey] t 1 providerKey v ∧ t.verify v = true ∧
      (empty.run [.registerKey supersededKey, .registerKey providerKey]).2.authorize t =
        ⟨some true, some "TEAM123", some true, some ["com.example.app"]⟩ := by
  have evaluated :
      (Signer.new "ES256" (keyDocument providerScalar providerPoint) "TEAM123" "KEY1").toOption.any (fun s =>
        providerKey.material = s.publicKey ∧ (s.sign providerMoment).toOption.isSome ∧
        (Ecdsa.sign? s.key.scalar providerMoment.nonce (s.signedPart providerMoment.time)).all
          (Ecdsa.verify s.key.point (s.signedPart providerMoment.time))) = true := by decide +kernel
  have accepted : providerKey.verifier?.isSome = true := by decide +kernel
  obtain ⟨v, accepted⟩ := Option.isSome_iff_exists.mp accepted
  obtain ⟨s, made, facts⟩ := (Option.any_eq_true _ _).mp evaluated
  obtain ⟨material, signs, holds⟩ := of_decide_eq_true facts
  obtain ⟨text, signed⟩ := Option.isSome_iff_exists.mp signs
  have made := toOption_eq_some.mp made
  have signed := toOption_eq_some.mp signed
  have fresh := (Signer.new_eq_ok made).2.2
  have topics : topicSet providerKey.topics = ["com.example.app"] := by decide +kernel
  have sound : s.Sound [.token providerMoment] := by
    intro m sig hm hs
    cases List.mem_singleton.mp hm
    exact Option.all_eq_true _ _ |>.mp holds sig hs
  have given : (s.run [.token providerMoment]).1 = [⟨some (.ok text), s.tokenLog providerMoment⟩] := by
    simp only [Signer.run, Signer.perform, Signer.token, fresh, signed]
  have stands : LiveAt ([.register supersededKey] ++ [.register providerKey]) 1 providerKey v :=
    standsAt_snoc.mpr (.inl ⟨rfl, rfl, accepted⟩)
  have run := authorize_run [.registerKey supersededKey, .registerKey providerKey]
  obtain ⟨t, parsed, iss, kid, worth, _⟩ := run.2 _ _ _ _ s made 1 providerKey v stands material rfl rfl
    [.token providerMoment] _ text sound (given ▸ List.mem_singleton_self _) rfl
  obtain ⟨i, q, v', backs, _, verified, _⟩ := run.1 text t parsed (by rw [worth]) (by rw [worth, iss])
  obtain ⟨rfl, rfl, rfl⟩ := backs.only 1 providerKey v stands (.inl kid.symm)
  exact ⟨s, text, t, v, made, signed, parsed, backs, verified, topics ▸ worth⟩

end Gateway
end PushGateway
