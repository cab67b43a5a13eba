import PushGateway.Proofs.Fixtures.Application

namespace PushGateway

namespace DeviceFixture

def Timely (d : DeviceFixture) : Prop := ∀ seconds ∈ d.expiresAt, seconds ≤ UnixTime.latest

def pair (d : DeviceFixture) : String × String := (d.topic, d.token)

end DeviceFixture

/-- Seconds after the start of 1970; a token that never expires has none. -/
def Expiration.seconds? : Expiration → Option Nat
  | .never => none
  | .at time => some time.seconds

/-- The second registry holds what the first one holds, with every listed pair set to the expiration that is
listed for it last. -/
structure DeviceFixture.Lists (ds : List DeviceFixture) (r r' : DeviceRegistry) : Prop where
  listed : ∀ before d after, ds = before ++ d :: after → (∀ d' ∈ after, d'.pair ≠ d.pair) →
    (r'.expiration d.token d.topic).map Expiration.seconds? = some d.expiresAt
  unlisted : ∀ token topic, (∀ d ∈ ds, d.pair ≠ (topic, token)) →
    r'.expiration token topic = r.expiration token topic
  held : ∀ pairs, r.Holds pairs → r'.Holds (pairs ∪ (ds.map DeviceFixture.pair).toFinset)

namespace DeviceFixture

variable {d : DeviceFixture} {ds : List DeviceFixture}

theorem expiration?_timely (timely : d.Timely) :
    ∃ e, d.expiration? = some e ∧ (Expiration.ofOption e).seconds? = d.expiresAt := by
  unfold expiration?
  cases asked : d.expiresAt with
  | none => exact ⟨none, rfl, rfl⟩
  | some seconds =>
    have bound := timely seconds asked
    exact ⟨some ⟨seconds, bound⟩, by simp only [UnixTime.ofSeconds?, dif_pos bound, Option.map_some], rfl⟩

theorem expiration?_late (late : ¬ d.Timely) : d.expiration? = none := by
  unfold expiration?
  cases asked : d.expiresAt with
  | none => exact absurd (by simp [Timely, asked]) late
  | some seconds =>
    have past : ¬ seconds ≤ UnixTime.latest := by simpa [Timely, asked] using late
    simp only [UnixTime.ofSeconds?, dif_neg past, Option.map_none]

theorem calls_append (timely : ∀ d ∈ ds, d.Timely) (rest : List DeviceFixture) :
    calls (ds ++ rest) = calls ds ++ calls rest := by
  induction ds with
  | nil => rfl
  | cons d ds ih =>
    obtain ⟨first, others⟩ := List.forall_mem_cons.mp timely
    obtain ⟨e, asked, _⟩ := expiration?_timely first
    simp only [List.cons_append, calls, asked, ih others]

theorem expiration_unlisted (ds : List DeviceFixture) (r : DeviceRegistry) {token topic : String}
    (unlisted : ∀ d ∈ ds, d.pair ≠ (topic, token)) :
    (r.run (calls ds)).expiration token topic = r.expiration token topic := by
  induction ds generalizing r with
  | nil => rfl
  | cons d ds ih =>
    obtain ⟨first, others⟩ := List.forall_mem_cons.mp unlisted
    unfold calls
    cases d.expiration? with
    | none => rfl
    | some e =>
      calc
        ((r.register d.topic d.token e).run (calls ds)).expiration token topic
            = (r.register d.topic d.token e).expiration token topic := ih _ others
        _ = r.expiration token topic := by
          rw [DeviceRegistry.expiration_register, if_neg fun same => first same.symm]

theorem holds_run (timely : ∀ d ∈ ds, d.Timely) {r : DeviceRegistry} {pairs : Finset (String × String)}
    (holds : r.Holds pairs) : (r.run (calls ds)).Holds (pairs ∪ (ds.map pair).toFinset) := by
  induction ds generalizing r pairs with
  | nil => simpa [calls, DeviceRegistry.run] using holds
  | cons d ds ih =>
    obtain ⟨first, others⟩ := List.forall_mem_cons.mp timely
    obtain ⟨e, asked, _⟩ := expiration?_timely first
    have later := ih others (holds.register d.topic d.token e)
    have same : insert (d.topic, d.token) pairs ∪ (ds.map pair).toFinset =
        pairs ∪ ((d :: ds).map pair).toFinset := by
      rw [List.map_cons, List.toFinset_cons, Finset.insert_union, Finset.union_insert]
      rfl
    rw [← same]
    simp only [calls, asked]
    exact later

theorem lists_run (timely : ∀ d ∈ ds, d.Timely) (r : DeviceRegistry) : Lists ds r (r.run (calls ds)) where
  listed before d after cut last := by
    subst cut
    obtain ⟨earlier, this, later⟩ := by simpa only [List.forall_mem_append, List.forall_mem_cons] using timely
    obtain ⟨e, asked, seconds⟩ := expiration?_timely this
    have own : calls (d :: after) = .register d.topic d.token e :: calls after := by simp only [calls, asked]
    have set : ((r.run (calls before)).register d.topic d.token e).expiration d.token d.topic =
        some (.ofOption e) := by
      rw [DeviceRegistry.expiration_register, if_pos rfl]
    rw [calls_append earlier, own, DeviceRegistry.run_append]
    -- no call after it names the pair
    have kept := expiration_unlisted after ((r.run (calls before)).register d.topic d.token e) last
    exact (congrArg (Option.map Expiration.seconds?) (kept.trans set)).trans (congrArg some seconds)
  unlisted _ _ absent := expiration_unlisted ds r absent
  held _ holds := holds_run timely holds

end DeviceFixture

namespace Fixtures

open KeyFixture

variable {ks : List KeyFixture} {ds : List DeviceFixture} {k : KeyFixture} {fault : FixtureFault} {g : Gateway}

theorem applyKeys_accepted (accepted : ∀ k ∈ ks, ∀ fault, ¬ k.Refused fault) (g : Gateway)
    (rest : List KeyFixture) :
    ∃ r, ks.foldlM enter g.keys = .ok r ∧
      (applyKeys g (ks ++ rest)).result = (applyKeys { g with keys := r } rest).result ∧
      (applyKeys g (ks ++ rest)).gateway = (applyKeys { g with keys := r } rest).gateway := by
  induction ks generalizing g with
  | nil => exact ⟨g.keys, rfl, rfl, rfl⟩
  | cons k ks ih =>
    obtain ⟨first, others⟩ := List.forall_mem_cons.mp accepted
    obtain ⟨r, entered⟩ := enter_accepted first g.keys
    obtain ⟨r', registered, result, gateway⟩ := ih others { g with keys := r }
    obtain ⟨headResult, headGateway⟩ := applyKeys_entered entered (ks ++ rest)
    refine ⟨r', ?_, headResult.trans result, headGateway.trans gateway⟩
    rw [List.foldlM_cons, entered]
    exact registered

theorem applyDevices_append (timely : ∀ d ∈ ds, d.Timely) (g : Gateway) (rest : List DeviceFixture) :
    (applyDevices g (ds ++ rest)).result = (applyDevices g rest).result := by
  induction ds generalizing g with
  | nil => rfl
  | cons d ds ih =>
    obtain ⟨first, others⟩ := List.forall_mem_cons.mp timely
    obtain ⟨e, asked, _⟩ := DeviceFixture.expiration?_timely first
    rw [List.cons_append, applyDevices, asked]
    exact (ih others _).trans (applyDevices_result rest _ g)

theorem applyDevices_timely (timely : ∀ d ∈ ds, d.Timely) (g : Gateway) :
    (applyDevices g ds).result = .ok () := by
  have all := applyDevices_append timely g []
  rw [List.append_nil] at all
  exact all

theorem apply_stopped {before after : List KeyFixture} {f : Fixtures} (g : Gateway)
    (cut : f.keys = before ++ k :: after) (accepted : ∀ k' ∈ before, ∀ fault', ¬ k'.Refused fault')
    (refused : k.Refused fault) :
    (f.apply g).result = .error fault ∧ before.foldlM enter g.keys = .ok (f.apply g).gateway.keys ∧
      (f.apply g).gateway.devices = g.devices := by
  obtain ⟨r, registered, result, gateway⟩ := applyKeys_accepted accepted g (k :: after)
  obtain ⟨stopped, left⟩ := applyKeys_refused refused { g with keys := r } after
  rw [result_apply, gateway_apply, cut, result, gateway, stopped, left]
  exact ⟨rfl, registered, rfl⟩

theorem apply_accepted {f : Fixtures} (g : Gateway) (accepted : ∀ k ∈ f.keys, ∀ fault, ¬ k.Refused fault) :
    (f.apply g).result = (applyDevices g f.devices).result ∧
      f.keys.foldlM enter g.keys = .ok (f.apply g).gateway.keys ∧
      (f.apply g).gateway.devices = g.devices.run (DeviceFixture.calls f.devices) := by
  obtain ⟨r, registered, result, gateway⟩ := applyKeys_accepted accepted g []
  rw [List.append_nil] at result gateway
  have keys : (applyDevices { g with keys := r } f.devices).gateway.keys = r :=
    Gateway.applyDevices_keys f.devices _
  rw [result_apply, gateway_apply, result, gateway]
  refine ⟨applyDevices_result f.devices _ g, ?_, applyDevices_devices f.devices { g with keys := r }⟩
  exact registered.trans (congrArg Except.ok keys.symm)

def usedGateway : Gateway :=
  (Gateway.empty.run [.registerKey KeyRegistry.ownerKey, .registerDevice "app" "token" none]).2

end Fixtures
end PushGateway
