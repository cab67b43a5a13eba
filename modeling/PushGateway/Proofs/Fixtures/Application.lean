import PushGateway.Proofs.Device.History
import PushGateway.Proofs.Gateway.Authorization
import PushGateway.Proofs.Key.Replay
/-!
Applying fixtures to a gateway. Each key is refused or entered, whatever the registry holds, so how far an
application gets depends on the fixtures only; what it does to the devices depends on the devices only, and it
leaves the switch for emulated errors alone.
-/

namespace PushGateway

namespace KeyFixture

def material (k : KeyFixture) : Except Base64.Error Bytes :=
  Base64.decode Base64.standard (Utf8.encode (Text.trim k.publicKey))

inductive Refused (k : KeyFixture) : FixtureFault → Prop where
  | key {cause : Base64.Error} : k.material = .error cause → Refused k (.key k.keyId cause)
  | registration {octets : Bytes} {cause : RegistrationError} : k.material = .ok octets →
      Verifier.new tokenAlgorithm octets = .error cause → Refused k (.registration cause)

def enter (r : KeyRegistry) (k : KeyFixture) : Except FixtureFault KeyRegistry :=
  k.registration.bind fun q => (r.register q).mapError .registration

variable {k : KeyFixture} {r : KeyRegistry} {fault : FixtureFault}

theorem registration_eq (k : KeyFixture) : k.registration =
    match k.material with
    | .error cause => .error (.key k.keyId cause)
    | .ok octets => .ok ⟨tokenAlgorithm, octets, k.team, k.keyId, k.topics⟩ := by
  unfold registration material
  cases Base64.decode Base64.standard (Utf8.encode (Text.trim k.publicKey)) <;> rfl

theorem enter_refused (refused : k.Refused fault) (r : KeyRegistry) : enter r k = .error fault := by
  rw [enter, registration_eq]
  cases refused with
  | key unreadable =>
    rw [unreadable]
    rfl
  | registration read rejected =>
    rw [read]
    simp only [Except.bind, KeyRegistry.register, rejected, Except.mapError]

theorem enter_accepted (accepted : ∀ fault, ¬ k.Refused fault) (r : KeyRegistry) :
    ∃ r', enter r k = .ok r' := by
  rw [enter, registration_eq]
  cases read : k.material with
  | error cause => exact absurd (.key read) (accepted _)
  | ok octets =>
    cases judged : Verifier.new tokenAlgorithm octets with
    | error cause => exact absurd (.registration read judged) (accepted _)
    | ok v =>
      simp only [Except.bind, KeyRegistry.register, judged, Except.mapError]
      exact ⟨_, rfl⟩

end KeyFixture

def DeviceFixture.calls : List DeviceFixture → List DeviceRegistry.Call
  | [] => []
  | d :: ds =>
    match d.expiration? with
    | none => []
    | some expiration => .register d.topic d.token expiration :: calls ds

namespace Fixtures

open Gateway KeyFixture

variable {k : KeyFixture} {fault : FixtureFault} {g : Gateway}

/-- A key that is refused ends the application; any other changes the registry and leaves the rest to do. -/
theorem applyKeys_cons (g : Gateway) (k : KeyFixture) (ks : List KeyFixture) :
    ((applyKeys g (k :: ks)).result, (applyKeys g (k :: ks)).gateway) =
      match enter g.keys k with
      | .error fault => (.error fault, g)
      | .ok r => ((applyKeys { g with keys := r } ks).result, (applyKeys { g with keys := r } ks).gateway) := by
  rw [applyKeys, enter]
  cases k.registration with
  | error fault => rfl
  | ok q =>
    simp only [Gateway.registerKey, Except.bind]
    cases g.keys.register q <;> rfl

theorem applyKeys_refused (refused : k.Refused fault) (g : Gateway) (rest : List KeyFixture) :
    (applyKeys g (k :: rest)).result = .error fault ∧ (applyKeys g (k :: rest)).gateway = g := by
  have stops := applyKeys_cons g k rest
  rw [enter_refused refused] at stops
  exact Prod.mk.inj stops

theorem applyKeys_entered {r : KeyRegistry} (entered : enter g.keys k = .ok r) (rest : List KeyFixture) :
    (applyKeys g (k :: rest)).result = (applyKeys { g with keys := r } rest).result ∧
      (applyKeys g (k :: rest)).gateway = (applyKeys { g with keys := r } rest).gateway := by
  have goesOn := applyKeys_cons g k rest
  rw [entered] at goesOn
  exact Prod.mk.inj goesOn

theorem applyKeys_frame (ks : List KeyFixture) (g : Gateway) :
    (applyKeys g ks).gateway.devices = g.devices ∧
      (applyKeys g ks).gateway.emulateErrors = g.emulateErrors := by
  induction ks generalizing g with
  | nil => exact ⟨rfl, rfl⟩
  | cons k ks ih =>
    cases entered : enter g.keys k with
    | error fault =>
      have stops := applyKeys_cons g k ks
      rw [entered] at stops
      rw [(Prod.mk.inj stops).2]
      exact ⟨rfl, rfl⟩
    | ok r =>
      rw [(applyKeys_entered entered ks).2]
      exact ih { g with keys := r }

theorem applyKeys_result (ks : List KeyFixture) (g g' : Gateway) :
    (applyKeys g ks).result = (applyKeys g' ks).result := by
  induction ks generalizing g g' with
  | nil => rfl
  | cons k ks ih =>
    by_cases accepted : ∀ fault, ¬ k.Refused fault
    · obtain ⟨r, entered⟩ := enter_accepted accepted g.keys
      obtain ⟨r', entered'⟩ := enter_accepted accepted g'.keys
      rw [(applyKeys_entered entered ks).1, (applyKeys_entered entered' ks).1]
      exact ih _ _
    · obtain ⟨fault, refused⟩ := not_forall_not.mp accepted
      rw [(applyKeys_refused refused g ks).1, (applyKeys_refused refused g' ks).1]

theorem applyDevices_result (ds : List DeviceFixture) (g g' : Gateway) :
    (applyDevices g ds).result = (applyDevices g' ds).result := by
  induction ds generalizing g g' with
  | nil => rfl
  | cons d ds ih =>
    unfold applyDevices
    cases d.expiration? with
    | none => rfl
    | some expiration => exact ih _ _

theorem applyDevices_emulation (ds : List DeviceFixture) (g : Gateway) :
    (applyDevices g ds).gateway.emulateErrors = g.emulateErrors := by
  induction ds generalizing g with
  | nil => rfl
  | cons d ds ih =>
    unfold applyDevices
    cases d.expiration? with
    | none => rfl
    | some expiration => exact ih _

theorem result_apply (f : Fixtures) (g : Gateway) : (f.apply g).result =
    (applyKeys g f.keys).result.bind fun _ => (applyDevices (applyKeys g f.keys).gateway f.devices).result := by
  cases hk : (applyKeys g f.keys).result with
  | error e => simp only [apply, hk, Except.bind]
  | ok _ =>
    cases hd : (applyDevices (applyKeys g f.keys).gateway f.devices).result <;>
      simp only [apply, hk, hd, Except.bind]

theorem gateway_apply (f : Fixtures) (g : Gateway) : (f.apply g).gateway =
    if (applyKeys g f.keys).result.isOk then (applyDevices (applyKeys g f.keys).gateway f.devices).gateway
    else (applyKeys g f.keys).gateway := by
  cases hk : (applyKeys g f.keys).result with
  | error e => simp only [apply, hk, Except.isOk, Except.toBool, Bool.false_eq_true, if_false]
  | ok _ =>
    cases hd : (applyDevices (applyKeys g f.keys).gateway f.devices).result <;>
      simp only [apply, hk, hd, Except.isOk, Except.toBool, if_true]

theorem applyDevices_devices (ds : List DeviceFixture) (g : Gateway) :
    (applyDevices g ds).gateway.devices = g.devices.run (DeviceFixture.calls ds) := by
  induction ds generalizing g with
  | nil => rfl
  | cons d ds ih =>
    unfold applyDevices DeviceFixture.calls
    cases d.expiration? with
    | none => rfl
    | some expiration => exact ih _

theorem apply_result (f : Fixtures) (g g' : Gateway) : (f.apply g).result = (f.apply g').result := by
  rw [result_apply, result_apply, applyKeys_result f.keys g g', applyDevices_result]

theorem apply_emulation (f : Fixtures) (g : Gateway) :
    (f.apply g).gateway.emulateErrors = g.emulateErrors := by
  rw [gateway_apply]
  split
  · rw [applyDevices_emulation, (applyKeys_frame f.keys g).2]
  · exact (applyKeys_frame f.keys g).2

def deviceCalls (f : Fixtures) : List DeviceRegistry.Call :=
  if (applyKeys .empty f.keys).result.isOk then DeviceFixture.calls f.devices else []

theorem apply_devices_run (f : Fixtures) (g : Gateway) :
    (f.apply g).gateway.devices = g.devices.run f.deviceCalls := by
  rw [gateway_apply, deviceCalls, applyKeys_result f.keys g .empty]
  split
  · rw [applyDevices_devices, (applyKeys_frame f.keys g).1]
  · exact (applyKeys_frame f.keys g).1

theorem apply_devices {g g' : Gateway} (f : Fixtures) (same : g.devices = g'.devices) :
    (f.apply g).gateway.devices = (f.apply g').gateway.devices := by
  rw [apply_devices_run, apply_devices_run, same]

/-- Fixtures applied a second time, whatever the gateway held before the first: the result is the same, and so
is the gateway, also when the application stopped at some entry. -/
theorem apply_apply (f : Fixtures) (g : Gateway) :
    (f.apply (f.apply g).gateway).result = (f.apply g).result ∧
    (f.apply (f.apply g).gateway).gateway = (f.apply g).gateway := by
  refine ⟨f.apply_result _ g, ?_⟩
  have keys : (f.apply (f.apply g).gateway).gateway.keys = (f.apply g).gateway.keys := by
    rw [apply_keys f (f.apply g).gateway, apply_keys f g, KeyRegistry.run_run]
  have devices : (f.apply (f.apply g).gateway).gateway.devices = (f.apply g).gateway.devices := by
    rw [apply_devices_run f (f.apply g).gateway, apply_devices_run f g, DeviceRegistry.run_run]
  have emulation := f.apply_emulation (f.apply g).gateway
  calc
    (f.apply (f.apply g).gateway).gateway =
        ⟨(f.apply (f.apply g).gateway).gateway.keys, (f.apply (f.apply g).gateway).gateway.devices,
          (f.apply (f.apply g).gateway).gateway.emulateErrors⟩ := rfl
    _ = (f.apply g).gateway := by rw [keys, devices, emulation]

end Fixtures
end PushGateway
