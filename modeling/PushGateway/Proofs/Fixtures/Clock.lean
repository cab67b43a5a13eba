import PushGateway.Proofs.Fixtures.Prefix
import PushGateway.Proofs.Json.Range
/-!
Fixtures and the clock: a file may list any expiration of 64 bits, and the clock holds half of them.
-/

namespace PushGateway

namespace DeviceFixture

theorem expiresAt_record : record.read.Yields fun d => ∀ seconds ∈ d.expiresAt, seconds ≤ Decimal.maxU64 := by
  refine Json.record_yields (I := fun st => ∀ seconds ∈ st.expiresAt, seconds ≤ Decimal.maxU64) ?_ nofun ?_
  · intro field member st kept
    simp only [record, List.mem_cons, List.not_mem_nil, or_false] at member
    obtain rfl | rfl | rfl := member
    · exact (Json.text _).yields_true.bind fun _ _ => .pure kept
    · exact (Json.text _).yields_true.bind fun _ _ => .pure kept
    · exact (Json.optional_yields Json.count_yields).bind fun _ within => .pure within
  · intro st d kept finished
    simp only [record] at finished
    cases topic : st.topic with
    | none => simp [topic, Json.required, bind, Except.bind] at finished
    | some _ =>
      cases token : st.token with
      | none => simp [topic, token, Json.required, bind, Except.bind] at finished
      | some _ =>
        simp only [topic, token, Json.required, bind, Except.bind] at finished
        cases finished
        exact kept

end DeviceFixture

theorem KeyFixture.Refused.ne_timeOverflow {k : KeyFixture} {fault : FixtureFault} (refused : k.Refused fault) :
    fault ≠ .timeOverflow := by
  cases refused <;> nofun

namespace Fixtures

open KeyFixture

variable {f : Fixtures}

theorem ofJson_eq_ok {bs : Bytes} : ofJson bs = .ok f ↔ Json.readAll record.read bs = .ok f := by
  unfold ofJson
  cases Json.readAll record.read bs <;> simp

theorem expiresAt_ofJson {bs : Bytes} (loaded : ofJson bs = .ok f) :
    ∀ d ∈ f.devices, ∀ seconds ∈ d.expiresAt, seconds ≤ Decimal.maxU64 := by
  have bounded : record.read.Yields fun f => ∀ d ∈ f.devices, ∀ s ∈ d.expiresAt, s ≤ Decimal.maxU64 := by
    refine Json.record_yields (I := fun f => ∀ d ∈ f.devices, ∀ s ∈ d.expiresAt, s ≤ Decimal.maxU64) ?_ nofun ?_
    · intro field member st kept
      simp only [record, List.mem_cons, List.not_mem_nil, or_false] at member
      obtain rfl | rfl := member
      · exact (Json.list KeyFixture.record.read).yields_true.bind fun _ _ => .pure kept
      · exact (Json.list_yields DeviceFixture.expiresAt_record).bind fun _ within => .pure within
    · intro st f kept finished
      cases finished
      exact kept
  exact bounded.readAll (ofJson_eq_ok.mp loaded)

theorem exists_first {α : Type} {p : α → Prop} {xs : List α} (missed : ¬ ∀ x ∈ xs, p x) :
    ∃ before x after, xs = before ++ x :: after ∧ (∀ y ∈ before, p y) ∧ ¬ p x := by
  classical
  cases found : xs.find? (fun x => ¬ p x) with
  | none => exact absurd (by simpa using List.find?_eq_none.mp found) missed
  | some x =>
    obtain ⟨fails, before, after, cut, earlier⟩ := List.find?_eq_some_iff_append.mp found
    exact ⟨before, x, after, cut, fun y member => by simpa using earlier y member, by simpa using fails⟩

theorem applyDevices_late {before after : List DeviceFixture} {d : DeviceFixture}
    (timely : ∀ d' ∈ before, d'.Timely) (late : ¬ d.Timely) (g : Gateway) :
    (applyDevices g (before ++ d :: after)).result = .error .timeOverflow := by
  rw [applyDevices_append timely, applyDevices, DeviceFixture.expiration?_late late]

theorem apply_late {before after : List DeviceFixture} {d : DeviceFixture} (g : Gateway)
    (accepted : ∀ k ∈ f.keys, ∀ fault, ¬ k.Refused fault) (cut : f.devices = before ++ d :: after)
    (timely : ∀ d' ∈ before, d'.Timely) (late : ¬ d.Timely) :
    (f.apply g).result = .error .timeOverflow ∧
      DeviceFixture.Lists before g.devices (f.apply g).gateway.devices := by
  obtain ⟨result, _, devices⟩ := apply_accepted g accepted
  have none_later : DeviceFixture.calls (d :: after) = [] := by
    simp only [DeviceFixture.calls, DeviceFixture.expiration?_late late]
  rw [cut] at result devices
  rw [DeviceFixture.calls_append timely, none_later, List.append_nil] at devices
  exact ⟨result.trans (applyDevices_late timely late g), devices ▸ DeviceFixture.lists_run timely g.devices⟩

/-- An application stops at a key, registers everything, or breaks down at the first expiration that is late. -/
theorem apply_cases (f : Fixtures) (g : Gateway) :
    (∃ fault, fault ≠ .timeOverflow ∧ (f.apply g).result = .error fault ∧
      (f.apply g).gateway.devices = g.devices ∧ ¬ ∀ k ∈ f.keys, ∀ fault', ¬ k.Refused fault') ∨
    ((∀ k ∈ f.keys, ∀ fault, ¬ k.Refused fault) ∧ (∀ d ∈ f.devices, d.Timely) ∧ (f.apply g).result = .ok () ∧
      DeviceFixture.Lists f.devices g.devices (f.apply g).gateway.devices) ∨
    ((∀ k ∈ f.keys, ∀ fault, ¬ k.Refused fault) ∧ (f.apply g).result = .error .timeOverflow ∧
      ∃ before d after, f.devices = before ++ d :: after ∧ (∀ d' ∈ before, d'.Timely) ∧ ¬ d.Timely ∧
        DeviceFixture.Lists before g.devices (f.apply g).gateway.devices) := by
  by_cases accepted : ∀ k ∈ f.keys, ∀ fault, ¬ k.Refused fault
  · by_cases timely : ∀ d ∈ f.devices, d.Timely
    · obtain ⟨result, _, devices⟩ := apply_accepted g accepted
      refine .inr (.inl ⟨accepted, timely, result.trans (applyDevices_timely timely g), ?_⟩)
      exact devices ▸ DeviceFixture.lists_run timely g.devices
    · obtain ⟨before, d, after, cut, earlier, late⟩ := exists_first timely
      obtain ⟨result, lists⟩ := apply_late g accepted cut earlier late
      exact .inr (.inr ⟨accepted, result, before, d, after, cut, earlier, late, lists⟩)
  · obtain ⟨before, k, after, cut, earlier, stops⟩ := exists_first accepted
    obtain ⟨fault, refused⟩ := not_forall_not.mp stops
    obtain ⟨result, _, devices⟩ := apply_stopped g cut earlier refused
    exact .inl ⟨fault, refused.ne_timeOverflow, result, devices, accepted⟩

/-- Fixtures read from any JSON text and applied to any gateway. An expiration may be any number of 64 bits, of
which the clock holds one half: the application breaks down on the clock exactly when every key is accepted
and some expiration is late, and then the devices listed before the first late one are registered and no
other. Otherwise all devices are registered, or none because some key is refused. -/
theorem apply_ofJson (bs : Bytes) (f : Fixtures) (loaded : ofJson bs = .ok f) (g : Gateway) :
    (∀ d ∈ f.devices, ∀ seconds ∈ d.expiresAt, seconds ≤ Decimal.maxU64) ∧
    ((f.apply g).result = .error .timeOverflow ↔
      (∀ k ∈ f.keys, ∀ fault, ¬ k.Refused fault) ∧ ∃ d ∈ f.devices, ¬ d.Timely) ∧
    ((f.apply g).result = .error .timeOverflow →
      ∃ before d after, f.devices = before ++ d :: after ∧ (∀ d' ∈ before, d'.Timely) ∧ ¬ d.Timely ∧
        DeviceFixture.Lists before g.devices (f.apply g).gateway.devices) ∧
    ((f.apply g).result = .ok () → DeviceFixture.Lists f.devices g.devices (f.apply g).gateway.devices) ∧
    (∀ fault, (f.apply g).result = .error fault → fault ≠ .timeOverflow →
      (f.apply g).gateway.devices = g.devices) := by
  refine ⟨expiresAt_ofJson loaded, ?_⟩
  obtain ⟨cause, other, result, devices, refused⟩ | ⟨accepted, timely, result, lists⟩ |
    ⟨accepted, result, before, d, after, cut, earlier, late, lists⟩ := apply_cases f g
  · rw [result]
    refine ⟨⟨?_, fun broken => absurd broken.1 refused⟩, ?_, nofun, fun _ _ _ => devices⟩
    · exact fun same => absurd (Except.error.inj same) other
    · exact fun same => absurd (Except.error.inj same) other
  · rw [result]
    refine ⟨⟨nofun, ?_⟩, nofun, fun _ => lists, nofun⟩
    rintro ⟨_, d, listed, late⟩
    exact absurd (timely d listed) late
  · rw [result]
    have listed : d ∈ f.devices := cut ▸ List.mem_append_right before List.mem_cons_self
    refine ⟨⟨fun _ => ⟨accepted, d, listed, late⟩, fun _ => rfl⟩, fun _ => ?_, nofun, ?_⟩
    · exact ⟨before, d, after, cut, earlier, late, lists⟩
    · exact fun _ same other => absurd (Except.error.inj same).symm other

def lateText : Bytes := Utf8.encode ("\x7b\"device_tokens\":[" ++
  "\x7b\"topic\":\"a\",\"token\":\"t1\",\"expires_at\":5\x7d," ++
  "\x7b\"topic\":\"a\",\"token\":\"t2\",\"expires_at\":9223372036854775808\x7d]\x7d")

def lateFixtures : Fixtures where
  devices := [⟨"a", "t1", some 5⟩, ⟨"a", "t2", some (UnixTime.latest + 1)⟩]

theorem apply_ofJson_late :
    ofJson lateText = .ok lateFixtures ∧
    (∀ d ∈ lateFixtures.devices, ∀ seconds ∈ d.expiresAt, seconds ≤ Decimal.maxU64) ∧
    (lateFixtures.apply usedGateway).result = .error .timeOverflow ∧
    ∃ before d after, lateFixtures.devices = before ++ d :: after ∧ (∀ d' ∈ before, d'.Timely) ∧ ¬ d.Timely ∧
      DeviceFixture.Lists before usedGateway.devices (lateFixtures.apply usedGateway).gateway.devices := by
  have read : (ofJson lateText).toOption = some lateFixtures := by decide +kernel
  have loaded := toOption_eq_some.mp read
  obtain ⟨range, broken, left, _⟩ := apply_ofJson lateText lateFixtures loaded usedGateway
  have late : ¬ DeviceFixture.Timely ⟨"a", "t2", some (UnixTime.latest + 1)⟩ := by
    simp [DeviceFixture.Timely]
  have result := broken.mpr ⟨List.forall_mem_nil _, _, List.mem_cons_of_mem _ List.mem_cons_self, late⟩
  exact ⟨loaded, range, result, left result⟩

/-- A file that is read without complaint and cannot be applied: it breaks down between its two devices. -/
theorem apply_breaks_down :
    ∃ f, ofJson lateText = .ok f ∧ (f.apply .empty).result = .error .timeOverflow ∧
      (f.apply .empty).gateway.devices.isRegistered "t1" "a" = true ∧
      (f.apply .empty).gateway.devices.isRegistered "t2" "a" = false := by
  have read : (ofJson lateText).toOption = some lateFixtures := by decide +kernel
  exact ⟨lateFixtures, toOption_eq_some.mp read, rfl, rfl, rfl⟩

end Fixtures
end PushGateway
