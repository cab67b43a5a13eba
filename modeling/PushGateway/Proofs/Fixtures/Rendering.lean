import PushGateway.Proofs.Fixtures.Clock
import PushGateway.Proofs.Json.Rendering

namespace PushGateway

open Json

namespace KeyFixture

variable {k : KeyFixture} {d : Draft}

def slots : List (Slot KeyFixture) :=
  [⟨"team_id", fun k => TextValue k.team, fun _ => False⟩,
    ⟨"key_id", fun k => TextValue k.keyId, fun _ => False⟩,
    ⟨"public_key", fun k => TextValue k.publicKey, fun _ => False⟩,
    ⟨"topics", fun k => ListValue TextValue k.topics, fun k => k.topics = []⟩]

def needed : List String := ["team_id", "key_id", "public_key"]

/-- What has been read of a key when the members of the given names have been. -/
def drafted (k : KeyFixture) (seen : List String) : Draft where
  team := if "team_id" ∈ seen then some k.team else none
  keyId := if "key_id" ∈ seen then some k.keyId else none
  publicKey := if "public_key" ∈ seen then some k.publicKey else none
  topics := if "topics" ∈ seen then k.topics else []

theorem record_exact : record.Exact := by
  intro field known st a v blank written
  simp only [record, List.mem_cons, List.not_mem_nil, or_false] at known
  have name := (written.text_halts blank "a string").exact
  obtain rfl | rfl | rfl | rfl := known
  · exact name.map _
  · exact name.map _
  · exact name.map _
  · exact (written.list_exact blank fun i item => (item.text_halts .nil "a string").exact).map _

theorem record_understands : record.Understands slots drafted where
  start _ := rfl
  known := by
    simp only [slots, List.forall_mem_cons, List.not_mem_nil, false_imp_iff, implies_true, and_true]
    refine ⟨⟨_, rfl, fun k seen b v blank value => ?_⟩, ⟨_, rfl, fun k seen b v blank value => ?_⟩,
      ⟨_, rfl, fun k seen b v blank value => ?_⟩, ⟨_, rfl, fun k seen b v blank value => ?_⟩⟩
    · exact (value.reads "a string" blank).map_eq (by simp [drafted])
    · exact (value.reads "a string" blank).map_eq (by simp [drafted])
    · exact (value.reads "a string" blank).map_eq (by simp [drafted])
    · have each : ∀ s v, TextValue s v → Reads (text "a string") v s := fun s v value => value.reads "a string" .nil
      exact (value.reads each blank).map_eq (by simp [drafted])
  unknown name stranger := by
    simpa [slots, record] using stranger
  finish k seen complete := by
    simp only [slots, List.forall_mem_cons, or_false] at complete
    obtain ⟨team, keyId, publicKey, topics, -⟩ := complete
    have told : (if "topics" ∈ seen then k.topics else []) = k.topics :=
      ite_eq_left_iff.mpr fun unseen => (topics.resolve_left unseen).symm
    simp only [record, drafted, team, keyId, publicKey, told, if_true]
    rfl

theorem writable (k : KeyFixture) : Writable (ObjectValue slots) k := by
  refine writable_object (by decide) ?_
  simp only [slots, List.forall_mem_cons, List.not_mem_nil, false_imp_iff, implies_true, and_true]
  exact ⟨writable_text _, writable_text _, writable_text _, writable_list fun s _ => writable_text s⟩

theorem apart {field : Member Draft} (known : field ∈ record.fields) {st st' : Draft} {w : Bytes}
    (reads : Reads (field.read st) w st') : (field.name ≠ "team_id" → st'.team = st.team) ∧
      (field.name ≠ "key_id" → st'.keyId = st.keyId) ∧ (field.name ≠ "public_key" → st'.publicKey = st.publicKey) := by
  simp only [record, List.mem_cons, List.not_mem_nil, or_false] at known
  obtain rfl | rfl | rfl | rfl := known <;> obtain ⟨_, rfl⟩ := reads.of_map <;> simp

theorem finish_eq_ok (finished : record.finish d = .ok k) : d.team ≠ none ∧ d.keyId ≠ none ∧ d.publicKey ≠ none := by
  simp only [record] at finished
  cases team : d.team with
  | none => simp [team, required, bind, Except.bind] at finished
  | some _ =>
    cases keyId : d.keyId with
    | none => simp [team, keyId, required, bind, Except.bind] at finished
    | some _ =>
      cases publicKey : d.publicKey with
      | none => simp [team, keyId, publicKey, required, bind, Except.bind] at finished
      | some _ => simp

theorem record_needs : ∀ name ∈ needed, record.Needs name := by
  simp only [needed, List.forall_mem_cons, List.not_mem_nil, false_imp_iff, implies_true, and_true]
  refine ⟨.of_part Draft.team rfl ?_ ?_, .of_part Draft.keyId rfl ?_ ?_, .of_part Draft.publicKey rfl ?_ ?_⟩
  · exact fun field known other st w st' reads => (apart known reads).1 other
  · exact fun st k finished => (finish_eq_ok finished).1
  · exact fun field known other st w st' reads => (apart known reads).2.1 other
  · exact fun st k finished => (finish_eq_ok finished).2.1
  · exact fun field known other st w st' reads => (apart known reads).2.2 other
  · exact fun st k finished => (finish_eq_ok finished).2.2

end KeyFixture

namespace DeviceFixture

variable {f : DeviceFixture} {d : Draft}

def slots : List (Slot DeviceFixture) :=
  [⟨"topic", fun f => TextValue f.topic, fun _ => False⟩,
    ⟨"token", fun f => TextValue f.token, fun _ => False⟩,
    ⟨"expires_at", fun f => OptionalValue CountValue f.expiresAt, fun f => f.expiresAt = none⟩]

def needed : List String := ["topic", "token"]

def drafted (f : DeviceFixture) (seen : List String) : Draft where
  topic := if "topic" ∈ seen then some f.topic else none
  token := if "token" ∈ seen then some f.token else none
  expiresAt := if "expires_at" ∈ seen then f.expiresAt else none

theorem record_exact : record.Exact := by
  intro field known st a v blank written
  simp only [record, List.mem_cons, List.not_mem_nil, or_false] at known
  have name := (written.text_halts blank "a string").exact
  obtain rfl | rfl | rfl := known
  · exact name.map _
  · exact name.map _
  · have number := written.count_halts .nil
    rw [List.nil_append] at number
    exact (written.optional_halts blank number).exact.map _

theorem record_understands : record.Understands slots drafted where
  start _ := rfl
  known := by
    simp only [slots, List.forall_mem_cons, List.not_mem_nil, false_imp_iff, implies_true, and_true]
    refine ⟨⟨_, rfl, fun k seen b v blank value => ?_⟩, ⟨_, rfl, fun k seen b v blank value => ?_⟩,
      ⟨_, rfl, fun k seen b v blank value => ?_⟩⟩
    · exact (value.reads "a string" blank).map_eq (by simp [drafted])
    · exact (value.reads "a string" blank).map_eq (by simp [drafted])
    · have each : ∀ n v, CountValue n v → Reads count v n ∧ ∃ b t, v = b :: t ∧ isDigit b = true :=
        fun n v value => ⟨value.reads .nil, value.head⟩
      exact (value.reads each blank).map_eq (by simp [drafted])
  unknown name stranger := by
    simpa [slots, record] using stranger
  finish f seen complete := by
    simp only [slots, List.forall_mem_cons, or_false] at complete
    obtain ⟨topic, token, expiresAt, -⟩ := complete
    have told : (if "expires_at" ∈ seen then f.expiresAt else none) = f.expiresAt :=
      ite_eq_left_iff.mpr fun unseen => (expiresAt.resolve_left unseen).symm
    simp only [record, drafted, topic, token, told, if_true]
    rfl

theorem writable (range : ∀ n ∈ f.expiresAt, n ≤ Decimal.maxU64) : Writable (ObjectValue slots) f := by
  refine writable_object (by decide) ?_
  simp only [slots, List.forall_mem_cons, List.not_mem_nil, false_imp_iff, implies_true, and_true]
  exact ⟨writable_text _, writable_text _, writable_optional fun n given => writable_count (range n given)⟩

theorem apart {field : Member Draft} (known : field ∈ record.fields) {st st' : Draft} {w : Bytes}
    (reads : Reads (field.read st) w st') :
    (field.name ≠ "topic" → st'.topic = st.topic) ∧ (field.name ≠ "token" → st'.token = st.token) := by
  simp only [record, List.mem_cons, List.not_mem_nil, or_false] at known
  obtain rfl | rfl | rfl := known <;> obtain ⟨_, rfl⟩ := reads.of_map <;> simp

theorem finish_eq_ok (finished : record.finish d = .ok f) : d.topic ≠ none ∧ d.token ≠ none := by
  simp only [record] at finished
  cases topic : d.topic with
  | none => simp [topic, required, bind, Except.bind] at finished
  | some _ =>
    cases token : d.token with
    | none => simp [topic, token, required, bind, Except.bind] at finished
    | some _ => simp

theorem record_needs : ∀ name ∈ needed, record.Needs name := by
  simp only [needed, List.forall_mem_cons, List.not_mem_nil, false_imp_iff, implies_true, and_true]
  refine ⟨.of_part Draft.topic rfl ?_ ?_, .of_part Draft.token rfl ?_ ?_⟩
  · exact fun field known other st w st' reads => (apart known reads).1 other
  · exact fun st f finished => (finish_eq_ok finished).1
  · exact fun field known other st w st' reads => (apart known reads).2 other
  · exact fun st f finished => (finish_eq_ok finished).2

end DeviceFixture

namespace Fixtures

variable {f g : Fixtures} {a b bs v : Bytes}

def slots : List (Slot Fixtures) :=
  [⟨"keys", fun f => ListValue (ObjectValue KeyFixture.slots) f.keys, fun f => f.keys = []⟩,
    ⟨"device_tokens", fun f => ListValue (ObjectValue DeviceFixture.slots) f.devices, fun f => f.devices = []⟩]

def drafted (f : Fixtures) (seen : List String) : Fixtures where
  keys := if "keys" ∈ seen then f.keys else []
  devices := if "device_tokens" ∈ seen then f.devices else []

def Rendering (f : Fixtures) (bs : Bytes) : Prop :=
  ∃ a v b, Blank a ∧ Blank b ∧ bs = a ++ v ++ b ∧ ObjectValue slots f v

def Entry (name : String) (i v : Bytes) : Prop :=
  ∃ is w, Gives (slots.map Slot.name) name (Bracket.list.openMark :: w) v ∧ Spread .list true is w ∧ i ∈ is

/-- A known member is repeated, of the fixtures or of an entry, or an entry lacks a member that it must have. -/
inductive Faulty (v : Bytes) : Prop where
  | repeated : Repeats (slots.map Slot.name) v → Faulty v
  | key {i : Bytes} : Entry "keys" i v → Flawed (KeyFixture.slots.map Slot.name) KeyFixture.needed i → Faulty v
  | device {i : Bytes} : Entry "device_tokens" i v →
      Flawed (DeviceFixture.slots.map Slot.name) DeviceFixture.needed i → Faulty v

theorem record_exact : record.Exact := by
  intro field known st a v blank written
  simp only [record, List.mem_cons, List.not_mem_nil, or_false] at known
  obtain rfl | rfl := known
  · exact (written.list_exact blank fun i item => item.record_exact .nil KeyFixture.record_exact).map _
  · exact (written.list_exact blank fun i item => item.record_exact .nil DeviceFixture.record_exact).map _

theorem record_understands : record.Understands slots drafted where
  start _ := rfl
  known := by
    simp only [slots, List.forall_mem_cons, List.not_mem_nil, false_imp_iff, implies_true, and_true]
    refine ⟨⟨_, rfl, fun f seen b v blank value => ?_⟩, ⟨_, rfl, fun f seen b v blank value => ?_⟩⟩
    · have each := fun k v (value : ObjectValue KeyFixture.slots k v) =>
        value.reads KeyFixture.record_understands KeyFixture.record_exact .nil
      exact (value.reads each blank).map_eq (by simp [drafted])
    · have each := fun d v (value : ObjectValue DeviceFixture.slots d v) =>
        value.reads DeviceFixture.record_understands DeviceFixture.record_exact .nil
      exact (value.reads each blank).map_eq (by simp [drafted])
  unknown name stranger := by
    simpa [slots, record] using stranger
  finish f seen complete := by
    simp only [slots, List.forall_mem_cons] at complete
    obtain ⟨keys, devices, -⟩ := complete
    have told : (if "keys" ∈ seen then f.keys else []) = f.keys :=
      ite_eq_left_iff.mpr fun unseen => (keys.resolve_left unseen).symm
    have told' : (if "device_tokens" ∈ seen then f.devices else []) = f.devices :=
      ite_eq_left_iff.mpr fun unseen => (devices.resolve_left unseen).symm
    simp only [record, drafted, told, told']

theorem ofJson_eq_error {e : FixtureFileError} (failed : ofJson bs = .error e) : ∃ cause, e = .json cause := by
  unfold ofJson at failed
  cases read : readAll record.read bs with
  | ok f => simp only [read, reduceCtorEq] at failed
  | error cause =>
    simp only [read, Except.error.injEq] at failed
    exact ⟨cause, failed.symm⟩

theorem Rendering.read (rendering : Rendering f bs) : ofJson bs = .ok f := by
  obtain ⟨a, v, b, before, after, rfl, value⟩ := rendering
  have reads := value.reads record_understands record_exact before
  exact ofJson_eq_ok.mpr ((reads.exact.readAll_eq_ok after).mpr reads)

theorem exists_rendering (range : ∀ d ∈ f.devices, ∀ n ∈ d.expiresAt, n ≤ Decimal.maxU64) : ∃ bs, Rendering f bs := by
  have written : Writable (ObjectValue slots) f := by
    refine writable_object (by decide) ?_
    simp only [slots, List.forall_mem_cons, List.not_mem_nil, false_imp_iff, implies_true, and_true]
    exact ⟨writable_list fun k _ => k.writable, writable_list fun d listed => DeviceFixture.writable (range d listed)⟩
  obtain ⟨v, value, -⟩ := written
  exact ⟨v, [], v, [], .nil, .nil, (List.append_nil v).symm, value⟩

variable {i : Bytes}

theorem Entry.written {name : String} (entry : Entry name i v) : Written .value i := by
  obtain ⟨is, w, -, spread, member⟩ := entry
  cases spread.item i member with
  | element value => exact value

theorem key_read (reads : Reads record.read (a ++ v) f) (blank : Blank a) (entry : Entry "keys" i v) :
    ∃ k, Reads KeyFixture.record.read i k := by
  obtain ⟨is, w, gives, spread, member⟩ := entry
  refine reads_entry record_exact reads blank gives (by decide) (fun field known name st => ?_) spread
    (fun i written => written.record_exact .nil KeyFixture.record_exact) member
  simp only [record, List.mem_cons, List.not_mem_nil, or_false] at known
  obtain rfl | rfl := known
  · exact ⟨_, rfl⟩
  · exact absurd name (by decide)

theorem device_read (reads : Reads record.read (a ++ v) f) (blank : Blank a) (entry : Entry "device_tokens" i v) :
    ∃ d, Reads DeviceFixture.record.read i d := by
  obtain ⟨is, w, gives, spread, member⟩ := entry
  refine reads_entry record_exact reads blank gives (by decide) (fun field known name st => ?_) spread
    (fun i written => written.record_exact .nil DeviceFixture.record_exact) member
  simp only [record, List.mem_cons, List.not_mem_nil, or_false] at known
  obtain rfl | rfl := known
  · exact absurd name (by decide)
  · exact ⟨_, rfl⟩

theorem not_faulty_of_reads (reads : Reads record.read (a ++ v) f) (blank : Blank a) : ¬ Faulty v := by
  rintro (repeats | ⟨entry, flawed⟩ | ⟨entry, flawed⟩)
  · exact not_repeats_of_reads record_exact reads blank repeats
  · obtain ⟨k, read⟩ := key_read reads blank entry
    exact not_flawed_of_reads (a := []) KeyFixture.record_exact KeyFixture.record_needs read .nil entry.written flawed
  · obtain ⟨d, read⟩ := device_read reads blank entry
    exact not_flawed_of_reads (a := []) DeviceFixture.record_exact DeviceFixture.record_needs read .nil entry.written
      flawed

theorem Faulty.refused (faulty : Faulty v) (before : Blank a) (after : Blank b) (written : Written .value v) :
    ∃ e, ofJson (a ++ v ++ b) = .error (.json e) := by
  cases read : ofJson (a ++ v ++ b) with
  | error e =>
    obtain ⟨cause, rfl⟩ := ofJson_eq_error read
    exact ⟨cause, rfl⟩
  | ok f =>
    have exact := written.record_exact before record_exact
    have reads := (exact.readAll_eq_ok after).mp (ofJson_eq_ok.mp read)
    exact absurd faulty (not_faulty_of_reads reads before)

/-- Fixtures are read from each of their renderings, of which there are some, and faulty texts are refused. -/
theorem ofJson_renderings :
    (∀ f : Fixtures, (∀ d ∈ f.devices, ∀ n ∈ d.expiresAt, n ≤ Decimal.maxU64) → ∃ bs, Rendering f bs) ∧
      (∀ f bs, Rendering f bs → ofJson bs = .ok f) ∧
      ∀ a v b, Blank a → Blank b → Written .value v → Faulty v → ∃ e, ofJson (a ++ v ++ b) = .error (.json e) :=
  ⟨fun _ range => exists_rendering range, fun _ _ rendering => rendering.read,
    fun _ _ _ before after written faulty => faulty.refused before after written⟩

def teamText : Bytes := backslash :: Utf8.encode "u0054\""

theorem team_spelling : Spelling "T".toList teamText :=
  .char (x := backslash :: Utf8.encode "u0054") (.number (by decide)) .close

def keyMember : Labelled := .plain "key_id" (quote_written "K")

def sampleKey : List Labelled :=
  [keyMember, .plain "team_id" (.text team_spelling.tail), .plain "public_key" (quote_written "")]

theorem sampleKey_tells : Tells KeyFixture.slots ⟨"T", "K", "", []⟩ sampleKey where
  fits := by
    have team : TextValue "T" (quotationMark :: teamText) := ⟨_, rfl, team_spelling⟩
    simp only [sampleKey, keyMember, List.forall_mem_cons]
    exact ⟨.plain (by simp [KeyFixture.slots, textValue_quote]), .plain (by simp [KeyFixture.slots, team]),
      .plain (by simp [KeyFixture.slots, textValue_quote]), nofun⟩
  once := by simp [sampleKey, keyMember, KeyFixture.slots, Labelled.plain_named]
  all := by simp [sampleKey, keyMember, KeyFixture.slots, Labelled.plain_named]

theorem entry_written (ms : List Labelled) : ∀ i ∈ [compactObject ms], Written .value i :=
  List.forall_mem_singleton.mpr (written_compactObject ms)

def withKey (ms : List Labelled) : List Labelled :=
  [.plain "x" Written.null, .plain "keys" (written_compactList (entry_written ms))]

theorem withKey_tells : Tells slots ⟨[⟨"T", "K", "", []⟩], []⟩ (withKey sampleKey) where
  fits := by
    have keys : ListValue (ObjectValue KeyFixture.slots) [⟨"T", "K", "", []⟩] (compactList [compactObject sampleKey]) :=
      ⟨_, _, rfl, spread_compactList (entry_written _), .cons sampleKey_tells.compact .nil⟩
    simp only [withKey, List.forall_mem_cons]
    exact ⟨.plain (by simp [slots]), .plain (by simp [slots, keys]), nofun⟩
  once := by simp [withKey, slots, Labelled.plain_named]
  all := by simp [withKey, slots, Labelled.plain_named]

theorem withKey_entry (ms : List Labelled) : Entry "keys" (compactObject ms) (compactObject (withKey ms)) :=
  ⟨_, _, .member (spread_compactObject _) (List.mem_cons_of_mem _ List.mem_cons_self) (Labelled.plain_named.mpr rfl),
    spread_compactList (entry_written ms), List.mem_cons_self⟩

/-- Fixtures with blanks around them, another member among theirs, an escape and lists left out; some with the
largest count; then an entry without a team, and one with its key's name repeated. -/
theorem ofJson_renderings_samples :
    ofJson (Utf8.encode (" \x7b\"x\":null,\"keys\":[\x7b\"key_id\":\"K\"," ++
      "\"team_id\":\"\\u0054\",\"public_key\":\"\"\x7d]\x7d\n")) = .ok ⟨[⟨"T", "K", "", []⟩], []⟩ ∧
    (∃ bs, ofJson bs = .ok ⟨[], [⟨"b", "a", some Decimal.maxU64⟩]⟩) ∧
    (∃ e, ofJson (Utf8.encode "\x7b\"x\":null,\"keys\":[\x7b\"key_id\":\"K\"\x7d]\x7d") = .error (.json e)) ∧
    ∃ e, ofJson (Utf8.encode "\x7b\"x\":null,\"keys\":[\x7b\"key_id\":\"K\",\"key_id\":\"K\"\x7d]\x7d") =
      .error (.json e) := by
  have blank (b : UInt8) (listed : isBlank b = true) : Blank [b] := List.forall_mem_singleton.mpr listed
  obtain ⟨exist, renderings, faulty⟩ := ofJson_renderings
  refine ⟨?_, ?_, ?_, ?_⟩
  · have rendering : Rendering ⟨[⟨"T", "K", "", []⟩], []⟩ ([0x20] ++ compactObject (withKey sampleKey) ++ [0x0A]) :=
      ⟨_, _, _, blank _ rfl, blank _ rfl, rfl, withKey_tells.compact⟩
    convert renderings _ _ rendering using 2
    decide +kernel
  · obtain ⟨bs, rendering⟩ := exist ⟨[], [⟨"b", "a", some Decimal.maxU64⟩]⟩ (by decide)
    exact ⟨bs, renderings _ bs rendering⟩
  · have lacks : Lacks (KeyFixture.slots.map Slot.name) "team_id" (compactObject [keyMember]) :=
      .members (spread_compactObject _) (by simp [keyMember, Labelled.plain_named])
    have flawed : Flawed (KeyFixture.slots.map Slot.name) KeyFixture.needed (compactObject [keyMember]) :=
      .inr ⟨"team_id", List.mem_cons_self, lacks⟩
    convert faulty [] _ [] .nil .nil (written_compactObject _) (.key (withKey_entry [keyMember]) flawed) using 4
    decide +kernel
  · have named : keyMember.Named "key_id" := Labelled.plain_named.mpr rfl
    have repeats : Repeats (KeyFixture.slots.map Slot.name) (compactObject [keyMember, keyMember]) :=
      .members (spread_compactObject _) (.refl _) (by decide) named named
    convert faulty [] _ [] .nil .nil (written_compactObject _) (.key (withKey_entry _) (.inl repeats)) using 4
    decide +kernel

end Fixtures

end PushGateway
