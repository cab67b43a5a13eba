import PushGateway.Proofs.Json.Layout
import PushGateway.Proofs.Token.Acceptance
import PushGateway.Proofs.Token.RoundTrip
/-!
Registered claims beside a token's own: of expiry, of a time before which the token does not hold, of a subject or
of an audience.
-/

namespace PushGateway.Token

open Json

section Readings

variable {a v w : Bytes}

theorem timeValue_halts (blank : Blank a) (written : Written .value v) : Halts timeValue (a ++ v) := by
  refine .onFirst written blank fun b t same => ?_
  have other (notList : b ≠ Bracket.list.openMark) (notObject : b ≠ Bracket.object.openMark) :
      Halts (if b = Bracket.list.openMark then afterFirst closeList
        else if b = Bracket.object.openMark then afterFirst closeObject else unexpected "a time") v := by
    rw [if_neg notList, if_neg notObject]
    exact written.unexpected_halts "a time"
  cases written with
  | positive magnitude =>
    obtain ⟨c, _, same', digit⟩ := magnitude.head
    cases same.symm.trans same'
    have digits (f : Bracket) : isDigit f.openMark = false := by cases f <;> decide
    refine other ?_ ?_ <;> rintro rfl <;> simp [digits] at digit
  | @empty f a blank =>
    cases same
    have closes (rest : Bytes) : close f (a ++ [f.closeMark] ++ rest) = .done () rest := by
      rw [List.append_assoc, List.singleton_append, close_closeMark blank]
    cases f <;> exact .read () fun rest _ => closes rest
  | @filled f w items =>
    cases same
    obtain ⟨c, w', first, -, mark⟩ := items.items_head
    have first' : skipBlank t = c :: w' := by simpa using first []
    obtain ⟨astray, stops⟩ := close_solid (f := f) first' mark
    cases f <;> exact .within .trailingCharacters _ astray fun rest _ => stops rest
  | _ =>
    cases same
    exact other (by decide) (by decide)

theorem claims_halt : ∀ field ∈ claimsRecord.fields, ∀ st a v, Blank a → Written .value v →
    Halts (field.read st) (a ++ v) := by
  intro field member st a v blank written
  have text := written.text_halts blank "a string"
  simp only [claimsRecord, List.mem_cons, List.not_mem_nil, or_false] at member
  rcases member with rfl | rfl
  · exact text.map (fun s => (some s, st.2)) fun rest _ => by
      simp only [Reader.bind_apply]
      cases Json.text "a string" (a ++ v ++ rest) <;> rfl
  · exact text.map (fun s => (st.1, some s)) fun rest _ => by
      simp only [Reader.bind_apply]
      cases Json.text "a string" (a ++ v ++ rest) <;> rfl

theorem claims_orderly : claimsRecord.Orderly where
  named := by decide
  settles field member st a v blank written := (claims_halt field member st a v blank written).settles

theorem registered_orderly : registeredRecord.Orderly where
  named := by decide
  settles := by
    intro field member st a v blank written
    have time := (timeValue_halts blank written).tolerate
    have text := (written.optional_halts blank (written.text_halts (a := []) .nil "a string")).tolerate
    have tree := (written.optional_halts blank (Tree.read_halts (nestingLimit - 1) (a := []) .nil written)).tolerate
    simp only [registeredRecord, List.mem_cons, List.not_mem_nil, or_false] at member
    rcases member with rfl | rfl | rfl | rfl | rfl
    · exact time
    · exact time
    · exact text
    · exact text
    · exact tree

end Readings

/-- The second reading, given the value of a claim alone, comes to the end of it. -/
def ReadToEnd (name : String) (w : Bytes) : Prop :=
  ∃ field, registeredRecord.fields.find? (·.name = name) = some field ∧ field.read () w = .done () []

section Values

variable {a v w : Bytes} {f : Bracket} {name : String}

theorem readToEnd_iff {field : Member Unit} (known : registeredRecord.fields.find? (·.name = name) = some field) :
    ReadToEnd name w ↔ field.read () w = .done () [] := by
  constructor
  · rintro ⟨field', known', read⟩
    cases known.symm.trans known'
    exact read
  · exact fun read => ⟨field, known, read⟩

theorem tolerate_ended {α : Type} {r : Reader α} : Reader.tolerate r w = .done () [] ↔ (r w).rest = [] := by
  simp only [Reader.tolerate_apply, Outcome.done.injEq, true_and]

theorem readToEnd_time (time : name = "exp" ∨ name = "nbf") : ReadToEnd name w ↔ (timeValue w).rest = [] := by
  rcases time with rfl | rfl <;> exact (readToEnd_iff rfl).trans tolerate_ended

theorem readToEnd_subject : ReadToEnd "sub" w ↔ (optional (text "a string") w).rest = [] :=
  (readToEnd_iff rfl).trans tolerate_ended

theorem readToEnd_blank (blank : Blank a) (v : Bytes) : ReadToEnd name (a ++ v) ↔ ReadToEnd name v := by
  have same : ∀ field ∈ registeredRecord.fields, field.read () (a ++ v) = field.read () v := by
    have start := skipBlank_append blank v
    have maybe {α : Type} (r : Reader α) : Json.optional r (a ++ v) = Json.optional r v := by
      simp only [Json.optional, start]
    simp only [registeredRecord, List.forall_mem_cons, Reader.tolerate_apply, timeValue, onFirst, maybe, start,
      true_and]
    exact List.forall_mem_nil _
  constructor
  · rintro ⟨field, known, read⟩
    exact ⟨field, known, by rwa [← same field (List.mem_of_find?_eq_some known)]⟩
  · rintro ⟨field, known, read⟩
    exact ⟨field, known, by rwa [same field (List.mem_of_find?_eq_some known)]⟩

theorem readToEnd_empty (time : name = "exp" ∨ name = "nbf") (blank : Blank a) :
    ReadToEnd name (f.openMark :: (a ++ [f.closeMark])) := by
  have stops : (timeValue (f.openMark :: (a ++ [f.closeMark]))).rest = (close f (a ++ [f.closeMark])).rest := by
    cases f <;> rfl
  rw [readToEnd_time time, stops, close_closeMark blank]
  rfl

theorem not_readToEnd_filled (time : name = "exp" ∨ name = "nbf") (items : Written (.items f) w) :
    ¬ ReadToEnd name (f.openMark :: w) := by
  obtain ⟨b, t, first, -, mark⟩ := items.items_head
  have first := first []
  rw [List.append_nil] at first
  have stops := (close_solid (f := f) first mark).2 []
  rw [List.append_nil] at stops
  have same : (timeValue (f.openMark :: w)).rest = (close f w).rest := by cases f <;> rfl
  rw [readToEnd_time time, same, stops]
  nofun

theorem not_readToEnd_subject (f : Bracket) (w : Bytes) : ¬ ReadToEnd "sub" (f.openMark :: w) := by
  have stops : (Json.optional (text "a string") (f.openMark :: w)).rest = f.openMark :: w := by cases f <;> rfl
  rw [readToEnd_subject, stops]
  nofun

theorem unexpected_rest {α : Type} (written : Written .value v) (scalar : ∀ f w, v ≠ Bracket.openMark f :: w)
    (expected : String) (depth : Nat) :
    (unexpected expected v : Json.Outcome α).rest = (Tree.read (depth + 1) v).rest := by
  cases written with
  | null => rfl
  | yes => rfl
  | no => rfl
  | positive magnitude =>
    obtain ⟨b, t, rfl, digit⟩ := magnitude.head
    have solid := isBlank_of_isDigit digit
    simp only [unexpected, Tree.read, onFirst_cons _ solid, isDigit_letter digit, digit, if_false, if_true,
      Reader.bind_apply]
    cases readNumber false (b :: t) <;> rfl
  | @negative w _ =>
    have letters : minus ≠ 'n'.toUInt8 ∧ minus ≠ 't'.toUInt8 ∧ minus ≠ 'f'.toUInt8 := by decide
    simp only [unexpected, Tree.read, onFirst_cons _ (show isBlank minus = false from by decide), letters, if_false,
      if_true, Reader.bind_apply, afterFirst, List.tail_cons]
    cases readNumber true w <;> rfl
  | @text w _ =>
    simp only [unexpected, Tree.read, onFirst_cons _ isBlank_marks.1, quotationMark_ne, Bool.false_eq_true,
      if_false, if_true, Reader.bind_apply, afterFirst, List.tail_cons]
    cases readText w <;> rfl
  | @empty f _ _ => exact absurd rfl (scalar f _)
  | @filled f _ _ => exact absurd rfl (scalar f _)

theorem text_rest (written : Written .value v) (scalar : ∀ f w, v ≠ Bracket.openMark f :: w) (expected : String)
    (depth : Nat) : (text expected v).rest = (Tree.read (depth + 1) v).rest := by
  obtain ⟨b, t, rfl, solid, -⟩ := written.head
  rw [text, onFirst_cons _ solid]
  by_cases quote : b = quotationMark
  · subst quote
    simp only [Tree.read, onFirst_cons _ solid, quotationMark_ne, Bool.false_eq_true, if_false, if_true,
      Reader.bind_apply, afterFirst, List.tail_cons]
    cases readText t <;> rfl
  · rw [if_neg quote]
    exact unexpected_rest written scalar expected depth

theorem optional_rest {α : Type} {r : Reader α} {depth : Nat} (written : Written .value v)
    (same : (r v).rest = (Tree.read (depth + 1) v).rest) :
    (Json.optional r v).rest = (Tree.read (depth + 1) v).rest := by
  obtain ⟨b, t, rfl, solid, -⟩ := written.head
  rw [Json.optional, skipBlank_cons solid]
  by_cases letter : b = 'n'.toUInt8
  · subst letter
    obtain rfl := written.null_of_head
    rfl
  · simp only [if_neg letter, ← same]
    cases r (b :: t) <;> rfl

theorem readToEnd_audience (written : Written .value v) :
    ReadToEnd "aud" v ↔ (Tree.read (nestingLimit - 1) v).rest = [] := by
  have same : (Json.optional (Tree.read (nestingLimit - 1)) v).rest = (Tree.read (nestingLimit - 1) v).rest :=
    optional_rest written rfl
  rw [← same]
  exact (readToEnd_iff rfl).trans tolerate_ended

/-- A scalar is read to its end, whichever claim it is the value of, exactly when reading it whole ends there. -/
theorem readToEnd_scalar (written : Written .value v) (scalar : ∀ f w, v ≠ Bracket.openMark f :: w)
    (registered : name ∈ ["exp", "nbf", "sub", "aud"]) :
    ReadToEnd name v ↔ (Tree.read (nestingLimit - 1) v).rest = [] := by
  have time : (timeValue v).rest = (Tree.read (nestingLimit - 1) v).rest := by
    obtain ⟨b, t, rfl, solid, -⟩ := written.head
    have other (f : Bracket) : b ≠ f.openMark := fun same => scalar f t (same ▸ rfl)
    rw [timeValue, onFirst_cons _ solid, if_neg (other .list), if_neg (other .object)]
    exact unexpected_rest written scalar "a time" _
  simp only [List.mem_cons, List.not_mem_nil, or_false] at registered
  rcases registered with rfl | rfl | rfl | rfl
  · rw [readToEnd_time (.inl rfl), time]
  · rw [readToEnd_time (.inr rfl), time]
  · rw [readToEnd_subject, optional_rest written (text_rest written scalar "a string" _)]
    rfl
  · exact readToEnd_audience written

/-- A value that leaves the second reading at its end: a scalar, or an audience of any kind, that is read whole up
to there, and an empty list or object as a time. -/
inductive Harmless (name : String) : Bytes → Prop where
  | whole {v : Bytes} : (name = "aud" ∨ ∀ f w, v ≠ Bracket.openMark f :: w) →
      (Tree.read (nestingLimit - 1) v).rest = [] → Harmless name v
  | empty {f : Bracket} {a : Bytes} : name = "exp" ∨ name = "nbf" → Blank a →
      Harmless name (f.openMark :: (a ++ [f.closeMark]))

theorem readToEnd_bracket (written : Written .value (f.openMark :: w)) (other : name ≠ "aud")
    (registered : name ∈ ["exp", "nbf", "sub", "aud"]) : ReadToEnd name (f.openMark :: w) ↔
      (name = "exp" ∨ name = "nbf") ∧ ∃ a, Blank a ∧ w = a ++ [f.closeMark] := by
  have cases : (name = "exp" ∨ name = "nbf") ∨ name = "sub" := by
    simp only [List.mem_cons, List.not_mem_nil, or_false] at registered
    tauto
  rcases cases with time | rfl
  · constructor
    · intro ended
      refine ⟨time, ?_⟩
      rcases written.bracketed with empty | items
      · exact empty
      · exact absurd ended (not_readToEnd_filled time items)
    · rintro ⟨-, a, blank, rfl⟩
      exact readToEnd_empty time blank
  · exact iff_of_false (not_readToEnd_subject f w) fun time => by simp at time

theorem readToEnd_iff_harmless (written : Written .value v) (registered : name ∈ ["exp", "nbf", "sub", "aud"]) :
    ReadToEnd name v ↔ Harmless name v := by
  constructor
  · intro ended
    by_cases audience : name = "aud"
    · subst audience
      exact .whole (.inl rfl) ((readToEnd_audience written).mp ended)
    by_cases bracket : ∃ f w, v = Bracket.openMark f :: w
    · obtain ⟨f, w, rfl⟩ := bracket
      obtain ⟨time, a, blank, rfl⟩ := (readToEnd_bracket written audience registered).mp ended
      exact .empty time blank
    · have scalar : ∀ f w, v ≠ Bracket.openMark f :: w := fun f w same => bracket ⟨f, w, same⟩
      exact .whole (.inr scalar) ((readToEnd_scalar written scalar registered).mp ended)
  · intro harmless
    cases harmless with
    | empty time blank => exact readToEnd_empty time blank
    | whole kind ended =>
      rcases kind with rfl | scalar
      · exact (readToEnd_audience written).mpr ended
      · exact (readToEnd_scalar written scalar registered).mpr ended

end Values

section Members

variable {name : String} {lead trail : Bytes} {pre post : List Entry} {new : Entry}

theorem registered_known (registered : name ∈ ["exp", "nbf", "sub", "aud"]) :
    claimsRecord.fields.find? (·.name = name) = none ∧
      ∃ field, registeredRecord.fields.find? (·.name = name) = some field := by
  simp only [List.mem_cons, List.not_mem_nil, or_false] at registered
  rcases registered with rfl | rfl | rfl | rfl <;> exact ⟨rfl, _, rfl⟩

theorem first_reading (pre post : List Entry) (before : Blank lead) (after : Blank trail)
    (named : new.key = .ok name) (unknown : claimsRecord.fields.find? (·.name = name) = none) :
    readAll claimsRecord.read (objectOf lead (pre ++ new :: post) trail) =
      readAll claimsRecord.read (objectOf lead (pre ++ post) trail) := by
  have base := readAll_objectOf claims_orderly before after (pre ++ post)
  have added := readAll_objectOf claims_orderly before after (pre ++ new :: post)
  rw [through_unknown named unknown] at added
  cases passed : claimsRecord.through [] claimsRecord.start (pre ++ post) with
  | ends st =>
    rw [passed] at base added
    exact added.trans base.symm
  | fails e =>
    rw [passed] at base added
    exact added.trans base.symm
  | lost => exact absurd passed (through_ne_lost claims_halt)

theorem registered_ok (before : Blank lead) (after : Blank trail) (es : List Entry) :
    readAll registeredRecord.read (objectOf lead es trail) = .ok () ↔
      registeredRecord.through [] () es = .ends () := by
  have read := readAll_objectOf registered_orderly before after es
  rw [show registeredRecord.start = () from rfl] at read
  cases passed : registeredRecord.through [] () es with
  | ends st =>
    rw [passed] at read
    exact ⟨fun _ => rfl, fun _ => read⟩
  | fails e =>
    rw [passed] at read
    simp [show readAll _ _ = _ from read]
  | lost =>
    rw [passed] at read
    obtain ⟨e, read⟩ := read
    simp [read]

theorem second_reading (before : Blank lead) (after : Blank trail) (named : new.key = .ok name)
    (known : ∃ field, registeredRecord.fields.find? (·.name = name) = some field)
    (fresh : ∀ e ∈ pre ++ post, e.key ≠ .ok name) :
    readAll registeredRecord.read (objectOf lead (pre ++ new :: post) trail) = .ok () ↔
      readAll registeredRecord.read (objectOf lead (pre ++ post) trail) = .ok () ∧ ReadToEnd name new.value := by
  rw [registered_ok before after, registered_ok before after]
  obtain ⟨field, known⟩ := known
  constructor
  · intro ends
    obtain ⟨⟨⟩, ⟨⟩, read⟩ := through_ends ends (List.mem_append_right _ List.mem_cons_self) named known
    rw [through_passed named known (fun _ => read) fresh List.not_mem_nil] at ends
    exact ⟨ends, (readToEnd_blank new.beforeValue_blank new.value).mp ⟨field, known, read⟩⟩
  · rintro ⟨ends, ended⟩
    obtain ⟨field', known', read⟩ := (readToEnd_blank new.beforeValue_blank new.value).mpr ended
    cases known.symm.trans known'
    rwa [through_passed named known (fun _ => read) fresh List.not_mem_nil]

end Members

section Tokens

variable {text text' first third third' : String} {algorithm : Algorithm} {raw : RawHeader} {octets octets' : Bytes}

theorem decodeClaims_segment (octets : Bytes) :
    decodeClaims (Utf8.encode (segment octets)) = match readClaims octets with
      | .error e => .error (.json e)
      | .ok c => .ok c := by
  cases read : readClaims octets <;>
    simp only [decodeClaims, encode_segment, Base64.decode_encode Base64.urlSafe_legible, read]

def Refused (text : String) : Prop := ∃ cause, parse text = .error (.refused cause)

theorem refused_iff (header : HeaderText first algorithm raw) (cut : Segments text first (segment octets) third) :
    Refused text ↔ ∀ claims, readClaims octets ≠ .ok claims := by
  have read := decodeHeader_eq_ok.mpr header
  simp only [Refused, cut.parse_eq_refused, read, decodeClaims_segment]
  cases readClaims octets with
  | error e => simp
  | ok c => simp

theorem answer_eq (header : HeaderText first algorithm raw) (cut : Segments text first (segment octets) third)
    (cut' : Segments text' first (segment octets') third') (same : readClaims octets' = readClaims octets) :
    (parse text').map (fun t => (t.header, t.claims)) = (parse text).map (fun t => (t.header, t.claims)) := by
  have read := decodeHeader_eq_ok.mpr header
  rw [cut.parse_eq, cut'.parse_eq]
  simp only [read, decodeClaims_segment, same]
  cases readClaims octets with
  | error e => rfl
  | ok c => cases raw.keyId <;> rfl

/-- A further claim of expiry, of a time before which the token does not hold, of a subject or of an audience,
wherever it stands and however it is spelt. The token is refused exactly when it was before or when the value is
not harmless; when it is not refused, or when it was for its own claims, the answer stays. -/
theorem added_claim {name : String} {lead trail : Bytes} {pre post : List Entry} {new : Entry}
    (header : HeaderText first algorithm raw)
    (base : Segments text first (segment (objectOf lead (pre ++ post) trail)) third)
    (added : Segments text' first (segment (objectOf lead (pre ++ new :: post) trail)) third')
    (before : Blank lead) (after : Blank trail) (registered : name ∈ ["exp", "nbf", "sub", "aud"])
    (named : new.key = .ok name) (fresh : ∀ e ∈ pre ++ post, e.key ≠ .ok name) :
    (Refused text' ↔ Refused text ∨ ¬ Harmless name new.value) ∧
    (¬ Refused text' ∨ (∀ claims, readAll claimsRecord.read (objectOf lead (pre ++ post) trail) ≠ .ok claims) →
      (parse text').map (fun t => (t.header, t.claims)) = (parse text).map (fun t => (t.header, t.claims))) := by
  obtain ⟨unknown, known⟩ := registered_known registered
  have one := first_reading pre post before after named unknown
  have two := second_reading before after named known fresh
  have claims (c : Claims) : readClaims (objectOf lead (pre ++ new :: post) trail) = .ok c ↔
      readClaims (objectOf lead (pre ++ post) trail) = .ok c ∧ Harmless name new.value := by
    rw [readClaims_eq_ok, readClaims_eq_ok, one, two, readToEnd_iff_harmless new.value_written registered, and_assoc]
  constructor
  · rw [refused_iff header base, refused_iff header added]
    constructor
    · intro refused
      by_cases harmless : Harmless name new.value
      · exact .inl fun c read => refused c ((claims c).mpr ⟨read, harmless⟩)
      · exact .inr harmless
    · rintro (refused | harmful) c read
      · exact refused c ((claims c).mp read).1
      · exact harmful ((claims c).mp read).2
  · intro kept
    refine answer_eq header base added ?_
    rcases kept with accepted | own
    · rw [refused_iff header added] at accepted
      obtain ⟨c, read⟩ := not_forall.mp accepted
      have read := not_not.mp read
      rw [read, ((claims c).mp read).1]
    · simp only [readClaims, one]
      cases own' : readAll claimsRecord.read (objectOf lead (pre ++ post) trail) with
      | ok c => exact absurd own' (own c)
      | error e => rfl

def providerEntries : List Entry :=
  [.plain "iss" (.text (textTail_quoteTail "TEAM123")), .plain "iat" (.text (textTail_quoteTail "1700000000"))]

theorem one_written : Written .value ['1'.toUInt8] :=
  have whole : Whole ['1'.toUInt8] := .digits (by decide) (by decide) (fun _ member => nomatch member)
  .positive (.parts whole .none .none)

theorem ones_written : Written (.items .list) ['1'.toUInt8, Bracket.list.closeMark] :=
  .items .nil (.element one_written) (.last .nil)

def expired : Entry := .plain "exp" one_written

def expiries : Entry := .plain "exp" (.filled ones_written)

def withClaim (e : Entry) : String :=
  providerHeader ++ "." ++ segment (objectOf [] (providerEntries ++ [e]) []) ++ "." ++ providerSignature

theorem withClaim_segments (e : Entry) : Segments (withClaim e) providerHeader
    (segment (objectOf [] (providerEntries ++ [e]) [])) providerSignature where
  joined := rfl
  filled := ⟨by decide, segment_ne_empty (List.cons_ne_nil _ _), by decide⟩
  undotted := ⟨by decide, dot_not_mem_segment _, by decide⟩

theorem provider_segments : Segments providerToken providerHeader
    (segment (objectOf [] (providerEntries ++ []) [])) providerSignature := by
  have claims : providerClaims = segment (objectOf [] (providerEntries ++ []) []) := by decide +kernel
  exact claims ▸ ⟨rfl, by decide, by decide⟩

theorem provider_fresh : ∀ e ∈ providerEntries ++ [], e.key ≠ .ok "exp" := by
  simp [providerEntries, Entry.key_plain]

theorem provider_answer : (parse providerToken).map (fun t => (t.header, t.claims)) =
    .ok (⟨.es256, "JWT", "KEY1"⟩, ⟨"TEAM123", "1700000000"⟩) := by decide +kernel

/-- With the expiry the answer stays, although that time has passed; with the list the token is refused. -/
theorem added_claim_provider :
    (parse (withClaim expired)).map (fun t => (t.header, t.claims)) =
      (parse providerToken).map (fun t => (t.header, t.claims)) ∧ Refused (withClaim expiries) := by
  have header : HeaderText providerHeader .es256 ⟨some .es256, some "JWT", some "KEY1"⟩ :=
    decodeHeader_eq_ok.mp rfl
  have accepted : ¬ Refused providerToken := by
    rintro ⟨cause, refused⟩
    have answer := provider_answer
    rw [refused] at answer
    cases answer
  have harmless : Harmless "exp" expired.value := .whole (.inr fun f _ same => by cases f <;> cases same) rfl
  have harmful : ¬ Harmless "exp" expiries.value :=
    mt (readToEnd_iff_harmless expiries.value_written (by decide)).mpr (not_readToEnd_filled (.inl rfl) ones_written)
  obtain ⟨refused, kept⟩ := added_claim header provider_segments (withClaim_segments expired) .nil .nil
    (by decide) (Entry.key_plain "exp" one_written) provider_fresh
  refine ⟨kept (.inl fun again => ?_), ?_⟩
  · exact (refused.mp again).elim accepted fun harmful => harmful harmless
  · exact (added_claim header provider_segments (withClaim_segments expiries) .nil .nil (by decide)
      (Entry.key_plain "exp" (.filled ones_written)) provider_fresh).1.mpr (.inr harmful)

/-- A list of one number as the expiry: a well-formed value with which the token is no longer accepted. -/
theorem added_claim_expiries :
    (parse providerToken).map (fun t => (t.header, t.claims)) =
      .ok (⟨.es256, "JWT", "KEY1"⟩, ⟨"TEAM123", "1700000000"⟩) ∧
    Segments providerToken providerHeader (segment (objectOf [] (providerEntries ++ []) [])) providerSignature ∧
    Segments (withClaim expiries) providerHeader (segment (objectOf [] (providerEntries ++ [expiries]) []))
      providerSignature ∧
    expiries.key = .ok "exp" ∧ (∀ e ∈ providerEntries ++ [], e.key ≠ .ok "exp") ∧
    parse (withClaim expiries) = .error (.refused (.json .expectedMemberEnd)) :=
  ⟨provider_answer, provider_segments, withClaim_segments expiries, Entry.key_plain _ _, provider_fresh,
    by decide +kernel⟩

end Tokens

end PushGateway.Token
