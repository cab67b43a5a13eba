import PushGateway.Der.Strict
import PushGateway.Proofs.Certificate.Rendering
/-!
Base topics of subjects: what stands behind the first mark of the written name, with whatever follows the marked
attribute in its set.
-/

namespace PushGateway

open Principal

namespace Certificate

/-- A text in which the search finds nothing, whatever may follow it. -/
def Silent (text : List Char) : Prop := ∀ rest, Ends rest → afterUserId (text ++ rest) = afterUserId rest

section Joined

variable {separator : Char} {texts before : List (List Char)}

theorem ends_cons (outside : separator ∉ mark) (rest : List Char) : Ends (separator :: rest) := by
  intro c hc
  rw [List.head?_cons, Option.mem_some_iff] at hc
  exact hc ▸ outside

theorem ends_nil : Ends [] := nofun

theorem ends_flatMap (outside : separator ∉ mark) (texts : List (List Char)) {rest : List Char}
    (ends : Ends rest) : Ends (texts.flatMap (separator :: ·) ++ rest) := by
  cases texts with
  | nil => exact ends
  | cons t texts => exact ends_cons outside _

theorem afterUserId_separator (outside : separator ∉ mark) (rest : List Char) :
    afterUserId (separator :: rest) = afterUserId rest := by
  refine afterUserId_skip ?_ rest
  rintro rfl
  exact outside (by decide)

theorem intercalate_cons (separator : Char) (text : List Char) (after : List (List Char)) :
    [separator].intercalate (text :: after) = text ++ after.flatMap (separator :: ·) := by
  induction after generalizing text with
  | nil => simp
  | cons t after ih =>
    rw [List.intercalate_cons_cons, ih, List.flatMap_cons, List.append_assoc, List.singleton_append]
    rfl

theorem afterUserId_intercalate (outside : separator ∉ mark) (silent : ∀ t ∈ before, Silent t)
    (text : List Char) (after : List (List Char)) (rest : List Char) :
    afterUserId ([separator].intercalate (before ++ text :: after) ++ rest) =
      afterUserId (text ++ (after.flatMap (separator :: ·) ++ rest)) := by
  induction before with
  | nil => rw [List.nil_append, intercalate_cons, List.append_assoc]
  | cons t before ih =>
    have further : before ++ text :: after ≠ [] := by simp
    have others := ih fun u hu => silent u (List.mem_cons_of_mem t hu)
    rw [List.cons_append, List.intercalate_cons_of_ne_nil further, List.append_assoc, List.append_assoc,
      List.singleton_append, silent t List.mem_cons_self _ (ends_cons outside _),
      afterUserId_separator outside, others]

theorem silent_intercalate (outside : separator ∉ mark) (silent : ∀ t ∈ texts, Silent t) :
    Silent ([separator].intercalate texts) := by
  intro rest ends
  rcases List.eq_nil_or_concat texts with rfl | ⟨before, text, rfl⟩
  · rfl
  · rw [List.concat_eq_append] at silent ⊢
    rw [afterUserId_intercalate outside (fun t ht => silent t (List.mem_append_left _ ht))]
    exact silent text (by simp) rest ends

end Joined

section Names

variable {a : Attribute} {others : List Attribute} {name : Name} {attributes : List Attribute}

theorem silent_render (unmarked : ¬ a.Marked) : Silent a.render := by
  intro rest ends
  obtain ⟨first, found⟩ := a.afterUserId_render ends
  rw [found, Attribute.marked?_eq_none.mpr unmarked]
  rfl

theorem silent_renders (unmarked : ∀ b ∈ attributes, ¬ b.Marked) :
    ∀ t ∈ attributes.map (·.render), Silent t := by
  intro t ht
  obtain ⟨b, hb, rfl⟩ := List.mem_map.mp ht
  exact silent_render (unmarked b hb)

theorem silent_renderSet (unmarked : ∀ b ∈ attributes, ¬ b.Marked) : Silent (renderSet attributes) :=
  silent_intercalate (by decide) (silent_renders unmarked)

theorem silent_renderSets {sets : List (List Attribute)} (unmarked : ∀ s ∈ sets, ∀ b ∈ s, ¬ b.Marked) :
    ∀ t ∈ sets.map renderSet, Silent t := by
  intro t ht
  obtain ⟨s, hs, rfl⟩ := List.mem_map.mp ht
  exact silent_renderSet (unmarked s hs)

/-- `a` is the first marked attribute of the written name, and `others` follow it in its set. Sets are
written in the reverse of their order in the name. -/
structure FirstMarked (name : Name) (a : Attribute) (others : List Attribute) : Prop where
  marked : a.Marked
  place : ∃ later front earlier, name = later ++ (front ++ a :: others) :: earlier ∧
    (∀ b ∈ front, ¬ b.Marked) ∧ ∀ s ∈ earlier, ∀ b ∈ s, ¬ b.Marked

/-- What is taken for a user id's value when `a` is the first marked attribute: the text behind the mark,
and with it every attribute that follows in the set. -/
def picked (a : Attribute) (others : List Attribute) : List Char :=
  a.marked?.getD [] ++ others.flatMap fun b => '+' :: b.plain

theorem picked_userId (user : a.IsUserId) : picked a [] = a.value.toList := by
  rw [picked, Attribute.marked?_userId user]
  exact List.append_nil _

def nonempty? (text : List Char) : Option String := if text = [] then none else some (String.ofList text)

theorem baseTopic_eq (text : List Char) :
    baseTopic (String.ofList text) = ((afterUserId text).map unescape).bind nonempty? := by
  rw [baseTopic, String.toList_ofList]
  cases (afterUserId text).map unescape with
  | none => rfl
  | some cs =>
    cases cs with
    | nil => rfl
    | cons c cs => rfl

theorem unescape_others (others : List Attribute) (rest : List Char) :
    unescape ((others.map (·.render)).flatMap ('+' :: ·) ++ rest) =
      (others.flatMap fun b => '+' :: b.plain) ++ unescape rest := by
  induction others with
  | nil => rfl
  | cons b others ih =>
    rw [List.map_cons, List.flatMap_cons, List.flatMap_cons, List.append_assoc, List.cons_append,
      unescape_cons (by decide) (by decide), Attribute.unescape_render, ih, List.append_assoc,
      List.cons_append]

theorem unescape_sets (texts : List (List Char)) : unescape (texts.flatMap (',' :: ·)) = [] := by
  cases texts with
  | nil => rfl
  | cons t texts =>
    rw [List.flatMap_cons, List.cons_append, unescape, if_pos (.inl rfl)]
    intro _ _ impossible
    exact absurd impossible (by decide)

theorem baseTopic_unmarked (unmarked : ∀ s ∈ name, ∀ b ∈ s, ¬ b.Marked) :
    baseTopic (renderName name) = none := by
  have silent : Silent ([','].intercalate (name.reverse.map renderSet)) :=
    silent_intercalate (by decide) (silent_renderSets fun s hs => unmarked s (List.mem_reverse.mp hs))
  have nothing := silent [] ends_nil
  rw [List.append_nil] at nothing
  rw [renderName, baseTopic_eq, nothing]
  rfl

/-- What the search leaves of the written name: the escaped text behind the mark, the attributes that
follow it in its set, and the sets after that one. -/
theorem afterUserId_firstMarked (h : FirstMarked name a others) :
    ∃ first u, ∃ sets : List (List Char), a.marked? = some u ∧
      afterUserId ([','].intercalate (name.reverse.map renderSet)) =
        some (escapeFrom first u ++ ((others.map (·.render)).flatMap ('+' :: ·) ++ sets.flatMap (',' :: ·))) := by
  obtain ⟨later, front, earlier, rfl, silentFront, silentEarlier⟩ := h.place
  obtain ⟨u, found⟩ : ∃ u, a.marked? = some u := by
    cases found : a.marked? with
    | none => exact absurd h.marked (Attribute.marked?_eq_none.mp found)
    | some u => exact ⟨u, rfl⟩
  have comma : ',' ∉ mark := by decide
  have plus : '+' ∉ mark := by decide
  -- the search passes over the earlier sets, then over the front of the set, and stops in `a`
  have silentSets := silent_renderSets fun s hs => silentEarlier s (List.mem_reverse.mp hs)
  have order : (later ++ (front ++ a :: others) :: earlier).reverse.map renderSet =
      earlier.reverse.map renderSet ++ renderSet (front ++ a :: others) :: later.reverse.map renderSet := by
    simp
  have sets := afterUserId_intercalate comma silentSets (renderSet (front ++ a :: others))
    (later.reverse.map renderSet) []
  have ends : Ends ((later.reverse.map renderSet).flatMap (',' :: ·)) := by
    simpa using ends_flatMap comma (later.reverse.map renderSet) ends_nil
  obtain ⟨first, search⟩ := a.afterUserId_render (ends_flatMap plus (others.map (·.render)) ends)
  refine ⟨first, u, later.reverse.map renderSet, found, ?_⟩
  rw [List.append_nil, List.append_nil] at sets
  rw [order, sets, renderSet, List.map_append, List.map_cons,
    afterUserId_intercalate plus (silent_renders silentFront), search, found]
  rfl

theorem baseTopic_firstMarked (h : FirstMarked name a others) :
    baseTopic (renderName name) = nonempty? (picked a others) := by
  obtain ⟨first, u, sets, found, search⟩ := afterUserId_firstMarked h
  have text : unescape (escapeFrom first u ++
      ((others.map (·.render)).flatMap ('+' :: ·) ++ sets.flatMap (',' :: ·))) = picked a others := by
    rw [unescape_escapeFrom, unescape_others, unescape_sets, List.append_nil, picked, found]
    rfl
  rw [renderName, baseTopic_eq, search, Option.map_some, text]
  rfl

def firstMarkedIn? : List Attribute → Option (Attribute × List Attribute)
  | [] => none
  | a :: others => if a.marked? = none then firstMarkedIn? others else some (a, others)

def firstMarked? (name : Name) : Option (Attribute × List Attribute) := name.reverse.findSome? firstMarkedIn?

theorem firstMarkedIn?_eq_none (unmarked : firstMarkedIn? attributes = none) :
    ∀ b ∈ attributes, ¬ b.Marked := by
  induction attributes with
  | nil => nofun
  | cons b attributes ih =>
    rw [firstMarkedIn?] at unmarked
    split at unmarked
    · next silent =>
      intro d hd
      rcases List.mem_cons.mp hd with rfl | hd
      · exact Attribute.marked?_eq_none.mp silent
      · exact ih unmarked d hd
    · cases unmarked

theorem firstMarkedIn?_eq_some (found : firstMarkedIn? attributes = some (a, others)) :
    a.Marked ∧ ∃ front, attributes = front ++ a :: others ∧ ∀ b ∈ front, ¬ b.Marked := by
  induction attributes with
  | nil => cases found
  | cons b attributes ih =>
    rw [firstMarkedIn?] at found
    split at found
    · next silent =>
      obtain ⟨marked, front, rfl, before⟩ := ih found
      refine ⟨marked, b :: front, rfl, ?_⟩
      intro d hd
      rcases List.mem_cons.mp hd with rfl | hd
      · exact Attribute.marked?_eq_none.mp silent
      · exact before d hd
    · next marked =>
      cases found
      exact ⟨Classical.not_not.mp fun h => marked (Attribute.marked?_eq_none.mpr h), [], rfl, nofun⟩

theorem firstMarked?_eq_none (unmarked : firstMarked? name = none) : ∀ s ∈ name, ∀ b ∈ s, ¬ b.Marked := by
  intro s hs
  have silent := List.findSome?_eq_none_iff.mp unmarked s (List.mem_reverse.mpr hs)
  exact firstMarkedIn?_eq_none silent

theorem firstMarked?_eq_some (found : firstMarked? name = some (a, others)) : FirstMarked name a others := by
  obtain ⟨earlier, s, later, order, first, silent⟩ := List.findSome?_eq_some_iff.mp found
  obtain ⟨marked, front, rfl, before⟩ := firstMarkedIn?_eq_some first
  refine ⟨marked, later.reverse, front, earlier.reverse, ?_, before, ?_⟩
  · simpa using congrArg List.reverse order
  · intro s hs
    exact firstMarkedIn?_eq_none (silent s (List.mem_reverse.mp hs))

theorem baseTopic_renderName (name : Name) :
    baseTopic (renderName name) = (firstMarked? name).bind fun e => nonempty? (picked e.1 e.2) := by
  cases found : firstMarked? name with
  | none => exact baseTopic_unmarked (firstMarked?_eq_none found)
  | some e => exact baseTopic_firstMarked (firstMarked?_eq_some found)

theorem nonempty?_eq_some {text : List Char} {t : String} :
    nonempty? text = some t ↔ text ≠ [] ∧ String.ofList text = t := by
  unfold nonempty?
  split
  · next empty => simp [empty]
  · next full => simp [full]

theorem nonempty?_toList (t : String) : nonempty? t.toList = if t = "" then none else some t := by
  simp only [nonempty?, String.toList_eq_nil_iff, String.ofList_toList]

end Names

section Samples

open Der.Strict

def subjectOctets (sets : List (List (Bytes × String))) : Bytes :=
  encode sequenceTag (sets.flatMap fun s => encode 0x31 (s.flatMap fun e =>
    encode sequenceTag (encode objectIdentifierTag e.1 ++ encode 0x0C (Utf8.encode e.2))))

def certificateOf (sets : List (List (Bytes × String))) : Bytes :=
  let algorithm := [0x30, 0x0A, 0x06, 0x08, 0x2A, 0x86, 0x48, 0xCE, 0x3D, 0x04, 0x03, 0x02]
  let emptyBits := [0x03, 0x01, 0x00]
  let dates := encode 0x17 (Utf8.encode "200101000000Z") ++ encode 0x17 (Utf8.encode "300101000000Z")
  encode sequenceTag
    (encode sequenceTag ([0xA0, 0x03, 0x02, 0x01, 0x02, 0x02, 0x01, 0x07] ++ algorithm ++ subjectOctets [] ++
      encode sequenceTag dates ++ subjectOctets sets ++ encode sequenceTag (algorithm ++ emptyBits)) ++
    algorithm ++ emptyBits)

def userIdType : Bytes := [0x09, 0x92, 0x26, 0x89, 0x93, 0xF2, 0x2C, 0x64, 0x01, 0x01]

def commonNameType : Bytes := [0x55, 0x04, 0x03]

def organizationType : Bytes := [0x55, 0x04, 0x0A]

def clientSubject : Name :=
  [[⟨⟨organizationType⟩, "UID=x"⟩], [⟨⟨userIdType⟩, "#app, a"⟩], [⟨⟨commonNameType⟩, "Push+ "⟩]]

def clientCertificate : Bytes :=
  certificateOf [[(organizationType, "UID=x")], [(userIdType, "#app, a")], [(commonNameType, "Push+ ")]]

theorem read_clientCertificate : ∃ c, Certificate.read? clientCertificate = some c ∧
    c.subject = clientSubject :=
  Option.map_eq_some_iff.mp (by decide +kernel :
    (Certificate.read? clientCertificate).map (·.subject) = some clientSubject)

end Samples

def HasUserId (name : Name) (value : String) : Prop := ∃ s ∈ name, ∃ a ∈ s, a.IsUserId ∧ a.value = value

/-- Every base topic of a certificate is the value of a user id of its subject exactly when that holds of
what the first marked attribute gives, if there is one and it gives any text. -/
theorem baseTopic_sound_iff {der : Bytes} {c : Certificate} (read : Certificate.read? der = some c) :
    (∀ t, (Principal.name? der).bind baseTopic = some t → HasUserId c.subject t) ↔
    (∀ a others, firstMarked? c.subject = some (a, others) →
      picked a others = [] ∨ HasUserId c.subject (String.ofList (picked a others))) := by
  have topic : (Principal.name? der).bind baseTopic =
      (firstMarked? c.subject).bind fun e => nonempty? (picked e.1 e.2) := by
    rw [Principal.name?, read]
    exact baseTopic_renderName c.subject
  rw [topic]
  constructor
  · intro sound a others found
    rw [found] at sound
    by_cases empty : picked a others = []
    · exact .inl empty
    · exact .inr (sound _ (nonempty?_eq_some.mpr ⟨empty, rfl⟩))
  · intro condition t given
    obtain ⟨⟨a, others⟩, found, given⟩ := Option.bind_eq_some_iff.mp given
    obtain ⟨full, rfl⟩ := nonempty?_eq_some.mp given
    exact (condition a others found).resolve_left full

theorem baseTopic_sound_iff_client : ∃ c, Certificate.read? clientCertificate = some c ∧
    ∀ t, (Principal.name? clientCertificate).bind baseTopic = some t → HasUserId c.subject t := by
  obtain ⟨c, read, subject⟩ := read_clientCertificate
  refine ⟨c, read, (baseTopic_sound_iff read).mpr ?_⟩
  rw [subject]
  intro a others found
  have first : firstMarked? clientSubject = some (⟨⟨userIdType⟩, "#app, a"⟩, []) := by decide +kernel
  cases first.symm.trans found
  have user : (⟨⟨userIdType⟩, "#app, a"⟩ : Attribute).IsUserId := by decide
  have text := picked_userId user
  refine .inr ⟨[⟨⟨userIdType⟩, "#app, a"⟩], by simp [clientSubject], _, List.mem_singleton_self _, user, ?_⟩
  rw [text, String.ofList_toList]

/-- A mark inside another attribute's value is taken for a user id. -/
theorem baseTopic_unsound : ¬ ∀ der c t, Certificate.read? der = some c →
    (Principal.name? der).bind baseTopic = some t → HasUserId c.subject t := by
  intro sound
  have topic : (Principal.name? (certificateOf [[(organizationType, "GUID=zz")]])).bind baseTopic =
      some "zz" := by decide +kernel
  obtain ⟨c, read, subject⟩ := Option.map_eq_some_iff.mp (by decide +kernel :
    (Certificate.read? (certificateOf [[(organizationType, "GUID=zz")]])).map (·.subject) =
      some [[⟨⟨organizationType⟩, "GUID=zz"⟩]])
  obtain ⟨s, hs, a, ha, user, _⟩ := sound _ c _ read topic
  rw [subject, List.mem_singleton] at hs
  subst hs
  cases List.mem_singleton.mp ha
  exact absurd user (by decide)

/-- A certificate whose user id is alone in its set and is written before every other mark has the user
id's value as its base topic, or none when the value is empty; without a mark it has none. -/
theorem baseTopic_userId {der : Bytes} {c : Certificate} (read : Certificate.read? der = some c) :
    (∀ later a earlier, c.subject = later ++ [a] :: earlier → a.IsUserId →
      (∀ s ∈ earlier, ∀ b ∈ s, ¬ b.IsUserId ∧ ¬ mark <:+: b.value.toList) →
      (Principal.name? der).map baseTopic = some (if a.value = "" then none else some a.value)) ∧
    ((∀ s ∈ c.subject, ∀ b ∈ s, ¬ b.IsUserId ∧ ¬ mark <:+: b.value.toList) →
      (Principal.name? der).map baseTopic = some none) := by
  have written : (Principal.name? der).map baseTopic = some (baseTopic (renderName c.subject)) := by
    rw [Principal.name?, read]
    rfl
  rw [written]
  constructor
  · intro later a earlier order user before
    have first : FirstMarked c.subject a [] :=
      ⟨.inl user, later, [], earlier, order, nofun, fun s hs b hb => not_or.mpr (before s hs b hb)⟩
    rw [baseTopic_firstMarked first, picked_userId user, nonempty?_toList]
  · intro unmarked
    rw [baseTopic_unmarked fun s hs b hb => not_or.mpr (unmarked s hs b hb)]

theorem baseTopic_userId_client :
    (Principal.name? clientCertificate).map baseTopic = some (some "#app, a") := by
  obtain ⟨c, read, subject⟩ := read_clientCertificate
  have before : ∀ s ∈ [[(⟨⟨commonNameType⟩, "Push+ "⟩ : Attribute)]], ∀ b ∈ s,
      ¬ b.IsUserId ∧ ¬ mark <:+: b.value.toList := by
    intro s hs b hb
    cases List.mem_singleton.mp hs
    cases List.mem_singleton.mp hb
    exact ⟨by decide, afterUserId_eq_none.mp (by decide +kernel)⟩
  exact (baseTopic_userId read).1 [[⟨⟨organizationType⟩, "UID=x"⟩]] ⟨⟨userIdType⟩, "#app, a"⟩ _ subject
    (by decide) before

end Certificate
end PushGateway
