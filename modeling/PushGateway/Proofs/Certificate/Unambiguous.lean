import PushGateway.Proofs.Certificate.BaseTopic

namespace PushGateway.Certificate

section Parting

variable {α κ : Type} {P : α → Prop} {write : α → List Char} {meaning : α → κ} {marks : List Char}
  {separator : Char}

def StopsAt (marks rest : List Char) : Prop := ∀ c ∈ rest.head?, c ∈ marks

/-- What is written shows what is meant and where it ends, if a mark or nothing follows. -/
def Parts (P : α → Prop) (write : α → List Char) (meaning : α → κ) (marks : List Char) : Prop :=
  ∀ a b rest rest', P a → P b → StopsAt marks rest → StopsAt marks rest' →
    write a ++ rest = write b ++ rest' → meaning a = meaning b ∧ rest = rest'

theorem stopsAt_nil : StopsAt marks [] := nofun

theorem stopsAt_flatMap (texts : List (List Char)) {rest : List Char} (stops : StopsAt marks rest) :
    StopsAt (separator :: marks) (texts.flatMap (separator :: ·) ++ rest) := by
  cases texts with
  | nil => exact fun c hc => List.mem_cons_of_mem _ (stops c hc)
  | cons t texts =>
    intro c hc
    cases Option.mem_some_iff.mp hc
    exact List.mem_cons_self

theorem Parts.following (parts : Parts P write meaning (separator :: marks)) (fresh : separator ∉ marks)
    {as bs : List α} (ha : ∀ a ∈ as, P a) (hb : ∀ b ∈ bs, P b) {rest rest' : List Char}
    (stops : StopsAt marks rest) (stops' : StopsAt marks rest')
    (same : (as.map write).flatMap (separator :: ·) ++ rest = (bs.map write).flatMap (separator :: ·) ++ rest') :
    as.map meaning = bs.map meaning ∧ rest = rest' := by
  induction as generalizing bs with
  | nil =>
    cases bs with
    | nil => exact ⟨rfl, same⟩
    | cons b bs =>
      have first : separator ∈ rest.head? := by
        rw [show rest = _ from same]
        rfl
      exact absurd (stops separator first) fresh
  | cons a as ih =>
    cases bs with
    | nil =>
      have first : separator ∈ rest'.head? := by
        rw [show rest' = _ from same.symm]
        rfl
      exact absurd (stops' separator first) fresh
    | cons b bs =>
      simp only [List.map_cons, List.flatMap_cons, List.cons_append, List.append_assoc, List.cons.injEq,
        true_and] at same
      obtain ⟨head, tail⟩ := parts a b _ _ (ha a List.mem_cons_self) (hb b List.mem_cons_self)
        (stopsAt_flatMap _ stops) (stopsAt_flatMap _ stops') same
      obtain ⟨others, ends⟩ := ih (fun x hx => ha x (List.mem_cons_of_mem a hx))
        (fun x hx => hb x (List.mem_cons_of_mem b hx)) tail
      exact ⟨by rw [List.map_cons, List.map_cons, head, others], ends⟩

theorem Parts.joined (parts : Parts P write meaning (separator :: marks)) (fresh : separator ∉ marks) :
    Parts (fun as => as ≠ [] ∧ ∀ a ∈ as, P a) (fun as => [separator].intercalate (as.map write))
      (List.map meaning) marks := by
  rintro (_ | ⟨a, as⟩) (_ | ⟨b, bs⟩) rest rest' ⟨filled, ha⟩ ⟨filled', hb⟩ stops stops' same
  · exact absurd rfl filled
  · exact absurd rfl filled
  · exact absurd rfl filled'
  · simp only [List.map_cons, intercalate_cons, List.append_assoc] at same
    obtain ⟨head, tail⟩ := parts a b _ _ (ha a List.mem_cons_self) (hb b List.mem_cons_self)
      (stopsAt_flatMap _ stops) (stopsAt_flatMap _ stops') same
    obtain ⟨others, ends⟩ := parts.following fresh (fun x hx => ha x (List.mem_cons_of_mem a hx))
      (fun x hx => hb x (List.mem_cons_of_mem b hx)) stops stops' tail
    exact ⟨by rw [List.map_cons, List.map_cons, head, others], ends⟩

end Parting

section Attributes

theorem escapeFrom_step (first : Bool) (c : Char) (value : List Char) :
    escapeFrom first (c :: value) = '\\' :: c :: escapeFrom false value ∨
    (escapeFrom first (c :: value) = c :: escapeFrom false value ∧ isSpecial c = false) := by
  rw [escapeFrom]
  split
  · exact .inl rfl
  · next h => exact .inr ⟨rfl, eq_false_of_ne_true fun special => h (.inl special)⟩

theorem isSpecial_marks : isSpecial '\\' = true ∧ ∀ c ∈ ['+', ','], isSpecial c = true :=
  ⟨by decide, List.all_eq_true.mp (by decide)⟩

/-- An escaped value that begins with what follows another one is at its end too. -/
theorem escapeFrom_ne_rest {first : Bool} {c : Char} {value rest text : List Char}
    (stops : StopsAt ['+', ','] rest) : escapeFrom first (c :: value) ++ text ≠ rest := by
  rintro rfl
  rcases escapeFrom_step first c value with escaped | ⟨plain, ordinary⟩
  · rw [escaped] at stops
    exact absurd (stops '\\' rfl) (by decide)
  · rw [plain] at stops
    rw [isSpecial_marks.2 c (stops c rfl)] at ordinary
    cases ordinary

theorem escapeFrom_inj (first : Bool) {v w rest rest' : List Char} (stops : StopsAt ['+', ','] rest)
    (stops' : StopsAt ['+', ','] rest') (same : escapeFrom first v ++ rest = escapeFrom first w ++ rest') :
    v = w ∧ rest = rest' := by
  induction v generalizing first w with
  | nil =>
    cases w with
    | nil => exact ⟨rfl, same⟩
    | cons d w => exact absurd same.symm (escapeFrom_ne_rest stops)
  | cons c v ih =>
    cases w with
    | nil => exact absurd same (escapeFrom_ne_rest stops')
    | cons d w =>
      have tails (h : c = d) (t : escapeFrom false v ++ rest = escapeFrom false w ++ rest') :
          c :: v = d :: w ∧ rest = rest' := by
        obtain ⟨values, ends⟩ := ih false t
        exact ⟨by rw [h, values], ends⟩
      -- a backslash stands for itself only where it is escaped
      rcases escapeFrom_step first c v with hc | ⟨hc, ordinary⟩ <;>
        rcases escapeFrom_step first d w with hd | ⟨hd, ordinary'⟩ <;>
        rw [hc, hd] at same <;>
        simp only [List.cons_append, List.cons.injEq] at same
      · exact tails same.2.1 same.2.2
      · rw [← same.1, isSpecial_marks.1] at ordinary'
        cases ordinary'
      · rw [same.1, isSpecial_marks.1] at ordinary
        cases ordinary
      · exact tails same.1 same.2

def Attribute.entry (a : Attribute) : String × String := (a.type.text, a.value)

/-- Short names have a letter that no identifier has, and each stands for one identifier. -/
theorem label_inj {a b : Attribute} (same : a.label = b.label) : a.type.text = b.type.text := by
  have named (o : Der.Oid) (name : String) (known : shortNames.lookup o.text = some name) :
      (o.text, name) ∈ shortNames := by
    obtain ⟨before, after, split, _⟩ := List.lookup_eq_some_iff.mp known
    simp [split]
  have foreign : ∀ e ∈ shortNames, e.2.toList.any (fun c => ¬ OidChar c) = true := by decide
  have single : ∀ e ∈ shortNames, ∀ e' ∈ shortNames, e.2 = e'.2 → e.1 = e'.1 := by decide
  have apart (o o' : Der.Oid) (name : String) (known : shortNames.lookup o.text = some name) :
      name ≠ o'.text := by
    rintro rfl
    obtain ⟨c, hc, letter⟩ := List.any_eq_true.mp (foreign _ (named o _ known))
    exact absurd (oidChar_text o' c hc) (of_decide_eq_true letter)
  unfold Attribute.label at same
  cases ha : shortNames.lookup a.type.text with
  | none =>
    cases hb : shortNames.lookup b.type.text with
    | none => simpa [ha, hb] using same
    | some name =>
      simp only [ha, hb, Option.getD_none, Option.getD_some] at same
      exact absurd same.symm (apart b.type a.type name hb)
  | some name =>
    cases hb : shortNames.lookup b.type.text with
    | none =>
      simp only [ha, hb, Option.getD_none, Option.getD_some] at same
      exact absurd same (apart a.type b.type name ha)
    | some name' =>
      simp only [ha, hb, Option.getD_some] at same
      exact single _ (named a.type name ha) _ (named b.type name' hb) same

theorem equals_not_mem_label (a : Attribute) : '=' ∉ a.label.toList := by
  have table : ∀ e ∈ shortNames, '=' ∉ e.2.toList := by decide
  unfold Attribute.label
  cases known : shortNames.lookup a.type.text with
  | none => exact fun h => absurd (oidChar_text a.type '=' h) (by decide)
  | some name =>
    obtain ⟨before, after, split, _⟩ := List.lookup_eq_some_iff.mp known
    exact table (a.type.text, name) (by simp [split])

theorem append_equals_inj {label label' text text' : List Char} (free : '=' ∉ label) (free' : '=' ∉ label')
    (same : label ++ '=' :: text = label' ++ '=' :: text') : label = label' ∧ text = text' := by
  induction label generalizing label' with
  | nil =>
    cases label' with
    | nil => exact ⟨rfl, (List.cons.inj same).2⟩
    | cons d label' => exact absurd ((List.cons.inj same).1 ▸ List.mem_cons_self) free'
  | cons c label ih =>
    cases label' with
    | nil => exact absurd ((List.cons.inj same).1 ▸ List.mem_cons_self) free
    | cons d label' =>
      obtain ⟨rfl, tail⟩ := List.cons.inj same
      obtain ⟨labels, texts⟩ := ih (fun h => free (List.mem_cons_of_mem c h))
        (fun h => free' (List.mem_cons_of_mem c h)) tail
      exact ⟨by rw [labels], texts⟩

theorem parts_render : Parts (fun _ => True) Attribute.render Attribute.entry ['+', ','] := by
  intro a b rest rest' _ _ stops stops' same
  rw [Attribute.render, Attribute.render, List.append_assoc, List.append_assoc, List.cons_append,
    List.cons_append] at same
  obtain ⟨labels, values⟩ := append_equals_inj (equals_not_mem_label a) (equals_not_mem_label b) same
  obtain ⟨value, ends⟩ := escapeFrom_inj true stops stops' values
  have type := label_inj (String.toList_inj.mp labels)
  exact ⟨Prod.ext type (String.toList_inj.mp value), ends⟩

end Attributes

section Subjects

open Der

theorem manyFrom_read {α : Type} {item? : Bytes → Option (α × Bytes)} {fuel : Nat} {bs : Bytes} {a : α}
    (ha : a ∈ (manyFrom item? fuel bs).1) : ∃ bs rest, item? bs = some (a, rest) := by
  induction fuel generalizing bs with
  | zero => cases ha
  | succ fuel ih =>
    unfold manyFrom at ha
    cases read : item? bs with
    | none => simp [read] at ha
    | some first =>
      simp only [read] at ha
      rcases List.mem_cons.mp ha with rfl | ha
      · exact ⟨bs, first.2, read⟩
      · exact ih ha

theorem attributes?_ne_nil {bs rest : Bytes} {s : List Attribute} (read : attributes? bs = some (s, rest)) :
    s ≠ [] := by
  simp only [attributes?, Option.bind_eq_bind, Option.bind_eq_some_iff] at read
  obtain ⟨_, _, read⟩ := read
  split at read
  · cases read
  · next filled =>
    cases read
    exact filled

theorem name?_sets {bs rest : Bytes} {name : Name} (read : name? bs = some (name, rest)) :
    ∀ s ∈ name, s ≠ [] := by
  simp only [name?, Option.bind_eq_bind, Option.bind_eq_some_iff] at read
  obtain ⟨_, _, read⟩ := read
  cases read
  intro s hs
  obtain ⟨_, _, read⟩ := manyFrom_read hs
  exact attributes?_ne_nil read

theorem subject_sets {der : Bytes} {c : Certificate} (read : Certificate.read? der = some c) :
    ∀ s ∈ c.subject, s ≠ [] := by
  obtain ⟨content, part⟩ : ∃ content, ofSignedPart? content = some c := by
    simp only [Certificate.read?, Option.bind_eq_bind, Option.bind_eq_some_iff] at read
    obtain ⟨_, _, part, _, c', found, _, _, _, _, _, _, same⟩ := read
    cases same
    exact ⟨part.1.content, found⟩
  simp only [ofSignedPart?, Option.bind_eq_bind, Option.bind_eq_some_iff] at part
  obtain ⟨_, _, _, _, _, _, _, _, _, _, ⟨subject, rest⟩, found, _, _, _, _, _, _, same⟩ := part
  split at same
  · cases same
    exact name?_sets found
  · cases same

def entries (name : Name) : List (List (String × String)) := name.map (List.map Attribute.entry)

def renderEntry (e : String × String) : List Char :=
  ((shortNames.lookup e.1).getD e.1).toList ++ '=' :: escape e.2.toList

theorem renderSet_eq (s : List Attribute) :
    renderSet s = ['+'].intercalate ((s.map Attribute.entry).map renderEntry) := by
  rw [renderSet, List.map_map]
  rfl

theorem renderName_congr {name name' : Name} (same : entries name = entries name') :
    renderName name = renderName name' := by
  have written (name : Name) : renderName name = String.ofList ([','].intercalate
      ((entries name).reverse.map fun s => ['+'].intercalate (s.map renderEntry))) := by
    rw [renderName, entries, ← List.map_reverse, List.map_map, funext renderSet_eq]
    rfl
  rw [written, written, same]

theorem render_ne_nil (a : Attribute) : a.render ≠ [] := by simp [Attribute.render]

theorem renderSet_ne_nil {s : List Attribute} (filled : s ≠ []) : renderSet s ≠ [] := by
  cases s with
  | nil => exact absurd rfl filled
  | cons a s =>
    rw [renderSet, List.map_cons, intercalate_cons]
    exact fun h => render_ne_nil a (List.append_eq_nil_iff.mp h).1

theorem parts_renderSet : Parts (· ≠ []) renderSet (List.map Attribute.entry) [','] := by
  intro s t rest rest' hs ht
  exact parts_render.joined (by decide) s t rest rest' ⟨hs, fun _ _ => trivial⟩ ⟨ht, fun _ _ => trivial⟩

theorem renderName_inj {name name' : Name} (filled : ∀ s ∈ name, s ≠ []) (filled' : ∀ s ∈ name', s ≠ [])
    (same : renderName name = renderName name') : entries name = entries name' := by
  have order {name : Name} (filled : ∀ s ∈ name, s ≠ []) : ∀ s ∈ name.reverse, s ≠ [] :=
    fun s hs => filled s (List.mem_reverse.mp hs)
  have nothing {name : Name} (filled : ∀ s ∈ name, s ≠ [])
      (empty : [','].intercalate (name.map renderSet) = []) : name = [] := by
    cases name with
    | nil => rfl
    | cons s name =>
      rw [List.map_cons, intercalate_cons] at empty
      exact absurd (List.append_eq_nil_iff.mp empty).1 (renderSet_ne_nil (filled s List.mem_cons_self))
  have texts := String.ofList_inj.mp same
  -- a name without sets is the only one without text, and all others fall into their sets
  have reversed : name.reverse.map (List.map Attribute.entry) = name'.reverse.map (List.map Attribute.entry) := by
    by_cases empty : name.reverse = []
    · rw [empty] at texts ⊢
      rw [nothing (order filled') texts.symm]
    · by_cases empty' : name'.reverse = []
      · rw [empty'] at texts
        exact absurd (nothing (order filled) texts) empty
      · have ends : [','].intercalate (name.reverse.map renderSet) ++ [] =
            [','].intercalate (name'.reverse.map renderSet) ++ [] := by
          rw [List.append_nil, List.append_nil, texts]
        exact (parts_renderSet.joined (by decide) _ _ [] [] ⟨empty, order filled⟩ ⟨empty', order filled'⟩
          stopsAt_nil stopsAt_nil ends).1
  rw [List.map_reverse, List.map_reverse, List.reverse_inj] at reversed
  exact reversed

/-- Certificates have the same principal name exactly when their subjects are the same: the same sets in the same
order, each with the same types and values in the same order. -/
theorem name?_eq_iff {der der' : Bytes} {c c' : Certificate} (read : Certificate.read? der = some c)
    (read' : Certificate.read? der' = some c') :
    Principal.name? der = Principal.name? der' ↔ entries c.subject = entries c'.subject := by
  rw [Principal.name?, Principal.name?, read, read', Option.map_some, Option.map_some, Option.some.injEq]
  exact ⟨renderName_inj (subject_sets read) (subject_sets read'), renderName_congr⟩

def plusInValue : Bytes := certificateOf [[(organizationType, "a+CN=b")], [(userIdType, "x,C=\\y ")]]

def plusBetween : Bytes :=
  certificateOf [[(organizationType, "a"), (commonNameType, "b")], [(userIdType, "x,C=\\y ")]]

/-- A plus sign in a value and one between two attributes are written differently. -/
theorem name?_eq_iff_lookalike : ∃ c c', Certificate.read? plusInValue = some c ∧
    Certificate.read? plusBetween = some c' ∧ Principal.name? plusInValue ≠ Principal.name? plusBetween := by
  obtain ⟨c, read, subject⟩ := Option.map_eq_some_iff.mp (by decide +kernel :
    (Certificate.read? plusInValue).map (·.subject) =
      some [[⟨⟨organizationType⟩, "a+CN=b"⟩], [⟨⟨userIdType⟩, "x,C=\\y "⟩]])
  obtain ⟨c', read', subject'⟩ := Option.map_eq_some_iff.mp (by decide +kernel :
    (Certificate.read? plusBetween).map (·.subject) =
      some [[⟨⟨organizationType⟩, "a"⟩, ⟨⟨commonNameType⟩, "b"⟩], [⟨⟨userIdType⟩, "x,C=\\y "⟩]])
  refine ⟨c, c', read, read', fun same => ?_⟩
  have subjects := (name?_eq_iff read read').mp same
  rw [subject, subject'] at subjects
  exact absurd (congrArg (List.map List.length) subjects) (by decide)

end Subjects

end PushGateway.Certificate
