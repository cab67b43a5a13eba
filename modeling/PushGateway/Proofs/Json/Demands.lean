import PushGateway.Proofs.Json.Members

namespace PushGateway.Json

inductive Repeats (names : List String) : Bytes → Prop where
  | members {ms : List Labelled} {m m' : Labelled} {name : String} {w : Bytes} :
      Spread .object true (ms.map Labelled.text) w → [m, m'].Sublist ms → name ∈ names → m.Named name →
      m'.Named name → Repeats names (Bracket.object.openMark :: w)

/-- Text that gives a value to a name: by a member of an object, or by the place in a list of values. -/
inductive Gives (names : List String) (name : String) : Bytes → Bytes → Prop where
  | member {ms : List Labelled} {m : Labelled} {w : Bytes} : Spread .object true (ms.map Labelled.text) w → m ∈ ms →
      m.Named name → Gives names name m.value (Bracket.object.openMark :: w)
  | place {is : List Bytes} {i w : Bytes} {n : Nat} : Spread .list true is w → names[n]? = some name →
      is[n]? = some i → Gives names name i (Bracket.list.openMark :: w)

/-- Text that gives no value to a name: an object without such a member, a list that ends before its place, or
no object and no list. -/
inductive Lacks (names : List String) (name : String) : Bytes → Prop where
  | members {ms : List Labelled} {w : Bytes} : Spread .object true (ms.map Labelled.text) w →
      (∀ m ∈ ms, ¬ m.Named name) → Lacks names name (Bracket.object.openMark :: w)
  | places {is : List Bytes} {w : Bytes} : Spread .list true is w →
      (∀ (n : Nat) (i : Bytes), names[n]? = some name → is[n]? ≠ some i) → Lacks names name (Bracket.list.openMark :: w)
  | other {v : Bytes} : (∀ f w, v ≠ Bracket.openMark f :: w) → Lacks names name v

def Flawed (names needed : List String) (v : Bytes) : Prop :=
  Repeats names v ∨ ∃ name ∈ needed, Lacks names name v

namespace Record

variable {σ α : Type} {r : Record σ α}

def names (r : Record σ α) : List String := r.fields.map (·.name)

/-- Nothing can come of the record's members without this one. -/
def Needs (r : Record σ α) (name : String) : Prop :=
  ∃ unset : σ → Prop, unset r.start ∧
    (∀ field ∈ r.fields, field.name ≠ name → ∀ st w st', unset st → Reads (field.read st) w st' → unset st') ∧
    ∀ st x, r.finish st = .ok x → ¬ unset st

theorem Needs.of_part {β : Type} {name : String} (part : σ → Option β) (start : part r.start = none)
    (apart : ∀ field ∈ r.fields, field.name ≠ name → ∀ st w st', Reads (field.read st) w st' → part st' = part st)
    (demands : ∀ st x, r.finish st = .ok x → part st ≠ none) : r.Needs name :=
  ⟨fun st => part st = none, start,
    fun field known other st w st' unset reads => (apart field known other st w st' reads).trans unset, demands⟩

theorem name_of_find? {fields : List (Member σ)} {field : Member σ} {name : String}
    (found : fields.find? (·.name = name) = some field) : field.name = name := by
  have same := List.find?_some found
  simpa only [decide_eq_true_eq] using same

theorem exists_known {name : String} (known : name ∈ r.names) :
    ∃ field ∈ r.fields, r.fields.find? (·.name = name) = some field ∧ field.name = name := by
  obtain ⟨field, member, rfl⟩ := List.mem_map.mp known
  have found : (r.fields.find? (·.name = field.name)).isSome :=
    List.find?_isSome.mpr ⟨field, member, decide_eq_true rfl⟩
  obtain ⟨other, found⟩ := Option.isSome_iff_exists.mp found
  exact ⟨other, List.mem_of_find?_eq_some found, found, name_of_find? found⟩

end Record

section Members

variable {σ α : Type} {r : Record σ α} {seen seen' : List String} {st st' : σ} {ms : List Labelled} {m m' : Labelled}
  {name : String}

theorem Takes.known (takes : Takes r m seen st seen' st') (named : m.Named name) (known : name ∈ r.names) :
    ∃ field ∈ r.fields, field.name = name ∧ name ∉ seen ∧ seen' = name :: seen ∧
      Reads (field.read st) m.content st' := by
  obtain ⟨field, listed, found, same⟩ := Record.exists_known known
  rw [takes_iff named, found] at takes
  obtain ⟨fresh, reads, rfl⟩ := takes
  exact ⟨field, listed, same, fresh, rfl, reads⟩

theorem Takes.subset (takes : Takes r m seen st seen' st') : seen ⊆ seen' := by
  cases takes with
  | passed _ _ => exact List.Subset.refl seen
  | read _ _ _ _ => exact List.subset_cons_self _ seen

theorem Gathered.fresh (gathered : Gathered r seen st ms st') (member : m ∈ ms) (named : m.Named name)
    (known : name ∈ r.names) : name ∉ seen := by
  -- names that have been seen stay so, up to the member that must not be among them
  induction gathered with
  | done => cases member
  | member takes _ ih =>
    rcases List.mem_cons.mp member with rfl | member
    · obtain ⟨_, _, _, fresh, _⟩ := takes.known named known
      exact fresh
    · exact fun before => ih member (takes.subset before)

theorem Gathered.once (gathered : Gathered r seen st ms st') (both : [m, m'].Sublist ms) (named : m.Named name)
    (known : name ∈ r.names) : ¬ m'.Named name := by
  intro again
  induction gathered with
  | done => cases both
  | member takes gathered ih =>
    cases both with
    | cons _ both => exact ih both
    | cons_cons _ both =>
      -- the first of the two puts the name among those seen
      obtain ⟨_, _, _, _, rfl, _⟩ := takes.known named known
      exact gathered.fresh (List.singleton_sublist.mp both) again known List.mem_cons_self

theorem Gathered.reads (gathered : Gathered r seen st ms st') (member : m ∈ ms) (named : m.Named name)
    (known : name ∈ r.names) :
    ∃ field ∈ r.fields, field.name = name ∧ ∃ before after, Reads (field.read before) m.content after := by
  induction gathered with
  | done => cases member
  | member takes _ ih =>
    rcases List.mem_cons.mp member with rfl | member
    · obtain ⟨field, listed, same, -, -, reads⟩ := takes.known named known
      exact ⟨field, listed, same, _, _, reads⟩
    · exact ih member

theorem Gathered.keeps {unset : σ → Prop} (gathered : Gathered r seen st ms st') (start : unset st)
    (kept : ∀ field ∈ r.fields, field.name ≠ name → ∀ st w st', unset st → Reads (field.read st) w st' → unset st')
    (absent : ∀ m ∈ ms, ¬ m.Named name) : unset st' := by
  induction gathered with
  | done => exact start
  | @member _ _ st mid _ m _ takes _ ih =>
    obtain ⟨here, others⟩ := List.forall_mem_cons.mp absent
    refine ih ?_ others
    cases takes with
    | passed _ _ => exact start
    | @read _ _ field named found _ reads =>
      have distinct : field.name ≠ name := fun same => here (same ▸ (Record.name_of_find? found).symm ▸ named)
      exact kept field (List.mem_of_find?_eq_some found) distinct st _ mid start reads

end Members

section Places

variable {σ : Type} {fields : List (Member σ)} {st st' : σ} {is : List Bytes} {i : Bytes} {name : String} {n : Nat}

theorem Listed.reads (listed : Listed fields st is st') (named : (fields.map (·.name))[n]? = some name)
    (given : is[n]? = some i) :
    ∃ field ∈ fields, field.name = name ∧ ∃ before after, Reads (field.read before) i after := by
  induction listed generalizing n with
  | done => cases given
  | omitted => cases given
  | @read _ _ _ field _ _ _ reads _ ih =>
    cases n with
    | zero =>
      cases named
      cases given
      exact ⟨field, List.mem_cons_self, rfl, _, _, reads⟩
    | succ n =>
      obtain ⟨other, member, rest⟩ := ih (n := n) named given
      exact ⟨other, List.mem_cons_of_mem _ member, rest⟩

theorem Listed.keeps {unset : σ → Prop} (listed : Listed fields st is st') (start : unset st)
    (kept : ∀ field ∈ fields, field.name ≠ name → ∀ st w st', unset st → Reads (field.read st) w st' → unset st')
    (absent : ∀ (n : Nat) (i : Bytes), (fields.map (·.name))[n]? = some name → is[n]? ≠ some i) : unset st' := by
  induction listed with
  | done => exact start
  | omitted _ _ ih =>
    exact ih start (List.forall_mem_cons.mp kept).2 fun n i named => nofun
  | @read st mid _ field _ i _ reads _ ih =>
    obtain ⟨here, others⟩ := List.forall_mem_cons.mp kept
    have distinct : field.name ≠ name := fun same => absent 0 i (congrArg some same) rfl
    exact ih (here distinct st i mid start reads) others fun n i named => absent (n + 1) i named

end Places

section Demands

variable {σ α : Type} {r : Record σ α} {a v value : Bytes} {x : α} {name : String} {needed : List String}

theorem not_repeats_of_reads (exact : r.Exact) (reads : Reads r.read (a ++ v) x) (blank : Blank a) :
    ¬ Repeats r.names v := by
  rintro ⟨spread, both, known, named, again⟩
  obtain ⟨st, gathered, -⟩ := (reads_object exact spread blank).mp reads
  exact gathered.once both named known again

theorem reads_given (exact : r.Exact) (reads : Reads r.read (a ++ v) x) (blank : Blank a)
    (gives : Gives r.names name value v) (known : name ∈ r.names) :
    ∃ field ∈ r.fields, field.name = name ∧
      ∃ b before after, Blank b ∧ Reads (field.read before) (b ++ value) after := by
  cases gives with
  | @member _ m _ spread member named =>
    obtain ⟨st, gathered, -⟩ := (reads_object exact spread blank).mp reads
    obtain ⟨field, listed, same, before, after, read⟩ := gathered.reads member named known
    exact ⟨field, listed, same, m.beforeValue, before, after, m.beforeValue_blank, read⟩
  | place spread here given =>
    obtain ⟨st, listed, -⟩ := (reads_listed exact spread blank).mp reads
    obtain ⟨field, member, same, before, after, read⟩ := listed.reads here given
    exact ⟨field, member, same, [], before, after, .nil, read⟩

theorem reads_entry {β : Type} {one : Reader β} {is : List Bytes} {i w : Bytes} (exact : r.Exact)
    (reads : Reads r.read (a ++ v) x) (blank : Blank a) (gives : Gives r.names name (Bracket.list.openMark :: w) v)
    (known : name ∈ r.names)
    (lists : ∀ field ∈ r.fields, field.name = name → ∀ st, ∃ f : List β → σ,
      field.read st = list one >>= fun as => pure (f as))
    (spread : Spread .list true is w) (each : ∀ i, Written .value i → Exact one i) (member : i ∈ is) :
    ∃ x, Reads one i x := by
  obtain ⟨field, listed, same, b, before, after, blank', read⟩ := reads_given exact reads blank gives known
  obtain ⟨f, made⟩ := lists field listed same before
  rw [made] at read
  refine read.item spread (fun i member => ?_) blank' member
  cases spread.item i member with
  | element value => exact each i value

theorem not_lacks_of_reads (exact : r.Exact) (needs : r.Needs name) (reads : Reads r.read (a ++ v) x)
    (blank : Blank a) (written : Written .value v) : ¬ Lacks r.names name v := by
  obtain ⟨unset, start, kept, refused⟩ := needs
  intro lacks
  cases lacks with
  | members spread absent =>
    obtain ⟨st, gathered, finished⟩ := (reads_object exact spread blank).mp reads
    exact refused st x finished (gathered.keeps start kept absent)
  | places spread absent =>
    obtain ⟨st, listed, finished⟩ := (reads_listed exact spread blank).mp reads
    exact refused st x finished (listed.keeps start kept absent)
  | other neither =>
    obtain ⟨b, t, rfl, solid, -⟩ := written.head
    have list : b ≠ Bracket.list.openMark := fun same => neither .list t (same ▸ rfl)
    have object : b ≠ Bracket.object.openMark := fun same => neither .object t (same ▸ rfl)
    obtain ⟨e, left, failed⟩ : ∃ e left, r.read (a ++ b :: t ++ []) = .failed e left :=
      onFirst_unexpected blank solid (by rw [if_neg list, if_neg object]) []
    cases failed.symm.trans (reads [] follows_nil)

theorem not_flawed_of_reads (exact : r.Exact) (needs : ∀ name ∈ needed, r.Needs name) (reads : Reads r.read (a ++ v) x)
    (blank : Blank a) (written : Written .value v) : ¬ Flawed r.names needed v := by
  rintro (repeats | ⟨name, listed, lacks⟩)
  · exact not_repeats_of_reads exact reads blank repeats
  · exact not_lacks_of_reads exact (needs name listed) reads blank written lacks

end Demands

end PushGateway.Json
