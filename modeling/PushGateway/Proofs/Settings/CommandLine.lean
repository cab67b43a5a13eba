import PushGateway.Proofs.Decimal.Numeral
import PushGateway.Settings

namespace PushGateway.Settings

inductive Flag where
  | port
  | certificate
  | key
  | clientRoots
  | fixtures
  deriving DecidableEq, Repr

namespace Flag

def name : Flag → String
  | .port => "--port"
  | .certificate => "--cert"
  | .key => "--key"
  | .clientRoots => "--client-ca"
  | .fixtures => "--fixtures"

theorem name_injective : Function.Injective name := by
  intro f g same
  cases f <;> cases g <;> simp [name] at same ⊢

end Flag

def withValues (port : Nat) (values : Flag → Option String) : Settings where
  port := port
  certificatePath := (values .certificate).getD defaultCertificatePath
  keyPath := (values .key).getD defaultKeyPath
  clientRootsPath := values .clientRoots
  fixturesPath := values .fixtures

def IsPort (text : String) (port : Nat) : Prop := Decimal.Numeral text port ∧ port ≤ 65535

/-- The port that a value of the port flag asks for, and the default port without one. -/
def AsksPort : Option String → Nat → Prop
  | none, port => port = defaultPort
  | some text, port => IsPort text port

section Values

variable {args : List String} {flag v : String} {s : Settings} {e : Error} {f : Flag}

theorem port_eq_none {text : String} : Decimal.read? Decimal.maxU16 text = none ↔ ¬ ∃ port, IsPort text port := by
  simp only [Option.eq_none_iff_forall_ne_some, ne_eq, Decimal.read?_eq_some, not_exists]
  rfl

theorem ofArguments_eq_error : ofArguments args = .error e ↔
    ∃ text, value? Flag.port.name args = some text ∧ (¬ ∃ port, IsPort text port) ∧ e = ⟨text⟩ := by
  unfold ofArguments Flag.name
  dsimp only
  split
  · next absent => simp [absent]
  · next text given =>
    rw [given]
    split
    · next unread => simp [not_exists.mp (port_eq_none.mp unread), eq_comm]
    · next port read =>
      have number : ∃ port, IsPort text port := ⟨port, Decimal.read?_eq_some.mp read⟩
      simp [number]

theorem ofArguments_eq_ok : ofArguments args = .ok s ↔
    ∃ port, AsksPort (value? Flag.port.name args) port ∧ s = withValues port (fun f => value? f.name args) := by
  unfold ofArguments Flag.name
  dsimp only
  split
  · next absent => simp [absent, AsksPort, withValues, eq_comm]
  · next text given =>
    rw [given]
    split
    · next unread => simp [AsksPort, not_exists.mp (port_eq_none.mp unread)]
    · next port read =>
      have number (port' : Nat) : IsPort text port' ↔ port' = port := by
        rw [IsPort, ← Decimal.read?_eq_some]
        exact ⟨fun h => Option.some.inj (h.symm.trans read), fun h => h ▸ read⟩
      simp [AsksPort, number, withValues, eq_comm]

theorem value?_absent (absent : flag ∉ args) : value? flag args = none := by
  induction args with
  | nil => rfl
  | cons a rest ih =>
    have other : a ≠ flag := fun same => absent (same ▸ List.mem_cons_self)
    rw [value?, if_neg other, ih (List.not_mem_of_not_mem_cons absent)]

theorem value?_cut {before : List String} (first : flag ∉ before) (after : List String) :
    value? flag (before ++ flag :: after) = after.head? := by
  induction before with
  | nil => rw [List.nil_append, value?, if_pos rfl]
  | cons a before ih =>
    have other : a ≠ flag := fun same => first (same ▸ List.mem_cons_self)
    rw [List.cons_append, value?, if_neg other, ih (List.not_mem_of_not_mem_cons first)]

theorem value?_eq_some :
    value? flag args = some v ↔ ∃ before after, args = before ++ flag :: v :: after ∧ flag ∉ before := by
  constructor
  · intro given
    by_cases present : flag ∈ args
    · obtain ⟨before, after, rfl, first⟩ := List.eq_append_cons_of_mem present
      rw [value?_cut first] at given
      obtain ⟨rest, rfl⟩ := List.head?_eq_some_iff.mp given
      exact ⟨before, rest, rfl, first⟩
    · rw [value?_absent present] at given
      cases given
  · rintro ⟨before, after, rfl, first⟩
    rw [value?_cut first, List.head?_cons]

theorem exists_value? (present : flag ∈ args) : (∃ v, value? flag args = some v) ↔ flag ∈ args.dropLast := by
  obtain ⟨before, after, rfl, first⟩ := List.eq_append_cons_of_mem present
  simp only [value?_cut first]
  cases after with
  | nil => simpa using first
  | cons v after => simp

end Values

section Order

inductive Piece where
  | pair (flag : Flag) (value : String)
  | other (text : String)
  deriving DecidableEq, Repr

namespace Piece

def arguments : Piece → List String
  | .pair f v => [f.name, v]
  | .other text => [text]

def text : Piece → String
  | .pair _ v => v
  | .other text => text

def value? (f : Flag) : Piece → Option String
  | .pair g v => if g = f then some v else none
  | .other _ => none

end Piece

/-- The command line gives these values to the flags, and no other text in it is the name of a flag. -/
structure Line (program : String) (pieces : List Piece) (values : Flag → Option String) : Prop where
  program : ∀ f : Flag, program ≠ f.name
  texts : ∀ p ∈ pieces, ∀ f : Flag, p.text ≠ f.name
  values : ∀ f v, .pair f v ∈ pieces ↔ values f = some v

variable {program : String} {pieces : List Piece} {values : Flag → Option String}

theorem value?_arguments (texts : ∀ p ∈ pieces, ∀ f : Flag, p.text ≠ f.name) (f : Flag) :
    value? f.name (pieces.flatMap Piece.arguments) = pieces.findSome? (Piece.value? f) := by
  -- no value is the name of a flag, so a pair for another flag is passed over as a whole
  induction pieces with
  | nil => rfl
  | cons p pieces ih =>
    obtain ⟨own, others⟩ := List.forall_mem_cons.mp texts
    have later := ih others
    rw [List.flatMap_cons, List.findSome?_cons]
    cases p with
    | other text =>
      have other : text ≠ f.name := own f
      simpa [Piece.arguments, Piece.value?, value?, other] using later
    | pair g v =>
      by_cases same : g = f
      · simp [Piece.arguments, Piece.value?, value?, same]
      · have apart : g.name ≠ f.name := Flag.name_injective.ne same
        have other : v ≠ f.name := own f
        simpa [Piece.arguments, Piece.value?, value?, same, apart, other] using later

theorem findSome?_pieces (graph : ∀ f v, .pair f v ∈ pieces ↔ values f = some v) (f : Flag) :
    pieces.findSome? (Piece.value? f) = values f := by
  have member {v : String} : (∃ p ∈ pieces, p.value? f = some v) ↔ values f = some v := by
    rw [← graph f v]
    constructor
    · rintro ⟨p, member, found⟩
      cases p with
      | other text => cases found
      | pair g u =>
        by_cases same : g = f
        · simp only [Piece.value?, same, if_true, Option.some.injEq] at found
          exact found ▸ same ▸ member
        · simp only [Piece.value?, same, if_false, reduceCtorEq] at found
    · intro member
      exact ⟨.pair f v, member, if_pos rfl⟩
  cases found : pieces.findSome? (Piece.value? f) with
  | some v =>
    exact (member.mp (List.exists_of_findSome?_eq_some found)).symm
  | none =>
    refine (Option.eq_none_iff_forall_ne_some.mpr ?_).symm
    intro v given
    obtain ⟨p, listed, value⟩ := member.mpr given
    have nothing := List.findSome?_eq_none_iff.mp found p listed
    rw [nothing] at value
    cases value

theorem Line.value?_eq (line : Line program pieces values) (f : Flag) :
    value? f.name (program :: pieces.flatMap Piece.arguments) = values f := by
  rw [value?, if_neg (line.program f), value?_arguments line.texts, findSome?_pieces line.values]

/-- A command line gives the settings of its values, whatever their order and whatever else stands on it; it is
refused exactly when the port is given a text that is no port, and that text is named. -/
theorem ofArguments_line (line : Line program pieces values) :
    (∀ s, ofArguments (program :: pieces.flatMap Piece.arguments) = .ok s ↔
      ∃ port, AsksPort (values .port) port ∧ s = withValues port values) ∧
    (∀ e, ofArguments (program :: pieces.flatMap Piece.arguments) = .error e ↔
      ∃ text, values .port = some text ∧ (¬ ∃ port, IsPort text port) ∧ e = ⟨text⟩) ∧
    ∀ program' pieces', Line program' pieces' values →
      ofArguments (program' :: pieces'.flatMap Piece.arguments) =
        ofArguments (program :: pieces.flatMap Piece.arguments) := by
  have outcome {program pieces} (line : Line program pieces values) :
      (∀ s, ofArguments (program :: pieces.flatMap Piece.arguments) = .ok s ↔
        ∃ port, AsksPort (values .port) port ∧ s = withValues port values) ∧
      ∀ e, ofArguments (program :: pieces.flatMap Piece.arguments) = .error e ↔
        ∃ text, values .port = some text ∧ (¬ ∃ port, IsPort text port) ∧ e = ⟨text⟩ := by
    simp only [ofArguments_eq_ok, ofArguments_eq_error, line.value?_eq, implies_true, and_self]
  refine ⟨(outcome line).1, (outcome line).2, ?_⟩
  intro program' pieces' line'
  cases result : ofArguments (program :: pieces.flatMap Piece.arguments) with
  | ok s => exact ((outcome line').1 s).mpr (((outcome line).1 s).mp result)
  | error e => exact ((outcome line').2 e).mpr (((outcome line).2 e).mp result)

/-- Among other arguments, a port with a sign and leading zeros; and a port beyond the last one. -/
theorem ofArguments_line_signed :
    ofArguments ["push-gateway", "-v", "--fixtures", "seed.json", "--port", "+00443", "8080", "--client-ca", ""] =
      .ok ⟨443, "certs/cert.pem", "certs/key.pem", some "", some "seed.json"⟩ ∧
    ofArguments ["push-gateway", "--port", "65536"] = .error ⟨"65536"⟩ := by
  have signed : Line "push-gateway" [.other "-v", .pair .fixtures "seed.json", .pair .port "+00443", .other "8080",
      .pair .clientRoots ""] fun
        | .port => some "+00443"
        | .clientRoots => some ""
        | .fixtures => some "seed.json"
        | _ => none := by
    refine ⟨by intro f; cases f <;> decide, ?_, ?_⟩
    · simp only [List.forall_mem_cons, Piece.text]
      refine ⟨?_, ?_, ?_, ?_, ?_, nofun⟩ <;> intro f <;> cases f <;> decide
    · intro f v
      cases f <;> simp [eq_comm]
  have beyond : Line "push-gateway" [.pair .port "65536"] fun
      | .port => some "65536"
      | _ => none := by
    refine ⟨by intro f; cases f <;> decide, ?_, ?_⟩
    · simp only [List.forall_mem_cons, Piece.text]
      refine ⟨?_, nofun⟩
      intro f
      cases f <;> decide
    · intro f v
      cases f <;> simp [eq_comm]
  constructor
  · exact ((ofArguments_line signed).1 _).mpr ⟨443, Decimal.read?_eq_some.mp (by decide), rfl⟩
  · exact ((ofArguments_line beyond).2.1 _).mpr ⟨_, rfl, port_eq_none.mp (by decide), rfl⟩

end Order

section Presence

variable {args : List String} {f : Flag} {v : String} {s : Settings}

def Has (s : Settings) (value : String) : Flag → Prop
  | .port => IsPort value s.port
  | .certificate => s.certificatePath = value
  | .key => s.keyPath = value
  | .clientRoots => s.clientRootsPath = some value
  | .fixtures => s.fixturesPath = some value

def HasDefault (s : Settings) : Flag → Prop
  | .port => s.port = defaultPort
  | .certificate => s.certificatePath = defaultCertificatePath
  | .key => s.keyPath = defaultKeyPath
  | .clientRoots => s.clientRootsPath = none
  | .fixtures => s.fixturesPath = none

def Follows (args : List String) (f : Flag) (value : String) : Prop :=
  ∃ before after, args = before ++ f.name :: value :: after ∧ f.name ∉ before

/-- The arguments are refused, or the setting of the flag is what follows it. -/
def Heeded (args : List String) (f : Flag) : Prop :=
  (∃ e, ofArguments args = .error e) ∨
    ∃ s value, ofArguments args = .ok s ∧ Follows args f value ∧ s.Has value f

theorem has_of_value? (accepted : ofArguments args = .ok s) (given : value? f.name args = some v) : s.Has v f := by
  obtain ⟨port, asks, rfl⟩ := ofArguments_eq_ok.mp accepted
  cases f with
  | port =>
    rw [given] at asks
    exact asks
  | certificate | key => simp only [Has, withValues, given, Option.getD_some]
  | clientRoots | fixtures => simp only [Has, withValues, given]

theorem hasDefault_of_value? (accepted : ofArguments args = .ok s) (absent : value? f.name args = none) :
    s.HasDefault f := by
  obtain ⟨port, asks, rfl⟩ := ofArguments_eq_ok.mp accepted
  cases f with
  | port =>
    rw [absent] at asks
    exact asks
  | certificate | key => simp only [HasDefault, withValues, absent, Option.getD_none]
  | clientRoots | fixtures => simp only [HasDefault, withValues, absent]

/-- A flag among the arguments is heeded exactly when it stands before the last of them, or when the arguments
are refused for their port. As the last argument alone it leaves the default in place, as if it were absent. -/
theorem heeded_iff (present : f.name ∈ args) :
    (Heeded args f ↔ f.name ∈ args.dropLast ∨ ∃ text, Follows args .port text ∧ ¬ ∃ port, IsPort text port) ∧
    (f.name ∉ args.dropLast → ∀ s, ofArguments args = .ok s → s.HasDefault f) := by
  have refused : (∃ e, ofArguments args = .error e) ↔
      ∃ text, Follows args .port text ∧ ¬ ∃ port, IsPort text port := by
    simp only [ofArguments_eq_error, value?_eq_some, Follows]
    constructor
    · rintro ⟨_, text, given, unread, rfl⟩
      exact ⟨text, given, unread⟩
    · rintro ⟨text, given, unread⟩
      exact ⟨⟨text⟩, text, given, unread, rfl⟩
  have valued := exists_value? present
  rw [← refused]
  refine ⟨⟨?_, ?_⟩, ?_⟩
  · rintro (failed | ⟨s, value, accepted, follows, has⟩)
    · exact .inr failed
    · exact .inl (valued.mp ⟨value, value?_eq_some.mpr follows⟩)
  · rintro (before | failed)
    · obtain ⟨value, given⟩ := valued.mpr before
      cases result : ofArguments args with
      | error e => exact .inl ⟨e, result⟩
      | ok s => exact .inr ⟨s, value, result, value?_eq_some.mp given, has_of_value? result given⟩
    · exact .inl failed
  · intro only s accepted
    refine hasDefault_of_value? accepted (Option.eq_none_iff_forall_ne_some.mpr ?_)
    intro value given
    exact only (valued.mp ⟨value, given⟩)

theorem heeded_iff_repeated :
    Heeded ["push-gateway", "--key", "--cert", "a.pem", "--key"] .key ∧
    ¬ Heeded ["push-gateway", "--key", "a.pem", "--cert"] .certificate := by
  have repeated : Flag.key.name ∈ ["push-gateway", "--key", "--cert", "a.pem", "--key"] := by decide
  have ending : Flag.certificate.name ∈ ["push-gateway", "--key", "a.pem", "--cert"] := by decide
  refine ⟨(heeded_iff repeated).1.mpr (.inl (by decide)), ?_⟩
  rw [(heeded_iff ending).1]
  rintro (before | ⟨text, follows, -⟩)
  · exact absurd before (by decide)
  · have absent := value?_absent (show Flag.port.name ∉ ["push-gateway", "--key", "a.pem", "--cert"] by decide)
    rw [value?_eq_some.mpr follows] at absent
    cases absent

/-- A flag that ends the arguments is passed over: client certificates stay unasked for. -/
theorem unheeded : ¬ ∀ program arguments f, Flag.name f ∈ arguments → Heeded (program :: arguments) f := by
  intro heeded
  have accepted : ofArguments ["push-gateway", "--client-ca"] =
      .ok ⟨8443, "certs/cert.pem", "certs/key.pem", none, none⟩ := by decide
  obtain ⟨e, failed⟩ | ⟨s, value, -, follows, -⟩ := heeded "push-gateway" ["--client-ca"] .clientRoots (by decide)
  · rw [accepted] at failed
    cases failed
  · have before := (exists_value? (by decide)).mp ⟨value, value?_eq_some.mpr follows⟩
    exact absurd before (by decide)

end Presence

end PushGateway.Settings
