import Mathlib.Data.List.Infix
import PushGateway.Startup.Fault

namespace PushGateway

namespace Text

/-- A text that needs no escapes between quotation marks of either kind. -/
def Plain (text : String) : Prop := ∀ c ∈ text.toList, ' ' ≤ c ∧ c ≤ '~' ∧ c ≠ '"' ∧ c ≠ '\\' ∧ c ≠ '\''

variable {text : String}

theorem shown_of_printable {c : Char} (least : ' ' ≤ c) (most : c ≤ '~') (noQuote : c ≠ '"') (noEscape : c ≠ '\\') :
    shown c = [c] := by
  have visible : ∀ control : Char, control < ' ' → c ≠ control := by
    rintro control below rfl
    exact absurd least (Char.not_le.mpr below)
  simp [shown, visible _ (show '\x00' < ' ' by decide), visible _ (show '\t' < ' ' by decide),
    visible _ (show '\r' < ' ' by decide), visible _ (show '\n' < ' ' by decide), noQuote, noEscape, least, most]

theorem flatMap_of_singleton {cs : List Char} {f : Char → List Char} (alone : ∀ c ∈ cs, f c = [c]) :
    cs.flatMap f = cs :=
  (List.flatMap_congr alone).trans (List.flatMap_singleton' cs)

theorem Plain.toList_quoted (plain : Plain text) : (quoted text).toList = '"' :: (text.toList ++ ['"']) := by
  have same : text.toList.flatMap shown = text.toList := flatMap_of_singleton fun c member => by
    obtain ⟨least, most, noQuote, noEscape, _⟩ := plain c member
    exact shown_of_printable least most noQuote noEscape
  simp only [quoted, same, String.toList_ofList, List.cons_append]

theorem Plain.infix_quoted (plain : Plain text) : text.toList <:+: (quoted text).toList :=
  ⟨['"'], ['"'], by simp [plain.toList_quoted]⟩

end Text

namespace Startup

open Text (Plain)

theorem infix_quotedPath {path : String} (plain : Plain path) : path.toList <:+: (quotedPath path).toList := by
  have same : (Text.quoted path).toList.flatMap (fun c => if c = '\'' then ['\\', c] else [c]) =
      (Text.quoted path).toList := by
    refine Text.flatMap_of_singleton fun c member => if_neg ?_
    rw [plain.toList_quoted, List.mem_cons, List.mem_append, List.mem_singleton] at member
    rcases member with rfl | member | rfl
    · decide
    · exact (plain c member).2.2.2.2
    · decide
  rw [quotedPath, String.toList_ofList, same]
  exact plain.infix_quoted

section Parts

variable {kind part : String} {parts : List String}

theorem mem_intersperse {α : Type} {sep x : α} {xs : List α} (member : x ∈ xs) : x ∈ xs.intersperse sep := by
  induction xs with
  | nil => cases member
  | cons y xs ih => cases xs with
    | nil => exact member
    | cons z xs =>
      rw [List.intersperse_cons_cons]
      rcases List.mem_cons.mp member with rfl | later
      · exact List.mem_cons_self
      · exact List.mem_cons_of_mem _ (List.mem_cons_of_mem _ (ih later))

theorem infix_intercalate (sep : String) (member : part ∈ parts) :
    part.toList <:+: (sep.intercalate parts).toList := by
  rw [String.toList_intercalate]
  exact List.infix_of_mem_flatten (mem_intersperse (List.mem_map_of_mem member))

theorem infix_node (member : part ∈ parts) : part.toList <:+: (node kind parts).toList := by
  have inner := infix_intercalate ", " member
  simp only [node, String.toList_append]
  exact inner.trans (List.infix_append _ _ _)

theorem infix_record (name : String) {value : String} {properties : List (String × String)}
    (member : (name, value) ∈ properties) :
    value.toList <:+: (record kind properties).toList := by
  have property : value.toList <:+: (name ++ ": " ++ value).toList := by
    rw [String.toList_append]
    exact (List.suffix_append _ _).isInfix
  have inner := infix_intercalate ", "
    (List.mem_map_of_mem (f := fun p : String × String => p.1 ++ ": " ++ p.2) member)
  simp only [record, String.toList_append]
  refine (property.trans inner).trans ?_
  exact List.infix_append _ _ _

theorem prefix_toList_append (s t : String) : s.toList <+: (s ++ t).toList := by
  rw [String.toList_append]
  exact List.prefix_append _ _

theorem prefix_of_split {s first second : String} (split : s = first ++ second) (rest : String) :
    first.toList <+: (s ++ rest).toList := by
  rw [split]
  exact (prefix_toList_append first second).trans (prefix_toList_append _ rest)

theorem infix_of_split {s first second : String} (split : s = first ++ second) (rest : String) :
    second.toList <:+: (s ++ rest).toList := by
  rw [split, String.toList_append, String.toList_append]
  exact List.infix_append _ _ _

theorem prefix_node (kind : String) (parts : List String) : kind.toList <+: (node kind parts).toList := by
  simp only [node, String.toList_append, List.append_assoc]
  exact List.prefix_append _ _

theorem infix_node_quoted {text : String} (plain : Plain text) (member : Text.quoted text ∈ parts) :
    text.toList <:+: (node kind parts).toList :=
  plain.infix_quoted.trans (infix_node member)

/-- A cause within a cause still shows its texts. -/
theorem infix_node_node {outer text : String} (inner : text.toList <:+: (node kind parts).toList) :
    text.toList <:+: (node outer [node kind parts]).toList :=
  inner.trans (infix_node List.mem_cons_self)

theorem infix_describeFileFault {f : File.Fault} (plain : Plain f.text) :
    f.text.toList <:+: (describeFileFault f).toList := by
  unfold describeFileFault
  split
  · exact plain.infix_quoted.trans (infix_record "message" (by simp))
  · exact plain.infix_quoted.trans (infix_record "message" (by simp))

theorem infix_unreadable {path text : String} {fault : File.Fault} (told : text ∈ [path, fault.text])
    (plain : Plain text) : text.toList <:+: (node "Io" [quotedPath path, describeFileFault fault]).toList := by
  obtain rfl | rfl := List.mem_pair.mp told
  · exact (infix_quotedPath plain).trans (infix_node (by simp))
  · exact (infix_describeFileFault plain).trans (infix_node (by simp))

end Parts

namespace Fault

def kind : Fault → String
  | .settings _ => "InvalidArgument"
  | .file (.unreadable _ _) => "Io"
  | .file (.malformed _ _) => "Io"
  | .file (.lacking _ _) => "Pem"
  | .tls .noTrustAnchors => "Verifier"
  | .tls _ => "Rustls"
  | .fixtureFile (.unreadable _ _) => "Io"
  | .fixtureFile (.json _) => "Json"
  | .fixtures (.key _ _) => "Key"
  | .fixtures _ => "Registration"
  | .server .terminated => "Terminated"
  | .server .alreadyRunning => "AlreadyRunning"
  | .server (.bind _) => "Bind"
  | .server (.runtime _) => "Runtime"
  | .server .abandoned => "Abandoned"

def texts : Fault → List String
  | .settings e => [e.argument]
  | .file (.unreadable path fault) => [path, fault.text]
  | .file (.malformed path fault) => [path, fault.message]
  | .file (.lacking path lack) => [path, lack.message]
  | .tls .noTrustAnchors => [Tls.ConfigFault.noTrustAnchors.reason]
  | .tls .unusableKey => [Tls.ConfigFault.unusableKey.reason]
  | .tls .noCertificates => ["NoCertificatesPresented"]
  | .tls (.certificate fault) => [fault.name]
  | .tls .keyMismatch => ["KeyMismatch"]
  | .fixtureFile (.unreadable path fault) => [path, fault.text]
  | .fixtureFile (.json e) => [e.message]
  | .fixtures (.key keyId e) => [s!"{keyId}: {e.message}"]
  | .fixtures (.registration (.unsupportedAlgorithm name)) => [name]
  | .fixtures (.registration (.invalidKey .der)) => ["InvalidKey"]
  | .fixtures (.registration (.invalidKey fault)) => [fault.message]
  | .server (.bind cause) => [cause]
  | .server (.runtime cause) => [cause]
  | _ => []

structure Reported (f : Fault) (lines : List String) : Prop where
  error : f.isCrash = false → ∃ line, lines = [line] ∧ ("Error: " ++ f.kind).toList <+: line.toList ∧
    ∀ text ∈ f.texts, Plain text → text.toList <:+: line.toList
  crash : f.isCrash = true → lines.getLast? = some UnixTime.overflow

variable {f : Fault}

theorem prefix_describe (handled : f.isCrash = false) : f.kind.toList <+: f.describe.toList := by
  cases f with
  | settings e => exact prefix_node _ _
  | file e => cases e <;> exact prefix_node _ _
  | tls e => cases e <;> exact prefix_node _ _
  | fixtureFile e =>
    cases e with
    | unreadable path fault => exact prefix_node _ _
    | json e =>
      have begins : "Json(Error(" = "Json" ++ "(Error(" := by simp
      exact (prefix_of_split begins (Text.quoted e.message)).trans (prefix_toList_append _ omission)
  | fixtures e =>
    cases e with
    | key keyId e => exact prefix_node _ _
    | registration e =>
      cases e with
      | unsupportedAlgorithm name => exact prefix_node _ _
      | invalidKey fault =>
        cases fault with
        | der =>
          have begins : "Registration(InvalidKey" = "Registration" ++ "(InvalidKey" := by simp
          exact prefix_of_split begins omission
        | _ => exact prefix_node _ _
    | timeOverflow => cases handled
  | server e =>
    cases e with
    | bind cause => exact prefix_node _ _
    | runtime cause => exact prefix_node _ _
    | _ => simp [kind, describe, describeServerError]

theorem infix_describeFileError {e : Tls.FileError} {text : String} (told : text ∈ (Fault.file e).texts)
    (plain : Plain text) : text.toList <:+: (describeFileError e).toList := by
  cases e with
  | unreadable path fault => exact infix_unreadable told plain
  | malformed path fault =>
    obtain rfl | rfl := List.mem_pair.mp told
    · exact (infix_quotedPath plain).trans (infix_node (by simp))
    · have shown : (Text.quoted fault.message).toList <:+:
          (record "Custom" [("kind", "InvalidData"), ("error", Text.quoted fault.message)]).toList :=
        infix_record "error" (by simp)
      exact (plain.infix_quoted.trans shown).trans (infix_node (by simp))
  | lacking path lack =>
    obtain rfl | rfl := List.mem_pair.mp told
    · exact (infix_quotedPath plain).trans (infix_node (by simp))
    · exact infix_node_quoted plain (by simp)

theorem infix_describeConfigFault {e : Tls.ConfigFault} {text : String} (told : text ∈ (Fault.tls e).texts)
    (plain : Plain text) : text.toList <:+: (describeConfigFault e).toList := by
  cases e <;> obtain rfl := List.mem_singleton.mp told
  case noTrustAnchors => exact infix_node_quoted plain List.mem_cons_self
  case unusableKey => exact infix_node_node (infix_node_quoted plain List.mem_cons_self)
  case noCertificates => exact infix_node List.mem_cons_self
  all_goals exact infix_node_node (infix_node List.mem_cons_self)

theorem infix_describeFixtureFileError {e : FixtureFileError} {text : String}
    (told : text ∈ (Fault.fixtureFile e).texts) (plain : Plain text) :
    text.toList <:+: (describeFixtureFileError e).toList := by
  cases e with
  | unreadable path fault => exact infix_unreadable told plain
  | json e =>
    obtain rfl := List.mem_singleton.mp told
    simp only [describeFixtureFileError, String.toList_append]
    exact plain.infix_quoted.trans (List.infix_append _ _ _)

theorem infix_describeRegistrationError {e : RegistrationError} {text : String}
    (told : text ∈ (Fault.fixtures (.registration e)).texts) (plain : Plain text) :
    text.toList <:+: (describeRegistrationError e).toList := by
  cases e with
  | unsupportedAlgorithm name =>
    obtain rfl := List.mem_singleton.mp told
    exact infix_node_node (infix_node_quoted plain List.mem_cons_self)
  | invalidKey fault =>
    cases fault <;> obtain rfl := List.mem_singleton.mp told
    case der =>
      have ends : "Registration(InvalidKey" = "Registration(" ++ "InvalidKey" := by simp
      exact infix_of_split ends omission
    all_goals exact infix_node_node (infix_node_quoted plain List.mem_cons_self)

theorem infix_describe {text : String} (told : text ∈ f.texts) (plain : Plain text) :
    text.toList <:+: f.describe.toList := by
  cases f with
  | settings e =>
    obtain rfl := List.mem_singleton.mp told
    exact infix_node_quoted plain List.mem_cons_self
  | file e => exact infix_describeFileError told plain
  | tls e => exact infix_describeConfigFault told plain
  | fixtureFile e => exact infix_describeFixtureFileError told plain
  | fixtures e =>
    cases e with
    | key keyId e =>
      obtain rfl := List.mem_singleton.mp told
      exact infix_node_quoted plain List.mem_cons_self
    | registration e => exact infix_describeRegistrationError told plain
    | timeOverflow => cases told
  | server e =>
    cases e with
    | bind cause =>
      obtain rfl := List.mem_singleton.mp told
      exact infix_node List.mem_cons_self
    | runtime cause =>
      obtain rfl := List.mem_singleton.mp told
      exact infix_node List.mem_cons_self
    | _ => cases told

/-- A fault is reported by its kind and its texts, and on one line, unless the program breaks down. -/
theorem reported (f : Fault) : f.Reported f.report := by
  constructor
  · intro handled
    have begins := prefix_describe handled
    refine ⟨_, by rw [report, handled]; rfl, ?_, fun text told plain => ?_⟩
    · rw [String.toList_append, String.toList_append]
      exact List.prefix_append_right_inj _ |>.mpr begins
    · rw [String.toList_append]
      exact (infix_describe told plain).trans (List.suffix_append _ _).isInfix
  · intro breaks
    cases f with
    | fixtures e => cases e with
      | timeOverflow => rfl
      | _ => cases breaks
    | _ => cases breaks

end Fault
end Startup
end PushGateway
