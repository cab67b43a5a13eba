import PushGateway.Connection.Negotiation
import PushGateway.Tls.P256

namespace PushGateway

theorem Tls.eq_find_of_selectProtocol? {server client : List Bytes} {protocol : Option Bytes}
    (settled : selectProtocol? server client = some protocol) :
    protocol = server.find? (client.contains ·) := by
  unfold selectProtocol? at settled
  split at settled
  · rename_i bare
    cases settled
    rcases bare with rfl | rfl
    · rfl
    · symm
      simp
  · obtain ⟨found, first, rfl⟩ := Option.map_eq_some_iff.mp settled
    exact first.symm

theorem Tls.selectProtocol?_disjoint {server client : List Bytes} (offers : server ≠ []) (asks : client ≠ [])
    (disjoint : server.find? (client.contains ·) = none) : selectProtocol? server client = none := by
  rw [selectProtocol?, if_neg (not_or.mpr ⟨offers, asks⟩), disjoint, Option.map_none]

theorem Tls.Policy.settled_of_handshake? [Tls.Provider] {p : Policy} {now : Nat} {client : Client}
    {s : Session} (secured : p.handshake? now client = some s) :
    selectProtocol? p.protocols client.protocols = some s.protocol := by
  unfold handshake? at secured
  split at secured
  · rename_i protocol peer settled _
    cases secured
    exact settled
  · cases secured

namespace Negotiation

def fullPath : List Stage := [.accepted, .tlsHandshaking, .protocolNegotiated, .authClassified, .handlerInstalled]

def rejectedPath : List Stage := [.accepted, .tlsHandshaking, .protocolNegotiated, .rejected]

def request (gateway : Gateway) (peer : Endpoint) (s : Tls.Session) : HandlerContext :=
  ⟨gateway, maxConcurrentStreams, Authentication.classify s.peer, peer⟩

def Verdict.report (peer : Endpoint) (details : String) : Verdict → Log.Record
  | .served => Log.info .connection s!"Connection from {peer.render} uses {details}"
  | .rejected => Log.warn .connection s!"Rejected connection from {peer.render}: {details}"
  | .dropped => Log.debug .connection s!"Dropped connection from {peer.render}: {details}"

/-- The stages that the reported changes tell of, from the first one on. -/
def Result.logged (r : Result) : List Stage := .accepted :: r.transitions.map (·.2)

variable {outcome : Option Tls.Session} {factory : HandlerFactory} {earlier : List HandlerContext}
  {gateway : Gateway} {peer : Endpoint} {r : Result}

inductive Course (outcome : Option Tls.Session) (factory : HandlerFactory) (earlier : List HandlerContext)
    (gateway : Gateway) (peer : Endpoint) : Result → Prop where
  | unsecured (failed : outcome = none) :
      Course outcome factory earlier gateway peer ⟨fullPath.take 2, [], .error .handshake, []⟩
  | rejected (s : Tls.Session) (secured : outcome = some s) (other : s.protocol ≠ some Tls.pushProtocol) :
      Course outcome factory earlier gateway peer
        ⟨rejectedPath, [], .error (.unexpectedProtocol s.protocol), []⟩
  | refused (s : Tls.Session) (secured : outcome = some s) (push : s.protocol = some Tls.pushProtocol)
      (e : HandlerError) (answer : factory (request gateway peer s :: earlier) = .error e) :
      Course outcome factory earlier gateway peer
        ⟨fullPath.take 4, [request gateway peer s], .error (.handler e), Authentication.classifyLog s.peer⟩
  | installed (s : Tls.Session) (secured : outcome = some s) (push : s.protocol = some Tls.pushProtocol)
      (handler : Handler) (answer : factory (request gateway peer s :: earlier) = .ok handler) :
      Course outcome factory earlier gateway peer
        ⟨fullPath, [request gateway peer s], .ok ⟨request gateway peer s, handler⟩,
          Authentication.classifyLog s.peer⟩

theorem course_run (outcome : Option Tls.Session) (factory : HandlerFactory) (earlier : List HandlerContext)
    (gateway : Gateway) (peer : Endpoint) :
    Course outcome factory earlier gateway peer (run outcome factory earlier gateway peer) := by
  cases outcome with
  | none => exact .unsecured rfl
  | some s =>
    by_cases push : s.protocol = some Tls.pushProtocol
    · have passed : checkProtocol s.protocol = .ok () := if_pos push
      cases answer : factory (request gateway peer s :: earlier) with
      | error e =>
        have course : Course (some s) factory earlier gateway peer _ := .refused s rfl push e answer
        rw [request] at answer course
        simp only [run, passed, answer]
        exact course
      | ok handler =>
        have course : Course (some s) factory earlier gateway peer _ := .installed s rfl push handler answer
        rw [request] at answer course
        simp only [run, passed, answer]
        exact course
    · have stopped : checkProtocol s.protocol = .error (.unexpectedProtocol s.protocol) := if_neg push
      simp only [run, stopped]
      exact .rejected s rfl push

namespace Course

theorem requests_of_push (h : Course outcome factory earlier gateway peer r) {s : Tls.Session}
    (secured : outcome = some s) (push : s.protocol = some Tls.pushProtocol) :
    r.requests = [request gateway peer s] := by
  cases h with
  | unsecured failed => cases failed.symm.trans secured
  | rejected s' secured' other =>
    cases secured'.symm.trans secured
    exact absurd push other
  | refused s' secured' =>
    cases secured'.symm.trans secured
    rfl
  | installed s' secured' =>
    cases secured'.symm.trans secured
    rfl

theorem of_mem_requests (h : Course outcome factory earlier gateway peer r) {context : HandlerContext}
    (asked : context ∈ r.requests) :
    ∃ s, outcome = some s ∧ s.protocol = some Tls.pushProtocol ∧ context = request gateway peer s := by
  cases h with
  | unsecured => cases asked
  | rejected => cases asked
  | refused s secured push => exact ⟨s, secured, push, List.mem_singleton.mp asked⟩
  | installed s secured push => exact ⟨s, secured, push, List.mem_singleton.mp asked⟩

theorem mem_requests_of_built (h : Course outcome factory earlier gateway peer r) {installed : Installed}
    (built : r.result.toOption = some installed) : installed.context ∈ r.requests := by
  cases h with
  | installed =>
    cases built
    exact List.mem_singleton_self _
  | _ => cases built

theorem classified (h : Course outcome factory earlier gateway peer r) :
    r.requests ≠ [] ↔ .authClassified ∈ r.stages := by
  cases h <;> simp [fullPath, rejectedPath]

/-- Every change of stage is reported, and the reports tell of all stages that were passed. -/
theorem logged_eq (h : Course outcome factory earlier gateway peer r) : r.logged = r.stages := by
  cases h <;> rfl

theorem transitions_eq (h : Course outcome factory earlier gateway peer r) :
    r.transitions = r.logged.zip r.logged.tail := by
  rw [h.logged_eq, Result.transitions]

theorem stages_prefix (h : Course outcome factory earlier gateway peer r) :
    r.stages <+: fullPath ∨ r.stages <+: rejectedPath := by
  cases h with
  | unsecured => exact .inl (List.take_prefix 2 fullPath)
  | rejected => exact .inr (List.prefix_refl rejectedPath)
  | refused => exact .inl (List.take_prefix 4 fullPath)
  | installed => exact .inl (List.prefix_refl fullPath)

theorem served_iff (h : Course outcome factory earlier gateway peer r) :
    r.verdict = .served ↔ r.stages.getLast? = some .handlerInstalled := by
  cases h <;> simp [Result.verdict, fullPath, rejectedPath]

theorem rejected_iff (h : Course outcome factory earlier gateway peer r) :
    r.verdict = .rejected ↔ r.stages.getLast? = some .rejected := by
  cases h <;> simp [Result.verdict, fullPath, rejectedPath]

theorem dropped_iff (h : Course outcome factory earlier gateway peer r) :
    r.verdict = .dropped ↔
      r.stages.getLast? = some .tlsHandshaking ∨ r.stages.getLast? = some .authClassified := by
  cases h <;> simp [Result.verdict, fullPath, rejectedPath]

theorem last_rejected_iff (h : Course outcome factory earlier gateway peer r) :
    r.stages.getLast? = some .rejected ↔ ∃ s ∈ outcome, s.protocol ≠ some Tls.pushProtocol := by
  cases h with
  | unsecured failed => simp [fullPath, failed]
  | rejected s secured other => simp [rejectedPath, secured, other]
  | refused s secured push => simp [fullPath, secured, push]
  | installed s secured push => simp [fullPath, secured, push]

theorem last_tlsHandshaking_iff (h : Course outcome factory earlier gateway peer r) :
    r.stages.getLast? = some .tlsHandshaking ↔ outcome = none := by
  cases h with
  | unsecured failed => simp [fullPath, failed]
  | rejected s secured => simp [rejectedPath, secured]
  | refused s secured => simp [fullPath, secured]
  | installed s secured => simp [fullPath, secured]

theorem last_authClassified_iff (h : Course outcome factory earlier gateway peer r) :
    r.stages.getLast? = some .authClassified ↔
      ∃ context ∈ r.requests, ∃ e, factory (context :: earlier) = .error e := by
  cases h with
  | unsecured => simp [fullPath]
  | rejected => simp [rejectedPath]
  | refused s secured push e answer => simp [fullPath, answer]
  | installed s secured push handler answer => simp [fullPath, answer]

theorem trace_log (h : Course outcome factory earlier gateway peer r) :
    (r.log peer).filter (·.level = .trace) = r.transitions.map (Result.transitionLog peer) := by
  have quiet : ∀ chain, (Authentication.classifyLog chain).filter (·.level = .trace) = [] := by
    intro chain
    cases chain with
    | nil => rfl
    | cons leaf others =>
      cases name : Principal.name? leaf <;> simp [Authentication.classifyLog, name, Log.debug, Log.warn]
  cases h <;>
    simp [Result.log, Result.transitions, Result.transitionLog, Result.verdictLog, fullPath, rejectedPath,
      quiet, Log.trace, Log.debug, Log.warn, Log.info]

theorem report_log (h : Course outcome factory earlier gateway peer r) :
    ∃ details, (r.log peer).getLast? = some (r.verdict.report peer details) := by
  have last : (r.log peer).getLast? = some (r.verdictLog peer) := List.getLast?_concat
  rw [last]
  cases h with
  | unsecured => exact ⟨_, rfl⟩
  | rejected s => exact ⟨_, rfl⟩
  | refused s secured push e => exact ⟨_, rfl⟩
  | installed s =>
    let auth := (request gateway peer s).authentication
    cases topic : auth.baseTopic with
    | none =>
      refine ⟨s!"{auth.name} authentication", ?_⟩
      simp [Result.verdictLog, Result.verdict, Verdict.report, auth, topic, toString, String.append_assoc]
    | some t =>
      refine ⟨s!"{auth.name} authentication" ++ s!" (base topic '{t}')", ?_⟩
      simp [Result.verdictLog, Result.verdict, Verdict.report, auth, topic, toString, String.append_assoc]

end Course

section Selection

variable {server client : List Bytes}

theorem push_iff_selected (settled : ∀ s, outcome = some s → Tls.selectProtocol? server client = some s.protocol)
    {s : Tls.Session} (secured : outcome = some s) :
    s.protocol = some Tls.pushProtocol ↔ server.find? (client.contains ·) = some Tls.pushProtocol := by
  rw [Tls.eq_find_of_selectProtocol? (settled s secured)]

theorem Course.asked_iff (h : Course outcome factory earlier gateway peer r)
    (settled : ∀ s, outcome = some s → Tls.selectProtocol? server client = some s.protocol) :
    (∃ context, r.requests = [context]) ↔
      outcome.isSome ∧ server.find? (client.contains ·) = some Tls.pushProtocol := by
  constructor
  · rintro ⟨context, one⟩
    obtain ⟨s, secured, push, _⟩ := h.of_mem_requests (one ▸ List.mem_singleton_self context)
    exact ⟨Option.isSome_iff_exists.mpr ⟨s, secured⟩, (push_iff_selected settled secured).mp push⟩
  · rintro ⟨secured, selected⟩
    obtain ⟨s, secured⟩ := Option.isSome_iff_exists.mp secured
    exact ⟨_, h.requests_of_push secured ((push_iff_selected settled secured).mpr selected)⟩

theorem Course.requests_eq_nil_iff (h : Course outcome factory earlier gateway peer r) :
    r.requests = [] ↔ ¬ ∃ context, r.requests = [context] := by
  cases h <;> simp

theorem Course.other_iff (h : Course outcome factory earlier gateway peer r)
    (settled : ∀ s, outcome = some s → Tls.selectProtocol? server client = some s.protocol) :
    r.stages.getLast? = some .rejected ↔
      outcome.isSome ∧ server.find? (client.contains ·) ≠ some Tls.pushProtocol := by
  rw [h.last_rejected_iff]
  constructor
  · rintro ⟨s, secured, other⟩
    exact ⟨Option.isSome_iff_exists.mpr ⟨s, secured⟩, mt (push_iff_selected settled secured).mpr other⟩
  · rintro ⟨secured, other⟩
    obtain ⟨s, secured⟩ := Option.isSome_iff_exists.mp secured
    exact ⟨s, secured, mt (push_iff_selected settled secured).mp other⟩

end Selection

theorem names_fullPath : fullPath.map Stage.name =
    ["Accepted", "TlsHandshaking", "ProtocolNegotiated", "AuthClassified", "HandlerInstalled"] := rfl

theorem names_rejectedPath : rejectedPath.map Stage.name =
    ["Accepted", "TlsHandshaking", "ProtocolNegotiated", "Rejected"] := rfl

/-- A handler is asked for exactly when the handshake succeeds and the first of the server's protocols that
the client offers is the push protocol, and then once, from what the client was classified as. The changes
of stage are reported one by one, and the stages that the reports tell of at any time start one of the two
paths. The last of them decides what is reported in the end: a connection is served when its handler is
installed, rejected when it speaks no push protocol, and dropped when its handshake fails or the factory
refuses. -/
theorem run_gated {server client : List Bytes} {outcome : Option Tls.Session}
    (settled : ∀ s, outcome = some s → Tls.selectProtocol? server client = some s.protocol)
    (factory : HandlerFactory) (earlier : List HandlerContext) (gateway : Gateway) (peer : Endpoint) :
    let r := run outcome factory earlier gateway peer
    let selected := server.find? (client.contains ·)
    ((∃ context, r.requests = [context]) ↔ outcome.isSome ∧ selected = some Tls.pushProtocol) ∧
    (r.requests = [] ↔ ¬ (outcome.isSome ∧ selected = some Tls.pushProtocol)) ∧
    (∀ context ∈ r.requests, .authClassified ∈ r.logged ∧
      ∃ s, outcome = some s ∧ context.authentication = Authentication.classify s.peer) ∧
    r.transitions = r.logged.zip r.logged.tail ∧
    (∀ logged, logged <+: r.logged → logged <+: fullPath ∨ logged <+: rejectedPath) ∧
    fullPath.map Stage.name =
      ["Accepted", "TlsHandshaking", "ProtocolNegotiated", "AuthClassified", "HandlerInstalled"] ∧
    rejectedPath.map Stage.name = ["Accepted", "TlsHandshaking", "ProtocolNegotiated", "Rejected"] ∧
    ((r.log peer).filter (·.level = .trace) =
      r.transitions.map fun t => Log.trace .connection s!"{peer.render}: {t.1.name} -> {t.2.name}") ∧
    (∃ details, (r.log peer).getLast? = some (r.verdict.report peer details)) ∧
    (r.verdict = .served ↔ r.logged.getLast? = some .handlerInstalled) ∧
    (r.verdict = .rejected ↔ r.logged.getLast? = some .rejected) ∧
    (r.verdict = .dropped ↔
      r.logged.getLast? = some .tlsHandshaking ∨ r.logged.getLast? = some .authClassified) ∧
    (r.logged.getLast? = some .rejected ↔ outcome.isSome ∧ selected ≠ some Tls.pushProtocol) ∧
    (r.logged.getLast? = some .tlsHandshaking ↔ outcome = none) ∧
    (server ≠ [] → client ≠ [] → selected = none → r.logged.getLast? = some .tlsHandshaking) ∧
    (r.logged.getLast? = some .authClassified ↔
      ∃ context ∈ r.requests, ∃ e, factory (context :: earlier) = .error e) := by
  intro r selected
  have course : Course outcome factory earlier gateway peer r := course_run outcome factory earlier gateway peer
  have asked := course.asked_iff settled
  rw [course.transitions_eq, course.logged_eq]
  refine ⟨asked, course.requests_eq_nil_iff.trans (not_congr asked), ?_, rfl, ?_, names_fullPath,
    names_rejectedPath, course.trace_log, course.report_log, course.served_iff, course.rejected_iff,
    course.dropped_iff, course.other_iff settled, course.last_tlsHandshaking_iff, ?_,
    course.last_authClassified_iff⟩
  · intro context member
    obtain ⟨s, secured, _, rfl⟩ := course.of_mem_requests member
    exact ⟨course.classified.mp (List.ne_nil_of_mem member), s, secured, rfl⟩
  · intro logged first
    exact course.stages_prefix.imp first.trans first.trans
  · intro offers asks disjoint
    apply course.last_tlsHandshaking_iff.mpr
    apply Option.eq_none_iff_forall_ne_some.mpr
    intro s secured
    cases (Tls.selectProtocol?_disjoint offers asks disjoint).symm.trans (settled s secured)

/-- The factory refuses a client that offers the server's second protocol. -/
theorem run_gated_refused :
    let policy : Tls.Policy := ⟨none, [Utf8.encode "http/1.1", Tls.pushProtocol]⟩
    let client : Tls.Client := ⟨[Utf8.encode "http/1.0", Tls.pushProtocol], []⟩
    let r := run (policy.handshake? 0 client) (fun _ => .error ⟨"busy"⟩) [] .empty ⟨"::1", 9⟩
    (∃ context, r.requests = [context]) ∧ r.logged.getLast? = some .authClassified ∧ r.verdict = .dropped := by
  intro policy client r
  have selected : policy.protocols.find? (client.protocols.contains ·) = some Tls.pushProtocol := by
    decide +kernel
  have secured : (policy.handshake? 0 client).isSome := by decide +kernel
  obtain ⟨asked, _, _, _, _, _, _, _, _, _, _, dropped, _, _, _, refused⟩ :=
    run_gated (fun s (secured : policy.handshake? 0 client = some s) => Tls.Policy.settled_of_handshake? secured)
      (fun _ => .error ⟨"busy"⟩) [] .empty ⟨"::1", 9⟩
  obtain ⟨context, one⟩ := asked.mpr ⟨secured, selected⟩
  have last := refused.mpr ⟨context, one ▸ List.mem_singleton_self context, ⟨"busy"⟩, rfl⟩
  exact ⟨⟨context, one⟩, last, dropped.mpr (.inr last)⟩

end Negotiation
end PushGateway
