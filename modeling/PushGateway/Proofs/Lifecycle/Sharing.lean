import PushGateway.Proofs.Connection.Negotiation
import PushGateway.Proofs.Device.History
import PushGateway.Proofs.Lifecycle.View

namespace PushGateway

namespace Gateway

inductive Update where
  | device (topic token : String) (expiration : Option UnixTime)
  | emulation (enabled : Bool)

namespace Update

def apply (g : Gateway) : Update → Gateway
  | .device topic token expiration => g.registerDevice topic token expiration
  | .emulation enabled => g.setEmulation enabled

def pair? : Update → Option (String × String)
  | .device topic token _ => some (topic, token)
  | .emulation _ => none

def enabled? : Update → Option Bool
  | .device _ _ _ => none
  | .emulation enabled => some enabled

end Update

/-- Each pair that was registered, whatever its expirations. -/
def registered (us : List Update) : Finset (String × String) := (us.filterMap Update.pair?).toFinset

def emulation (us : List Update) : Bool := (us.filterMap Update.enabled?).getLast?.getD false

/-- The state is what these updates have made of an empty one, as far as a handler is told. -/
structure Records (g : Gateway) (us : List Update) : Prop where
  devices : g.devices.Holds (registered us)
  emulates : g.emulateErrors = emulation us

variable {g : Gateway} {us : List Update}

theorem records_empty : Records .empty [] := ⟨DeviceRegistry.holds_empty, rfl⟩

theorem Records.apply (h : g.Records us) (u : Update) : (u.apply g).Records (us ++ [u]) := by
  cases u with
  | device topic token expiration =>
    have more : registered (us ++ [.device topic token expiration]) = insert (topic, token) (registered us) := by
      ext pair
      simp [registered, Update.pair?, eq_comm]
    have same : emulation (us ++ [.device topic token expiration]) = emulation us := by
      simp [emulation, Update.enabled?]
    exact ⟨more ▸ h.devices.register topic token expiration, same ▸ h.emulates⟩
  | emulation enabled =>
    have same : registered (us ++ [.emulation enabled]) = registered us := by
      ext pair
      simp [registered, Update.pair?]
    have last : emulation (us ++ [.emulation enabled]) = enabled := by
      simp [emulation, Update.enabled?]
    exact ⟨same ▸ h.devices, last.symm⟩

end Gateway

/-- What a handler learns of the state when it is built: it is the state given here, as these updates left it. -/
structure HandlerContext.Reports (context : HandlerContext) (g : Gateway) (us : List Gateway.Update) : Prop where
  own : context.gateway = g
  devices : context.gateway.devices.size = (Gateway.registered us).card
  emulates : context.gateway.emulateErrors = Gateway.emulation us

theorem Negotiation.reports_of_records {g : Gateway} {us : List Gateway.Update} (h : g.Records us)
    {session : Option Tls.Session} {factory : HandlerFactory} {requested : List HandlerContext} {peer : Endpoint}
    {context : HandlerContext} (asked : context ∈ (run session factory requested g peer).requests) :
    context.Reports g us := by
  obtain ⟨s, _, _, rfl⟩ := (course_run session factory requested g peer).of_mem_requests asked
  exact ⟨rfl, h.devices.size_eq, h.emulates⟩

/-! ### The owner and the tasks, in any order -/

namespace Server

variable {s s' : Server} {e : Event} {es : List Event} {us earlier : List Gateway.Update}

/-- Of what happens to a server with this state, these updates and no others concern the state. -/
inductive Configured : Gateway → List Event → List Gateway.Update → Prop where
  | nil (g : Gateway) : Configured g [] []
  | update {g : Gateway} {es : List Event} {us : List Gateway.Update} (u : Gateway.Update)
      (rest : Configured (u.apply g) es us) : Configured g (.configure (u.apply g) :: es) (u :: us)
  | other {g : Gateway} {e : Event} {es : List Event} {us : List Gateway.Update}
      (apart : ∀ g', e ≠ .configure g') (rest : Configured g es us) : Configured g (e :: es) us

theorem gateway_of_step (step : s.step e = some s') (apart : ∀ g, e ≠ .configure g) : s'.gateway = s.gateway := by
  cases moves_of_step step with
  | configure g => exact absurd rfl (apart g)
  | _ => rfl

theorem records_of_run (run : s.run es = some s') (configured : Configured s.gateway es us)
    (recorded : s.gateway.Records earlier) : s'.gateway.Records (earlier ++ us) := by
  induction es generalizing s us earlier with
  | nil =>
    cases configured
    cases run
    rwa [List.append_nil]
  | cons e es ih =>
    obtain ⟨t, step, rest⟩ := Option.bind_eq_some_iff.mp run
    cases configured with
    | update u configured =>
      cases step
      have more := ih rest configured (recorded.apply u)
      rwa [List.append_assoc] at more
    | other apart configured =>
      have same := gateway_of_step step apart
      exact ih rest (same ▸ configured) (same ▸ recorded)

end Server

/-! ### A life step by step -/

namespace Lifecycle

variable {setup : Setup} {s : State} {x : Step} {earlier : List Gateway.Update}

def Step.update? : Step → Option Gateway.Update
  | .registerDevice topic token expiration => some (.device topic token expiration)
  | .setEmulation enabled => some (.emulation enabled)
  | _ => none

def updates (xs : List Step) : List Gateway.Update := xs.filterMap Step.update?

def after [Tls.Provider] (setup : Setup) (s : State) (xs : List Step) : State :=
  xs.foldl (fun s x => (step setup s x).2) s

theorem run_getElem? [Tls.Provider] (setup : Setup) (s : State) (earlier : List Step) (x : Step) (later : List Step) :
    (run setup s (earlier ++ x :: later))[earlier.length]? = some (step setup (after setup s earlier) x) := by
  induction earlier generalizing s with
  | nil => rfl
  | cons y earlier ih => exact ih (step setup s y).2

namespace View

variable {v : View}

theorem gateway_asked {outcome : Result × View} (same : outcome.2.gateway = v.gateway) :
    (v.asked outcome).2.gateway = v.gateway := by
  unfold asked
  split
  · rfl
  · exact same

theorem gateway_start (binding : Except String Nat) : (v.start setup binding).2.gateway = v.gateway := by
  unfold start
  split
  · rfl
  · split
    · rfl
    · cases binding <;> rfl

theorem gateway_reach (name : String) (peer : Endpoint) (requests : List HandlerContext)
    (attempt : Result × Option Progress) : (v.reach setup name peer requests attempt).2.gateway = v.gateway := by
  unfold reach
  split
  · split <;> rfl
  · rfl

theorem gateway_leave (name : String) (sent : Option Nat) : (v.leave name sent).2.gateway = v.gateway := by
  unfold leave
  split <;> rfl

theorem gateway_step [Tls.Provider] (v : View) (setup : Setup) (other : x.update? = none) :
    (v.step setup x).2.gateway = v.gateway := by
  cases x with
  | start binding requested => exact gateway_asked (gateway_start binding)
  | shutdown => exact gateway_asked rfl
  | drop => exact gateway_asked rfl
  | connect name peer client => exact gateway_reach name peer _ _
  | connectRaw name peer stall => exact gateway_reach name peer _ _
  | finish name sent => exact gateway_leave name (some sent)
  | abort name => exact gateway_leave name none
  | status => rfl
  | probe => rfl
  | registerDevice => cases other
  | setEmulation => cases other

end View

theorem records_step [Tls.Provider] (h : s.Rests) (recorded : s.server.gateway.Records earlier)
    (setup : Setup) (x : Step) :
    (step setup s x).2.server.gateway.Records (earlier ++ x.update?.toList) := by
  cases update : x.update? with
  | none =>
    have seen : (step setup s x).2.view = (s.view.step setup x).2 := congrArg Prod.snd (seen_step h setup x)
    have same : (step setup s x).2.server.gateway = s.server.gateway :=
      (congrArg View.gateway seen).trans (s.view.gateway_step setup update)
    rw [same, Option.toList_none, List.append_nil]
    exact recorded
  | some u =>
    cases x with
    | registerDevice topic token expiration =>
      cases update
      exact recorded.apply (.device topic token expiration)
    | setEmulation enabled =>
      cases update
      exact recorded.apply (.emulation enabled)
    | _ => cases update

theorem records_after [Tls.Provider] (h : s.Rests) (recorded : s.server.gateway.Records earlier) (setup : Setup)
    (xs : List Step) : (after setup s xs).server.gateway.Records (earlier ++ updates xs) := by
  induction xs generalizing s earlier with
  | nil =>
    rw [updates, List.filterMap_nil, List.append_nil]
    exact recorded
  | cons x xs ih =>
    have more := ih (h.step setup x) (records_step h recorded setup x)
    have split : updates (x :: xs) = x.update?.toList ++ updates xs := by
      cases update : x.update? <;> simp [updates, update]
    rw [split, ← List.append_assoc]
    exact more

def requests [Tls.Provider] (setup : Setup) (s : State) (x : Step) : List HandlerContext :=
  match x, (step setup s x).1.result with
  | .connect _ peer client, .negotiated _ _ _ =>
    (negotiate setup s peer client).requests
  | .connectRaw _ peer _, .negotiated _ _ _ =>
    (Negotiation.run none setup.factory s.requested s.server.gateway peer).requests
  | _, _ => []

theorem reports_of_requests [Tls.Provider] {us : List Gateway.Update} (h : s.server.gateway.Records us)
    {context : HandlerContext} (asked : context ∈ requests setup s x) : context.Reports s.server.gateway us := by
  unfold requests at asked
  split at asked
  · exact Negotiation.reports_of_records h asked
  · exact Negotiation.reports_of_records h asked
  · cases asked

def Result.told? : Result → Option HandlerContext
  | .negotiated _ _ context => context
  | _ => none

theorem told_asked {outcome : Answer × State} {context : HandlerContext}
    (told : (asked s outcome).1.result.told? = some context) : outcome.1.result.told? = some context := by
  unfold asked at told
  split at told
  · cases told
  · exact told

theorem told_reach {attempt : Nat → Answer × State} {context : HandlerContext}
    (told : (reach setup s attempt).1.result.told? = some context) :
    ∃ i, reach setup s attempt = attempt i ∧ (attempt i).1.result.told? = some context := by
  unfold reach at told ⊢
  split at told
  · rename_i i _ _ _
    split at told
    · rename_i reachable
      exact ⟨i, if_pos reachable, told⟩
    · cases told
  · cases told

theorem told_leave (s : State) (name : String) (sent : Option Nat) : (leave s name sent).1.result.told? = none := by
  unfold leave
  split
  · rfl
  · split
    · split <;> rfl
    · rfl

theorem mem_requests_of_told [Tls.Provider] {context : HandlerContext}
    (told : (step setup s x).1.result.told? = some context) : context ∈ requests setup s x := by
  cases x with
  | connect name peer client =>
    obtain ⟨i, answer, told⟩ := told_reach told
    obtain ⟨installed, built, rfl⟩ := Option.map_eq_some_iff.mp told
    have result : (step setup s (.connect name peer client)).1.result = .negotiated _ _ _ :=
      congrArg (·.1.result) answer
    simp only [requests, result]
    exact (Negotiation.course_run _ _ _ _ _).mem_requests_of_built built
  | connectRaw name peer stall =>
    obtain ⟨i, _, told⟩ := told_reach told
    cases stall <;> cases told
  | start binding requested =>
    have told := told_asked told
    unfold start at told
    split at told
    · cases told
    · cases binding <;> cases told
  | shutdown => cases told_asked told
  | drop => cases told_asked told
  | finish name sent => cases (told_leave s name (some sent)).symm.trans told
  | abort name => cases (told_leave s name none).symm.trans told
  | probe name =>
    simp only [step, probe] at told
    split at told
    · cases told
    · split at told <;> cases told
  | status => cases told
  | registerDevice => cases told
  | setEmulation => cases told

/-- Whatever handlers are asked for in a life, or while the owner and the tasks of a server take their steps
in any order: the factory is given the server's own state, which holds each pair that was registered before
and emulates errors if the owner said so last, whichever start the connection belongs to. -/
theorem shared_run [Tls.Provider] (setup : Setup) (pool : Pool) :
    (∀ (earlier : List Step) (x : Step) (later : List Step),
      let s := after setup (.new pool) earlier
      (run setup (.new pool) (earlier ++ x :: later))[earlier.length]? = some (step setup s x) ∧
      (∀ context, (step setup s x).1.result.told? = some context → context ∈ requests setup s x) ∧
      ∀ context ∈ requests setup s x, context.Reports s.server.gateway (updates earlier)) ∧
    ∀ (es : List Server.Event) (us : List Gateway.Update) (s : Server),
      (Server.new pool).run es = some s → Server.Configured .empty es us →
      ∀ session requested peer,
        ∀ context ∈ (Negotiation.run session setup.factory requested s.gateway peer).requests,
          context.Reports s.gateway us := by
  constructor
  · intro earlier x later s
    have recorded := records_after (rests_new pool) Gateway.records_empty setup earlier
    exact ⟨run_getElem? setup (.new pool) earlier x later, fun context => mem_requests_of_told,
      fun context => reports_of_requests recorded⟩
  · intro es us s run configured session requested peer context asked
    have recorded := Server.records_of_run run configured Gateway.records_empty
    exact Negotiation.reports_of_records recorded asked

/-- A device registered twice with different expirations, a failed start and a restart before a client
connects, and another client whose handshake ends after the server was told to stop. -/
theorem shared_run_restarted :
    let setup : Setup := ⟨⟨none, [Tls.pushProtocol]⟩, Handler.idleFactory, "::1", 0, true⟩
    let earlier : List Step := [.registerDevice "topic" "token" none, .start (.error "in use") 80,
      .start (.ok 80) 80, .setEmulation true, .shutdown,
      .registerDevice "topic" "token" (some ⟨1, by decide⟩), .start (.ok 80) 80]
    let connecting : Step := .connect "client" ⟨"::1", 9⟩ ⟨[Tls.pushProtocol], []⟩
    let session : Tls.Session := ⟨some Tls.pushProtocol, []⟩
    let device : Gateway.Update := .device "topic" "token" none
    let events : List Server.Event := [.start, .task 0 (.bound (.ok ⟨"::1", 80⟩)), .task 0 .tell,
      .task 0 (.accept 0), .shutdown .runs, .configure (device.apply .empty)]
    (∃ context ∈ requests setup (after setup (.new .shared) earlier) connecting,
      context.gateway.devices.size = 1 ∧ context.gateway.emulateErrors = true) ∧
    ∃ s, (Server.new .shared).run events = some s ∧
      ∃ context ∈ (Negotiation.run (some session) setup.factory [] s.gateway ⟨"::1", 9⟩).requests,
        context.gateway.devices.size = 1 ∧ context.gateway.emulateErrors = false := by
  intro setup earlier connecting session device events
  obtain ⟨life, tasks⟩ := shared_run setup .shared
  constructor
  · obtain ⟨_, told, reports⟩ := life earlier connecting []
    have served : ∃ context, (step setup (after setup (.new .shared) earlier) connecting).1.result.told? =
        some context := ⟨_, rfl⟩
    obtain ⟨context, served⟩ := served
    have asked := told context served
    have report := reports context asked
    exact ⟨context, asked, report.devices.trans rfl, report.emulates.trans rfl⟩
  · have configured : Server.Configured .empty events [device] :=
      .other (by simp) <| .other (by simp) <| .other (by simp) <| .other (by simp) <| .other (by simp) <|
        .update device <| .nil _
    have run : ∃ s, (Server.new .shared).run events = some s := ⟨_, rfl⟩
    obtain ⟨s, run⟩ := run
    have course := Negotiation.course_run (some session) setup.factory [] s.gateway ⟨"::1", 9⟩
    have asked := course.requests_of_push rfl rfl
    have member := asked ▸ List.mem_singleton_self _
    have report := tasks events [device] s run configured _ _ _ _ member
    exact ⟨s, run, _, member, report.devices.trans rfl, report.emulates.trans rfl⟩

end Lifecycle
end PushGateway
