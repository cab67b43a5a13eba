import PushGateway.Startup.Run
/-!
The stages of a start, each judged by itself from the arguments and the files.
-/

namespace PushGateway.Startup

inductive Stage where
  | arguments
  | chain
  | key
  | roots
  | tls
  | fixtures
  | application
  deriving DecidableEq, Repr

def Stage.place : Stage → Nat
  | .arguments => 0
  | .chain => 1
  | .key => 2
  | .roots => 3
  | .tls => 4
  | .fixtures => 5
  | .application => 6

theorem Stage.place_injective {stage stage' : Stage} (same : stage.place = stage'.place) : stage = stage' := by
  cases stage <;> cases stage' <;> first | rfl | cases same

inductive Given {ε α : Type} (load : String → Except ε α) : Option String → Option α → Prop where
  | none : Given load none none
  | named {path : String} {a : α} : load path = .ok a → Given load (some path) (some a)

section Given

variable {ε α : Type} {load : String → Except ε α} {path? : Option String} {a? a?' : Option α}

theorem Given.unique (one : Given load path? a?) (other : Given load path? a?') : a? = a?' := by
  cases one with
  | none => cases other with
    | none => rfl
  | named read => cases other with
    | named read' => rw [Except.ok.inj (read.symm.trans read')]

theorem Given.not_error {path : String} {e : ε} (given : Given load path? a?) (named : path? = some path) :
    load path ≠ .error e := by
  cases given with
  | none => cases named
  | named read =>
    cases named
    intro failed
    cases failed.symm.trans read

theorem given_cases (load : String → Except ε α) (path? : Option String) :
    (∃ a?, Given load path? a?) ∨ ∃ path e, path? = some path ∧ load path = .error e := by
  cases path? with
  | none => exact .inl ⟨none, .none⟩
  | some path => cases read : load path with
    | error e => exact .inr ⟨path, e, rfl, read⟩
    | ok a => exact .inl ⟨some a, .named read⟩

end Given

section Stages

variable (env : Environment)

def readRoots (path : String) : Except Tls.FileError (List Tls.TrustAnchor) := Tls.clientRoots path (env.read path)

def readFixtures (path : String) : Except FixtureFileError Fixtures := Fixtures.ofFile path (env.read path)

structure Material (s : Settings) (chain : List Bytes) (key : Tls.PrivateKey)
    (roots : Option (List Tls.TrustAnchor)) : Prop where
  chain : Tls.certificates s.certificatePath (env.read s.certificatePath) = .ok chain
  key : Tls.privateKey s.keyPath (env.read s.keyPath) = .ok key
  roots : Given (readRoots env) s.clientRootsPath roots

/-- What fixtures leave in an empty gateway when each of their entries is accepted. -/
inductive Seeded : Option Fixtures → Gateway → Prop where
  | none : Seeded none .empty
  | all {f : Fixtures} : (f.apply .empty).result = .ok () → Seeded (some f) (f.apply .empty).gateway

structure Ready [Tls.Provider] (arguments : List String) (plan : Plan) : Prop where
  settings : Settings.ofArguments arguments = .ok plan.settings
  tls : ∃ chain key roots, Material env plan.settings chain key roots ∧ Tls.Config.new chain key roots = .ok plan.tls
  seeded : ∃ fixtures, Given (readFixtures env) plan.settings.fixturesPath fixtures ∧ Seeded fixtures plan.gateway

/-- Why a stage fails, whatever is wrong with the others: a file is judged as soon as the arguments name it, and
only the TLS configuration and the application of fixtures need what was read before. -/
inductive Fails [Tls.Provider] (arguments : List String) : Stage → Fault → Prop where
  | arguments {e : Settings.Error} : Settings.ofArguments arguments = .error e →
      Fails arguments .arguments (.settings e)
  | chain {s : Settings} {e : Tls.FileError} : Settings.ofArguments arguments = .ok s →
      Tls.certificates s.certificatePath (env.read s.certificatePath) = .error e → Fails arguments .chain (.file e)
  | key {s : Settings} {e : Tls.FileError} : Settings.ofArguments arguments = .ok s →
      Tls.privateKey s.keyPath (env.read s.keyPath) = .error e → Fails arguments .key (.file e)
  | roots {s : Settings} {path : String} {e : Tls.FileError} : Settings.ofArguments arguments = .ok s →
      s.clientRootsPath = some path → readRoots env path = .error e → Fails arguments .roots (.file e)
  | tls {s : Settings} {chain : List Bytes} {key : Tls.PrivateKey} {roots : Option (List Tls.TrustAnchor)}
      {e : Tls.ConfigFault} : Settings.ofArguments arguments = .ok s → Material env s chain key roots →
      Tls.Config.new chain key roots = .error e → Fails arguments .tls (.tls e)
  | fixtures {s : Settings} {path : String} {e : FixtureFileError} : Settings.ofArguments arguments = .ok s →
      s.fixturesPath = some path → readFixtures env path = .error e → Fails arguments .fixtures (.fixtureFile e)
  | application {s : Settings} {f : Fixtures} {e : FixtureFault} : Settings.ofArguments arguments = .ok s →
      Given (readFixtures env) s.fixturesPath (some f) → (f.apply .empty).result = .error e →
      Fails arguments .application (.fixtures e)

def Clear [Tls.Provider] (arguments : List String) (place : Nat) : Prop :=
  ∀ stage fault, stage.place < place → ¬ Fails env arguments stage fault

structure FirstFault [Tls.Provider] (arguments : List String) (stage : Stage) (fault : Fault) : Prop where
  fails : Fails env arguments stage fault
  first : Clear env arguments stage.place

end Stages

section Order

variable {env : Environment} {arguments : List String} {s : Settings} {stage : Stage} {fault fault' : Fault}
  {plan : Plan} {chain chain' : List Bytes} {key key' : Tls.PrivateKey}
  {roots roots' : Option (List Tls.TrustAnchor)}

theorem Material.unique (one : Material env s chain key roots) (other : Material env s chain' key' roots') :
    chain = chain' ∧ key = key' ∧ roots = roots' :=
  ⟨Except.ok.inj (one.chain.symm.trans other.chain), Except.ok.inj (one.key.symm.trans other.key),
    one.roots.unique other.roots⟩

theorem settings_unique {s s' : Settings} (read : Settings.ofArguments arguments = .ok s)
    (read' : Settings.ofArguments arguments = .ok s') : s = s' :=
  Except.ok.inj (read.symm.trans read')

variable [Tls.Provider]

theorem Clear.next (clear : Clear env arguments stage.place) (passed : ∀ fault, ¬ Fails env arguments stage fault) :
    Clear env arguments (stage.place + 1) := by
  intro earlier fault before
  rcases Nat.lt_succ_iff_lt_or_eq.mp before with before | same
  · exact clear earlier fault before
  · obtain rfl := Stage.place_injective same
    exact passed fault

theorem clear_arguments : Clear env arguments Stage.arguments.place :=
  fun _ _ before => absurd before (Nat.not_lt_zero _)

theorem clear_chain (read : Settings.ofArguments arguments = .ok s) : Clear env arguments Stage.chain.place := by
  refine clear_arguments.next fun fault fails => ?_
  cases fails with
  | arguments failed => cases failed.symm.trans read

theorem clear_key (read : Settings.ofArguments arguments = .ok s)
    (certified : Tls.certificates s.certificatePath (env.read s.certificatePath) = .ok chain) :
    Clear env arguments Stage.key.place := by
  refine (clear_chain read).next fun fault fails => ?_
  cases fails with
  | chain read' failed =>
    obtain rfl := settings_unique read read'
    cases failed.symm.trans certified

theorem clear_roots (read : Settings.ofArguments arguments = .ok s)
    (certified : Tls.certificates s.certificatePath (env.read s.certificatePath) = .ok chain)
    (keyed : Tls.privateKey s.keyPath (env.read s.keyPath) = .ok key) : Clear env arguments Stage.roots.place := by
  refine (clear_key read certified).next fun fault fails => ?_
  cases fails with
  | key read' failed =>
    obtain rfl := settings_unique read read'
    cases failed.symm.trans keyed

theorem clear_tls (read : Settings.ofArguments arguments = .ok s) (material : Material env s chain key roots) :
    Clear env arguments Stage.tls.place := by
  refine (clear_roots read material.chain material.key).next fun fault fails => ?_
  cases fails with
  | roots read' named failed =>
    obtain rfl := settings_unique read read'
    exact material.roots.not_error named failed

theorem clear_fixtures {config : Tls.Config} (read : Settings.ofArguments arguments = .ok s)
    (material : Material env s chain key roots) (configured : Tls.Config.new chain key roots = .ok config) :
    Clear env arguments Stage.fixtures.place := by
  refine (clear_tls read material).next fun fault fails => ?_
  cases fails with
  | tls read' material' failed =>
    obtain rfl := settings_unique read read'
    obtain ⟨rfl, rfl, rfl⟩ := material.unique material'
    cases failed.symm.trans configured

theorem clear_application {config : Tls.Config} {fixtures : Option Fixtures}
    (read : Settings.ofArguments arguments = .ok s) (material : Material env s chain key roots)
    (configured : Tls.Config.new chain key roots = .ok config)
    (loaded : Given (readFixtures env) s.fixturesPath fixtures) : Clear env arguments Stage.application.place := by
  refine (clear_fixtures read material configured).next fun fault fails => ?_
  cases fails with
  | fixtures read' named failed =>
    obtain rfl := settings_unique read read'
    exact loaded.not_error named failed

theorem Ready.not_fails (ready : Ready env arguments plan) : ¬ Fails env arguments stage fault := by
  obtain ⟨chain, key, roots, material, configured⟩ := ready.tls
  obtain ⟨fixtures, loaded, seeded⟩ := ready.seeded
  have clear : Clear env arguments (Stage.application.place + 1) := by
    refine (clear_application ready.settings material configured loaded).next fun fault fails => ?_
    cases fails with
    | application read loaded' failed =>
      obtain rfl := settings_unique ready.settings read
      obtain rfl := loaded.unique loaded'
      generalize plan.gateway = g at seeded
      cases seeded with
      | all applied => cases failed.symm.trans applied
  exact clear stage fault (by cases stage <;> decide)

theorem Fails.unique (one : Fails env arguments stage fault) (other : Fails env arguments stage fault') :
    fault = fault' := by
  cases one with
  | arguments failed => cases other with
    | arguments failed' => rw [Except.error.inj (failed.symm.trans failed')]
  | chain read failed => cases other with
    | chain read' failed' =>
      obtain rfl := settings_unique read read'
      rw [Except.error.inj (failed.symm.trans failed')]
  | key read failed => cases other with
    | key read' failed' =>
      obtain rfl := settings_unique read read'
      rw [Except.error.inj (failed.symm.trans failed')]
  | roots read named failed => cases other with
    | roots read' named' failed' =>
      obtain rfl := settings_unique read read'
      obtain rfl := Option.some.inj (named.symm.trans named')
      rw [Except.error.inj (failed.symm.trans failed')]
  | tls read material failed => cases other with
    | tls read' material' failed' =>
      obtain rfl := settings_unique read read'
      obtain ⟨rfl, rfl, rfl⟩ := material.unique material'
      rw [Except.error.inj (failed.symm.trans failed')]
  | fixtures read named failed => cases other with
    | fixtures read' named' failed' =>
      obtain rfl := settings_unique read read'
      obtain rfl := Option.some.inj (named.symm.trans named')
      rw [Except.error.inj (failed.symm.trans failed')]
  | application read loaded failed => cases other with
    | application read' loaded' failed' =>
      obtain rfl := settings_unique read read'
      obtain rfl := Option.some.inj (loaded.unique loaded')
      rw [Except.error.inj (failed.symm.trans failed')]

theorem Ready.unique {plan' : Plan} (one : Ready env arguments plan) (other : Ready env arguments plan') :
    plan = plan' := by
  obtain ⟨chain, key, roots, material, configured⟩ := one.tls
  obtain ⟨chain', key', roots', material', configured'⟩ := other.tls
  obtain ⟨fixtures, loaded, seeded⟩ := one.seeded
  obtain ⟨fixtures', loaded', seeded'⟩ := other.seeded
  have sameSettings := settings_unique one.settings other.settings
  rw [← sameSettings] at material' loaded'
  obtain ⟨rfl, rfl, rfl⟩ := material.unique material'
  have sameTls : plan.tls = plan'.tls := Except.ok.inj (configured.symm.trans configured')
  obtain rfl := loaded.unique loaded'
  have sameGateway : plan.gateway = plan'.gateway := by
    generalize plan.gateway = g at seeded ⊢
    generalize plan'.gateway = g' at seeded' ⊢
    cases seeded <;> cases seeded' <;> rfl
  obtain ⟨settings, tls, gateway⟩ := plan
  obtain ⟨settings', tls', gateway'⟩ := plan'
  cases sameSettings
  cases sameTls
  cases sameGateway
  rfl

theorem FirstFault.unique {stage' : Stage} (one : FirstFault env arguments stage fault)
    (other : FirstFault env arguments stage' fault') : stage = stage' ∧ fault = fault' := by
  have same : stage = stage' := by
    rcases Nat.lt_trichotomy stage.place stage'.place with before | same | after
    · exact absurd one.fails (other.first stage fault before)
    · exact Stage.place_injective same
    · exact absurd other.fails (one.first stage' fault' after)
  cases same
  exact ⟨rfl, one.fails.unique other.fails⟩

end Order

/-! ### What preparing comes to -/

section Preparing

variable {env : Environment} {arguments : List String} {s : Settings}

theorem loadRoots_given {roots : Option (List Tls.TrustAnchor)} {path? : Option String}
    (given : Given (readRoots env) path? roots) : loadRoots env path? = .ok roots := by
  cases given with
  | none => rfl
  | named read =>
    rw [readRoots] at read
    rw [loadRoots, read]
    rfl

theorem loadFixtures_given {fixtures : Option Fixtures} {path? : Option String}
    (given : Given (readFixtures env) path? fixtures) : loadFixtures env path? = .ok fixtures := by
  cases given with
  | none => rfl
  | named read =>
    rw [readFixtures] at read
    rw [loadFixtures, read]
    rfl

variable [Tls.Provider]

theorem loadTls_cases (env : Environment) (read : Settings.ofArguments arguments = .ok s) :
    (∃ stage fault, FirstFault env arguments stage fault ∧ loadTls env s = .error fault) ∨
      ∃ chain key roots config, Material env s chain key roots ∧ Tls.Config.new chain key roots = .ok config ∧
        loadTls env s = .ok config := by
  unfold loadTls
  cases certified : Tls.certificates s.certificatePath (env.read s.certificatePath) with
  | error e => exact .inl ⟨.chain, .file e, ⟨.chain read certified, clear_chain read⟩, rfl⟩
  | ok chain => cases keyed : Tls.privateKey s.keyPath (env.read s.keyPath) with
    | error e => exact .inl ⟨.key, .file e, ⟨.key read keyed, clear_key read certified⟩, rfl⟩
    | ok key =>
      rcases given_cases (readRoots env) s.clientRootsPath with ⟨roots, given⟩ | ⟨path, e, named, failed⟩
      · have material : Material env s chain key roots := ⟨certified, keyed, given⟩
        rw [loadRoots_given given]
        cases configured : Tls.Config.new chain key roots with
        | error e => exact .inl ⟨.tls, .tls e, ⟨.tls read material configured, clear_tls read material⟩,
            congrArg (Except.mapError Fault.tls) configured⟩
        | ok config => exact .inr ⟨chain, key, roots, config, material, configured,
            congrArg (Except.mapError Fault.tls) configured⟩
      · refine .inl ⟨.roots, .file e, ⟨.roots read named failed, clear_roots read certified keyed⟩, ?_⟩
        rw [readRoots] at failed
        rw [named, loadRoots, failed]
        rfl

inductive Prepared (env : Environment) (arguments : List String) :
    Except Fault Plan × List Log.Record → Prop where
  | unread {fault : Fault} : FirstFault env arguments .arguments fault → Prepared env arguments (.error fault, [])
  | failed {s : Settings} {stage : Stage} {fault : Fault} : FirstFault env arguments stage fault →
      Prepared env arguments (.error fault, openingLog s)
  | refused {s : Settings} {f : Fixtures} {fault : Fault} : FirstFault env arguments .application fault →
      Prepared env arguments (.error fault, openingLog s ++ (f.apply .empty).log)
  | bare {plan : Plan} : Ready env arguments plan → Prepared env arguments (.ok plan, openingLog plan.settings ++ [])
  | seeded {plan : Plan} {f : Fixtures} : Ready env arguments plan →
      Prepared env arguments (.ok plan, openingLog plan.settings ++ (f.apply .empty).log)

theorem prepared (env : Environment) (arguments : List String) :
    Prepared env arguments (prepare env arguments) := by
  unfold prepare
  cases read : Settings.ofArguments arguments with
  | error e => exact .unread ⟨.arguments read, clear_arguments⟩
  | ok s =>
    obtain ⟨stage, fault, first, failed⟩ | ⟨chain, key, roots, config, material, configured, loaded⟩ :=
      loadTls_cases env read
    · simp only [failed]
      exact .failed first
    · simp only [loaded]
      rcases given_cases (readFixtures env) s.fixturesPath with ⟨fixtures, given⟩ | ⟨path, e, named, failed⟩
      · simp only [loadFixtures_given given]
        cases fixtures with
        | none =>
          have ready : Ready env arguments ⟨s, config, .empty⟩ :=
            ⟨read, ⟨chain, key, roots, material, configured⟩, none, given, .none⟩
          exact .bare ready
        | some f =>
          simp only [applyFixtures]
          cases applied : (f.apply .empty).result with
          | error e =>
            exact .refused ⟨.application read given applied, clear_application read material configured given⟩
          | ok _ =>
            have ready : Ready env arguments ⟨s, config, (f.apply .empty).gateway⟩ :=
              ⟨read, ⟨chain, key, roots, material, configured⟩, some f, given, .all applied⟩
            exact .seeded ready
      · have lost : loadFixtures env s.fixturesPath = .error (.fixtureFile e) := by
          rw [readFixtures] at failed
          rw [named, loadFixtures, failed]
          rfl
        simp only [lost]
        exact .failed ⟨.fixtures read named failed, clear_fixtures read material configured⟩

end Preparing

end PushGateway.Startup
