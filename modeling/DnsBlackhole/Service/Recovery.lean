/-
  What a call leaves behind (`save_config_blocking` and `start_dns_blocking`).
-/
import DnsBlackhole.Service.Save

namespace DnsBlackhole.Service
open Admin (AppConfig)
open Config
open Database (saveConfig)
open Lib

variable {env : Environment} {pattern : Pattern} {phase : Phase}

/-! ## When the steps succeed -/

/-- None of these steps fails. -/
def Pattern.Passes (pattern : Pattern) (phase : Phase) (steps : List Step) : Prop :=
  ∀ step ∈ steps, pattern.fault phase step = none

theorem Pattern.passes_cons {step : Step} {steps : List Step} :
    pattern.Passes phase (step :: steps) ↔
      pattern.fault phase step = none ∧ pattern.Passes phase steps := List.forall_mem_cons

theorem Pattern.passes_nil : pattern.Passes phase [] := fun _ h => absurd h List.not_mem_nil

/-- A server of the configuration in memory can be started. -/
def Starts (env : Environment) (pattern : Pattern) (phase : Phase) (config : AppConfig) : Prop :=
  pattern.Passes phase [.stopServer, .readMemory, .bindListeners, .setSummary, .storeServer] ∧
    ∃ server, buildServer env config = .ok server

/-- The database, the configuration in memory and the sessions are the same. -/
structure AppState.KeepsConfig (s s' : AppState) : Prop where
  db : s'.db = s.db
  config : s'.config = s.config
  sessions : s'.sessions = s.sessions

theorem AppState.KeepsConfig.refl (s : AppState) : s.KeepsConfig s := ⟨rfl, rfl, rfl⟩

theorem AppState.KeepsConfig.trans {s s' s'' : AppState} (h : s.KeepsConfig s')
    (h' : s'.KeepsConfig s'') : s.KeepsConfig s'' :=
  ⟨h'.db.trans h.db, h'.config.trans h.config, h'.sessions.trans h.sessions⟩

/-! ## The steps -/

theorem stopCurrent_ends (s : AppState) : Ends (stopCurrent pattern phase) s
    (fun _ s' => pattern.fault phase .stopServer = none ∧ s' = { s with server := none })
    (fun _ s' => pattern.fault phase .stopServer ≠ none ∧ s' = s) :=
  Ends.check_bind (fun _ herror => ⟨by simp [herror], rfl⟩) fun hfault =>
    Ends.modify ⟨hfault, rfl⟩

theorem setEffectiveSummary_ends (summary : Rules.RuleSummary) (s : AppState) :
    Ends (setEffectiveSummary pattern phase summary) s
      (fun _ s' => pattern.fault phase .setSummary = none ∧
        s' = { s with effectiveSummary := summary })
      (fun _ s' => pattern.fault phase .setSummary ≠ none ∧ s' = s) :=
  Ends.check_bind (fun _ herror => ⟨by simp [herror], rfl⟩) fun hfault =>
    Ends.modify ⟨hfault, rfl⟩

theorem replaceConfig_ends (config : AppConfig) (s : AppState) :
    Ends (replaceConfig pattern phase config) s
      (fun _ s' => pattern.fault phase .replaceConfig = none ∧ s' = { s with config })
      (fun _ s' => pattern.fault phase .replaceConfig ≠ none ∧ s' = s) :=
  Ends.check_bind (fun _ herror => ⟨by simp [herror], rfl⟩) fun hfault =>
    Ends.modify ⟨hfault, rfl⟩

/-- The database can be written. -/
def Saves (env : Environment) (pattern : Pattern) (phase : Phase) (db : Database)
    (config : AppConfig) : Prop :=
  pattern.fault phase .saveDatabase = none ∧
    ∃ db', saveConfig (validateStored env.parseUrl) db config (pattern.updatedAt phase)
      (pattern.now phase) = .ok db'

theorem saveToDatabase_ends (config : AppConfig) (s : AppState) :
    Ends (saveToDatabase env pattern phase config) s
      (fun _ s' => Saves env pattern phase s.db config ∧ s'.storedConfig = some config ∧
        s' = { s with db := s'.db })
      (fun _ s' => ¬Saves env pattern phase s.db config ∧ s' = s) := by
  unfold saveToDatabase
  refine Ends.check_bind (fun e herror => ⟨fun h => ?_, rfl⟩) fun hfault => ?_
  · rw [h.1] at herror
    cases herror
  refine Ends.get_bind (Ends.lift_bind (fun e herror => ⟨fun h => ?_, rfl⟩) fun db hdb => ?_)
  · obtain ⟨db, hdb⟩ := h.2
    rw [herror] at hdb
    cases hdb
  · refine Ends.set ⟨⟨hfault, db, hdb⟩, ?_, rfl⟩
    rw [AppState.storedConfig, (appConfig_saveConfig hdb).2]
    rfl

theorem startCurrent_ends (s : AppState) : Ends (startCurrent env pattern phase) s
    (fun _ s' => Starts env pattern phase s.config ∧ s.KeepsConfig s' ∧
      ∃ server, buildServer env s.config = .ok server ∧ s'.server = some server)
    (fun _ s' => ¬Starts env pattern phase s.config ∧ s.KeepsConfig s') := by
  have hfails : ∀ step ∈ [Step.stopServer, .readMemory, .bindListeners, .setSummary, .storeServer],
      pattern.fault phase step ≠ none → ¬Starts env pattern phase s.config :=
    fun step hmem hfault hstarts => hfault (hstarts.1 step hmem)
  unfold startCurrent
  refine (stopCurrent_ends s).bind ?_ ?_
  · rintro e _ ⟨hfault, rfl⟩
    exact ⟨hfails .stopServer (by simp) hfault, .refl _⟩
  rintro ⟨⟩ _ ⟨hstop, rfl⟩
  refine Ends.check_bind (fun e herror =>
    ⟨hfails .readMemory (by simp) (by simp [herror]), rfl, rfl, rfl⟩) fun hmemory => ?_
  refine Ends.get_bind (Ends.lift_bind (fun e herror => ⟨?_, rfl, rfl, rfl⟩) fun server hserver => ?_)
  · rintro ⟨-, server, hserver⟩
    cases hserver.symm.trans herror
  refine Ends.check_bind (fun e herror =>
    ⟨hfails .bindListeners (by simp) (by simp [herror]), rfl, rfl, rfl⟩) fun hbind => ?_
  refine (setEffectiveSummary_ends _ _).bind ?_ ?_
  · rintro e _ ⟨hfault, rfl⟩
    exact ⟨hfails .setSummary (by simp) hfault, rfl, rfl, rfl⟩
  rintro ⟨⟩ _ ⟨hsummary, rfl⟩
  refine Ends.check_bind (fun e herror =>
    ⟨hfails .storeServer (by simp) (by simp [herror]), rfl, rfl, rfl⟩) fun hstore => ?_
  refine Ends.modify ⟨⟨?_, server, hserver⟩, ⟨rfl, rfl, rfl⟩, server, hserver, rfl⟩
  simp only [Pattern.passes_cons, hstop, hmemory, hbind, hsummary, hstore, Pattern.passes_nil,
    and_self]

/-! ## Applying a change -/

/-- The server that runs, if any, is the one of the configuration. -/
def Serves (env : Environment) (config : AppConfig) (s : AppState) : Prop :=
  ∀ server, s.runningServer = some server → buildServer env config = .ok server

/-- The server that runs, if any, has the parameters of the configuration. -/
def HasParameters (env : Environment) (config : AppConfig) (s : AppState) : Prop :=
  ∀ server, s.runningServer = some server → serverParameters env config = .ok server.parameters

theorem Serves.hasParameters {config : AppConfig} {s : AppState} (h : Serves env config s) :
    HasParameters env config s :=
  fun server hserver => (buildServer_eq_ok.1 (h server hserver)).2.1

/-- A server runs, and it is the one of the configuration. -/
def Runs (env : Environment) (config : AppConfig) (s : AppState) : Prop :=
  ∃ server, s.runningServer = some server ∧ buildServer env config = .ok server

theorem runs_of_server {config : AppConfig} {s : AppState} {server : DnsServer}
    (hserver : s.server = some server) (hbuilt : buildServer env config = .ok server) :
    Runs env config s := by
  refine ⟨server, ?_, hbuilt⟩
  rw [AppState.runningServer, hserver, Option.filter_some,
    if_pos (by simp [(buildServer_eq_ok.1 hbuilt).2.2.2])]

/-- The filter can be replaced in the server. -/
def Swappable (previous config : AppConfig) (s : AppState) : Prop :=
  needsDnsRestart previous config = false ∧ s.runningServer ≠ none

/-- No step of applying the change to the service fails. -/
structure ChangeApplies (env : Environment) (pattern : Pattern) (previous config : AppConfig)
    (s : AppState) : Prop where
  lockServer : needsDnsRestart previous config = false →
    pattern.fault .applying .lockServer = none
  swaps : Swappable previous config s → pattern.fault .applying .setSummary = none ∧
    ∃ filterRuntime, buildFilterRuntime env config = .ok filterRuntime
  starts : ¬Swappable previous config s → Starts env pattern .applying config

section
variable {previous config : AppConfig} {s : AppState}

theorem tryHotSwap_ends (hserves : HasParameters env previous s)
    (hvalid : validate env.parseUrl config = .ok ()) :
    Ends (tryHotSwap env pattern .applying previous config) s
      (fun swapped s' => s.KeepsConfig s' ∧
        (needsDnsRestart previous config = false → pattern.fault .applying .lockServer = none) ∧
        if swapped then ChangeApplies env pattern previous config s ∧ Runs env config s'
        else ¬Swappable previous config s)
      (fun _ s' => s.KeepsConfig s' ∧ ¬ChangeApplies env pattern previous config s) := by
  unfold tryHotSwap
  split_ifs with hrestart
  · exact Ends.pure ⟨.refl s, by simp [hrestart], fun h => by simp [h.1] at hrestart⟩
  have hrestart : needsDnsRestart previous config = false := by simpa using hrestart
  refine Ends.check_bind (fun e herror => ⟨.refl s, fun h => ?_⟩) fun hlock => ?_
  · rw [h.lockServer hrestart] at herror
    cases herror
  refine Ends.get_bind ?_
  cases hserver : s.server with
  | none =>
    exact Ends.pure ⟨.refl s, fun _ => hlock, fun h => h.2 (by simp [AppState.runningServer, hserver])⟩
  | some server =>
    dsimp only
    split_ifs with hfinished
    · exact Ends.pure ⟨.refl s, fun _ => hlock,
        fun h => h.2 (by simp [AppState.runningServer, hserver, hfinished])⟩
    have hrunning : s.runningServer = some server := by
      simp [AppState.runningServer, hserver, hfinished]
    have hswappable : Swappable previous config s := ⟨hrestart, by simp [hrunning]⟩
    refine Ends.lift_bind (fun e herror => ⟨.refl s, fun h => ?_⟩) fun filterRuntime hfilter => ?_
    · obtain ⟨filterRuntime, hfilter⟩ := (h.swaps hswappable).2
      cases hfilter.symm.trans herror
    refine Ends.modify_bind ((setEffectiveSummary_ends _ _).bind ?_ ?_)
    · rintro e _ ⟨hfault, rfl⟩
      exact ⟨⟨rfl, rfl, rfl⟩, fun h => hfault (h.swaps hswappable).1⟩
    rintro ⟨⟩ _ ⟨hsummary, rfl⟩
    refine Ends.pure ⟨⟨rfl, rfl, rfl⟩, fun _ => hlock, ⟨fun _ => hlock,
      fun _ => ⟨hsummary, filterRuntime, hfilter⟩, fun h => absurd hswappable h⟩, ?_⟩
    have hfinished : server.hasFinishedThreads = false := by simpa using hfinished
    exact runs_of_server rfl (buildServer_swap (hserves server hrunning) hfinished hrestart hvalid
      hfilter)

theorem applyConfigChange_ends (henabled : config.enabled) (hmemory : s.config = config)
    (hserves : HasParameters env previous s) (hvalid : validate env.parseUrl config = .ok ()) :
    Ends (applyConfigChange env pattern .applying previous config) s
      (fun _ s' => s.KeepsConfig s' ∧ ChangeApplies env pattern previous config s ∧
        Runs env config s')
      (fun _ s' => s.KeepsConfig s' ∧ ¬ChangeApplies env pattern previous config s) := by
  unfold applyConfigChange
  rw [if_pos henabled]
  refine (tryHotSwap_ends hserves hvalid).bind (fun _ _ h => h) ?_
  rintro swapped s' ⟨hkeeps, hlock, hswapped⟩
  cases swapped with
  | true =>
    obtain ⟨happlies, server, hrunning, hbuilt⟩ := hswapped
    refine Ends.modify ⟨⟨hkeeps.db, hkeeps.config, hkeeps.sessions⟩, happlies, server, ?_, hbuilt⟩
    exact hrunning
  | false =>
    have hmemory' : s'.config = config := hkeeps.config.trans hmemory
    refine (startCurrent_ends s').mono ?_ ?_
    · rintro ⟨⟩ s'' ⟨hstarts, hkeeps', server, hbuilt, hserver⟩
      rw [hmemory'] at hstarts hbuilt
      exact ⟨hkeeps.trans hkeeps', ⟨hlock, fun h => absurd h hswapped, fun _ => hstarts⟩,
        runs_of_server hserver hbuilt⟩
    · rintro e s'' ⟨hstarts, hkeeps'⟩
      rw [hmemory'] at hstarts
      exact ⟨hkeeps.trans hkeeps', fun h => hstarts (h.starts hswapped)⟩

/-- No step fails between writing the configuration and looking after the sessions. -/
def SavedApplies (env : Environment) (pattern : Pattern) (previous config : AppConfig)
    (startRequired : Bool) (s : AppState) : Prop :=
  if config.enabled then
    filterRuntimeChanged previous config = true ∨ startRequired = true →
      ChangeApplies env pattern previous config s
  else pattern.fault .applying .stopServer = none ∧
    (filterRuntimeChanged previous config = true → pattern.fault .applying .setSummary = none)

theorem savedApplies_congr {startRequired : Bool} {s' : AppState}
    (h : s'.runningServer = s.runningServer) :
    SavedApplies env pattern previous config startRequired s' ↔
      SavedApplies env pattern previous config startRequired s := by
  have hswappable : Swappable previous config s' ↔ Swappable previous config s := by
    rw [Swappable, Swappable, h]
  have hchange : ChangeApplies env pattern previous config s' ↔
      ChangeApplies env pattern previous config s := by
    constructor
    · intro h
      exact ⟨h.lockServer, fun hs => h.swaps (hswappable.2 hs),
        fun hs => h.starts fun hs' => hs (hswappable.1 hs')⟩
    · intro h
      exact ⟨h.lockServer, fun hs => h.swaps (hswappable.1 hs),
        fun hs => h.starts fun hs' => hs (hswappable.2 hs')⟩
  unfold SavedApplies
  rw [hchange]

/-- What runs, in a state where the configuration is in force. -/
def InForce (env : Environment) (config : AppConfig) (s : AppState) : Prop :=
  if config.enabled then Runs env config s else s.runningServer = none

theorem applySaved_ends (startRequired : Bool)
    (hrequired : config.enabled = true → startRequired = false →
      needsDnsRestart previous config = false ∧ s.runningServer ≠ none)
    (hmemory : s.config = config) (hserves : Serves env previous s)
    (hvalid : validate env.parseUrl config = .ok ()) :
    Ends (applySaved env pattern previous config startRequired) s
      (fun _ s' => s.KeepsConfig s' ∧ SavedApplies env pattern previous config startRequired s ∧
        InForce env config s')
      (fun _ s' => s.KeepsConfig s' ∧
        ¬SavedApplies env pattern previous config startRequired s) := by
  unfold applySaved SavedApplies InForce
  cases henabled : config.enabled with
  | true =>
    simp only [if_true, Bool.or_eq_true]
    split_ifs with hchange
    · refine (applyConfigChange_ends henabled hmemory hserves.hasParameters hvalid).mono ?_ ?_
      · rintro ⟨⟩ s' ⟨hkeeps, happlies, hruns⟩
        exact ⟨hkeeps, fun _ => happlies, hruns⟩
      · rintro e s' ⟨hkeeps, happlies⟩
        exact ⟨hkeeps, fun h => happlies (h hchange)⟩
    · rw [not_or, Bool.not_eq_true, Bool.not_eq_true] at hchange
      obtain ⟨hrestart, hrunning⟩ := hrequired henabled hchange.2
      obtain ⟨server, hserver⟩ := Option.ne_none_iff_exists'.1 hrunning
      refine Ends.modify ⟨⟨rfl, rfl, rfl⟩, fun h => ?_, server, hserver, ?_⟩
      · simp [hchange] at h
      · exact buildServer_keep (hserves server hserver) hrestart hchange.1 hvalid
  | false =>
    simp only [Bool.false_eq_true, if_false]
    refine (stopCurrent_ends s).bind ?_ ?_
    · rintro e _ ⟨hfault, rfl⟩
      exact ⟨.refl _, fun h => hfault h.1⟩
    rintro ⟨⟩ _ ⟨hstop, rfl⟩
    split_ifs with hchange
    · refine (setEffectiveSummary_ends _ _).bind ?_ ?_
      · rintro e _ ⟨hfault, rfl⟩
        exact ⟨⟨rfl, rfl, rfl⟩, fun h => hfault (h.2 hchange)⟩
      · rintro ⟨⟩ _ ⟨hsummary, rfl⟩
        exact Ends.modify ⟨⟨rfl, rfl, rfl⟩, ⟨hstop, fun _ => hsummary⟩, rfl⟩
    · exact Ends.modify ⟨⟨rfl, rfl, rfl⟩, ⟨hstop, fun h => absurd h hchange⟩, rfl⟩

end

/-! ## Recovering -/

theorem collect_ends {x : ServiceM Unit} {s : AppState} {Q : AppState → Prop}
    {E : StepError → AppState → Prop} (h : Ends x s (fun _ s' => Q s') E) :
    Ends (collect x) s
      (fun errors s' => (errors = [] ∧ Q s') ∨ (errors ≠ [] ∧ ∃ e, E e s')) (fun _ _ => False) := by
  unfold collect
  refine Ends.recover (Ends.bind h (fun _ _ he => he) fun _ s' hs' => ?_) ?_
  · exact Ends.pure (.inl ⟨rfl, hs'⟩)
  · exact fun e s' he => Ends.pure (.inr ⟨List.cons_ne_nil _ _, e, he⟩)

/-- The service is as it was with a configuration. -/
structure Restored (env : Environment) (config : AppConfig) (wasRunning : Bool) (s : AppState) :
    Prop where
  stored : s.storedConfig = some config
  memory : s.config = config
  server : if wasRunning then Runs env config s else s.runningServer = none

theorem recoverService_ends {previous : AppConfig} {wasRunning : Bool} {s : AppState}
    (hmemory : s.config = previous) :
    Ends (recoverService env pattern previous wasRunning) s
      (fun _ s' => s.KeepsConfig s' ∧
        if wasRunning then Runs env previous s' else s'.runningServer = none)
      (fun _ s' => s.KeepsConfig s') := by
  unfold recoverService
  cases wasRunning with
  | true =>
    refine (startCurrent_ends s).mono ?_ fun _ _ h => h.2
    rintro ⟨⟩ s' ⟨-, hkeeps, server, hbuilt, hserver⟩
    exact ⟨hkeeps, runs_of_server hserver (hmemory ▸ hbuilt)⟩
  | false =>
    refine (stopCurrent_ends s).bind ?_ ?_
    · rintro e _ ⟨-, rfl⟩
      exact .refl _
    rintro ⟨⟩ _ ⟨-, rfl⟩
    refine (setEffectiveSummary_ends _ _).mono ?_ ?_
    · rintro ⟨⟩ _ ⟨-, rfl⟩
      exact ⟨⟨rfl, rfl, rfl⟩, rfl⟩
    · rintro e _ ⟨-, rfl⟩
      exact ⟨rfl, rfl, rfl⟩

/-- **The recovery**: unless one of its own steps fails, everything is as before. -/
theorem restoreConfigAfterFailureWith_ends {α : Type} {previous : AppConfig} {wasRunning : Bool}
    {error : StepError} {earlier : List StepError} {s : AppState} {Q : α → AppState → Prop} :
    Ends (restoreConfigAfterFailureWith env pattern previous wasRunning error earlier) s Q
      (fun e s' => ∃ failures, e = .notApplied error failures ∧
        (failures = [] → earlier = [] ∧ Restored env previous wasRunning s')) := by
  unfold restoreConfigAfterFailureWith
  refine (collect_ends (saveToDatabase_ends previous s)).bind (fun _ _ => False.elim) ?_
  intro saved s₁ hsaved
  refine (collect_ends (replaceConfig_ends previous s₁)).bind (fun _ _ => False.elim) ?_
  intro replaced s₂ hreplaced
  have hrecovered : Ends (recoverReplaced env pattern previous wasRunning replaced) s₂ (fun recovered s₃ => saved ++ replaced ++ recovered = [] →
        Restored env previous wasRunning s₃) (fun _ _ => False) := by
    cases replaced with
    | cons e replaced => exact Ends.pure fun h => by simp at h
    | nil =>
      obtain ⟨-, -, hs₂⟩ | ⟨hne, -⟩ := hreplaced
      swap
      · exact absurd rfl hne
      have hmemory : s₂.config = previous := by rw [hs₂]
      have hstored : s₂.storedConfig = s₁.storedConfig := by rw [hs₂]; rfl
      change Ends (collect (recoverService env pattern previous wasRunning)) s₂ _ _
      refine (collect_ends (recoverService_ends hmemory)).mono ?_ fun _ _ h => h
      rintro recovered s₃ hrecovered hfailures
      rw [List.append_eq_nil_iff, List.append_eq_nil_iff] at hfailures
      obtain ⟨⟨hsaved', -⟩, hrecovered'⟩ := hfailures
      rcases hsaved with ⟨-, -, hsaved, -⟩ | ⟨hne, -⟩
      swap
      · exact absurd hsaved' hne
      rcases hrecovered with ⟨-, hkeeps, hserver⟩ | ⟨hne, -⟩
      swap
      · exact absurd hrecovered' hne
      refine ⟨?_, hkeeps.config.trans hmemory, hserver⟩
      rw [AppState.storedConfig, hkeeps.db]
      exact hstored.trans hsaved
  refine hrecovered.bind (fun _ _ => False.elim) fun recovered s₃ hrestored => ?_
  refine Ends.modify_bind (Ends.throw ⟨_, rfl, fun hfailures => ?_⟩)
  rw [List.append_assoc, List.append_assoc, List.append_eq_nil_iff, ← List.append_assoc] at hfailures
  obtain ⟨hstored, hmemory, hserver⟩ := hrestored hfailures.2
  exact ⟨hfailures.1, hstored, hmemory, hserver⟩

theorem restoreConfigAfterFailure_ends {α : Type} {previous : AppConfig} {wasRunning : Bool}
    {error : StepError} {s : AppState} {Q : α → AppState → Prop} :
    Ends (restoreConfigAfterFailure env pattern previous wasRunning error) s Q
      (fun e s' => ∃ failures, e = .notApplied error failures ∧
        (failures = [] → Restored env previous wasRunning s')) :=
  restoreConfigAfterFailureWith_ends.mono (fun _ _ h => h)
    fun _ _ ⟨failures, he, hrestored⟩ => ⟨failures, he, fun h => (hrestored h).2⟩

/-! ## Saving -/

/-- Whether the server must be started. -/
def mustStart (previous config : AppConfig) (s : AppState) : Bool :=
  config.enabled && (!previous.enabled || needsDnsRestart previous config || s.serverNeedsStart)

section
variable {previous config : AppConfig} {s : AppState}

theorem serverNeedsStart_iff (s : AppState) : s.serverNeedsStart = true ↔ s.runningServer = none := by
  unfold AppState.serverNeedsStart AppState.runningServer
  cases s.server with
  | none => simp
  | some server => simp

theorem mustStart_eq_false (henabled : config.enabled = true)
    (h : mustStart previous config s = false) :
    needsDnsRestart previous config = false ∧ s.runningServer ≠ none := by
  simp only [mustStart, henabled, Bool.true_and, Bool.or_eq_false_iff] at h
  refine ⟨h.1.2, fun hnone => ?_⟩
  rw [(serverNeedsStart_iff s).2 hnone] at h
  cases h.2

/-- The server is looked at only where that decides. -/
def LooksAtServer (pattern : Pattern) (previous config : AppConfig) : Prop :=
  config.enabled = true → previous.enabled = true → needsDnsRestart previous config = false →
    pattern.fault .applying .needsStart = none

theorem startRequired_ends : Ends (startRequired pattern previous config) s
    (fun required s' => LooksAtServer pattern previous config ∧
      required = mustStart previous config s ∧ s' = s)
    (fun _ s' => ¬LooksAtServer pattern previous config ∧ s' = s) := by
  unfold startRequired LooksAtServer mustStart
  cases config.enabled with
  | false => exact Ends.pure ⟨nofun, rfl, rfl⟩
  | true =>
    rw [if_pos rfl]
    by_cases hdecided : !previous.enabled || needsDnsRestart previous config
    · rw [if_pos hdecided]
      refine Ends.pure ⟨fun _ henabled hrestart => ?_, by simp [hdecided], rfl⟩
      simp [henabled, hrestart] at hdecided
    · rw [if_neg hdecided]
      have hdecided : previous.enabled = true ∧ needsDnsRestart previous config = false := by
        simpa using hdecided
      refine Ends.check_bind (fun e herror => ⟨fun h => ?_, rfl⟩) fun hfault => ?_
      · rw [h rfl hdecided.1 hdecided.2] at herror
        cases herror
      · exact Ends.get_bind (Ends.pure ⟨fun _ _ _ => hfault, by simp [hdecided], rfl⟩)

theorem wasRunning_ends : Ends (wasRunning pattern) s
    (fun running s' => pattern.fault .applying .wasRunning = none ∧
      running = !s.serverNeedsStart ∧ s' = s)
    (fun _ s' => pattern.fault .applying .wasRunning ≠ none ∧ s' = s) :=
  Ends.check_bind (fun _ herror => ⟨by simp [herror], rfl⟩) fun hfault =>
    Ends.get_bind (Ends.pure ⟨hfault, rfl, rfl⟩)

theorem preflightChange_ends (required running : Bool) :
    Ends (preflightChange pattern previous config required running) s
      (fun _ s' => (canPreflightDnsListeners previous config required running = true →
        (∃ addrs, listeners config = .ok addrs) ∧ pattern.fault .applying .preflight = none) ∧ s' = s)
      (fun _ s' => ¬(canPreflightDnsListeners previous config required running = true →
        (∃ addrs, listeners config = .ok addrs) ∧ pattern.fault .applying .preflight = none) ∧
          s' = s) := by
  unfold preflightChange
  split_ifs with hcan
  · refine Ends.recover (E := fun _ s' => ¬((∃ addrs, listeners config = .ok addrs) ∧
      pattern.fault .applying .preflight = none) ∧ s' = s) ?_ fun e s' h =>
        Ends.throw ⟨fun hpasses => h.1 (hpasses hcan), h.2⟩
    refine Ends.lift_bind (fun e herror => ⟨?_, rfl⟩) fun addrs haddrs => ?_
    · rintro ⟨⟨addrs, haddrs⟩, -⟩
      cases haddrs.symm.trans herror
    refine Ends.check (fun e herror => ⟨?_, rfl⟩) fun hfault => ⟨fun _ => ⟨⟨addrs, haddrs⟩, hfault⟩, rfl⟩
    rintro ⟨-, hfault⟩
    cases hfault.symm.trans herror
  · exact Ends.pure ⟨fun h => absurd h hcan, rfl⟩

theorem step_ends {α : Type} {x : ServiceM α} {Q : α → AppState → Prop}
    {E : StepError → AppState → Prop} {F : ServiceError → AppState → Prop} (h : Ends x s Q E)
    (hE : ∀ e s', E e s' → F (.failed e) s') : Ends (step x) s Q F :=
  Ends.recover h fun e s' he => Ends.throw (hE e s' he)

theorem step_bind {α β : Type} {x : ServiceM α} {f : α → EStateM ServiceError AppState β}
    {Q : α → AppState → Prop} {E : StepError → AppState → Prop} {R : β → AppState → Prop}
    {F : ServiceError → AppState → Prop} (h : Ends x s Q E)
    (hE : ∀ e s', E e s' → F (.failed e) s') (hf : ∀ a s', Q a s' → Ends (f a) s' R F) :
    Ends (step x >>= f) s R F :=
  (step_ends h hE).bind (fun _ _ he => he) hf

theorem check_ends (fault : Option StepError) : Ends (check fault) s
    (fun _ s' => fault = none ∧ s' = s) (fun _ s' => fault ≠ none ∧ s' = s) :=
  Ends.check (fun _ herror => ⟨by simp [herror], rfl⟩) fun hfault => ⟨hfault, rfl⟩

theorem validate_ends : Ends (lift .message (validate env.parseUrl config) : ServiceM Unit) s
    (fun _ s' => validate env.parseUrl config = .ok () ∧ s' = s)
    (fun _ s' => validate env.parseUrl config ≠ .ok () ∧ s' = s) :=
  Ends.lift (fun _ herror => ⟨by simp [herror], rfl⟩) fun _ hvalid => ⟨hvalid, rfl⟩

end

/-- No step before that of the sessions fails. -/
structure ReachesSessions (env : Environment) (pattern : Pattern) (previous config : AppConfig)
    (s : AppState) : Prop where
  readConfig : pattern.fault .applying .readConfig = none
  valid : validate env.parseUrl config = .ok ()
  needsStart : LooksAtServer pattern previous config
  wasRunning : pattern.fault .applying .wasRunning = none
  preflight : canPreflightDnsListeners previous config (mustStart previous config s)
      (!s.serverNeedsStart) = true →
    (∃ addrs, listeners config = .ok addrs) ∧ pattern.fault .applying .preflight = none
  saves : Saves env pattern .applying s.db config
  replaceConfig : pattern.fault .applying .replaceConfig = none
  applies : SavedApplies env pattern previous config (mustStart previous config s) s

/-- The sessions are to be ended, and that fails, behind everything else. -/
structure SessionsLeft (env : Environment) (pattern : Pattern) (previous config : AppConfig)
    (s : AppState) : Prop where
  secured : config.webAdminSecureCookie = true ∧ previous.webAdminSecureCookie = false
  fault : pattern.fault .applying .invalidateSessions ≠ none
  reached : ReachesSessions env pattern previous config s

/-- A configuration is in force everywhere. -/
structure Everywhere (env : Environment) (config : AppConfig) (s : AppState) : Prop where
  stored : s.storedConfig = some config
  memory : s.config = config
  server : InForce env config s

/-- The configuration in the database is that in memory, and no other one is served. -/
structure Consistent (env : Environment) (s : AppState) : Prop where
  stored : s.storedConfig = some s.config
  serves : Serves env s.config s

/-- The same configuration is stored and in memory, and the same server runs. -/
structure AppState.Unchanged (s s' : AppState) : Prop where
  stored : s'.storedConfig = s.storedConfig
  memory : s'.config = s.config
  server : s'.runningServer = s.runningServer

theorem AppState.Unchanged.refl (s : AppState) : s.Unchanged s := ⟨rfl, rfl, rfl⟩

theorem Restored.unchanged {s s' : AppState} (hs : Consistent env s)
    (h : Restored env s.config (!s.serverNeedsStart) s') : s.Unchanged s' := by
  refine ⟨h.stored.trans hs.stored.symm, h.memory, ?_⟩
  have hserver := h.server
  cases hneeds : s.serverNeedsStart with
  | true =>
    rw [hneeds] at hserver
    exact hserver.trans ((serverNeedsStart_iff s).1 hneeds).symm
  | false =>
    rw [hneeds] at hserver
    obtain ⟨server, hrunning, hbuilt⟩ := hserver
    cases hbefore : s.runningServer with
    | none => simp [(serverNeedsStart_iff s).2 hbefore] at hneeds
    | some before =>
      cases (hs.serves before hbefore).symm.trans hbuilt
      exact hrunning

/-- A call that fails with `e` has changed nothing or been undone, unless its recovery
    has failed. -/
def Undone (env : Environment) (s : AppState) (e : ServiceError) (s' : AppState) : Prop :=
  e.Recovered → s' = s ∨ Restored env s.config (!s.serverNeedsStart) s'

theorem Undone.unchanged {s s' : AppState} {e : ServiceError} (hs : Consistent env s)
    (h : Undone env s e s') (he : e.Recovered) : s.Unchanged s' := by
  rcases h he with rfl | hrestored
  · exact .refl _
  · exact hrestored.unchanged hs

theorem restoreConfigAfterFailure_undone {s s' : AppState} {error : StepError}
    {Q : Unit → AppState → Prop} :
    Ends (restoreConfigAfterFailure env pattern s.config (!s.serverNeedsStart) error) s' Q
      (Undone env s) := by
  refine restoreConfigAfterFailure_ends.mono (fun _ _ h => h) ?_
  rintro e s₃ ⟨failures, rfl, hrestored⟩
  exact fun h => .inr (hrestored h)

theorem saveConfigBlocking_ends {s : AppState} (hs : Serves env s.config s)
    (submitted : AppConfig) :
    Ends (saveConfigBlocking env pattern submitted) s
      (fun _ s' => ¬SessionsLeft env pattern s.config (adoptSettings s.config submitted) s ∧
        Everywhere env (adoptSettings s.config submitted) s')
      (fun e s' => (¬SessionsLeft env pattern s.config (adoptSettings s.config submitted) s ∧
          Undone env s e s') ∨
        (SessionsLeft env pattern s.config (adoptSettings s.config submitted) s ∧ e.Recovered ∧
          Everywhere env (adoptSettings s.config submitted) s')) := by
  have hstopped : ∀ e s', ¬ReachesSessions env pattern s.config (adoptSettings s.config submitted) s →
      Undone env s e s' → ¬SessionsLeft env pattern s.config (adoptSettings s.config submitted) s ∧
        Undone env s e s' := fun e s' hnot hundone => ⟨fun h => hnot h.reached, hundone⟩
  unfold saveConfigBlocking
  refine step_bind (check_ends _) ?_ ?_
  · rintro e _ ⟨hfault, rfl⟩
    exact .inl (hstopped _ _ (fun h => hfault h.readConfig) fun _ => .inl rfl)
  rintro ⟨⟩ s ⟨hread, rfl⟩
  refine Ends.get_bind ?_
  dsimp only
  generalize adoptSettings s.config submitted = config at hstopped ⊢
  refine step_bind validate_ends ?_ ?_
  · rintro e _ ⟨hinvalid, rfl⟩
    exact .inl (hstopped _ _ (fun h => hinvalid h.valid) fun _ => .inl rfl)
  rintro ⟨⟩ s ⟨hvalid, rfl⟩
  refine step_bind startRequired_ends ?_ ?_
  · rintro e _ ⟨hfault, rfl⟩
    exact .inl (hstopped _ _ (fun h => hfault h.needsStart) fun _ => .inl rfl)
  rintro _ s ⟨hlooks, rfl, rfl⟩
  refine step_bind wasRunning_ends ?_ ?_
  · rintro e _ ⟨hfault, rfl⟩
    exact .inl (hstopped _ _ (fun h => hfault h.wasRunning) fun _ => .inl rfl)
  rintro _ s ⟨hrunning, rfl, rfl⟩
  refine (preflightChange_ends _ _).bind ?_ ?_
  · rintro e _ ⟨hfault, rfl⟩
    exact .inl (hstopped _ _ (fun h => hfault h.preflight) fun _ => .inl rfl)
  rintro ⟨⟩ s ⟨hpreflight, rfl⟩
  refine step_bind (saveToDatabase_ends config s) ?_ ?_
  · rintro e _ ⟨hfault, rfl⟩
    exact .inl (hstopped _ _ (fun h => hfault h.saves) fun _ => .inl rfl)
  rintro ⟨⟩ s₁ ⟨hsaves, hstored, hs₁⟩
  -- from here on, a failure is recovered from
  refine (Ends.recover (replaceConfig_ends config s₁) ?_).bind (fun _ _ h => h) ?_
  · rintro error s₂ ⟨hfault, -⟩
    exact restoreConfigAfterFailure_undone.mono (fun _ _ h => h) fun e s₃ hundone =>
      .inl (hstopped e s₃ (fun h => hfault h.replaceConfig) hundone)
  rintro ⟨⟩ s₂ ⟨hreplace, hs₂⟩
  have hserver : s₂.runningServer = s.runningServer := by rw [hs₂, hs₁]; rfl
  have hmemory : s₂.config = config := by rw [hs₂]
  have hstored : s₂.storedConfig = some config := by rw [hs₂]; exact hstored
  refine (Ends.recover (applySaved_ends _ (fun henabled h => ?_) hmemory (fun server h => ?_) hvalid)
    ?_).bind (fun _ _ h => h) ?_
  · exact hserver ▸ mustStart_eq_false henabled h
  · exact hs server (hserver ▸ h)
  · rintro error s₃ ⟨-, hfault⟩
    exact restoreConfigAfterFailure_undone.mono (fun _ _ h => h) fun e s₄ hundone =>
      .inl (hstopped e s₄ (fun h => hfault ((savedApplies_congr hserver).2 h.applies)) hundone)
  rintro ⟨⟩ s₃ ⟨hkeeps, happlies, hinForce⟩
  have heverywhere : Everywhere env config s₃ := by
    refine ⟨?_, hkeeps.config.trans hmemory, hinForce⟩
    rw [AppState.storedConfig, hkeeps.db]
    exact hstored
  unfold invalidateSessions
  split_ifs with hsecured
  · refine step_bind (check_ends _) ?_ ?_
    · rintro e _ ⟨hfault, rfl⟩
      refine .inr ⟨⟨by simpa using hsecured, hfault, hread, hvalid, hlooks, hrunning, hpreflight,
        hsaves, hreplace, (savedApplies_congr hserver).1 happlies⟩, trivial, heverywhere.stored,
        heverywhere.memory, heverywhere.server⟩
    · rintro ⟨⟩ _ ⟨hfault, rfl⟩
      exact Ends.modify ⟨fun h => h.fault hfault, heverywhere.stored, heverywhere.memory,
        heverywhere.server⟩
  · exact Ends.pure ⟨fun h => hsecured (by simp [h.secured]), heverywhere⟩

theorem startDnsBlocking_ends (s : AppState) :
    Ends (startDnsBlocking env pattern) s
      (fun _ s' => Everywhere env (enabledConfig s.config) s') (Undone env s) := by
  unfold startDnsBlocking
  refine step_bind (check_ends _) ?_ ?_
  · rintro e _ ⟨-, rfl⟩
    exact fun _ => .inl rfl
  rintro ⟨⟩ s ⟨-, rfl⟩
  refine Ends.get_bind ?_
  dsimp only
  have henabled : (enabledConfig s.config).enabled = true := rfl
  generalize enabledConfig s.config = config at henabled ⊢
  refine step_bind wasRunning_ends ?_ ?_
  · rintro e _ ⟨-, rfl⟩
    exact fun _ => .inl rfl
  rintro _ s ⟨-, rfl, rfl⟩
  refine step_bind validate_ends ?_ ?_
  · rintro e _ ⟨-, rfl⟩
    exact fun _ => .inl rfl
  rintro ⟨⟩ s ⟨-, rfl⟩
  refine step_bind (saveToDatabase_ends config s) ?_ ?_
  · rintro e _ ⟨-, rfl⟩
    exact fun _ => .inl rfl
  rintro ⟨⟩ s₁ ⟨-, hstored, hs₁⟩
  refine (Ends.recover (replaceConfig_ends config s₁) fun _ _ _ =>
    restoreConfigAfterFailure_undone).bind (fun _ _ h => h) ?_
  rintro ⟨⟩ s₂ ⟨-, hs₂⟩
  refine Ends.recover ((startCurrent_ends s₂).mono ?_ fun _ _ h => h) fun _ _ _ => restoreConfigAfterFailure_undone
  rintro ⟨⟩ s₃ ⟨-, hkeeps, server, hbuilt, hserver⟩
  have hmemory : s₂.config = config := by rw [hs₂]
  have hstored : s₂.storedConfig = some config := by rw [hs₂]; exact hstored
  refine ⟨?_, hkeeps.config.trans hmemory, ?_⟩
  · rw [AppState.storedConfig, hkeeps.db]
    exact hstored
  · rw [hmemory] at hbuilt
    unfold InForce
    rw [if_pos henabled]
    exact runs_of_server hserver hbuilt

/-! ## The calls -/

inductive Call
  | save (submitted : AppConfig)
  | start

namespace Call

def run (env : Environment) (pattern : Pattern) : Call → EStateM ServiceError AppState Unit
  | save submitted => saveConfigBlocking env pattern submitted
  | start => startDnsBlocking env pattern

/-- The configuration that a call is to put in force. -/
def newConfig (previous : AppConfig) : Call → AppConfig
  | save submitted => adoptSettings previous submitted
  | start => enabledConfig previous

/-- What is asked of a call: it puts the new configuration in force everywhere, or it
    fails and leaves everything as it was; what it says of that is true. -/
def Upholds (env : Environment) (pattern : Pattern) (s : AppState) (call : Call) : Prop :=
  Ends (call.run env pattern) s (fun _ s' => Everywhere env (call.newConfig s.config) s')
    (fun e s' => (e.Recovered → s.Unchanged s') ∧ (e.SaysRestored → s.Unchanged s'))

/-- The call turns the secure cookie on, and only ending the old sessions fails. -/
def LeavesSessions (env : Environment) (pattern : Pattern) (s : AppState) : Call → Prop
  | save submitted => SessionsLeft env pattern s.config (adoptSettings s.config submitted) s
  | start => False

end Call

theorem ServiceError.SaysRestored.recovered {e : ServiceError} (h : e.SaysRestored) :
    e.Recovered := by
  cases e with
  | failed error => trivial
  | preflight error => trivial
  | notApplied error failures => exact h
  | notPublished error failures => exact h

theorem Undone.and_saysRestored {s s' : AppState} {e : ServiceError} (hs : Consistent env s)
    (h : Undone env s e s') :
    (e.Recovered → s.Unchanged s') ∧ (e.SaysRestored → s.Unchanged s') :=
  ⟨h.unchanged hs, fun hsays => h.unchanged hs hsays.recovered⟩

theorem Call.LeavesSessions.not_upholds {s : AppState} (hs : Consistent env s) {call : Call}
    (hleft : call.LeavesSessions env pattern s) : ¬call.Upholds env pattern s := by
  cases call with
  | start => exact hleft.elim
  | save submitted =>
    intro hupholds
    have hends := (saveConfigBlocking_ends hs.serves submitted).and hupholds
    refine Ends.false_elim (hends.mono (fun _ _ h => h.1.1 hleft) ?_)
    rintro e s' ⟨⟨hnot, -⟩ | ⟨-, hrecovered, heverywhere⟩, hunchanged, -⟩
    · exact hnot hleft
    · have hsecured := hleft.secured
      rw [← heverywhere.memory, (hunchanged hrecovered).memory] at hsecured
      cases hsecured.1.symm.trans hsecured.2

/-- **All or nothing**: a call is undone when it fails, unless only ending the sessions fails. -/
theorem upholds_iff {s : AppState} (hs : Consistent env s) (pattern : Pattern) (call : Call) :
    call.Upholds env pattern s ↔ ¬call.LeavesSessions env pattern s := by
  refine ⟨fun hupholds hleft => hleft.not_upholds hs hupholds, fun hnot => ?_⟩
  cases call with
  | start =>
    exact (startDnsBlocking_ends s).mono (fun _ _ h => h) fun _ _ h => h.and_saysRestored hs
  | save submitted =>
    refine (saveConfigBlocking_ends hs.serves submitted).mono (fun _ _ h => h.2) ?_
    rintro e s' (⟨-, hundone⟩ | ⟨hleft, -⟩)
    · exact hundone.and_saysRestored hs
    · exact absurd hleft hnot

end DnsBlackhole.Service
