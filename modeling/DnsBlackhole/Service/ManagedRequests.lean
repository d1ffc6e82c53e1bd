/-
  The requests that store a configuration, while the system DNS is managed
  (`dispatch_request` of `rpc_server.rs`).

  Saving a configuration is checked and stopping is refused; an update of the lists
  stores what is submitted with it, and is not checked.

  * `dispatchRequest_keeps`: a harmless request keeps the resolver, wherever it fails;
  * `dispatchRequest_iff`: a request that succeeds keeps it if and only if it is harmless;
  * `managed_resolver_kept`: the same along runs;
  * `update_stops_resolver`: an update that stops it.
-/
import DnsBlackhole.Service.ManagedConfig

namespace DnsBlackhole.Service
open Admin (AppConfig FilterSubscription)
open Config
open Lib hiding Runs

/-! ## Requests -/

inductive Request
  | saveConfig (submitted : AppConfig)
  /-- The lists that are asked for, and what their downloads give. -/
  | updateFilters (submitted : AppConfig) (shouldUpdate : FilterSubscription → Bool)
      (outcomes : Text → Option (Except Text Download))
  | applyQueryLogRule (domain action : Text) (target : Option Text)
  | startDns
  | stopDns

/-- Which steps of a request fail: its saving, its downloads as a whole, and the update. -/
structure RequestPattern where
  saving : UpdatePattern
  download : Option StepError
  update : UpdatePattern

section
variable (env : Environment) (pattern : RequestPattern)

/-- `update_filters_blocking`: what is submitted is saved, and the lists are updated. -/
def updateFiltersBlocking (submitted : AppConfig) (shouldUpdate : FilterSubscription → Bool)
    (outcomes : Text → Option (Except Text Download)) :
    EStateM ServiceError UpdateState Unit := do
  let config := migrateLegacyDefaults submitted
  onService env fun env => step (lift .message (validate env.parseUrl config))
  onService env fun env => saveConfigBlocking env pattern.saving.service config
  onService env fun _ => step (check pattern.download)
  let s ← get
  applyUpdate env pattern.update (stagedFiles shouldUpdate outcomes s.app.config)
    (updateMatchingFilters env.jsonString shouldUpdate outcomes s.app.config)
    (updatedCount shouldUpdate outcomes s.app.config)

/-- The branches of `dispatch_request` that store a configuration. -/
def dispatchRequest (dns : SystemDns) : Request → EStateM ServiceError UpdateState Unit
  | .saveConfig submitted => do
    onService env fun _ => step (lift .message (dns.validateManaged submitted))
    onService env fun env => saveConfigBlocking env pattern.saving.service submitted
  | .updateFilters submitted shouldUpdate outcomes =>
    updateFiltersBlocking env pattern submitted shouldUpdate outcomes
  | .applyQueryLogRule domain action target => do
    let s ← get
    Pending.section env pattern.saving ⟨.queryLogRule domain action target, s.app.config⟩
  | .startDns => onService env fun env => startDnsBlocking env pattern.saving.service
  | .stopDns => do
    onService env fun _ => step (lift .message dns.ensureNotManaged)
    onService env fun env => stopDnsBlocking env pattern.saving.service

end

/-! ## What a request leaves -/

/-- The configuration is accepted, in memory and in the database. -/
def SystemDns.Keeps (dns : SystemDns) (s : AppState) : Prop :=
  Within dns.Accepts (fun stored => ∀ config, stored = some config → dns.Accepts config) s

/-- The request brings no configuration that could not have been saved. -/
def Request.Harmless (env : Environment) (dns : SystemDns) (s : AppState) : Request → Prop
  | .saveConfig submitted => dns.Accepts submitted → dns.AcceptsKept s.config submitted
  | .updateFilters submitted _ _ =>
    validate env.parseUrl (migrateLegacyDefaults submitted) = .ok () →
      dns.Accepts (migrateLegacyDefaults submitted)
  | _ => True

/-! ## Requests, one by one -/

section
variable {env : Environment} {pattern : RequestPattern} {dns : SystemDns} {s : UpdateState}
  {config : AppConfig}

theorem Put.keeps {app : AppState} (hput : Put env config app) :
    dns.Keeps app ↔ dns.Accepts config := by
  unfold SystemDns.Keeps Within
  rw [hput.memory, hput.stored]
  exact ⟨fun h => h.1, fun h => ⟨h, fun _ hstored => Option.some.inj hstored ▸ h⟩⟩

theorem onService_keeps {x : Environment → EStateM ServiceError AppState Unit}
    (h : Ends (x (env.withFiles s.files)) s.app
      (fun _ app => Put (env.withFiles s.files) config app) fun _ app => dns.Keeps app) :
    Ends (onService env x) s (fun _ s' => Put env config s'.app)
      (fun _ s' => dns.Keeps s'.app) := by
  refine (onService_ends h).mono ?_ fun _ _ h => h.2
  rintro _ s' ⟨-, hput⟩
  exact ⟨hput.memory, hput.stored, hput.valid⟩

theorem saveConfigBlocking_keeps {pattern : Pattern} {submitted : AppConfig}
    (hs : dns.Keeps s.app)
    (hnew : validate env.parseUrl (adoptSettings s.app.config submitted) = .ok () →
      dns.Accepts (adoptSettings s.app.config submitted)) :
    Ends (onService env fun env => saveConfigBlocking env pattern submitted) s
      (fun _ s' => Put env (adoptSettings s.app.config submitted) s'.app)
      (fun _ s' => dns.Keeps s'.app) := by
  refine onService_keeps (saveConfigBlocking_within hs ?_ fun hvalid => ?_)
  · rintro config ⟨⟩
    exact hs.1
  · refine ⟨hnew hvalid, ?_⟩
    rintro config ⟨⟩
    exact hnew hvalid

theorem saveConfigBlocking_put {pattern : Pattern} (submitted : AppConfig) :
    Ends (onService env fun env => saveConfigBlocking env pattern submitted) s
      (fun _ s' => Put env (adoptSettings s.app.config submitted) s'.app) (fun _ _ => True) := by
  have hwithin : Within (fun _ => True) (fun _ => True) s.app := ⟨trivial, trivial⟩
  refine (onService_ends (saveConfigBlocking_within hwithin trivial fun _ =>
    ⟨trivial, trivial⟩)).mono ?_ fun _ _ _ => trivial
  rintro _ s' ⟨-, hput⟩
  exact ⟨hput.memory, hput.stored, hput.valid⟩

theorem sameResolver_mergedConfig (staged : FilterFiles) (latest downloaded : AppConfig) :
    SameResolver latest (mergedConfig staged latest downloaded) :=
  ⟨rfl, rfl, rfl, rfl, rfl, rfl, rfl, rfl, rfl, rfl⟩

theorem applyUpdate_keeps {pattern : UpdatePattern} {staged : FilterFiles} {downloaded : AppConfig}
    (updated : ℕ) (hs : dns.Keeps s.app) :
    Ends (applyUpdate env pattern staged downloaded updated) s
      (fun _ s' => dns.Keeps s'.app) (fun _ s' => dns.Keeps s'.app) := by
  have hmerged : dns.Accepts (mergedConfig staged s.app.config downloaded) :=
    accepts_of_same hs.1 (sameResolver_mergedConfig _ _ _)
  refine (applyUpdate_within updated hs ?_ fun _ => ⟨hmerged, ?_⟩).mono
    (fun _ _ hput => hput.keeps.2 hmerged) fun _ _ h => h
  · rintro config ⟨⟩
    exact hs.1
  · rintro config ⟨⟩
    exact hmerged

theorem accepts_enabledConfig (h : dns.Accepts config) : dns.Accepts (enabledConfig config) := by
  have hmigrated := accepts_migrateLegacyDefaults h
  have henabled : (migrateLegacyDefaults config).enabled = true := by
    cases dns with
    | linux journal => exact (validateAsManaged_eq_ok.1 hmigrated).enabled
    | windows backupManaged => exact (validateManagedOnWindows_eq_ok.1 hmigrated).enabled
  unfold enabledConfig
  generalize migrateLegacyDefaults config = migrated at hmigrated henabled ⊢
  exact accepts_of_same hmigrated ⟨henabled.symm, rfl, rfl, rfl, rfl, rfl, rfl, rfl, rfl, rfl⟩

theorem startDnsBlocking_keeps {pattern : Pattern} (hs : dns.Keeps s.app) :
    Ends (onService env fun env => startDnsBlocking env pattern) s
      (fun _ s' => dns.Keeps s'.app) (fun _ s' => dns.Keeps s'.app) := by
  have hstart := accepts_enabledConfig hs.1
  refine (onService_keeps (startDnsBlocking_within hs ?_ fun _ => ⟨hstart, ?_⟩)).mono
    (fun _ _ hput => hput.keeps.2 hstart) fun _ _ h => h
  · rintro config ⟨⟩
    exact hs.1
  · rintro config ⟨⟩
    exact hstart

theorem queryLogRule_keeps_resolver {domain action : Text} {target : Option Text}
    {pattern : UpdatePattern} (hs : dns.Keeps s.app) :
    Ends (Pending.section env pattern ⟨.queryLogRule domain action target, s.app.config⟩) s
      (fun _ s' => dns.Keeps s'.app) (fun _ s' => dns.Keeps s'.app) := by
  unfold Pending.section
  dsimp only
  cases hrule : queryLogRule domain action target s.app.config with
  | error error => exact Ends.throw hs
  | ok next =>
    dsimp only
    split_ifs
    · have hsame : SameResolver s.app.config next := by
        rw [queryLogRule_keeps hrule]
        exact ⟨rfl, rfl, rfl, rfl, rfl, rfl, rfl, rfl, rfl, rfl⟩
      have hnext := accepts_of_same hs.1 hsame
      have hstored : dns.Accepts (adoptSettings s.app.config next) := by
        refine (accepts_adoptSettings (accepts_migrateLegacyDefaults hnext)).2 ?_
        exact acceptsKept_of_accepts hs.1 hsame
      refine (saveConfigBlocking_keeps hs fun _ => hstored).mono
        (fun _ _ hput => hput.keeps.2 hstored) fun _ _ h => h
    · exact Ends.pure hs

theorem updateFiltersBlocking_keeps {submitted : AppConfig}
    {shouldUpdate : FilterSubscription → Bool} {outcomes : Text → Option (Except Text Download)}
    (hs : dns.Keeps s.app)
    (hnew : validate env.parseUrl (migrateLegacyDefaults submitted) = .ok () →
      dns.Accepts (migrateLegacyDefaults submitted)) :
    Ends (updateFiltersBlocking env pattern submitted shouldUpdate outcomes) s
      (fun _ s' => dns.Keeps s'.app) (fun _ s' => dns.Keeps s'.app) := by
  have hadopt (previous : AppConfig) :=
    adoptSettings_migrateLegacyDefaults previous submitted
  unfold updateFiltersBlocking
  dsimp only
  generalize migrateLegacyDefaults submitted = config at hadopt hnew ⊢
  refine (onService_ends (step_ends validate_ends (F := fun _ app => app = s.app) fun _ _ h =>
    h.2)).bind (fun _ _ h => h.2 ▸ hs) ?_
  rintro ⟨⟩ s₁ ⟨-, hvalid, happ⟩
  have haccepts := hnew hvalid
  refine (saveConfigBlocking_keeps (happ ▸ hs) fun _ => (hadopt s₁.app.config).symm ▸ haccepts).bind
    (fun _ _ h => h) ?_
  rintro ⟨⟩ s₂ hput
  have hs₂ : dns.Keeps s₂.app := hput.keeps.2 ((hadopt s₁.app.config).symm ▸ haccepts)
  refine (onService_ends (step_ends (check_ends pattern.download) (F := fun _ app => app = s₂.app)
    fun _ _ h => h.2)).bind (fun _ _ h => h.2 ▸ hs₂) ?_
  rintro ⟨⟩ s₃ ⟨-, -, happ₃⟩
  exact Ends.get_bind (applyUpdate_keeps _ (happ₃ ▸ hs₂))

theorem checked_ends {x : Except Text Unit} :
    Ends (onService env fun _ => step (lift .message x)) s (fun _ s' => x = .ok () ∧ s'.app = s.app)
      (fun _ s' => x ≠ .ok () ∧ s'.app = s.app) := by
  refine (onService_ends (step_ends (Q := fun _ app => x = .ok () ∧ app = s.app)
    (E := fun _ app => x ≠ .ok () ∧ app = s.app) (F := fun _ app => x ≠ .ok () ∧ app = s.app)
    (Ends.lift (fun _ herror => ⟨by simp [herror], rfl⟩) fun _ hok => ⟨hok, rfl⟩)
    fun _ _ h => h)).mono (fun _ _ h => h.2) fun _ _ h => h.2

theorem validateManaged_of_managed (hmanaged : dns.managed = true) :
    dns.validateManaged config = .ok () ↔ dns.Accepts config := by
  unfold SystemDns.validateManaged
  rw [if_pos hmanaged]
  exact Iff.rfl

theorem not_ensureNotManaged (hmanaged : dns.managed = true) : dns.ensureNotManaged ≠ .ok () := by
  intro hok
  exact require_eq_ok.1 hok hmanaged

theorem saveChecked_keeps {submitted : AppConfig} (hmanaged : dns.managed = true)
    (hs : dns.Keeps s.app)
    (h : dns.Accepts submitted → dns.AcceptsKept s.app.config submitted) :
    Ends (dispatchRequest env pattern dns (.saveConfig submitted)) s (fun _ s' => dns.Keeps s'.app)
      (fun _ s' => dns.Keeps s'.app) := by
  have hstored (haccepts : dns.Accepts submitted) :
      dns.Accepts (adoptSettings s.app.config submitted) :=
    (accepts_adoptSettings (accepts_migrateLegacyDefaults haccepts)).2 (h haccepts)
  unfold dispatchRequest
  refine checked_ends.bind (fun _ _ h => h.2 ▸ hs) ?_
  rintro ⟨⟩ s₁ ⟨hvalid, happ⟩
  have hadopted := hstored ((validateManaged_of_managed hmanaged).1 hvalid)
  rw [← happ] at hs hadopted
  exact (saveConfigBlocking_keeps hs fun _ => hadopted).mono
    (fun _ _ hput => hput.keeps.2 hadopted) fun _ _ h => h

variable {request : Request}

/-- **A harmless request** keeps a managed resolver, wherever it fails. -/
theorem dispatchRequest_keeps (hmanaged : dns.managed = true) (hs : dns.Keeps s.app)
    (h : request.Harmless env dns s.app) :
    Ends (dispatchRequest env pattern dns request) s (fun _ s' => dns.Keeps s'.app)
      (fun _ s' => dns.Keeps s'.app) := by
  revert h
  cases request with
  | saveConfig submitted => exact saveChecked_keeps hmanaged hs
  | updateFilters submitted shouldUpdate outcomes =>
    exact @updateFiltersBlocking_keeps env pattern dns s submitted shouldUpdate outcomes hs
  | applyQueryLogRule domain action target =>
    exact fun _ => Ends.get_bind (queryLogRule_keeps_resolver hs)
  | startDns => exact fun _ => startDnsBlocking_keeps hs
  | stopDns =>
    refine fun _ => checked_ends.bind (fun _ _ h => h.2 ▸ hs) ?_
    rintro ⟨⟩ s₁ ⟨hok, -⟩
    exact absurd hok (not_ensureNotManaged hmanaged)

/-- **A request that succeeds** keeps a managed resolver if and only if it is harmless. -/
theorem dispatchRequest_iff (hmanaged : dns.managed = true) (hs : dns.Keeps s.app) :
    Ends (dispatchRequest env pattern dns request) s
      (fun _ s' => dns.Keeps s'.app ↔ request.Harmless env dns s.app) (fun _ _ => True) := by
  have hharmless (hrequest : request.Harmless env dns s.app) :
      Ends (dispatchRequest env pattern dns request) s
        (fun _ s' => dns.Keeps s'.app ↔ request.Harmless env dns s.app) (fun _ _ => True) :=
    (dispatchRequest_keeps hmanaged hs hrequest).mono (fun _ _ h => iff_of_true h hrequest)
      fun _ _ _ => trivial
  cases request with
  | saveConfig submitted =>
    refine checked_ends.bind (fun _ _ _ => trivial) ?_
    rintro ⟨⟩ s₁ ⟨hvalid, happ⟩
    have haccepts := (validateManaged_of_managed hmanaged).1 hvalid
    refine (saveConfigBlocking_put submitted).mono ?_ fun _ _ _ => trivial
    intro _ s' hput
    rw [hput.keeps, happ, accepts_adoptSettings (accepts_migrateLegacyDefaults haccepts)]
    exact ⟨fun h _ => h, fun h => h haccepts⟩
  | updateFilters submitted shouldUpdate outcomes =>
    have hadopt (previous : AppConfig) :=
      adoptSettings_migrateLegacyDefaults previous submitted
    unfold dispatchRequest updateFiltersBlocking Request.Harmless
    dsimp only
    generalize migrateLegacyDefaults submitted = config at hadopt ⊢
    refine (onService_ends (step_ends validate_ends (F := fun _ app => app = s.app) fun _ _ h =>
      h.2)).bind (fun _ _ _ => trivial) ?_
    rintro ⟨⟩ s₁ ⟨-, hvalid, happ⟩
    refine (saveConfigBlocking_put config).bind (fun _ _ _ => trivial) ?_
    rintro ⟨⟩ s₂ hput
    rw [hadopt] at hput
    refine (onService_ends (step_ends (check_ends pattern.download)
      (F := fun _ app => app = s₂.app) fun _ _ h => h.2)).bind (fun _ _ _ => trivial) ?_
    rintro ⟨⟩ s₃ ⟨-, -, happ₃⟩
    have hmemory : s₃.app.config = config := happ₃ ▸ hput.memory
    have hwithin : Within (fun _ => True) (fun _ => True) s₃.app := ⟨trivial, trivial⟩
    refine Ends.get_bind ((applyUpdate_within _ hwithin trivial fun _ => ⟨trivial, trivial⟩).mono ?_
      fun _ _ _ => trivial)
    intro _ s' hmerged
    rw [hmerged.keeps, ← accepts_congr (sameResolver_mergedConfig _ _ _), hmemory]
    exact ⟨fun h _ => h, fun h => h hvalid⟩
  | applyQueryLogRule domain action target => exact hharmless trivial
  | startDns => exact hharmless trivial
  | stopDns => exact hharmless trivial

end

/-! ## Runs -/

/-- A request, and which of its steps fail. -/
structure RequestEvent where
  request : Request
  pattern : RequestPattern

/-- The requests other than those for the system DNS, while it is as `dns` says. -/
def requestMachine (env : Environment) (dns : SystemDns) (init : UpdateState) :
    Machine UpdateState RequestEvent where
  init
  step s event := some (outcome (dispatchRequest env event.pattern dns event.request) s).1

def RequestEvent.Harmless (env : Environment) (dns : SystemDns) (s : UpdateState)
    (event : RequestEvent) : Prop :=
  event.request.Harmless env dns s.app

/-- **While the system DNS is managed**, requests that are harmless never take the resolver
    away, wherever they fail; and a request that succeeds takes it away unless it is harmless. -/
theorem managed_resolver_kept (env : Environment) (dns : SystemDns)
    (hmanaged : dns.managed = true) :
    (∀ (s t : UpdateState) (events : List RequestEvent), dns.Keeps s.app →
      (requestMachine env dns s).Guarded (RequestEvent.Harmless env dns) s events →
      (requestMachine env dns s).run s events = some t → dns.Keeps t.app) ∧
    ∀ (s : UpdateState) (event : RequestEvent), dns.Keeps s.app →
      (outcome (dispatchRequest env event.pattern dns event.request) s).2 = none →
      (dns.Keeps (outcome (dispatchRequest env event.pattern dns event.request) s).1.app ↔
        event.Harmless env dns s) := by
  constructor
  · intro s t events hs hguarded hrun
    refine Machine.Guarded.inv (P := fun s => dns.Keeps s.app) ?_ events hs hguarded hrun
    rintro s event s' hs hharmless ⟨⟩
    exact Ends.outcome_always (dispatchRequest_keeps hmanaged hs hharmless)
  · intro s event hs hsucceeds
    exact (Ends.outcome (dispatchRequest_iff hmanaged hs)).2 hsucceeds

/-- A takeover that stands. -/
def takenOver : SystemDns :=
  .linux (some
    { desired := true
      effective := true
      pending := false
      originalResolvConf := .missing
      originalDropIn := .missing
      managedDropInSha256 := []
      managedResolvConfTarget := []
      lastError := none })

/-- The resolver that it rests on. -/
def managedState : UpdateState where
  app :=
    { plainService with
      db := { appConfig := some (enabledCookie, 0), statisticsRetentionHours := 24 }
      config := enabledCookie }
  files := noLists.filterCache

theorem keeps_managedState : takenOver.Keeps managedState.app := by
  have hchecked : (takenOver.check enabledCookie).toOption = some () := by decide +kernel
  have haccepts : takenOver.Accepts enabledCookie := Lib.toOption_eq_some.1 hchecked
  refine ⟨haccepts, ?_⟩
  rintro config ⟨⟩
  exact haccepts

theorem managed_resolver_started : ∃ t,
    (requestMachine noLists takenOver managedState).run managedState
      [⟨.startDns, ⟨noFaults, none, noFaults⟩⟩] = some t ∧ takenOver.Keeps t.app := by
  refine ⟨_, rfl, ?_⟩
  exact (managed_resolver_kept noLists takenOver rfl).1 managedState _
    [⟨.startDns, ⟨noFaults, none, noFaults⟩⟩] keeps_managedState
    ⟨trivial, _, rfl, trivial⟩ rfl

/-- An update of the lists, submitted with a configuration that does not run the resolver. -/
def disablingUpdate : RequestEvent where
  request := .updateFilters { enabledCookie with enabled := false } (fun _ => true) fun _ => none
  pattern := ⟨noFaults, none, noFaults⟩

/-- **An update of the lists stops the resolver** that the system DNS rests on. -/
theorem update_stops_resolver : ∃ (env : Environment) (dns : SystemDns) (s : UpdateState)
    (event : RequestEvent), dns.managed = true ∧ dns.Keeps s.app ∧
      ¬dns.Keeps (outcome (dispatchRequest env event.pattern dns event.request) s).1.app := by
  refine ⟨noLists, takenOver, managedState, disablingUpdate, rfl, keeps_managedState, ?_⟩
  have hdisabled : (outcome (dispatchRequest noLists disablingUpdate.pattern takenOver
      disablingUpdate.request) managedState).1.app.config.enabled = false := by decide +kernel
  intro hkeeps
  have haccepted := validateAsManaged_eq_ok.1 hkeeps.1
  cases hdisabled.symm.trans haccepted.enabled

end DnsBlackhole.Service
