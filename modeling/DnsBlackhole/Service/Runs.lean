/-
  Calls one after the other, and what they leave in force.

  * `consistent_step`: unless a recovery fails, what is stored is in memory, and no other
    configuration is served;
  * `upholds_iff` (`Recovery`): a call is undone when it fails, unless only ending the
    sessions fails; `sessions_left_behind` is such a call;
  * `hot_swap_is_restart`: whether the server stays, gets another filter or is started
    again, it is the server of the new configuration.
-/
import DnsBlackhole.Service.Recovery

namespace DnsBlackhole.Service
open Admin (AppConfig)
open Config
open Lib hiding Runs

variable {env : Environment} {pattern : Pattern}

/-! ## Runs -/

theorem Everywhere.consistent {config : AppConfig} {s : AppState} (h : Everywhere env config s) :
    Consistent env s := by
  refine ⟨h.memory ▸ h.stored, fun server hserver => ?_⟩
  have hserves := h.server
  rw [h.memory]
  unfold InForce at hserves
  split_ifs at hserves
  · obtain ⟨running, hrunning, hbuilt⟩ := hserves
    cases hserver.symm.trans hrunning
    exact hbuilt
  · cases hserver.symm.trans hserves

theorem AppState.Unchanged.consistent {s s' : AppState} (h : s.Unchanged s')
    (hs : Consistent env s) : Consistent env s' := by
  refine ⟨by rw [h.stored, h.memory, hs.stored], fun server hserver => ?_⟩
  rw [h.memory]
  exact hs.serves server (h.server ▸ hserver)

/-- The state after a call, and the error that it returned. -/
def Call.result (env : Environment) (pattern : Pattern) (call : Call) (s : AppState) :
    AppState × Option ServiceError := outcome (call.run env pattern) s

/-- A disabled resolver whose sessions need no secure cookie. -/
def plainCookie : AppConfig :=
  { Database.retainingConfig 24 with
    schemaVersion := currentConfigSchemaVersion
    enabled := false }

def secureCookie : AppConfig := { plainCookie with webAdminSecureCookie := true }

def noLists : Environment where
  parseUrl := noUrl
  jsonString _ := none
  quote text := text
  filterCache _ := none
  systemHosts := none

def plainService : AppState where
  db := { appConfig := some (plainCookie, 0), statisticsRetentionHours := 24 }
  config := plainCookie
  server := none
  effectiveSummary := Rules.noRules
  lastError := none
  sessions := []

/-- The lock of the sessions is poisoned. -/
def poisonedSessions : Pattern where
  fault
    | .applying, .invalidateSessions => some (.message [])
    | _, _ => none
  updatedAt _ := 0
  now _ := 0

theorem consistent_plainService : Consistent noLists plainService where
  stored := by rw [AppState.storedConfig, plainService, Option.map_some]
  serves server hserver := by rw [AppState.runningServer, plainService] at hserver; cases hserver

theorem adoptSettings_of_current {previous submitted : AppConfig}
    (hversion : submitted.schemaVersion = currentConfigSchemaVersion)
    (hport : ¬ListensAtMdnsPort submitted) : adoptSettings previous submitted = submitted := by
  have hmigrated : migrateLegacyDefaults submitted = submitted := by
    rw [migrateLegacyDefaults_of_le (hversion ▸ by decide), rewriteMdnsPort, if_neg hport,
      ← hversion]
  unfold adoptSettings
  rw [hmigrated, hversion]
  dsimp only
  rw [if_neg (by decide), if_neg (by decide), if_neg (by decide), if_neg (by decide)]

theorem adoptSettings_secureCookie : adoptSettings plainCookie secureCookie = secureCookie :=
  adoptSettings_of_current rfl (by decide)

theorem validate_secureCookie : validate noUrl secureCookie = .ok () :=
  toOption_eq_some.1 (by decide +kernel)

/-- Where the server is not asked for, and is stored over nothing else, only the sessions fail. -/
theorem sessionsLeft_of_disabled {s : AppState} {config : AppConfig}
    (hfault : ∀ phase step, step ≠ .invalidateSessions → pattern.fault phase step = none)
    (hsessions : pattern.fault .applying .invalidateSessions ≠ none)
    (hdisabled : config.enabled = false) (hvalid : validate env.parseUrl config = .ok ())
    (hsaves : ∃ db', Database.saveConfig (validateStored env.parseUrl) s.db config
      (pattern.updatedAt .applying) (pattern.now .applying) = .ok db')
    (hsecured : config.webAdminSecureCookie = true ∧ s.config.webAdminSecureCookie = false) :
    SessionsLeft env pattern s.config config s := by
  refine ⟨hsecured, hsessions, hfault _ _ (by decide), hvalid, fun h => ?_, hfault _ _ (by decide),
    fun h => ?_, ⟨hfault _ _ (by decide), hsaves⟩, hfault _ _ (by decide), ?_⟩
  · rw [hdisabled] at h
    cases h
  · simp [canPreflightDnsListeners, mustStart, hdisabled] at h
  · unfold SavedApplies
    rw [if_neg (by simp [hdisabled])]
    exact ⟨hfault _ _ (by decide), fun _ => hfault _ _ (by decide)⟩

/-- A configuration that retains statistics for a time can be written to every database. -/
theorem exists_saveConfig {config : AppConfig} {db : Database} {now : ℕ}
    (hvalid : validate env.parseUrl config = .ok ()) (hhours : config.statisticsRetentionHours ≠ 0) :
    ∃ db', Database.saveConfig (validateStored env.parseUrl) db config 0 now = .ok db' := by
  have hstored : validateStored env.parseUrl config = .ok () := mapError_eq_ok.2 hvalid
  have hswitch : ¬(config.statisticsRetentionHours = 0 ∧ db.statisticsRetentionHours ≠ 0) :=
    fun h => hhours h.1
  refine ⟨{ db with
    appConfig := some (config, 0)
    statisticsRetentionHours := config.statisticsRetentionHours },
    bind_eq_ok.2 ⟨(), hstored, bind_eq_ok.2 ⟨0, rfl, ?_⟩⟩⟩
  dsimp only
  rw [if_neg hswitch]
  rfl

theorem sessionsLeft_plainService :
    (Call.save secureCookie).LeavesSessions noLists poisonedSessions plainService := by
  change SessionsLeft noLists poisonedSessions plainService.config
    (adoptSettings plainCookie secureCookie) plainService
  rw [adoptSettings_secureCookie]
  refine sessionsLeft_of_disabled (s := plainService) ?_ nofun rfl validate_secureCookie
    (exists_saveConfig validate_secureCookie (by decide)) ⟨rfl, rfl⟩
  intro phase step hstep
  cases phase <;> cases step <;> first | rfl | exact absurd rfl hstep

/-- **Ending the sessions fails, and nothing is undone.** -/
theorem sessions_left_behind : Consistent noLists plainService ∧
    ¬(Call.save secureCookie).Upholds noLists poisonedSessions plainService :=
  ⟨consistent_plainService, sessionsLeft_plainService.not_upholds consistent_plainService⟩

theorem upholds_plainService : Call.start.Upholds noLists poisonedSessions plainService :=
  (upholds_iff consistent_plainService poisonedSessions .start).2 id

/-! ## What is in force after a saving -/

/-- **A hot swap is a restart**: what asks for neither leaves server and filter the same, and
    after every saving the server that runs is that of the new configuration. -/
theorem hot_swap_is_restart :
    (∀ (env : Environment) (c d : AppConfig), needsDnsRestart c d = false →
      serverParameters env c = serverParameters env d) ∧
    (∀ (env : Environment) (c d : AppConfig), filterRuntimeChanged c d = false →
      buildFilterRuntime env c = buildFilterRuntime env d) ∧
    ∀ (env : Environment) (pattern : Pattern) (s : AppState) (submitted : AppConfig),
      s.config.enabled = true → Runs env s.config s →
      (adoptSettings s.config submitted).enabled = true →
        Ends (saveConfigBlocking env pattern submitted) s
          (fun _ s' => s'.config = adoptSettings s.config submitted ∧
            Runs env (adoptSettings s.config submitted) s') (fun _ _ => True) := by
  refine ⟨fun env c d h => serverParameters_eq h, fun env c d h => buildFilterRuntime_eq h, ?_⟩
  intro env pattern s submitted _ hruns henabled
  have hserves : Serves env s.config s := by
    intro server hserver
    obtain ⟨running, hrunning, hbuilt⟩ := hruns
    cases hserver.symm.trans hrunning
    exact hbuilt
  refine (saveConfigBlocking_ends hserves submitted).mono ?_ fun _ _ _ => trivial
  rintro ⟨⟩ s' ⟨-, heverywhere⟩
  have hinForce := heverywhere.server
  unfold InForce at hinForce
  rw [if_pos henabled] at hinForce
  exact ⟨heverywhere.memory, hinForce⟩

def enabledCookie : AppConfig := { secureCookie with enabled := true }

def enabledService : AppState :=
  { plainService with
    config := enabledCookie
    server := (buildServer noLists enabledCookie).toOption }

theorem runs_enabledService : Runs noLists enabledCookie enabledService := by
  have hbuilt : (buildServer noLists enabledCookie).toOption.isSome = true := by decide +kernel
  obtain ⟨server, hserver⟩ := Option.isSome_iff_exists.1 hbuilt
  exact runs_of_server (s := enabledService) hserver (toOption_eq_some.1 hserver)

theorem hot_swap_enabledService :
    Ends (saveConfigBlocking noLists poisonedSessions enabledCookie) enabledService
      (fun _ s' => s'.config = enabledCookie ∧ Runs noLists enabledCookie s') (fun _ _ => True) := by
  have hadopt : adoptSettings enabledService.config enabledCookie = enabledCookie :=
    adoptSettings_of_current rfl (by decide)
  have h := hot_swap_is_restart.2.2 noLists poisonedSessions enabledService enabledCookie rfl
    runs_enabledService (hadopt ▸ rfl)
  rwa [hadopt] at h

end DnsBlackhole.Service
