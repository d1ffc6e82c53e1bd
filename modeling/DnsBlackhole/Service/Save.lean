/-
  Saving a configuration, starting and stopping the server (`save_config_blocking`,
  `start_dns_blocking` and `stop_dns_blocking` of `service_core.rs`).

  The configuration is in the database, in memory and in what the running server was
  built from.  A call changes them step by step; a `Pattern` says which steps fail,
  on the way and in the recovery.

  What is not kept here: the cache of the statistics, the maintenance that a shorter
  retention starts, and the status that a call returns.
-/
import DnsBlackhole.Admin.Auth
import DnsBlackhole.Config.Load
import DnsBlackhole.Lib.Attempt
import DnsBlackhole.Rules.Statistics
import DnsBlackhole.Service.Changes

namespace DnsBlackhole.Service
open Admin (AppConfig FilterSubscription SessionEntry)
open Cache (saturatingAdd64)
open Config
open Database (DatabaseError saveConfig)
open Filter (FilterRuntime)
open Lib
open Rules (RuleSummary)

/-! ## The state -/

/-- The steps of a call that may fail; a lock that is poisoned fails them too. -/
inductive Step
  | readConfig
  | needsStart
  | wasRunning
  | preflight
  | saveDatabase
  | replaceConfig
  | stopServer
  | lockServer
  | readMemory
  | bindListeners
  | storeServer
  | setSummary
  | invalidateSessions
  deriving DecidableEq

/-- A call is made, and perhaps recovers. -/
inductive Phase
  | applying
  | recovering
  deriving DecidableEq

inductive StepError
  | message (text : Text)
  | database (error : DatabaseError)

inductive ServiceError
  /-- The error of a step, as it is. -/
  | failed (error : StepError)
  /-- `新配置监听条件预检失败：{error}；原配置及服务未更改` -/
  | preflight (error : StepError)
  /-- `新配置应用失败：{error}；` and `已恢复原配置及服务状态`, or
      `恢复也失败：{failures}` if there are any. -/
  | notApplied (error : StepError) (failures : List StepError)
  /-- `清单更新应用失败：{error}；` and `已恢复原配置和清单缓存`, or `恢复也失败：{failures}`. -/
  | notPublished (error : StepError) (failures : List StepError)

/-- The text says that the configuration and the service are as before. -/
def ServiceError.SaysRestored : ServiceError → Prop
  | .failed _ => False
  | .preflight _ => True
  | .notApplied _ failures | .notPublished _ failures => failures = []

/-- No step of a recovery has failed. -/
def ServiceError.Recovered : ServiceError → Prop
  | .notApplied _ failures | .notPublished _ failures => failures = []
  | _ => True

/-- Which steps fail, and the time in each phase. -/
structure Pattern where
  fault : Phase → Step → Option StepError
  updatedAt : Phase → ℕ
  now : Phase → ℕ

structure AppState where
  db : Database
  config : AppConfig
  server : Option DnsServer
  effectiveSummary : RuleSummary
  lastError : Option ServiceError
  sessions : List SessionEntry

namespace AppState

def storedConfig (s : AppState) : Option AppConfig := s.db.appConfig.map Prod.fst

/-- `server_needs_start` -/
def serverNeedsStart (s : AppState) : Bool := s.server.all (·.hasFinishedThreads)

/-- The server, if it runs. -/
def runningServer (s : AppState) : Option DnsServer := s.server.filter (!·.hasFinishedThreads)

end AppState

/-- What is added up from the numbers that the lists were downloaded with. -/
def addFilterCounts (summary : RuleSummary) (filter : FilterSubscription) : RuleSummary :=
  let blockRules :=
    if filter.blockRuleCount = 0 ∧ filter.allowRuleCount = 0 ∧ 0 < filter.ruleCount then
      filter.ruleCount
    else filter.blockRuleCount
  { blockRules := saturatingAdd64 summary.blockRules blockRules
    allowRules := saturatingAdd64 summary.allowRules filter.allowRuleCount
    ignoredRules := saturatingAdd64 summary.ignoredRules filter.ignoredRuleCount
    ignoredCommentRules := saturatingAdd64 summary.ignoredCommentRules filter.ignoredCommentCount
    ignoredRegexRules := saturatingAdd64 summary.ignoredRegexRules filter.ignoredRegexCount
    ignoredUnsupportedRules :=
      saturatingAdd64 summary.ignoredUnsupportedRules filter.ignoredUnsupportedCount
    ignoredInvalidRules := saturatingAdd64 summary.ignoredInvalidRules filter.ignoredInvalidCount }

def configuredRuleSummary (env : Environment) (config : AppConfig) : RuleSummary :=
  if config.useFilters then
    (config.filters.filter (·.enabled)).foldl addFilterCounts
      (Rules.summaryOf (Rules.scanRulesWithDisabled env.jsonString config.blacklist []))
  else Rules.noRules

/-! ## Starting and stopping -/

/-- The steps of a call, which fail with the error of a step. -/
abbrev ServiceM := EStateM StepError AppState

section
variable (env : Environment) (pattern : Pattern) (phase : Phase)

/-- `Database::save_config` -/
def saveToDatabase (config : AppConfig) : ServiceM Unit := do
  check (pattern.fault phase .saveDatabase)
  let s ← get
  let db ← lift .database (saveConfig (validateStored env.parseUrl) s.db config
    (pattern.updatedAt phase) (pattern.now phase))
  set { s with db }

def replaceConfig (config : AppConfig) : ServiceM Unit := do
  check (pattern.fault phase .replaceConfig)
  modify fun s => { s with config }

def setEffectiveSummary (effectiveSummary : RuleSummary) : ServiceM Unit := do
  check (pattern.fault phase .setSummary)
  modify fun s => { s with effectiveSummary }

def stopCurrent : ServiceM Unit := do
  check (pattern.fault phase .stopServer)
  modify fun s => { s with server := none }

/-- A server that cannot be kept is stopped again. -/
def startCurrent : ServiceM Unit := do
  stopCurrent pattern phase
  check (pattern.fault phase .readMemory)
  let s ← get
  let server ← lift .message (buildServer env s.config)
  check (pattern.fault phase .bindListeners)
  setEffectiveSummary pattern phase server.filterRuntime.rules.summary
  check (pattern.fault phase .storeServer)
  modify fun s => { s with server := some server, lastError := none }

/-- The filter is replaced in the running server; `false` asks for a restart. -/
def tryHotSwap (previous config : AppConfig) : ServiceM Bool := do
  if needsDnsRestart previous config then return false
  else
    check (pattern.fault phase .lockServer)
    let s ← get
    match s.server with
    | none => return false
    | some server =>
      if server.hasFinishedThreads then return false
      else
        let filterRuntime ← lift .message (buildFilterRuntime env config)
        modify fun s => { s with server := some { server with filterRuntime } }
        setEffectiveSummary pattern phase filterRuntime.rules.summary
        return true

def applyConfigChange (previous config : AppConfig) : ServiceM Unit := do
  if config.enabled then
    let swapped ← tryHotSwap env pattern phase previous config
    if swapped then modify fun s => { s with lastError := none }
    else startCurrent env pattern phase
  else
    stopCurrent pattern phase
    modify fun s => { s with lastError := none }

end

/-! ## The calls -/

/-- Version 11 brought settings of the statistics. -/
def keepStatistics (previous config : AppConfig) : AppConfig :=
  { config with
    statisticsEnabled := previous.statisticsEnabled
    statisticsRetentionHours := previous.statisticsRetentionHours
    statisticsIgnoredDomains := previous.statisticsIgnoredDomains }

/-- Version 16 brought the groups of clients and the monitoring interface. -/
def keepPolicies (previous config : AppConfig) : AppConfig :=
  { config with
    clientPolicyGroups := previous.clientPolicyGroups
    familySafeSearch := previous.familySafeSearch
    familyBlockedServices := previous.familyBlockedServices
    monitoringApiEnabled := previous.monitoringApiEnabled
    monitoringApiListenHost := previous.monitoringApiListenHost
    monitoringApiPort := previous.monitoringApiPort
    monitoringApiToken := previous.monitoringApiToken }

def keepIpv6Host (previous config : AppConfig) : AppConfig :=
  { config with listenIpv6Host := previous.listenIpv6Host }

def keepSessions (previous config : AppConfig) : AppConfig :=
  { config with
    webAdminSessionIdleMinutes := previous.webAdminSessionIdleMinutes
    webAdminSecureCookie := previous.webAdminSecureCookie }

/-- What is stored of a submitted configuration: it is migrated, and settings that its
    version does not know stay as they were. -/
def adoptSettings (previous submitted : AppConfig) : AppConfig :=
  let config := migrateLegacyDefaults submitted
  let config := if submitted.schemaVersion < 11 then keepStatistics previous config else config
  let config := if submitted.schemaVersion < 16 then keepPolicies previous config else config
  let config := if submitted.schemaVersion < 18 then keepIpv6Host previous config else config
  if submitted.schemaVersion < 19 then keepSessions previous config else config

/-- Whether the server must be started; it is only looked at where that decides. -/
def startRequired (pattern : Pattern) (previous config : AppConfig) : ServiceM Bool := do
  if config.enabled then
    if !previous.enabled || needsDnsRestart previous config then return true
    else
      check (pattern.fault .applying .needsStart)
      let s ← get
      return s.serverNeedsStart
  else return false

def wasRunning (pattern : Pattern) : ServiceM Bool := do
  check (pattern.fault .applying .wasRunning)
  let s ← get
  return !s.serverNeedsStart

/-- Whether the sockets can be tried out before the old server is stopped. -/
def canPreflightDnsListeners (previous config : AppConfig) (startRequired wasRunning : Bool) :
    Bool :=
  let oldMonitorOccupiesNewDnsPort :=
    previous.monitoringApiEnabled && previous.monitoringApiPort == config.listenPort
  startRequired && (!wasRunning ||
    (previous.listenPort != config.listenPort && !oldMonitorOccupiesNewDnsPort))

section
variable (env : Environment) (pattern : Pattern)

def preflightListeners (config : AppConfig) : ServiceM Unit := do
  let _ ← lift .message (listeners config)
  check (pattern.fault .applying .preflight)

/-- The sockets are tried out, where that is possible. -/
def preflightChange (previous config : AppConfig) (startRequired wasRunning : Bool) :
    EStateM ServiceError AppState Unit :=
  if canPreflightDnsListeners previous config startRequired wasRunning then
    recover (preflightListeners pattern config) fun error => throw (.preflight error)
  else pure ()

/-- What the closure of `save_config_blocking` does with the service. -/
def applySaved (previous config : AppConfig) (startRequired : Bool) : ServiceM Unit := do
  let filterChanged := filterRuntimeChanged previous config
  if config.enabled then
    if filterChanged || startRequired then
      applyConfigChange env pattern .applying previous config
    else modify fun s => { s with lastError := none }
  else
    stopCurrent pattern .applying
    if filterChanged then
      setEffectiveSummary pattern .applying (configuredRuleSummary env config)
    modify fun s => { s with lastError := none }

/-- The errors of a step of the recovery. -/
def collect (step : ServiceM Unit) : EStateM ServiceError AppState (List StepError) :=
  recover (step *> pure []) fun error => pure [error]

def recoverService (previous : AppConfig) (wasRunning : Bool) : ServiceM Unit :=
  if wasRunning then startCurrent env pattern .recovering
  else do
    stopCurrent pattern .recovering
    setEffectiveSummary pattern .recovering (configuredRuleSummary env previous)

/-- The service is only recovered with the old configuration in memory. -/
def recoverReplaced (previous : AppConfig) (wasRunning : Bool) (replaced : List StepError) :
    EStateM ServiceError AppState (List StepError) :=
  if replaced.isEmpty then collect (recoverService env pattern previous wasRunning) else pure []

def restoreConfigAfterFailureWith {α : Type} (previous : AppConfig) (wasRunning : Bool)
    (error : StepError) (failures : List StepError) : EStateM ServiceError AppState α := do
  let saved ← collect (saveToDatabase env pattern .recovering previous)
  let replaced ← collect (replaceConfig pattern .recovering previous)
  let recovered ← recoverReplaced env pattern previous wasRunning replaced
  let message := .notApplied error (failures ++ saved ++ replaced ++ recovered)
  modify fun s => { s with lastError := some message }
  throw message

def restoreConfigAfterFailure {α : Type} (previous : AppConfig) (wasRunning : Bool)
    (error : StepError) : EStateM ServiceError AppState α :=
  restoreConfigAfterFailureWith env pattern previous wasRunning error []

/-- A step whose error is returned. -/
def step {α : Type} (x : ServiceM α) : EStateM ServiceError AppState α :=
  recover x fun error => throw (.failed error)

/-- Cookies without the new attribute must not go on being accepted. -/
def invalidateSessions (previous config : AppConfig) : EStateM ServiceError AppState Unit := do
  if config.webAdminSecureCookie && !previous.webAdminSecureCookie then
    step (check (pattern.fault .applying .invalidateSessions))
    modify fun s => { s with sessions := Admin.retainOnlySession none s.sessions }

def saveConfigBlocking (submitted : AppConfig) : EStateM ServiceError AppState Unit := do
  step (check (pattern.fault .applying .readConfig))
  let s ← get
  let previous := s.config
  let config := adoptSettings previous submitted
  step (lift .message (validate env.parseUrl config))
  let startRequired ← step (startRequired pattern previous config)
  let wasRunning ← step (wasRunning pattern)
  preflightChange pattern previous config startRequired wasRunning
  step (saveToDatabase env pattern .applying config)
  recover (replaceConfig pattern .applying config)
    (restoreConfigAfterFailure env pattern previous wasRunning)
  recover (applySaved env pattern previous config startRequired)
    (restoreConfigAfterFailure env pattern previous wasRunning)
  invalidateSessions pattern previous config

/-- The configuration that `start_dns_blocking` stores. -/
def enabledConfig (previous : AppConfig) : AppConfig :=
  { migrateLegacyDefaults previous with enabled := true }

def startDnsBlocking : EStateM ServiceError AppState Unit := do
  step (check (pattern.fault .applying .readConfig))
  let s ← get
  let previous := s.config
  let wasRunning ← step (wasRunning pattern)
  let config := enabledConfig previous
  step (lift .message (validate env.parseUrl config))
  step (saveToDatabase env pattern .applying config)
  recover (replaceConfig pattern .applying config)
    (restoreConfigAfterFailure env pattern previous wasRunning)
  recover (startCurrent env pattern .applying)
    (restoreConfigAfterFailure env pattern previous wasRunning)

/-- No failure is recovered from. -/
def stopDnsBlocking : EStateM ServiceError AppState Unit := do
  step (check (pattern.fault .applying .readConfig))
  let s ← get
  let config := { s.config with enabled := false }
  step (saveToDatabase env pattern .applying config)
  step (replaceConfig pattern .applying config)
  step (stopCurrent pattern .applying)
  modify fun s => { s with lastError := none }

end

end DnsBlackhole.Service
