/-
  Loading a stored configuration (`config.rs`, `database.rs`, `config_transfer.rs`):
  old ones are brought to the current version, then checked.

  * `migrateLegacyDefaults_migrated`: migrating twice is migrating once;
  * `loadConfig_saveConfig`: what is saved after a migration is loaded unchanged;
  * `loadsFaithfully_iff`: which configurations are loaded as they are, and which of a
    later version are refused everywhere.

  `parse` is `serde_json::from_str`.
-/
import DnsBlackhole.Config.Validate
import DnsBlackhole.Database.Retention

namespace DnsBlackhole.Config
open Admin (AppConfig FilterSubscription)
open Database (DatabaseError saveConfig)
open Lib (bind_eq_ok mapError_eq_ok pure_eq_ok toOption_eq_some)

/-! ## Migration -/

def defaultAllowedClients : Text :=
  Text.join ["127.0.0.0/8".toList, "::1/128".toList, "10.0.0.0/8".toList, "172.16.0.0/12".toList,
    "192.168.0.0/16".toList, "fc00::/7".toList, "fe80::/10".toList] ['\n']

def defaultBootstrapDns : Text :=
  Text.join ["223.5.5.5".toList, "119.29.29.29".toList] ['\n']

def defaultFallbackDns : Text :=
  Text.join ["114.114.114.114".toList, "180.76.76.76".toList] ['\n']

def isLegacyDefaultFallbackDns (fallbackDns : Text) : Bool :=
  (fallbackDns.lines.map Text.trim).filter (· ≠ []) = ["1.1.1.1".toList, "8.8.8.8".toList]

def usesInsecureHttpEndpoint (config : AppConfig) : Bool :=
  let insecure (t : Text) : Bool := "http://".toList.isPrefixOf t.trim
  (config.upstreamDns.lines ++ config.fallbackDns.lines).any insecure ||
    config.filters.any fun filter => insecure filter.url

/-- A rewriting, and the version whose configurations no longer need it. -/
structure Rewriting where
  below : UInt32
  rewrite : AppConfig → AppConfig

def Rewriting.run (config : AppConfig) (rewriting : Rewriting) : AppConfig :=
  if config.schemaVersion < rewriting.below then rewriting.rewrite config else config

/-- The rewritings before that of the port. -/
def firstRewritings : List Rewriting :=
  [⟨18, fun config => { config with listenIpv6Host := "::".toList }⟩,
    ⟨17, fun config => { config with dnsCacheOptimisticMaxStaleSeconds := 12 * 3600 }⟩,
    -- the log and its list of ignored domains stood for the statistics too
    ⟨11, fun config =>
      { config with
        statisticsEnabled := config.queryLogEnabled
        statisticsRetentionHours := config.queryLogRetentionHours
        statisticsIgnoredDomains := config.queryLogIgnoredDomains }⟩]

/-- The old default: the port of mDNS on the local host. -/
def ListensAtMdnsPort (config : AppConfig) : Prop :=
  config.listenHost.trim = "127.0.0.1".toList ∧ config.listenPort = 5353
  deriving Decidable

/-- The rewriting of the port, which asks for no version. -/
def rewriteMdnsPort (config : AppConfig) : AppConfig :=
  if ListensAtMdnsPort config then { config with listenPort := 53 } else config

/-- The rewritings behind that of the port. -/
def lastRewritings : List Rewriting :=
  [⟨4, fun config =>
      if config.listenHost.trim = "127.0.0.1".toList ∧ config.listenPort = 53 then
        { config with listenHost := "0.0.0.0".toList }
      else config⟩,
    ⟨7, fun config =>
      { config with
        listenIpv6 := (parseIpv6Addr config.listenHost.trim).isNone && config.listenIpv6 }⟩,
    ⟨8, fun config =>
      { config with
        rateLimitPerSecond :=
          if config.rateLimitPerSecond = 100 then 2000 else config.rateLimitPerSecond }⟩,
    ⟨1, fun config =>
      { config with
        allowedClients :=
          if config.allowedClients.trim = [] then defaultAllowedClients else config.allowedClients
        rateLimitPerSecond :=
          if config.rateLimitPerSecond = 0 then 2000 else config.rateLimitPerSecond
        refuseAny := true }⟩,
    ⟨2, fun config =>
      { config with
        bootstrapDns :=
          if config.bootstrapDns.trim = [] then defaultBootstrapDns else config.bootstrapDns
        fallbackDns :=
          if config.fallbackDns.trim = [] then defaultFallbackDns else config.fallbackDns }⟩,
    ⟨3, fun config =>
      { config with
        runtimeWatchdogIntervalSeconds :=
          if config.runtimeWatchdogIntervalSeconds = 0 then 30
          else config.runtimeWatchdogIntervalSeconds }⟩,
    ⟨5, fun config =>
      { config with
        filterMaxSizeMb := if config.filterMaxSizeMb = 0 then 200 else config.filterMaxSizeMb
        allowInsecureHttp := usesInsecureHttpEndpoint config || config.allowInsecureHttp }⟩,
    ⟨6, fun config =>
      { config with
        fallbackDns :=
          if isLegacyDefaultFallbackDns config.fallbackDns then defaultFallbackDns
          else config.fallbackDns }⟩]

def migrateLegacyDefaults (config : AppConfig) : AppConfig :=
  let config := firstRewritings.foldl Rewriting.run config
  let config := rewriteMdnsPort config
  let config := lastRewritings.foldl Rewriting.run config
  { config with schemaVersion := currentConfigSchemaVersion }

theorem ListensAtMdnsPort.of_eq {config config' : AppConfig} (h : ListensAtMdnsPort config)
    (hhost : config.listenHost = config'.listenHost)
    (hport : config.listenPort = config'.listenPort) : ListensAtMdnsPort config' :=
  ⟨hhost ▸ h.1, hport ▸ h.2⟩

theorem foldl_run_of_le {config : AppConfig} {rewritings : List Rewriting}
    (h : ∀ rewriting ∈ rewritings, rewriting.below ≤ config.schemaVersion) :
    rewritings.foldl Rewriting.run config = config := by
  induction rewritings with
  | nil => rfl
  | cons rewriting rewritings ih =>
    have hfirst : Rewriting.run config rewriting = config :=
      if_neg (UInt32.not_lt.2 (h rewriting List.mem_cons_self))
    rw [List.foldl_cons, hfirst]
    exact ih fun rewriting' hmem => h rewriting' (List.mem_cons_of_mem _ hmem)

theorem foldl_run_inv {P : AppConfig → Prop} {rewritings : List Rewriting}
    (h : ∀ rewriting ∈ rewritings, ∀ config, P config → P (rewriting.rewrite config))
    {config : AppConfig} (hconfig : P config) : P (rewritings.foldl Rewriting.run config) := by
  induction rewritings generalizing config with
  | nil => exact hconfig
  | cons rewriting rewritings ih =>
    refine ih (fun rewriting' hmem => h rewriting' (List.mem_cons_of_mem _ hmem)) ?_
    unfold Rewriting.run
    split_ifs
    · exact h rewriting List.mem_cons_self config hconfig
    · exact hconfig

theorem below_le {rewriting : Rewriting} (h : rewriting ∈ firstRewritings ++ lastRewritings) :
    rewriting.below ≤ 18 := by
  have hall : ((firstRewritings ++ lastRewritings).map (·.below)).all (· ≤ 18) = true := rfl
  exact of_decide_eq_true (List.all_eq_true.1 hall _ (List.mem_map_of_mem h))

theorem schemaVersion_rewriteMdnsPort (config : AppConfig) :
    (rewriteMdnsPort config).schemaVersion = config.schemaVersion := by
  unfold rewriteMdnsPort
  split_ifs <;> rfl

/-- Of a configuration that is not old, only the port of mDNS and the version are rewritten. -/
theorem migrateLegacyDefaults_of_le {config : AppConfig} (h : 18 ≤ config.schemaVersion) :
    migrateLegacyDefaults config =
      { rewriteMdnsPort config with schemaVersion := currentConfigSchemaVersion } := by
  have hfirst : firstRewritings.foldl Rewriting.run config = config :=
    foldl_run_of_le fun rewriting hmem =>
      UInt32.le_trans (below_le (List.mem_append_left _ hmem)) h
  have hlast : lastRewritings.foldl Rewriting.run (rewriteMdnsPort config) =
      rewriteMdnsPort config :=
    foldl_run_of_le fun rewriting hmem =>
      UInt32.le_trans (below_le (List.mem_append_right _ hmem))
        (schemaVersion_rewriteMdnsPort config ▸ h)
  rw [migrateLegacyDefaults, hfirst, hlast]

theorem not_listensAtMdnsPort_rewriteMdnsPort (config : AppConfig) :
    ¬ListensAtMdnsPort (rewriteMdnsPort config) := by
  unfold rewriteMdnsPort
  split_ifs with hlegacy
  · rintro ⟨-, hport⟩
    cases hport
  · exact hlegacy

theorem not_listensAtMdnsPort_migrateLegacyDefaults (config : AppConfig) :
    ¬ListensAtMdnsPort (migrateLegacyDefaults config) := by
  have hlast : ∀ rewriting ∈ lastRewritings, ∀ config, ¬ListensAtMdnsPort config →
      ¬ListensAtMdnsPort (rewriting.rewrite config) := by
    intro rewriting hmem config hconfig
    simp only [lastRewritings, List.mem_cons, List.not_mem_nil, or_false] at hmem
    rcases hmem with rfl | rfl | rfl | rfl | rfl | rfl | rfl | rfl
    · change ¬ListensAtMdnsPort (if _ then _ else config)
      split_ifs
      · rintro ⟨hhost, -⟩
        cases hhost
      · exact hconfig
    all_goals
      refine fun hlegacy => hconfig (hlegacy.of_eq ?_ ?_) <;> dsimp only
  have h : ¬ListensAtMdnsPort (lastRewritings.foldl Rewriting.run
      (rewriteMdnsPort (firstRewritings.foldl Rewriting.run config))) :=
    foldl_run_inv (P := (¬ListensAtMdnsPort ·)) hlast (not_listensAtMdnsPort_rewriteMdnsPort _)
  refine fun hlegacy => h (hlegacy.of_eq ?_ ?_) <;> dsimp only [migrateLegacyDefaults]

theorem listenPort_migrateLegacyDefaults {config : AppConfig} (h : config.listenPort = 53) :
    (migrateLegacyDefaults config).listenPort = 53 := by
  have hfirst : (firstRewritings.foldl Rewriting.run config).listenPort = 53 := by
    refine foldl_run_inv (P := (·.listenPort = 53)) (fun rewriting hmem config hconfig => ?_) h
    simp only [firstRewritings, List.mem_cons, List.not_mem_nil, or_false] at hmem
    rcases hmem with rfl | rfl | rfl <;> dsimp only <;> exact hconfig
  have hmdns : (rewriteMdnsPort (firstRewritings.foldl Rewriting.run config)).listenPort = 53 := by
    unfold rewriteMdnsPort
    split_ifs
    · rfl
    · exact hfirst
  have hlast : (lastRewritings.foldl Rewriting.run
      (rewriteMdnsPort (firstRewritings.foldl Rewriting.run config))).listenPort = 53 := by
    refine foldl_run_inv (P := (·.listenPort = 53)) (fun rewriting hmem config hconfig => ?_) hmdns
    simp only [lastRewritings, List.mem_cons, List.not_mem_nil, or_false] at hmem
    rcases hmem with rfl | rfl | rfl | rfl | rfl | rfl | rfl | rfl
    · change (if _ then _ else config).listenPort = 53
      split_ifs <;> exact hconfig
    all_goals
      dsimp only
      exact hconfig
  dsimp only [migrateLegacyDefaults]
  exact hlast

/-- **Migrating twice is migrating once.** -/
theorem migrateLegacyDefaults_migrated (config : AppConfig) :
    migrateLegacyDefaults (migrateLegacyDefaults config) = migrateLegacyDefaults config := by
  have hversion : (migrateLegacyDefaults config).schemaVersion = currentConfigSchemaVersion := rfl
  rw [migrateLegacyDefaults_of_le (hversion ▸ by decide), rewriteMdnsPort,
    if_neg (not_listensAtMdnsPort_migrateLegacyDefaults config), ← hversion]

/-! ## Loading -/

section
variable (parseUrl : Text → Except Text Url)

/-- What every route does with the configuration it has read. -/
def migrateAndValidate (config : AppConfig) : Except Text AppConfig := do
  let config := migrateLegacyDefaults config
  validate parseUrl config
  return config

/-- `validate` as the database calls it. -/
def validateStored (config : AppConfig) : Except DatabaseError Unit :=
  (validate parseUrl config).mapError .invalidConfig

/-- `Database::load_config`, which takes over how long statistics are kept. -/
def loadConfig (db : Database) : Except DatabaseError (Option AppConfig × Database) :=
  match db.appConfig with
  | some (config, _) => do
    let config ← (migrateAndValidate parseUrl config).mapError .invalidConfig
    return (some config, { db with statisticsRetentionHours := config.statisticsRetentionHours })
  | none => .ok (none, db)

section
variable (parse : Text → Except Text AppConfig)

/-- `load_config`, from the text that is stored. -/
def loadStoredConfig (value : Text) : Except Text AppConfig := do
  let config ← (parse value).mapError ("解析数据库配置失败：".toList ++ ·)
  migrateAndValidate parseUrl config

def readConfigFile (path raw : Text) : Except Text AppConfig := do
  let config ← (parse raw).mapError fun error =>
    "解析配置文件失败：".toList ++ path ++ "：".toList ++ error
  migrateAndValidate parseUrl config

def parseImportedConfig (content : Text) : Except Text AppConfig := do
  let config ← (parse content).mapError ("配置 JSON 格式无效：".toList ++ ·)
  require (config.schemaVersion ≤ currentConfigSchemaVersion)
    ("配置版本 ".toList ++ Nat.toDigits 10 config.schemaVersion.toNat ++ " 高于当前支持的版本 ".toList ++
      Nat.toDigits 10 currentConfigSchemaVersion.toNat ++ "，请先升级 DnsBlackhole".toList)
  migrateAndValidate parseUrl config

/-- Where a text of a configuration may be loaded from. -/
inductive LoadRoute
  | database
  | file (path : Text)
  | importing

def LoadRoute.load : LoadRoute → Text → Except Text AppConfig
  | database => loadStoredConfig parseUrl parse
  | file path => readConfigFile parseUrl parse path
  | importing => parseImportedConfig parseUrl parse

end

theorem migrateAndValidate_eq_ok {config loaded : AppConfig} :
    migrateAndValidate parseUrl config = .ok loaded ↔
      validate parseUrl loaded = .ok () ∧ loaded = migrateLegacyDefaults config := by
  unfold migrateAndValidate
  rw [bind_eq_ok]
  constructor
  · rintro ⟨⟨⟩, hvalid, hloaded⟩
    cases pure_eq_ok.1 hloaded
    exact ⟨hvalid, rfl⟩
  · rintro ⟨hvalid, rfl⟩
    exact ⟨(), hvalid, rfl⟩

variable {parseUrl}

theorem appConfig_saveConfig {db db' : Database} {config : AppConfig} {updatedAt now : ℕ}
    (h : saveConfig (validateStored parseUrl) db config updatedAt now = .ok db') :
    validate parseUrl config = .ok () ∧ db'.appConfig = some (config, updatedAt) := by
  unfold saveConfig at h
  obtain ⟨⟨⟩, hvalid, h⟩ := bind_eq_ok.1 h
  obtain ⟨_, hupdated, h⟩ := bind_eq_ok.1 h
  cases Database.eq_of_u64ToDbI64 hupdated
  have hstored : db'.appConfig = some (config, updatedAt) := by
    dsimp only at h
    split_ifs at h
    · obtain ⟨since, -, h⟩ := bind_eq_ok.1 h
      obtain ⟨rebuilt, -, h⟩ := bind_eq_ok.1 h
      cases pure_eq_ok.1 h
      rfl
    · cases pure_eq_ok.1 h
      rfl
  exact ⟨mapError_eq_ok.1 hvalid, hstored⟩

theorem loadConfig_of_appConfig {db : Database} {config : AppConfig} {updatedAt : ℕ}
    (h : db.appConfig = some (config, updatedAt)) {loaded : AppConfig} {db' : Database} :
    loadConfig parseUrl db = .ok (some loaded, db') ↔
      migrateAndValidate parseUrl config = .ok loaded ∧
        db' = { db with statisticsRetentionHours := loaded.statisticsRetentionHours } := by
  unfold loadConfig
  rw [h]
  constructor
  · intro hload
    obtain ⟨config', hmigrated, hload⟩ := bind_eq_ok.1 hload
    cases pure_eq_ok.1 hload
    exact ⟨mapError_eq_ok.1 hmigrated, rfl⟩
  · rintro ⟨hmigrated, rfl⟩
    exact bind_eq_ok.2 ⟨loaded, mapError_eq_ok.2 hmigrated, rfl⟩

/-- **What is saved after a migration is loaded unchanged.** -/
theorem loadConfig_saveConfig {db db' : Database} {config : AppConfig} {updatedAt now : ℕ}
    (h : saveConfig (validateStored parseUrl) db (migrateLegacyDefaults config) updatedAt now =
      .ok db') :
    ∃ loadedDb, loadConfig parseUrl db' = .ok (some (migrateLegacyDefaults config), loadedDb) := by
  obtain ⟨hvalid, hstored⟩ := appConfig_saveConfig h
  refine ⟨_, (loadConfig_of_appConfig hstored).2 ⟨?_, rfl⟩⟩
  exact (migrateAndValidate_eq_ok parseUrl).2
    ⟨hvalid, (migrateLegacyDefaults_migrated config).symm⟩

/-- An empty database stores whatever `validate` accepts. -/
theorem saveConfig_empty {config : AppConfig} (h : validate parseUrl config = .ok ()) :
    saveConfig (validateStored parseUrl) {} config 0 0 = .ok {
      appConfig := some (config, 0)
      statisticsRetentionHours := config.statisticsRetentionHours } := by
  have hvalid : validateStored parseUrl config = .ok () := mapError_eq_ok.2 h
  have hswitch : ¬(config.statisticsRetentionHours = 0 ∧
      ({} : Database).statisticsRetentionHours ≠ 0) := fun h => h.2 rfl
  refine bind_eq_ok.2 ⟨(), hvalid, bind_eq_ok.2 ⟨0, rfl, ?_⟩⟩
  dsimp only
  rw [if_neg hswitch]
  rfl

theorem load_later_version {parse : Text → Except Text AppConfig} {text : Text}
    {config : AppConfig} (hparse : parse text = .ok config)
    (h : currentConfigSchemaVersion < config.schemaVersion) (route : LoadRoute)
    (loaded : AppConfig) : route.load parseUrl parse text = .ok loaded ↔
      route ≠ .importing ∧ migrateAndValidate parseUrl config = .ok loaded := by
  cases route with
  | database => simp [LoadRoute.load, loadStoredConfig, hparse, Except.mapError, Lib.ok_bind]
  | file path => simp [LoadRoute.load, readConfigFile, hparse, Except.mapError, Lib.ok_bind]
  | importing =>
    have hversion : ¬config.schemaVersion ≤ currentConfigSchemaVersion := UInt32.not_le.2 h
    simp [LoadRoute.load, parseImportedConfig, hparse, Except.mapError, Lib.ok_bind, require,
      hversion, bind_eq_ok]

/-- What is asked of loading: a configuration that was saved is loaded as it is, and no
    route loads a text of a later version. -/
def LoadsFaithfully (parseUrl : Text → Except Text Url) (config : AppConfig) : Prop :=
  (∀ db updatedAt now saved,
      saveConfig (validateStored parseUrl) db config updatedAt now = .ok saved →
        ∃ db', loadConfig parseUrl saved = .ok (some config, db')) ∧
    ∀ (parse : Text → Except Text AppConfig) (text : Text), parse text = .ok config →
      currentConfigSchemaVersion < config.schemaVersion →
        ∀ (route : LoadRoute) (loaded : AppConfig), route.load parseUrl parse text ≠ .ok loaded

theorem loads_saved_iff {config : AppConfig} (hvalid : validate parseUrl config = .ok ()) :
    migrateAndValidate parseUrl config = .ok config ↔
      config.schemaVersion = currentConfigSchemaVersion ∧ ¬ListensAtMdnsPort config := by
  rw [migrateAndValidate_eq_ok]
  constructor
  · rintro ⟨-, hmigrated⟩
    exact ⟨congrArg (·.schemaVersion) hmigrated,
      hmigrated ▸ not_listensAtMdnsPort_migrateLegacyDefaults config⟩
  · rintro ⟨hversion, hport⟩
    refine ⟨hvalid, ?_⟩
    rw [migrateLegacyDefaults_of_le (hversion ▸ by decide), rewriteMdnsPort, if_neg hport,
      ← hversion]

/-- **When a configuration is loaded faithfully**: it has the current version and is not at the
    old default port, and one of a later version would be refused without its version too. -/
theorem loadsFaithfully_iff (parseUrl : Text → Except Text Url) (config : AppConfig) :
    LoadsFaithfully parseUrl config ↔
      (validate parseUrl config = .ok () →
        config.schemaVersion = currentConfigSchemaVersion ∧ ¬ListensAtMdnsPort config) ∧
      (currentConfigSchemaVersion < config.schemaVersion →
        validate parseUrl { rewriteMdnsPort config with
          schemaVersion := currentConfigSchemaVersion } ≠ .ok ()) := by
  refine and_congr ?_ ?_
  · constructor
    · intro hloads hvalid
      have hsaved := saveConfig_empty hvalid
      obtain ⟨db', hload⟩ := hloads _ _ _ _ hsaved
      rw [loadConfig_of_appConfig (appConfig_saveConfig hsaved).2] at hload
      exact (loads_saved_iff hvalid).1 hload.1
    · intro hcurrent db updatedAt now saved hsaved
      obtain ⟨hvalid, hstored⟩ := appConfig_saveConfig hsaved
      exact ⟨_, (loadConfig_of_appConfig hstored).2
        ⟨(loads_saved_iff hvalid).2 (hcurrent hvalid), rfl⟩⟩
  · have hmigrated : currentConfigSchemaVersion < config.schemaVersion →
        migrateLegacyDefaults config =
          { rewriteMdnsPort config with schemaVersion := currentConfigSchemaVersion } :=
      fun h => migrateLegacyDefaults_of_le (UInt32.le_of_lt (UInt32.lt_of_le_of_lt (by decide) h))
    constructor
    · intro hrefused hlater hvalid
      refine hrefused (fun _ => .ok config) [] rfl hlater .database (migrateLegacyDefaults config)
        ((load_later_version rfl hlater _ _).2 ⟨nofun, ?_⟩)
      exact (migrateAndValidate_eq_ok parseUrl).2 ⟨hmigrated hlater ▸ hvalid, rfl⟩
    · intro hinvalid parse text hparse hlater route loaded hload
      obtain ⟨-, hload⟩ := (load_later_version hparse hlater route loaded).1 hload
      obtain ⟨hvalid, rfl⟩ := (migrateAndValidate_eq_ok parseUrl).1 hload
      exact hinvalid hlater (hmigrated hlater ▸ hvalid)

/-- A resolver for the local host, at the port of mDNS. -/
def localResolver : AppConfig :=
  { Database.retainingConfig 24 with
    schemaVersion := currentConfigSchemaVersion
    listenHost := "127.0.0.1".toList
    listenPort := 5353 }

/-- A configuration that a later program has stored. -/
def laterResolver : AppConfig := { Database.retainingConfig 24 with schemaVersion := 20 }

/-- None of the addresses is a URL. -/
def noUrl : Text → Except Text Url := fun _ => .error "relative URL without a base".toList

theorem validate_localResolver : validate noUrl localResolver = .ok () :=
  toOption_eq_some.1 (by decide +kernel)

/-- The port is another one once it is loaded, and the later version is relabelled. -/
theorem resolvers_not_loaded :
    validate noUrl localResolver = .ok () ∧ ¬LoadsFaithfully noUrl localResolver ∧
      ¬LoadsFaithfully noUrl laterResolver ∧
      ∀ route : LoadRoute, route ≠ .importing →
        route.load noUrl (fun _ => .ok laterResolver) [] =
          .ok { laterResolver with schemaVersion := currentConfigSchemaVersion } := by
  have hlater : migrateAndValidate noUrl laterResolver =
      .ok { laterResolver with schemaVersion := currentConfigSchemaVersion } := by
    refine (migrateAndValidate_eq_ok noUrl).2 ⟨toOption_eq_some.1 (by decide +kernel), ?_⟩
    rw [migrateLegacyDefaults_of_le (by decide), rewriteMdnsPort, if_neg (by decide)]
  have hload : ∀ route : LoadRoute, route ≠ .importing →
      route.load noUrl (fun _ => .ok laterResolver) [] =
        .ok { laterResolver with schemaVersion := currentConfigSchemaVersion } :=
    fun route hroute => (load_later_version rfl (by decide) route _).2 ⟨hroute, hlater⟩
  refine ⟨validate_localResolver, fun hloads => ?_, fun hloads => ?_, hload⟩
  · obtain ⟨db', hdb'⟩ := hloads.1 _ _ _ _ (saveConfig_empty validate_localResolver)
    rw [loadConfig_of_appConfig rfl] at hdb'
    exact ((loads_saved_iff validate_localResolver).1 hdb'.1).2 (by decide)
  · exact hloads.2 _ _ rfl (by decide) .database _ (hload .database nofun)

end

end DnsBlackhole.Config
