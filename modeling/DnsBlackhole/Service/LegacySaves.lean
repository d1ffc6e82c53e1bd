/-
  What saving the configuration of an older interface does to settings that this interface
  does not know (`save_config_blocking`).

  The submitted configuration is migrated first, which gives such settings their defaults;
  then the ones that the service lists are taken from the configuration before.

  * `adoptSettings_eq`: what is stored is the migrated configuration with the listed settings;
  * **`saves_iff`**: a save keeps all settings that the interface does not know, and only
    rewrites the others by their version, if and only if the limit for old answers of the
    cache and the port of mDNS are not in play.
-/
import DnsBlackhole.Service.Written

namespace DnsBlackhole.Service
open Admin (AppConfig)
open Config
open Lib

/-! ## Dated settings -/

/-- Settings, and the version that brought them. -/
structure DatedSettings where
  since : UInt32
  keep : AppConfig → AppConfig → AppConfig

/-- Version 17 brought the limit for old answers of the cache. -/
def keepStaleLimit (previous config : AppConfig) : AppConfig :=
  { config with
    dnsCacheOptimisticMaxStaleSeconds := previous.dnsCacheOptimisticMaxStaleSeconds }

/-- The settings that are listed where a configuration is saved. -/
def listedSettings : List DatedSettings :=
  [⟨11, keepStatistics⟩, ⟨16, keepPolicies⟩, ⟨18, keepIpv6Host⟩, ⟨19, keepSessions⟩]

/-- The settings that the source dates, there or in its migration. -/
def datedSettings : List DatedSettings := ⟨17, keepStaleLimit⟩ :: listedSettings

/-- Of the settings, those that are later than the version, as they were. -/
def keepLater (settings : List DatedSettings) (version : UInt32) (previous config : AppConfig) :
    AppConfig :=
  settings.foldl
    (fun config dated => if version < dated.since then dated.keep previous config else config)
    config

/-- The rewritings that ask for a version. -/
def rewriteByVersion (config : AppConfig) : AppConfig :=
  { (firstRewritings ++ lastRewritings).foldl Rewriting.run config with
    schemaVersion := currentConfigSchemaVersion }

/-- A save keeps the settings that the submission does not know, and has the others as they
    were submitted. -/
structure KeepsUnknown (previous submitted saved : AppConfig) : Prop where
  unknown : keepLater datedSettings submitted.schemaVersion previous saved = saved
  others : keepLater datedSettings submitted.schemaVersion previous saved =
    keepLater datedSettings submitted.schemaVersion previous (rewriteByVersion submitted)

section
variable {previous submitted : AppConfig} {settings : List DatedSettings}

theorem forall_datedSettings {P : DatedSettings → Prop} : (∀ dated ∈ datedSettings, P dated) ↔
    P ⟨17, keepStaleLimit⟩ ∧ P ⟨11, keepStatistics⟩ ∧ P ⟨16, keepPolicies⟩ ∧
      P ⟨18, keepIpv6Host⟩ ∧ P ⟨19, keepSessions⟩ := by
  simp only [datedSettings, listedSettings, List.forall_mem_cons, List.not_mem_nil,
    false_imp_iff, implies_true, and_true]

theorem keep_keep (previous config : AppConfig) : ∀ dated ∈ datedSettings,
    dated.keep previous (dated.keep previous config) = dated.keep previous config :=
  forall_datedSettings.2 ⟨rfl, rfl, rfl, rfl, rfl⟩

theorem keep_comm (previous config : AppConfig) : ∀ a ∈ datedSettings, ∀ b ∈ datedSettings,
    a.keep previous (b.keep previous config) = b.keep previous (a.keep previous config) := by
  refine forall_datedSettings.2 ⟨?_, ?_, ?_, ?_, ?_⟩ <;>
    exact forall_datedSettings.2 ⟨rfl, rfl, rfl, rfl, rfl⟩

theorem keepLater_cons (dated : DatedSettings) (settings : List DatedSettings) (version : UInt32)
    (previous config : AppConfig) : keepLater (dated :: settings) version previous config =
      keepLater settings version previous
        (if version < dated.since then dated.keep previous config else config) := rfl

theorem keepLater_keep {dated : DatedSettings} (hdated : dated ∈ datedSettings)
    (hsettings : ∀ other ∈ settings, other ∈ datedSettings) (version : UInt32)
    (previous config : AppConfig) : keepLater settings version previous
        (dated.keep previous config) =
      dated.keep previous (keepLater settings version previous config) := by
  induction settings generalizing config with
  | nil => rfl
  | cons other settings ih =>
    obtain ⟨hother, hsettings⟩ := List.forall_mem_cons.1 hsettings
    rw [keepLater_cons, keepLater_cons, ← ih hsettings]
    split_ifs
    · rw [keep_comm previous config other hother dated hdated]
    · rfl

theorem keepLater_again (hsettings : ∀ dated ∈ settings, dated ∈ datedSettings) (version : UInt32)
    (previous config : AppConfig) : keepLater settings version previous
        (keepLater settings version previous config) =
      keepLater settings version previous config := by
  induction settings generalizing config with
  | nil => rfl
  | cons dated settings ih =>
    obtain ⟨hdated, hsettings⟩ := List.forall_mem_cons.1 hsettings
    rw [keepLater_cons, keepLater_cons]
    split_ifs
    · rw [← keepLater_keep hdated hsettings, keep_keep previous config dated hdated,
        ih hsettings]
    · exact ih hsettings config

theorem keepsUnknown_iff {saved : AppConfig} : KeepsUnknown previous submitted saved ↔ saved =
    keepLater datedSettings submitted.schemaVersion previous (rewriteByVersion submitted) := by
  constructor
  · intro h
    exact h.unknown.symm.trans h.others
  · rintro rfl
    have hagain := keepLater_again (fun _ h => h) submitted.schemaVersion previous
      (rewriteByVersion submitted)
    exact ⟨hagain, hagain⟩

theorem adoptSettings_eq (previous submitted : AppConfig) : adoptSettings previous submitted =
    keepLater listedSettings submitted.schemaVersion previous (migrateLegacyDefaults submitted) :=
  rfl

theorem keepLater_inv {P : AppConfig → Prop}
    (h : ∀ dated ∈ settings, ∀ config, P config → P (dated.keep previous config))
    (version : UInt32) {config : AppConfig} (hconfig : P config) :
    P (keepLater settings version previous config) := by
  induction settings generalizing config with
  | nil => exact hconfig
  | cons dated settings ih =>
    obtain ⟨hdated, hsettings⟩ := List.forall_mem_cons.1 h
    rw [keepLater_cons]
    refine ih hsettings ?_
    split_ifs
    · exact hdated config hconfig
    · exact hconfig

/-! ## The migration -/

theorem migrateLegacyDefaults_inv {P : AppConfig → Prop}
    (h : ∀ rewriting ∈ firstRewritings ++ lastRewritings, ∀ config, P config →
      P (rewriting.rewrite config))
    (hport : ∀ config, P config → P { config with listenPort := 53 })
    (hversion : ∀ config, P config → P { config with schemaVersion := currentConfigSchemaVersion })
    {config : AppConfig} (hconfig : P config) : P (migrateLegacyDefaults config) := by
  refine hversion _ (foldl_run_inv (P := P)
    (fun rewriting hmem => h rewriting (List.mem_append_right _ hmem)) ?_)
  have hfirst : P (firstRewritings.foldl Rewriting.run config) :=
    foldl_run_inv (P := P) (fun rewriting hmem => h rewriting (List.mem_append_left _ hmem)) hconfig
  unfold rewriteMdnsPort
  split_ifs
  · exact hport _ hfirst
  · exact hfirst

theorem rules_migrateLegacyDefaults (config : AppConfig) :
    (migrateLegacyDefaults config).blacklist = config.blacklist ∧
      (migrateLegacyDefaults config).dnsRewrites = config.dnsRewrites := by
  refine migrateLegacyDefaults_inv
    (P := fun c => c.blacklist = config.blacklist ∧ c.dnsRewrites = config.dnsRewrites)
    ?_ (fun _ h => h) (fun _ h => h) ⟨rfl, rfl⟩
  intro rewriting hmem c hc
  simp only [firstRewritings, lastRewritings, List.cons_append, List.nil_append, List.mem_cons,
    List.not_mem_nil, or_false] at hmem
  rcases hmem with rfl | rfl | rfl | rfl | rfl | rfl | rfl | rfl | rfl | rfl | rfl
  · exact hc
  · exact hc
  · exact hc
  · dsimp only
    split_ifs <;> exact hc
  all_goals exact hc

theorem rules_adoptSettings (previous submitted : AppConfig) :
    (adoptSettings previous submitted).blacklist = submitted.blacklist ∧
      (adoptSettings previous submitted).dnsRewrites = submitted.dnsRewrites := by
  rw [adoptSettings_eq]
  refine keepLater_inv
    (P := fun c => c.blacklist = submitted.blacklist ∧ c.dnsRewrites = submitted.dnsRewrites)
    ?_ _ (rules_migrateLegacyDefaults submitted)
  intro dated hdated c hc
  revert dated
  simp only [listedSettings, List.forall_mem_cons, List.not_mem_nil, false_imp_iff, implies_true,
    and_true]
  exact ⟨hc, hc, hc, hc⟩

theorem listens_firstRewritings (config : AppConfig) :
    (firstRewritings.foldl Rewriting.run config).listenHost = config.listenHost ∧
      (firstRewritings.foldl Rewriting.run config).listenPort = config.listenPort := by
  refine foldl_run_inv
    (P := fun c => c.listenHost = config.listenHost ∧ c.listenPort = config.listenPort)
    ?_ ⟨rfl, rfl⟩
  intro rewriting hmem c hc
  simp only [firstRewritings, List.mem_cons, List.not_mem_nil, or_false] at hmem
  rcases hmem with rfl | rfl | rfl <;> exact hc

theorem listensAtMdnsPort_firstRewritings (config : AppConfig) :
    ListensAtMdnsPort (firstRewritings.foldl Rewriting.run config) ↔ ListensAtMdnsPort config := by
  obtain ⟨hhost, hport⟩ := listens_firstRewritings config
  rw [ListensAtMdnsPort, ListensAtMdnsPort, hhost, hport]

theorem listenPort_rewrite {rewriting : Rewriting}
    (hmem : rewriting ∈ firstRewritings ++ lastRewritings)
    {port : UInt16} {config : AppConfig} (h : config.listenPort = port) :
    (rewriting.rewrite config).listenPort = port := by
  simp only [firstRewritings, lastRewritings, List.cons_append, List.nil_append, List.mem_cons,
    List.not_mem_nil, or_false] at hmem
  rcases hmem with rfl | rfl | rfl | rfl | rfl | rfl | rfl | rfl | rfl | rfl | rfl
  · exact h
  · exact h
  · exact h
  · dsimp only
    split_ifs <;> exact h
  all_goals exact h

theorem migrateLegacyDefaults_of_not_listens (h : ¬ListensAtMdnsPort submitted) :
    migrateLegacyDefaults submitted = rewriteByVersion submitted := by
  have hmdns : rewriteMdnsPort (firstRewritings.foldl Rewriting.run submitted) =
      firstRewritings.foldl Rewriting.run submitted :=
    if_neg fun hlistens => h ((listensAtMdnsPort_firstRewritings submitted).1 hlistens)
  rw [migrateLegacyDefaults, rewriteByVersion, List.foldl_append, hmdns]

theorem staleLimit_rewrite {rewriting : Rewriting}
    (hmem : rewriting ∈ firstRewritings ++ lastRewritings)
    {config : AppConfig} (h : config.dnsCacheOptimisticMaxStaleSeconds = 12 * 3600) :
    (rewriting.rewrite config).dnsCacheOptimisticMaxStaleSeconds = 12 * 3600 := by
  simp only [firstRewritings, lastRewritings, List.cons_append, List.nil_append, List.mem_cons,
    List.not_mem_nil, or_false] at hmem
  rcases hmem with rfl | rfl | rfl | rfl | rfl | rfl | rfl | rfl | rfl | rfl | rfl
  · exact h
  · rfl
  · exact h
  · dsimp only
    split_ifs <;> exact h
  all_goals exact h

/-- A configuration that does not know the limit for old answers has its default behind the
    migration. -/
theorem staleLimit_migrateLegacyDefaults (h : submitted.schemaVersion < 17) :
    (migrateLegacyDefaults submitted).dnsCacheOptimisticMaxStaleSeconds = 12 * 3600 := by
  have hrest : firstRewritings.foldl Rewriting.run submitted = (firstRewritings.drop 2).foldl
      Rewriting.run ((firstRewritings.take 2).foldl Rewriting.run submitted) := rfl
  have hlimit : ((firstRewritings.take 2).foldl Rewriting.run
      submitted).dnsCacheOptimisticMaxStaleSeconds = 12 * 3600 := by
    simp only [firstRewritings, List.take_succ_cons, List.take_zero, List.foldl_cons,
      List.foldl_nil, Rewriting.run]
    by_cases hipv6 : submitted.schemaVersion < 18
    · rw [if_pos hipv6, if_pos (show submitted.schemaVersion < 17 from h)]
    · rw [if_neg hipv6, if_pos h]
  have hfirst : (firstRewritings.foldl Rewriting.run submitted).dnsCacheOptimisticMaxStaleSeconds =
      12 * 3600 := by
    rw [hrest]
    exact foldl_run_inv (P := fun c => c.dnsCacheOptimisticMaxStaleSeconds = 12 * 3600)
      (fun rewriting hmem c hc => staleLimit_rewrite
        (List.mem_append_left _ (List.mem_of_mem_drop hmem)) hc) hlimit
  have hmdns : (rewriteMdnsPort (firstRewritings.foldl Rewriting.run
      submitted)).dnsCacheOptimisticMaxStaleSeconds = 12 * 3600 := by
    unfold rewriteMdnsPort
    split_ifs
    · exact hfirst
    · exact hfirst
  dsimp only [migrateLegacyDefaults]
  exact foldl_run_inv (P := fun c => c.dnsCacheOptimisticMaxStaleSeconds = 12 * 3600)
    (fun rewriting hmem c hc => staleLimit_rewrite (List.mem_append_right _ hmem) hc) hmdns

theorem listenPort_migrateLegacyDefaults_of_listens (h : ListensAtMdnsPort submitted) :
    (migrateLegacyDefaults submitted).listenPort = 53 := by
  have hmdns :
      (rewriteMdnsPort (firstRewritings.foldl Rewriting.run submitted)).listenPort = 53 := by
    unfold rewriteMdnsPort
    rw [if_pos ((listensAtMdnsPort_firstRewritings submitted).2 h)]
  dsimp only [migrateLegacyDefaults]
  exact foldl_run_inv (P := fun c => c.listenPort = 53)
    (fun rewriting hmem c hc => listenPort_rewrite (List.mem_append_right _ hmem) hc) hmdns

theorem listenPort_rewriteByVersion (config : AppConfig) :
    (rewriteByVersion config).listenPort = config.listenPort := by
  dsimp only [rewriteByVersion]
  exact foldl_run_inv (P := fun c => c.listenPort = config.listenPort)
    (fun rewriting hmem c hc => listenPort_rewrite hmem hc) rfl

/-! ## Saving -/

/-- Neither the limit for old answers nor the port of mDNS is in play. -/
structure OutOfPlay (previous submitted : AppConfig) : Prop where
  staleLimit : 17 ≤ submitted.schemaVersion ∨
    previous.dnsCacheOptimisticMaxStaleSeconds = 12 * 3600
  port : ¬ListensAtMdnsPort submitted

theorem keepStaleLimit_of_eq {config : AppConfig} (h : config.dnsCacheOptimisticMaxStaleSeconds =
    previous.dnsCacheOptimisticMaxStaleSeconds) : keepStaleLimit previous config = config := by
  rw [keepStaleLimit, ← h]

theorem listenPort_ite {p : Prop} [Decidable p] (previous config : AppConfig) :
    (if p then keepStaleLimit previous config else config).listenPort = config.listenPort := by
  split_ifs <;> rfl

theorem keepsUnknown_adoptSettings_iff (previous submitted : AppConfig) :
    KeepsUnknown previous submitted (adoptSettings previous submitted) ↔
      OutOfPlay previous submitted := by
  have hlisted : ∀ dated ∈ listedSettings, ∀ config : AppConfig,
      (dated.keep previous config).dnsCacheOptimisticMaxStaleSeconds =
        config.dnsCacheOptimisticMaxStaleSeconds ∧
      (dated.keep previous config).listenPort = config.listenPort := by
    simp only [listedSettings, List.forall_mem_cons, List.not_mem_nil, false_imp_iff,
      implies_true, and_true]
    exact ⟨fun _ => ⟨rfl, rfl⟩, fun _ => ⟨rfl, rfl⟩, fun _ => ⟨rfl, rfl⟩, fun _ => ⟨rfl, rfl⟩⟩
  have hleft : ∀ config : AppConfig,
      (keepLater listedSettings submitted.schemaVersion previous
          config).dnsCacheOptimisticMaxStaleSeconds = config.dnsCacheOptimisticMaxStaleSeconds ∧
        (keepLater listedSettings submitted.schemaVersion previous config).listenPort =
          config.listenPort := by
    intro config
    refine keepLater_inv
      (P := fun c => c.dnsCacheOptimisticMaxStaleSeconds =
        config.dnsCacheOptimisticMaxStaleSeconds ∧ c.listenPort = config.listenPort)
      (fun dated hdated c hc => ?_) _ ⟨rfl, rfl⟩
    obtain ⟨hlimit, hport⟩ := hlisted dated hdated c
    exact ⟨hlimit.trans hc.1, hport.trans hc.2⟩
  rw [keepsUnknown_iff, adoptSettings_eq, datedSettings, keepLater_cons]
  constructor
  · intro heq
    have hlimit := congrArg AppConfig.dnsCacheOptimisticMaxStaleSeconds heq
    have hport := congrArg AppConfig.listenPort heq
    rw [(hleft _).1, (hleft _).1] at hlimit
    rw [(hleft _).2, (hleft _).2] at hport
    constructor
    · by_cases hold : submitted.schemaVersion < 17
      · rw [if_pos hold, staleLimit_migrateLegacyDefaults hold] at hlimit
        exact .inr hlimit.symm
      · exact .inl (UInt32.not_lt.1 hold)
    · intro hlistens
      have hsame : (rewriteByVersion submitted).listenPort = 53 := by
        rw [listenPort_migrateLegacyDefaults_of_listens hlistens, listenPort_ite] at hport
        exact hport.symm
      rw [listenPort_rewriteByVersion, hlistens.2] at hsame
      exact absurd hsame (by decide)
  · rintro ⟨hlimit, hport⟩
    rw [migrateLegacyDefaults_of_not_listens hport]
    by_cases hold : submitted.schemaVersion < 17
    · have hdefault : (rewriteByVersion submitted).dnsCacheOptimisticMaxStaleSeconds =
          previous.dnsCacheOptimisticMaxStaleSeconds := by
        rw [hlimit.resolve_left (UInt32.not_le.2 hold),
          ← migrateLegacyDefaults_of_not_listens hport, staleLimit_migrateLegacyDefaults hold]
      rw [if_pos hold]
      dsimp only
      rw [keepStaleLimit_of_eq hdefault]
    · rw [if_neg hold]

end

section
variable {env : Environment} {pattern : Pattern} {s s' : AppState} {submitted : AppConfig}

theorem put_of_save (hrun : saveConfigBlocking env pattern submitted s = .ok () s') :
    Put env (adoptSettings s.config submitted) s' := by
  have hends : Ends (saveConfigBlocking env pattern submitted) s
      (fun _ s' => Put env (adoptSettings s.config submitted) s')
      (fun _ s' => Within (fun _ => True) (fun _ => True) s') :=
    saveConfigBlocking_within ⟨trivial, trivial⟩ trivial fun _ => ⟨trivial, trivial⟩
  rw [Ends, hrun] at hends
  exact hends

/-- **A save of an older interface keeps what that interface does not know** if and only if
    neither the limit for old answers nor the port of mDNS is in play. -/
theorem saves_iff (hrun : saveConfigBlocking env pattern submitted s = .ok () s') :
    (KeepsUnknown s.config submitted s'.config ∧ s'.storedConfig = some s'.config) ↔
      OutOfPlay s.config submitted := by
  have hput := put_of_save hrun
  rw [hput.memory, hput.stored, and_iff_left rfl, keepsUnknown_adoptSettings_iff]

end

/-- Every step succeeds. -/
def quietPattern : Pattern where
  fault _ _ := none
  updatedAt _ := 0
  now _ := 0

/-- A service with the limit for old answers. -/
def limitedService (seconds : UInt32) : AppState :=
  let config := { plainCookie with dnsCacheOptimisticMaxStaleSeconds := seconds }
  { plainService with
    db := { plainService.db with appConfig := some (config, 0) }
    config }

/-- What an interface of version 16 submits: it does not know the limit. -/
def olderSubmission : AppConfig := { plainCookie with schemaVersion := 16 }

theorem exists_save_limitedService (seconds : UInt32)
    (h : (EStateM.run' (saveConfigBlocking noLists quietPattern olderSubmission)
      (limitedService seconds)).isSome = true) :
    ∃ s', saveConfigBlocking noLists quietPattern olderSubmission (limitedService seconds) =
      .ok () s' := by
  unfold EStateM.run' EStateM.run at h
  cases hrun : saveConfigBlocking noLists quietPattern olderSubmission (limitedService seconds) with
  | ok _ s' => exact ⟨s', rfl⟩
  | error e s' =>
    rw [hrun] at h
    cases h

/-- The server has the default limit. -/
theorem saves_limitedService : ∃ s',
    saveConfigBlocking noLists quietPattern olderSubmission (limitedService 43200) = .ok () s' ∧
      KeepsUnknown (limitedService 43200).config olderSubmission s'.config := by
  obtain ⟨s', hrun⟩ := exists_save_limitedService 43200 (by decide +kernel)
  exact ⟨s', hrun, ((saves_iff hrun).2 ⟨.inr rfl, by decide⟩).1⟩

/-- The limit of the server is an hour, and a save that does not know it sets it to the
    default. -/
theorem limitedService_resets : validate noUrl (limitedService 3600).config = .ok () ∧
    validate noUrl olderSubmission = .ok () ∧ ∃ s',
      saveConfigBlocking noLists quietPattern olderSubmission (limitedService 3600) = .ok () s' ∧
        s'.config.dnsCacheOptimisticMaxStaleSeconds = 43200 ∧
        ¬KeepsUnknown (limitedService 3600).config olderSubmission s'.config := by
  obtain ⟨s', hrun⟩ := exists_save_limitedService 3600 (by decide +kernel)
  have hsaved := (put_of_save hrun).memory
  refine ⟨toOption_eq_some.1 (by decide +kernel), toOption_eq_some.1 (by decide +kernel),
    s', hrun, ?_, ?_⟩
  · rw [hsaved]
    decide +kernel
  · rw [hsaved, keepsUnknown_adoptSettings_iff]
    rintro ⟨hlimit, -⟩
    exact absurd hlimit (by decide)

end DnsBlackhole.Service
