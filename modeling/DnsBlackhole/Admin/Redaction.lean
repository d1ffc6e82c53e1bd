/-
  Diagnostic reports (`config_transfer.rs`).

  `AppConfig.Similar` and `RuntimeStatus.Similar` relate configurations and states
  that differ in private contents only: the texts of addresses, names, domains,
  rules and secrets, with the same number of entries.  The report on similar
  inputs is the same except for the traffic by domain and by client, which is
  written out as it is (`diagnosticReport_eq_iff`); so it hides every private
  value exactly when these two maps are empty (`diagnosticReport_private_iff`).
-/
import Mathlib.Data.Fintype.EquivFin
import DnsBlackhole.Admin.Config

namespace DnsBlackhole.Admin

/-! ## The report -/

def hidden : Text := "<已隐藏>".toList

def hiddenError : Text := "<已隐藏错误详情>".toList

/-- The lines that are neither blank nor comments. -/
def entryCount (value : Text) : ℕ :=
  (value.lines.filter fun line =>
    line.trim ≠ [] && !line.trim.startsWith '#' && !line.trim.startsWith '!').length

def redactLines (value : Text) : Text :=
  if entryCount value = 0 then []
  else "<已隐藏 ".toList ++ Nat.toDigits 10 (entryCount value) ++ " 行>".toList

def redactValue (value : Text) : Text := if value.trim = [] then [] else hidden

def redactFilter (filter : FilterSubscription) : FilterSubscription :=
  { filter with url := hidden, lastError := filter.lastError.map fun _ => hiddenError }

def redactConfig (config : AppConfig) : AppConfig :=
  { config with
    upstreamDns := redactLines config.upstreamDns
    fallbackDns := redactLines config.fallbackDns
    bootstrapDns := redactLines config.bootstrapDns
    domainUpstreamRules := redactLines config.domainUpstreamRules
    clientUpstreamRules := redactLines config.clientUpstreamRules
    clientFilteringRules := redactLines config.clientFilteringRules
    clientPolicyGroups := redactLines config.clientPolicyGroups
    allowedClients := redactLines config.allowedClients
    blockedClients := redactLines config.blockedClients
    rebindingAllowedDomains := redactLines config.rebindingAllowedDomains
    dnsRewrites := redactLines config.dnsRewrites
    clientNames := redactLines config.clientNames
    queryLogIgnoredDomains := redactLines config.queryLogIgnoredDomains
    statisticsIgnoredDomains := redactLines config.statisticsIgnoredDomains
    blacklist := redactLines config.blacklist
    listenHost := hidden
    listenIpv6Host := hidden
    monitoringApiListenHost := hidden
    monitoringApiToken := redactValue config.monitoringApiToken
    blockingCustomIpv4 := redactValue config.blockingCustomIpv4
    blockingCustomIpv6 := redactValue config.blockingCustomIpv6
    filterProxyUrl := redactValue config.filterProxyUrl
    filterSystemProxyUrl := redactValue config.filterSystemProxyUrl
    filters := config.filters.map redactFilter }

def sanitizeStats (stats : DnsStats) : DnsStats :=
  { stats with
    lastQuery := stats.lastQuery.map fun _ => hidden
    lastBlocked := stats.lastBlocked.map fun _ => hidden
    lastError := stats.lastError.map fun _ => hiddenError
    queryDomains := ∅
    blockedDomains := ∅
    clientRequests := ∅
    clientBlocked := ∅
    blocklistHits := ∅
    securityEvents := []
    upstreamRequests := stats.upstreamRequests.map fun u => { u with upstream := hidden }
    upstreamAvgLatency := stats.upstreamAvgLatency.map fun u => { u with upstream := hidden } }

def sanitizeStatus (status : RuntimeStatus) : RuntimeStatus :=
  { status with
    listenAddr := hidden
    upstreamDns := hidden
    error := status.error.map fun _ => hiddenError
    stats := sanitizeStats status.stats }

/-- The build the report is made by. -/
structure Application where
  version : Text
  os : Text
  arch : Text

/-- The values that are written out as the report. -/
structure DiagnosticReport where
  format : Text
  generatedAtUnix : UInt64
  application : Application
  privacy : Text
  config : AppConfig
  runtime : Option RuntimeStatus

def diagnosticReport (application : Application) (unixNow : UInt64) (config : AppConfig)
    (status : Option RuntimeStatus) : DiagnosticReport where
  format := "dnsblackhole-diagnostic-v1".toList
  generatedAtUnix := unixNow
  application := application
  privacy := "域名、客户端地址、访问列表、代理地址、上游地址、规则内容和过滤器 URL 已隐藏".toList
  config := redactConfig config
  runtime := status.map sanitizeStatus

theorem diagnosticReport_eq_iff_runtime (application : Application) (unixNow : UInt64)
    {c d : AppConfig} {s t : Option RuntimeStatus} (h : redactConfig c = redactConfig d) :
    diagnosticReport application unixNow c s = diagnosticReport application unixNow d t ↔
      s.map sanitizeStatus = t.map sanitizeStatus := by
  unfold diagnosticReport
  rw [h]
  generalize redactConfig d = config
  constructor
  · exact congrArg DiagnosticReport.runtime
  · exact congrArg _

/-! ## Private contents -/

/-- Texts with as many entries. -/
def SameEntries (a b : Text) : Prop := entryCount a = entryCount b

/-- Values that are both given or both blank. -/
def SamePresence (a b : Text) : Prop := a.trim = [] ↔ b.trim = []

structure FilterSubscription.Similar (f g : FilterSubscription) : Prop where
  shown : g = { f with url := g.url, lastError := g.lastError }
  lastError : f.lastError.isSome = g.lastError.isSome

/-- The texts with an entry to a line. -/
def AppConfig.privateLines : List (AppConfig → Text) :=
  [(·.upstreamDns), (·.fallbackDns), (·.bootstrapDns), (·.domainUpstreamRules),
    (·.clientUpstreamRules), (·.clientFilteringRules), (·.clientPolicyGroups), (·.allowedClients),
    (·.blockedClients), (·.rebindingAllowedDomains), (·.dnsRewrites), (·.clientNames),
    (·.queryLogIgnoredDomains), (·.statisticsIgnoredDomains), (·.blacklist)]

def AppConfig.privateValues : List (AppConfig → Text) :=
  [(·.monitoringApiToken), (·.blockingCustomIpv4), (·.blockingCustomIpv6), (·.filterProxyUrl),
    (·.filterSystemProxyUrl)]

/-- Configurations that differ in private contents only. -/
structure AppConfig.Similar (c d : AppConfig) : Prop where
  shown : d = { c with
    upstreamDns := d.upstreamDns, fallbackDns := d.fallbackDns, bootstrapDns := d.bootstrapDns,
    domainUpstreamRules := d.domainUpstreamRules, clientUpstreamRules := d.clientUpstreamRules,
    clientFilteringRules := d.clientFilteringRules, clientPolicyGroups := d.clientPolicyGroups,
    allowedClients := d.allowedClients, blockedClients := d.blockedClients,
    rebindingAllowedDomains := d.rebindingAllowedDomains, dnsRewrites := d.dnsRewrites,
    clientNames := d.clientNames, queryLogIgnoredDomains := d.queryLogIgnoredDomains,
    statisticsIgnoredDomains := d.statisticsIgnoredDomains, blacklist := d.blacklist,
    listenHost := d.listenHost, listenIpv6Host := d.listenIpv6Host,
    monitoringApiListenHost := d.monitoringApiListenHost,
    monitoringApiToken := d.monitoringApiToken, blockingCustomIpv4 := d.blockingCustomIpv4,
    blockingCustomIpv6 := d.blockingCustomIpv6, filterProxyUrl := d.filterProxyUrl,
    filterSystemProxyUrl := d.filterSystemProxyUrl, filters := d.filters }
  lines : ∀ field ∈ AppConfig.privateLines, SameEntries (field c) (field d)
  values : ∀ field ∈ AppConfig.privateValues, SamePresence (field c) (field d)
  filters : List.Forall₂ FilterSubscription.Similar c.filters d.filters

/-- The counts of a map. -/
def Counts.values (m : Counts) : Multiset ℕ := m.entries.map Sigma.snd

/-- Maps with the same counts, whatever the keys. -/
def Counts.Similar (m n : Counts) : Prop := m.values = n.values

def SecurityEvent.Similar (e f : SecurityEvent) : Prop :=
  f = { e with clientIp := f.clientIp, reason := f.reason }

/-- Statistics that differ in private contents only. -/
structure DnsStats.Similar (s t : DnsStats) : Prop where
  shown : t = { s with
    securityEvents := t.securityEvents, lastQuery := t.lastQuery, lastBlocked := t.lastBlocked,
    lastError := t.lastError, queryDomains := t.queryDomains, blockedDomains := t.blockedDomains,
    clientRequests := t.clientRequests, clientBlocked := t.clientBlocked,
    blocklistHits := t.blocklistHits, domainTraffic := t.domainTraffic,
    clientTraffic := t.clientTraffic, upstreamRequests := t.upstreamRequests,
    upstreamAvgLatency := t.upstreamAvgLatency }
  lastQuery : s.lastQuery.isSome = t.lastQuery.isSome
  lastBlocked : s.lastBlocked.isSome = t.lastBlocked.isSome
  lastError : s.lastError.isSome = t.lastError.isSome
  counts : ∀ field ∈ [DnsStats.queryDomains, DnsStats.blockedDomains, DnsStats.clientRequests,
    DnsStats.clientBlocked, DnsStats.blocklistHits, DnsStats.domainTraffic,
    DnsStats.clientTraffic], Counts.Similar (field s) (field t)
  securityEvents : List.Forall₂ SecurityEvent.Similar s.securityEvents t.securityEvents
  upstreamRequests : s.upstreamRequests.map (·.requests) = t.upstreamRequests.map (·.requests)
  upstreamAvgLatency : s.upstreamAvgLatency.map (·.avgMs) = t.upstreamAvgLatency.map (·.avgMs)

structure RuntimeStatus.Similar (s t : RuntimeStatus) : Prop where
  shown : t = { s with
    listenAddr := t.listenAddr, upstreamDns := t.upstreamDns, stats := t.stats, error := t.error }
  error : s.error.isSome = t.error.isSome
  stats : s.stats.Similar t.stats

/-! ## What the report hides -/

theorem redactLines_eq {a b : Text} (h : SameEntries a b) : redactLines a = redactLines b := by
  rw [redactLines, redactLines, show entryCount a = entryCount b from h]

theorem redactValue_eq {a b : Text} (h : SamePresence a b) : redactValue a = redactValue b := by
  rw [redactValue, redactValue]
  exact if_congr h rfl rfl

theorem map_const_eq {α β : Type*} {a b : Option α} (h : a.isSome = b.isSome) (x : β) :
    (a.map fun _ => x) = b.map fun _ => x := by
  cases a <;> cases b <;> simp_all

theorem redactFilter_eq {f g : FilterSubscription} (h : f.Similar g) :
    redactFilter f = redactFilter g := by
  rw [h.shown]
  simp only [redactFilter, map_const_eq h.lastError hiddenError]

theorem redactConfig_eq {c d : AppConfig} (h : c.Similar d) : redactConfig c = redactConfig d := by
  have hlines : ∀ field ∈ AppConfig.privateLines, redactLines (field c) = redactLines (field d) :=
    fun field hf => redactLines_eq (h.lines field hf)
  have hvalues : ∀ field ∈ AppConfig.privateValues, redactValue (field c) = redactValue (field d) :=
    fun field hf => redactValue_eq (h.values field hf)
  have hfilters : c.filters.map redactFilter = d.filters.map redactFilter := by
    rw [← List.forall₂_eq_eq_eq, List.forall₂_map_left_iff, List.forall₂_map_right_iff]
    exact h.filters.imp fun _ _ => redactFilter_eq
  simp only [AppConfig.privateLines, AppConfig.privateValues, List.forall_mem_cons] at hlines hvalues
  rw [h.shown]
  simp only [redactConfig, hlines, hvalues, hfilters]

theorem sanitizeStats_eq {s t : DnsStats} (h : s.Similar t) :
    sanitizeStats t = { sanitizeStats s with
      domainTraffic := t.domainTraffic, clientTraffic := t.clientTraffic } := by
  have hrequests : ∀ us : List UpstreamRequestStat, (us.map fun u => { u with upstream := hidden }) =
      (us.map (·.requests)).map fun n => ⟨hidden, n⟩ := fun us => by
    rw [List.map_map]
    rfl
  have hlatency : ∀ us : List UpstreamLatencyStat, (us.map fun u => { u with upstream := hidden }) =
      (us.map (·.avgMs)).map fun n => ⟨hidden, n⟩ := fun us => by
    rw [List.map_map]
    rfl
  rw [h.shown]
  simp only [sanitizeStats, map_const_eq h.lastQuery, map_const_eq h.lastBlocked,
    map_const_eq h.lastError, hrequests, hlatency, h.upstreamRequests, h.upstreamAvgLatency]

theorem sanitizeStats_eq_iff {s t : DnsStats} (h : s.Similar t) :
    sanitizeStats s = sanitizeStats t ↔
      s.domainTraffic = t.domainTraffic ∧ s.clientTraffic = t.clientTraffic := by
  rw [sanitizeStats_eq h]
  constructor
  · intro heq
    have hdomain := congrArg DnsStats.domainTraffic heq
    have hclient := congrArg DnsStats.clientTraffic heq
    exact ⟨hdomain, hclient⟩
  · rintro ⟨hdomain, hclient⟩
    rw [← hdomain, ← hclient]
    rfl

theorem sanitizeStatus_eq_iff {s t : RuntimeStatus} (h : s.Similar t) :
    sanitizeStatus s = sanitizeStatus t ↔
      s.stats.domainTraffic = t.stats.domainTraffic ∧
        s.stats.clientTraffic = t.stats.clientTraffic := by
  rw [← sanitizeStats_eq_iff h.stats]
  constructor
  · exact congrArg RuntimeStatus.stats
  · intro heq
    rw [h.shown]
    simp only [sanitizeStatus, heq, map_const_eq h.error]

/-! ## Maps with other keys -/

theorem Counts.values_eq_zero {m : Counts} (h : m.values = 0) : m = ∅ :=
  Finmap.ext (Multiset.map_eq_zero.1 h)

theorem Counts.Similar.refl (m : Counts) : m.Similar m := rfl

theorem Counts.exists_similar_ne {m : Counts} (h : m ≠ ∅) : ∃ n : Counts, m.Similar n ∧ m ≠ n := by
  obtain ⟨⟨k, v⟩, hk⟩ := Multiset.exists_mem_of_ne_zero fun h0 => h (Finmap.ext h0)
  have hlookup : m.lookup k = some v := Finmap.lookup_eq_some_iff.2 hk
  obtain ⟨k', hk'⟩ := Infinite.exists_notMem_finset m.keys
  have hk' : k' ∉ m := fun hmem => hk' (Finmap.mem_keys.2 hmem)
  have hnot : k' ∉ m.erase k := fun hmem => hk' (Finmap.mem_erase.1 hmem).2
  have hm : (m.erase k).insert k v = m := by
    refine Finmap.ext_lookup fun x => ?_
    by_cases hx : x = k
    · rw [hx, Finmap.lookup_insert, hlookup]
    · rw [Finmap.lookup_insert_of_ne _ hx, Finmap.lookup_erase_ne hx]
  have hvalues : ∀ x, x ∉ m.erase k →
      Counts.values ((m.erase k).insert x v) = v ::ₘ Counts.values (m.erase k) := by
    intro x hx
    rw [Counts.values, Finmap.entries_insert_of_notMem hx, Multiset.map_cons]
    rfl
  refine ⟨(m.erase k).insert k' v, ?_, fun heq => hk' ?_⟩
  · have hk := hvalues k Finmap.notMem_erase_self
    rw [hm] at hk
    rw [Counts.Similar, hk, hvalues k' hnot]
  · rw [heq]
    exact Finmap.mem_insert.2 (.inl rfl)

theorem AppConfig.Similar.refl (c : AppConfig) : c.Similar c where
  shown := rfl
  lines _ _ := rfl
  values _ _ := Iff.rfl
  filters := List.forall₂_same.2 fun _ _ => ⟨rfl, rfl⟩

theorem DnsStats.similar_traffic (s : DnsStats) {m n : Counts} (hm : s.domainTraffic.Similar m)
    (hn : s.clientTraffic.Similar n) :
    s.Similar { s with domainTraffic := m, clientTraffic := n } where
  shown := rfl
  lastQuery := rfl
  lastBlocked := rfl
  lastError := rfl
  counts := by
    simp only [List.forall_mem_cons]
    exact ⟨.refl _, .refl _, .refl _, .refl _, .refl _, hm, hn, List.forall_mem_nil _⟩
  securityEvents := List.forall₂_same.2 fun _ _ => rfl
  upstreamRequests := rfl
  upstreamAvgLatency := rfl

section
variable (application : Application) (unixNow : UInt64)

/-- **Of the private contents** of similar inputs, the report shows the traffic by
    domain and by client and nothing else. -/
theorem diagnosticReport_eq_iff {c d : AppConfig} {s t : Option RuntimeStatus} (hc : c.Similar d)
    (hs : Option.Rel RuntimeStatus.Similar s t) :
    diagnosticReport application unixNow c s = diagnosticReport application unixNow d t ↔
      s.map (·.stats.domainTraffic) = t.map (·.stats.domainTraffic) ∧
        s.map (·.stats.clientTraffic) = t.map (·.stats.clientTraffic) := by
  rw [diagnosticReport_eq_iff_runtime application unixNow (redactConfig_eq hc)]
  cases hs with
  | none => simp
  | some h => simpa using sanitizeStatus_eq_iff h

/-- **Reports hide every private value** exactly when there is no traffic by domain
    or by client in the statistics. -/
theorem diagnosticReport_private_iff (config : AppConfig) (status : Option RuntimeStatus) :
    (∀ (d : AppConfig) (t : Option RuntimeStatus), config.Similar d →
        Option.Rel RuntimeStatus.Similar status t →
        diagnosticReport application unixNow config status =
          diagnosticReport application unixNow d t) ↔
      ∀ s ∈ status, s.stats.domainTraffic = ∅ ∧ s.stats.clientTraffic = ∅ := by
  constructor
  · rintro h s rfl
    have hkeys : ∀ m n : Counts, s.stats.domainTraffic.Similar m →
        s.stats.clientTraffic.Similar n →
        s.stats.domainTraffic = m ∧ s.stats.clientTraffic = n := by
      intro m n hm hn
      have hs : RuntimeStatus.Similar s
          { s with stats := { s.stats with domainTraffic := m, clientTraffic := n } } :=
        ⟨rfl, rfl, s.stats.similar_traffic hm hn⟩
      have := (diagnosticReport_eq_iff application unixNow (.refl config) (.some hs)).1
        (h config _ (.refl config) (.some hs))
      simpa using this
    constructor
    · by_contra hne
      obtain ⟨m, hm, hmne⟩ := Counts.exists_similar_ne hne
      exact hmne (hkeys m _ hm (.refl _)).1
    · by_contra hne
      obtain ⟨n, hn, hnne⟩ := Counts.exists_similar_ne hne
      exact hnne (hkeys _ n (.refl _) hn).2
  · intro h d t hc hs
    rw [diagnosticReport_eq_iff application unixNow hc hs]
    cases hs with
    | none => exact ⟨rfl, rfl⟩
    | @some s t hst =>
      obtain ⟨hdomain, hclient⟩ := h s rfl
      have hempty : ∀ {m n : Counts}, m.Similar n → m = ∅ → m = n := by
        rintro m n hmn rfl
        exact (Counts.values_eq_zero hmn.symm).symm
      have hcounts := hst.stats.counts
      simp only [List.forall_mem_cons] at hcounts
      obtain ⟨-, -, -, -, -, hd, hcl, -⟩ := hcounts
      simp [hempty hd hdomain, hempty hcl hclient]

end

/-- A state after one query of a domain. -/
def trafficStatus (domain : Text) : RuntimeStatus where
  running := true
  protectionPaused := false
  protectionPausedUntil := none
  listenAddr := []
  upstreamDns := []
  summary := Rules.noRules
  stats := { queries := 1, domainTraffic := Finmap.singleton domain 120 }
  error := none

/-- Two states that differ in the domain only have different reports. -/
theorem trafficStatus_report_ne :
    Option.Rel RuntimeStatus.Similar (some (trafficStatus ['a'])) (some (trafficStatus ['b'])) ∧
    diagnosticReport ⟨[], [], []⟩ 0 default (some (trafficStatus ['a'])) ≠
      diagnosticReport ⟨[], [], []⟩ 0 default (some (trafficStatus ['b'])) := by
  have hs : (trafficStatus ['a']).Similar (trafficStatus ['b']) :=
    ⟨rfl, rfl, DnsStats.similar_traffic _ rfl rfl⟩
  refine ⟨.some hs, fun heq => ?_⟩
  have := (diagnosticReport_eq_iff _ _ (.refl default) (.some hs)).1 heq
  revert this
  decide

end DnsBlackhole.Admin
