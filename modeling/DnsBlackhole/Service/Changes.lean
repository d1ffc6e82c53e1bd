/-
  What a change of the configuration asks for (`needs_dns_restart` and
  `filter_runtime_changed` of `service_core.rs`).

  * `serverParameters_eq`: without the need to restart, both configurations have the
    same server;
  * `buildFilterRuntime_eq`: without a change of the filter, both have the same one.
-/
import DnsBlackhole.Lib.Fallible
import DnsBlackhole.Service.Build

namespace DnsBlackhole.Service
open Admin (AppConfig FilterSubscription)
open Config
open Lib (bind_eq_ok pure_eq_ok)

/-- The names of the lists do not count: the rules only know their ids. -/
def filterListsChanged (previous next : List FilterSubscription) : Bool :=
  previous.length != next.length ||
    (previous.zip next).any fun (previous, next) =>
      previous.id != next.id || previous.enabled != next.enabled

def filterRuntimeChanged (previous next : AppConfig) : Bool :=
  previous.useFilters != next.useFilters ||
  filterListsChanged previous.filters next.filters ||
  previous.blacklist != next.blacklist ||
  previous.blockingMode != next.blockingMode ||
  previous.blockingResponseTtl != next.blockingResponseTtl ||
  previous.blockingCustomIpv4 != next.blockingCustomIpv4 ||
  previous.blockingCustomIpv6 != next.blockingCustomIpv6 ||
  previous.rebindingProtectionEnabled != next.rebindingProtectionEnabled ||
  previous.rebindingAllowedDomains != next.rebindingAllowedDomains ||
  previous.cnameCloakingEnabled != next.cnameCloakingEnabled ||
  previous.dnsRewrites != next.dnsRewrites ||
  previous.systemHostsEnabled != next.systemHostsEnabled ||
  previous.clientFilteringRules != next.clientFilteringRules ||
  previous.clientPolicyGroups != next.clientPolicyGroups ||
  previous.familySafeSearch != next.familySafeSearch ||
  previous.familyBlockedServices != next.familyBlockedServices ||
  previous.queryLogIgnoredDomains != next.queryLogIgnoredDomains ||
  previous.statisticsIgnoredDomains != next.statisticsIgnoredDomains

def needsDnsRestart (previous next : AppConfig) : Bool :=
  previous.listenHost != next.listenHost ||
  previous.listenPort != next.listenPort ||
  previous.listenIpv6 != next.listenIpv6 ||
  previous.listenIpv6Host != next.listenIpv6Host ||
  previous.upstreamDns != next.upstreamDns ||
  previous.fallbackDns != next.fallbackDns ||
  previous.bootstrapDns != next.bootstrapDns ||
  previous.upstreamMode != next.upstreamMode ||
  previous.dnssecEnabled != next.dnssecEnabled ||
  previous.domainUpstreamRules != next.domainUpstreamRules ||
  previous.clientUpstreamRules != next.clientUpstreamRules ||
  previous.allowInsecureHttp != next.allowInsecureHttp ||
  previous.allowedClients != next.allowedClients ||
  previous.blockedClients != next.blockedClients ||
  previous.rateLimitPerSecond != next.rateLimitPerSecond ||
  previous.refuseAny != next.refuseAny ||
  previous.privateReverseDnsEnabled != next.privateReverseDnsEnabled ||
  previous.queryLogEnabled != next.queryLogEnabled ||
  previous.statisticsEnabled != next.statisticsEnabled ||
  previous.anonymizeClientIp != next.anonymizeClientIp ||
  previous.dnsCacheEnabled != next.dnsCacheEnabled ||
  previous.dnsCacheSize != next.dnsCacheSize ||
  previous.dnsCacheMinTtl != next.dnsCacheMinTtl ||
  previous.dnsCacheMaxTtl != next.dnsCacheMaxTtl ||
  previous.dnsCacheOptimistic != next.dnsCacheOptimistic ||
  previous.dnsCacheOptimisticMaxStaleSeconds != next.dnsCacheOptimisticMaxStaleSeconds ||
  previous.dnsCachePrefetchEnabled != next.dnsCachePrefetchEnabled ||
  previous.dnsCachePrefetchHitThreshold != next.dnsCachePrefetchHitThreshold ||
  previous.monitoringApiEnabled != next.monitoringApiEnabled ||
  previous.monitoringApiListenHost != next.monitoringApiListenHost ||
  previous.monitoringApiPort != next.monitoringApiPort ||
  previous.monitoringApiToken != next.monitoringApiToken

variable {env : Environment} {c d : AppConfig}

/-! ## The server -/

theorem listeners_eq (h : needsDnsRestart c d = false) : listeners c = listeners d := by
  simp only [needsDnsRestart, Bool.or_eq_false_iff, bne_eq_false_iff_eq] at h
  simp only [listeners, listenSocketAddrs, listenSocketAddr, h]

theorem upstreams_eq (h : needsDnsRestart c d = false) :
    bootstrapServers c = bootstrapServers d ∧
      upstreamServers env.parseUrl c = upstreamServers env.parseUrl d ∧
      fallbackServers env.parseUrl c = fallbackServers env.parseUrl d := by
  simp only [needsDnsRestart, Bool.or_eq_false_iff, bne_eq_false_iff_eq] at h
  simp only [bootstrapServers, upstreamServers, fallbackServers, h, and_self]

theorem upstreamRoutes_eq (h : needsDnsRestart c d = false) :
    upstreamRoutes env c = upstreamRoutes env d := by
  have hbootstrap : bootstrapServers c = bootstrapServers d := (@upstreams_eq env c d h).1
  simp only [needsDnsRestart, Bool.or_eq_false_iff, bne_eq_false_iff_eq] at h
  simp only [upstreamRoutes, domainUpstreamRuleSpecs, clientUpstreamRuleSpecs, hbootstrap, h]

theorem clientAccess_eq (h : needsDnsRestart c d = false) : clientAccess c = clientAccess d := by
  simp only [needsDnsRestart, Bool.or_eq_false_iff, bne_eq_false_iff_eq] at h
  simp only [clientAccess, h]

theorem dnsCacheConfig_eq (h : needsDnsRestart c d = false) :
    dnsCacheConfig c = dnsCacheConfig d := by
  simp only [needsDnsRestart, Bool.or_eq_false_iff, bne_eq_false_iff_eq] at h
  simp only [dnsCacheConfig, h]

theorem prepareMonitoring_eq (h : needsDnsRestart c d = false) :
    prepareMonitoring c = prepareMonitoring d := by
  simp only [needsDnsRestart, Bool.or_eq_false_iff, bne_eq_false_iff_eq] at h
  simp only [prepareMonitoring, monitoringApiSocketAddr, h]

/-- **Configurations without the need to restart have the same server.** -/
theorem serverParameters_eq (h : needsDnsRestart c d = false) :
    serverParameters env c = serverParameters env d := by
  obtain ⟨hbootstrap, hupstream, hfallback⟩ := @upstreams_eq env c d h
  unfold serverParameters
  rw [listeners_eq h, hbootstrap, hupstream, hfallback, upstreamRoutes_eq h, clientAccess_eq h,
    dnsCacheConfig_eq h, prepareMonitoring_eq h]
  simp only [needsDnsRestart, Bool.or_eq_false_iff, bne_eq_false_iff_eq] at h
  simp only [h]

/-! ## The filter -/

theorem foldl_appendFilterRules {ls ms : List FilterSubscription}
    (h : filterListsChanged ls ms = false) (rules : Text) :
    ls.foldl (appendFilterRules env) rules = ms.foldl (appendFilterRules env) rules := by
  induction ls generalizing ms rules with
  | nil =>
    cases ms with
    | nil => rfl
    | cons m ms => simp [filterListsChanged] at h
  | cons l ls ih =>
    cases ms with
    | nil => simp [filterListsChanged] at h
    | cons m ms =>
      simp only [filterListsChanged, List.length_cons, List.zip_cons_cons, List.any_cons,
        Bool.or_eq_false_iff, bne_eq_false_iff_eq, Nat.add_right_cancel_iff] at h
      obtain ⟨hlength, ⟨hid, henabled⟩, hrest⟩ := h
      have hfirst : appendFilterRules env rules l = appendFilterRules env rules m := by
        simp only [appendFilterRules, hid, henabled]
      rw [List.foldl_cons, List.foldl_cons, hfirst]
      exact ih (by simp [filterListsChanged, hlength, hrest]) _

theorem compileEffectiveRules_eq (h : filterRuntimeChanged c d = false) :
    compileEffectiveRules env c = compileEffectiveRules env d := by
  simp only [filterRuntimeChanged, Bool.or_eq_false_iff, bne_eq_false_iff_eq] at h
  have hlists : filterListsChanged c.filters d.filters = false := by simp only [h]
  simp only [compileEffectiveRules, buildEffectiveRules, buildRemoteRules,
    foldl_appendFilterRules hlists, h]

theorem clientFilteringPolicies_eq (h : filterRuntimeChanged c d = false) :
    clientFilteringPolicies c = clientFilteringPolicies d := by
  simp only [filterRuntimeChanged, Bool.or_eq_false_iff, bne_eq_false_iff_eq] at h
  simp only [clientFilteringPolicies, clientPolicyGroupSpecs, familyBlockedServiceNames,
    clientFilteringRuleSpecs, h]

/-- **Configurations without a change of the filter have the same one.** -/
theorem buildFilterRuntime_eq (h : filterRuntimeChanged c d = false) :
    buildFilterRuntime env c = buildFilterRuntime env d := by
  unfold buildFilterRuntime buildFilterRuntimeWithRules
  rw [compileEffectiveRules_eq h, clientFilteringPolicies_eq h]
  simp only [filterRuntimeChanged, Bool.or_eq_false_iff, bne_eq_false_iff_eq] at h
  simp only [blockingPolicy, h]

/-! ## Both -/

theorem buildServer_eq_ok {server : DnsServer} : buildServer env c = .ok server ↔
    validate env.parseUrl c = .ok () ∧ serverParameters env c = .ok server.parameters ∧
      buildFilterRuntime env c = .ok server.filterRuntime ∧ server.hasFinishedThreads = false := by
  unfold buildServer startWithFilterRuntime
  rw [bind_eq_ok]
  constructor
  · rintro ⟨filterRuntime, hfilter, h⟩
    obtain ⟨⟨⟩, hvalid, h⟩ := bind_eq_ok.1 h
    obtain ⟨parameters, hparameters, h⟩ := bind_eq_ok.1 h
    cases pure_eq_ok.1 h
    exact ⟨hvalid, hparameters, hfilter, rfl⟩
  · obtain ⟨parameters, filterRuntime, finished⟩ := server
    rintro ⟨hvalid, hparameters, hfilter, rfl⟩
    exact ⟨filterRuntime, hfilter, bind_eq_ok.2 ⟨(), hvalid, bind_eq_ok.2
      ⟨parameters, hparameters, rfl⟩⟩⟩

theorem buildServer_swap {server : DnsServer}
    (hserver : serverParameters env c = .ok server.parameters)
    (hfinished : server.hasFinishedThreads = false) (hrestart : needsDnsRestart c d = false) (hvalid : validate env.parseUrl d = .ok ())
    {filterRuntime : Filter.FilterRuntime} (hfilter : buildFilterRuntime env d = .ok filterRuntime) :
    buildServer env d = .ok { server with filterRuntime } := by
  rw [buildServer_eq_ok]
  exact ⟨hvalid, serverParameters_eq hrestart ▸ hserver, hfilter, hfinished⟩

theorem buildServer_keep {server : DnsServer} (hserver : buildServer env c = .ok server)
    (hrestart : needsDnsRestart c d = false) (hfilter : filterRuntimeChanged c d = false)
    (hvalid : validate env.parseUrl d = .ok ()) : buildServer env d = .ok server := by
  rw [buildServer_eq_ok] at hserver ⊢
  exact ⟨hvalid, serverParameters_eq hrestart ▸ hserver.2.1,
    buildFilterRuntime_eq hfilter ▸ hserver.2.2.1, hserver.2.2.2⟩

end DnsBlackhole.Service
