/-
  The configuration (`config.rs`) and the state of the service that the
  administration shows (`dns/stats.rs`).

  A hash map of the statistics is a finite map without an order (`Counts`): the
  report writes its entries sorted by their keys.
-/
import Mathlib.Data.Finmap
import DnsBlackhole.Protocol.Respond

namespace DnsBlackhole.Admin
open Protocol (BlockingMode)
open Rules (RuleSummary)

inductive UpstreamMode
  | loadBalance
  | parallelRequests
  | fastestAddr
  deriving DecidableEq, Inhabited

inductive FilterProxyMode
  | system
  | direct
  | custom
  deriving DecidableEq, Inhabited

/-- A filter list the rules are downloaded from. -/
structure FilterSubscription where
  id : Text
  name : Text
  url : Text
  enabled : Bool
  ruleCount : ℕ
  blockRuleCount : ℕ
  allowRuleCount : ℕ
  ignoredRuleCount : ℕ
  ignoredCommentCount : ℕ
  ignoredRegexCount : ℕ
  ignoredUnsupportedCount : ℕ
  ignoredInvalidCount : ℕ
  lastUpdated : Option UInt64
  lastError : Option Text

/-- How the rules, the statistics and the query log name a filter list: `f:` and its id. -/
def filterSourceTag (filterId : Text) : Text := "f:".toList ++ filterId

structure AppConfig where
  schemaVersion : UInt32
  enabled : Bool
  useFilters : Bool
  listenHost : Text
  listenPort : UInt16
  listenIpv6 : Bool
  listenIpv6Host : Text
  upstreamDns : Text
  fallbackDns : Text
  bootstrapDns : Text
  upstreamMode : UpstreamMode
  dnssecEnabled : Bool
  domainUpstreamRules : Text
  clientUpstreamRules : Text
  clientFilteringRules : Text
  clientPolicyGroups : Text
  familySafeSearch : Bool
  familyBlockedServices : Text
  allowedClients : Text
  blockedClients : Text
  rateLimitPerSecond : UInt32
  refuseAny : Bool
  filterUpdateIntervalHours : UInt32
  filterMaxSizeMb : UInt32
  filterProxyMode : FilterProxyMode
  filterProxyUrl : Text
  filterSystemProxyUrl : Text
  allowInsecureHttp : Bool
  queryLogEnabled : Bool
  anonymizeClientIp : Bool
  launchAtStartup : Bool
  queryLogRetentionHours : UInt32
  statisticsEnabled : Bool
  statisticsRetentionHours : UInt32
  securityEventRetentionHours : UInt32
  systemHostsEnabled : Bool
  dnsCacheEnabled : Bool
  dnsCacheSize : ℕ
  dnsCacheMinTtl : UInt32
  dnsCacheMaxTtl : UInt32
  dnsCacheOptimistic : Bool
  dnsCacheOptimisticMaxStaleSeconds : UInt32
  dnsCachePrefetchEnabled : Bool
  dnsCachePrefetchHitThreshold : UInt32
  runtimeWatchdogEnabled : Bool
  runtimeWatchdogIntervalSeconds : UInt64
  monitoringApiEnabled : Bool
  monitoringApiListenHost : Text
  monitoringApiPort : UInt16
  monitoringApiToken : Text
  webAdminSessionIdleMinutes : UInt32
  webAdminSecureCookie : Bool
  blockingMode : BlockingMode
  blockingResponseTtl : UInt32
  blockingCustomIpv4 : Text
  blockingCustomIpv6 : Text
  rebindingProtectionEnabled : Bool
  rebindingAllowedDomains : Text
  cnameCloakingEnabled : Bool
  privateReverseDnsEnabled : Bool
  dnsRewrites : Text
  clientNames : Text
  queryLogIgnoredDomains : Text
  statisticsIgnoredDomains : Text
  filters : List FilterSubscription
  blacklist : Text
  deriving Inhabited

/-! ## The state of the service -/

/-- A `HashMap<String, u64>`. -/
abbrev Counts := Finmap fun _ : Text => ℕ

inductive SecurityEventType
  | accessDenied
  | rateLimited
  | invalidQuery
  | webAuthLogin
  | webAuthFailed
  | webAuthLocked
  | webAuthPasswordChanged
  deriving DecidableEq

inductive DnsTransport
  | udp
  | tcp
  deriving DecidableEq

structure SecurityEvent where
  eventType : SecurityEventType
  protocol : DnsTransport
  clientIp : Text
  reason : Text
  firstSeenAt : UInt64
  lastSeenAt : UInt64
  count : ℕ

structure TrafficBucket where
  minute : UInt64
  queries : ℕ
  blocked : ℕ
  bytes : ℕ

structure TrafficTotals where
  clientBytesIn : ℕ := 0
  clientBytesOut : ℕ := 0
  upstreamBytesOut : ℕ := 0
  upstreamBytesIn : ℕ := 0
  cacheSavedBytes : ℕ := 0

structure UpstreamRequestStat where
  upstream : Text
  requests : ℕ

structure UpstreamLatencyStat where
  upstream : Text
  avgMs : ℕ

/-- The statistics, without the channel of the security events, which is never
    written out. -/
structure DnsStats where
  startedAt : Option UInt64 := none
  dashboardStartedAt : Option UInt64 := none
  dashboardEndedAt : Option UInt64 := none
  queries : ℕ := 0
  blocked : ℕ := 0
  forwarded : ℕ := 0
  failed : ℕ := 0
  accessDeniedTotal : ℕ := 0
  rateLimitedTotal : ℕ := 0
  refusedAnyTotal : ℕ := 0
  rebindingBlockedTotal : ℕ := 0
  cnameCloakingBlockedTotal : ℕ := 0
  droppedUdpTotal : ℕ := 0
  invalidQueryTotal : ℕ := 0
  workerQueueDroppedTotal : ℕ := 0
  persistenceQueueDroppedTotal : ℕ := 0
  upstreamTaskQueueRejectedTotal : ℕ := 0
  tcpConnectionRejectedTotal : ℕ := 0
  cacheHits : ℕ := 0
  cacheMisses : ℕ := 0
  cacheStaleHits : ℕ := 0
  cacheRefreshStarted : ℕ := 0
  cacheRefreshCompleted : ℕ := 0
  cacheRefreshFailed : ℕ := 0
  cachePrefetchStarted : ℕ := 0
  cachePrefetchCompleted : ℕ := 0
  cachePrefetchFailed : ℕ := 0
  cacheInsertions : ℕ := 0
  cacheEvictions : ℕ := 0
  cacheEntries : ℕ := 0
  cacheBytes : ℕ := 0
  securityEvents : List SecurityEvent := []
  lastQuery : Option Text := none
  lastBlocked : Option Text := none
  lastError : Option Text := none
  queryDomains : Counts := ∅
  blockedDomains : Counts := ∅
  clientRequests : Counts := ∅
  clientBlocked : Counts := ∅
  blocklistHits : Counts := ∅
  traffic : List TrafficBucket := []
  trafficTotals : TrafficTotals := {}
  domainTraffic : Counts := ∅
  clientTraffic : Counts := ∅
  upstreamRequests : List UpstreamRequestStat := []
  upstreamAvgLatency : List UpstreamLatencyStat := []

structure RuntimeStatus where
  running : Bool
  protectionPaused : Bool
  protectionPausedUntil : Option UInt64
  listenAddr : Text
  upstreamDns : Text
  summary : RuleSummary
  stats : DnsStats
  error : Option Text

end DnsBlackhole.Admin
