/-
  What a configuration is built into: the state of the filter
  (`build_filter_runtime_with_rules`) and the server around it
  (`DnsServer::start_with_filter_runtime`), with the constructors of their parts.

  What the program reads from outside is in an `Environment`.  Sockets are
  addresses; a server that is asked has what it was made from, and its label, but
  not the addresses that its name stood for.
-/
import DnsBlackhole.Cache.Store
import DnsBlackhole.Config.Validate
import DnsBlackhole.Filter.Access
import DnsBlackhole.Filter.Routes
import DnsBlackhole.Filter.Runtime
import DnsBlackhole.Rules.Effective

namespace DnsBlackhole.Service
open Admin (AppConfig FilterSubscription UpstreamMode filterSourceTag)
open Cache (DnsCacheConfig DnsCacheStore)
open Config
open Filter
open Protocol (BlockingPolicy)
open Rules (CompiledRules)

structure Environment where
  /-- `reqwest::Url::parse` -/
  parseUrl : Text → Except Text Url
  /-- `serde_json::from_str` and `to_string` for strings. -/
  jsonString : Text → Option Text
  quote : Text → Text
  /-- The content of the list with an id, if it can be read. -/
  filterCache : Text → Option Text
  systemHosts : Option Text

/-! ## Networks and lists of clients -/

/-- The network of a prefix that is not too long. -/
def ipNetwork (ip : IpAddr) (prefixLen : ℕ) : Option IpNetwork :=
  let (family, bits, raw) := ipParts ip
  if bits < prefixLen then none
  else some { family, network := prefixNetwork raw bits prefixLen, prefixLen }

/-- `IpNetwork::parse` -/
def parseIpNetwork (value label : Text) : Except Text IpNetwork := do
  let (ip, prefixLen) ←
    match value.splitOnce (· == '/') with
    | some (ip, prefixLen) => do
      let ip ← okOr (parseIpAddr ip) (label ++ " IP 无效：".toList ++ ip)
      let prefixLen ← okOr (parseU8 prefixLen) (label ++ "前缀无效：".toList ++ prefixLen)
      pure (ip, prefixLen)
    | none => do
      let ip ← okOr (parseIpAddr value) (label ++ " IP 无效：".toList ++ value)
      pure (ip, (ipParts ip).2.1)
  okOr (ipNetwork ip prefixLen) (label ++ "前缀长度无效：".toList ++ value)

/-- `IpPrefix::parse` -/
def parseIpPrefix (value : Text) : Option IpNetwork := do
  let (ip, prefixLen) ← value.splitOnce (· == '/')
  let ip ← parseIpAddr ip
  let prefixLen ← parseU8 prefixLen
  ipNetwork ip prefixLen

def parseClientMatcher (value label : Text) : Except Text ClientMatcher :=
  (firstWords value).foldlM (fun matcher (item, index) => do
    match parseIpAddr item with
    | some ip =>
      return { matcher with
        exact := if matcher.exact.contains ip then matcher.exact else matcher.exact ++ [ip] }
    | none =>
      let network ← okOr (parseIpPrefix item) (label ++ "第 ".toList ++ lineNumber index ++
        " 行必须是 IP 地址或 CIDR 网段：".toList ++ item)
      return { matcher with prefixes := matcher.prefixes ++ [network] }) {}

/-- `ClientAccess::from_config` -/
def clientAccess (config : AppConfig) : Except Text ClientAccess := do
  let allowed ← parseClientMatcher config.allowedClients "允许客户端".toList
  let blocked ← parseClientMatcher config.blockedClients "拒绝客户端".toList
  let rateLimiter :=
    if 0 < config.rateLimitPerSecond then
      some { limitPerSecond := config.rateLimitPerSecond.toNat }
    else none
  return { allowed, blocked, rateLimiter }

/-! ## Servers that are asked -/

def normalizeDohUpstreamLabel (url : Text) : Text :=
  let label := do
    let (scheme, rest) ← url.splitOnceAt "://".toList
    let defaultPort ←
      if scheme = "https".toList then some "443".toList
      else if scheme = "http".toList then some "80".toList
      else none
    let authority := rest.takeWhile (· ≠ '/')
    if ':' ∈ authority then none
    else some (scheme ++ "://".toList ++ authority ++ ':' :: defaultPort ++
      rest.dropWhile (· ≠ '/'))
  label.getD url

def formatUpstreamServer : UpstreamServer → Text
  | .udp addr => addr.display
  | .udpHostname hostname port => hostname ++ ':' :: Nat.toDigits 10 port.toNat
  | .doh url => normalizeDohUpstreamLabel url
  | .tls hostname port => "tls://".toList ++ hostname ++ ':' :: Nat.toDigits 10 port.toNat
  | .quic hostname port => "quic://".toList ++ hostname ++ ':' :: Nat.toDigits 10 port.toNat

structure RuntimeUpstream where
  server : UpstreamServer
  label : Text
  bootstrapServers : List SocketAddr
  dnssecEnabled : Bool
  deriving DecidableEq

def buildRuntimeUpstreamsWithDnssec (servers : List UpstreamServer)
    (bootstrapServers : List SocketAddr) (dnssecEnabled : Bool) : List RuntimeUpstream :=
  servers.map fun server =>
    { server, label := formatUpstreamServer server, bootstrapServers, dnssecEnabled }

/-- The routes, each with the servers of its pool. -/
structure RuntimeRoutes where
  domains : List (DomainRoute × List RuntimeUpstream)
  clients : List (ClientRoute × List RuntimeUpstream)

def buildDomainRoute (bootstrap : List SocketAddr) (dnssecEnabled : Bool)
    (spec : DomainUpstreamRuleSpec) : DomainRoute × List RuntimeUpstream :=
  let wildcard := if spec.includeSubdomains then "*.".toList else []
  ({ pattern := spec.pattern
     includeSubdomains := spec.includeSubdomains
     pool := ⟨"domain:".toList ++ wildcard ++ spec.pattern⟩ },
    buildRuntimeUpstreamsWithDnssec spec.upstreams bootstrap dnssecEnabled)

def buildClientRoute (bootstrap : List SocketAddr) (dnssecEnabled : Bool)
    (spec : ClientUpstreamRuleSpec) : Except Text (ClientRoute × List RuntimeUpstream) := do
  let network ← parseIpNetwork spec.network "客户端上游策略".toList
  return ({ network, pool := ⟨"client:".toList ++ spec.network⟩ },
    buildRuntimeUpstreamsWithDnssec spec.upstreams bootstrap dnssecEnabled)

/-- `UpstreamRoutes::from_config` -/
def upstreamRoutes (env : Environment) (config : AppConfig) : Except Text RuntimeRoutes := do
  let bootstrap ← bootstrapServers config
  let domains ← domainUpstreamRuleSpecs env.parseUrl config
  let clients ← clientUpstreamRuleSpecs env.parseUrl config
  let clients ← clients.mapM (buildClientRoute bootstrap config.dnssecEnabled)
  return { domains := domains.map (buildDomainRoute bootstrap config.dnssecEnabled), clients }

/-! ## The filter -/

/-- `compile_domain_set` -/
def compileDomainSet (raw : Text) : DomainSet where
  domains := (configLines raw).foldl (fun domains line =>
    match Rules.normalizeDomain (withoutWildcard line) with
    | some domain => if domains.contains domain then domains else domains ++ [domain]
    | none => domains) []

/-- One address of a target, in place of that of its family. -/
def setAddress (target : RewriteTarget) : IpAddr → RewriteTarget
  | .v4 addr => { target with ipv4 := some addr }
  | .v6 addr => { target with ipv6 := some addr }

/-- One address of a target, unless there is one of its family. -/
def fillAddress (target : RewriteTarget) : IpAddr → RewriteTarget
  | .v4 addr => { target with ipv4 := target.ipv4.or (some addr) }
  | .v6 addr => { target with ipv6 := target.ipv6.or (some addr) }

def compileRewriteLine (rewrites : CompiledRewrites) (line : Text) : CompiledRewrites :=
  match line.splitWhitespace with
  | pattern :: ip :: _ =>
    match parseIpAddr ip with
    | none => rewrites
    | some ip =>
      let (rest, wildcard) := match pattern.stripPrefix "*.".toList with
        | some rest => (rest, true)
        | none => (pattern, false)
      let domain := (rest.trimEndMatches '.').toAsciiLowercase
      let table := if wildcard then rewrites.wildcard else rewrites.exact
      let table := table.insert domain (setAddress ((table.lookup domain).getD {}) ip)
      if domain = [] then rewrites
      else if wildcard then { rewrites with wildcard := table }
      else { rewrites with exact := table }
  | _ => rewrites

def compileRewrites (raw : Text) : CompiledRewrites :=
  (configLines raw).foldl compileRewriteLine {}

def isValidHostname (value : Text) : Bool :=
  !value.isEmpty && value.len ≤ 253 &&
    (value.split (· == '.')).all (fun label => !label.isEmpty && label.len ≤ 63) &&
    value.all fun ch => ch.isAlphanum || ch == '-' || ch == '_' || ch == '.'

def mergeHost (ip : IpAddr) (rewrites : CompiledRewrites) (host : Text) : CompiledRewrites :=
  let host := (host.trimEndMatches '.').toAsciiLowercase
  if host = [] ∨ !isValidHostname host then rewrites
  else
    let inherited := (rewrites.lookup host).getD {}
    let target := (rewrites.exact.lookup host).getD inherited
    { rewrites with exact := rewrites.exact.insert host (fillAddress target ip) }

/-- `merge_hosts_file` -/
def mergeHostsFile (rewrites : CompiledRewrites) (contents : Text) : CompiledRewrites :=
  contents.lines.foldl (fun rewrites line =>
    match Text.splitWhitespace (line.takeWhile (· ≠ '#')) with
    | ip :: hosts =>
      match parseIpAddr ip with
      | some ip => hosts.foldl (mergeHost ip) rewrites
      | none => rewrites
    | [] => rewrites) rewrites

/-- `BlockingPolicy::from_config` -/
def blockingPolicy (config : AppConfig) : BlockingPolicy where
  mode := config.blockingMode
  ttl := config.blockingResponseTtl
  customIpv4 := parseIpv4Addr config.blockingCustomIpv4.trim
  customIpv6 := parseIpv6Addr config.blockingCustomIpv6.trim

def profileFromSpec (spec : ClientPolicyGroupSpec) : ClientPolicyProfile where
  name := spec.name
  mode := if spec.bypass then .bypass else .filter
  safeSearch := spec.safeSearch
  blockedServices := spec.blockedServices

/-- `ClientFilteringPolicies::from_config` -/
def clientFilteringPolicies (config : AppConfig) : Except Text ClientFilteringPolicies := do
  let groups ← clientPolicyGroupSpecs config
  let blockedServices ← familyBlockedServiceNames config
  let family : ClientPolicyProfile :=
    { name := "family".toList, mode := .filter, safeSearch := config.familySafeSearch
      blockedServices }
  let bypass : ClientPolicyProfile :=
    { name := "bypass".toList, mode := .bypass, safeSearch := false, blockedServices := [] }
  let profiles := (groups.map profileFromSpec ++ [family, defaultFilterProfile, bypass]).foldl
    (fun (profiles : Lib.HashMap Text ClientPolicyProfile) profile =>
      profiles.insert profile.name profile) ∅
  let specs ← clientFilteringRuleSpecs config
  let rules ← specs.mapM fun spec => do
    let profile ← okOr (profiles.lookup spec.profile) ("客户端策略组不存在：".toList ++ spec.profile)
    let network ← parseIpNetwork spec.network "客户端过滤策略".toList
    return { network, source := spec.network, profile, schedule := spec.schedule }
  return { rules, defaultProfile := defaultFilterProfile }

/-- The text of one list, behind the texts of those before it. -/
def appendFilterRules (env : Environment) (rules : Text) (filter : FilterSubscription) : Text :=
  if filter.enabled then
    match env.filterCache filter.id with
    | some content =>
      (if rules = [] then [] else rules ++ ['\n']) ++ Rules.sourceMarkerPrefix ++
        env.quote (filterSourceTag filter.id) ++ '\n' :: content
    | none => rules
  else rules

def buildRemoteRules (env : Environment) (config : AppConfig) : Text :=
  if config.useFilters then config.filters.foldl (appendFilterRules env) [] else []

def buildEffectiveRules (env : Environment) (config : AppConfig) : Text :=
  if config.useFilters then Rules.buildEffectiveRules (buildRemoteRules env config) config.blacklist
  else []

/-- `load_or_compile_rules`, as far as it compiles: what the caches keep are results of it. -/
def compileEffectiveRules (env : Environment) (config : AppConfig) : CompiledRules :=
  Rules.compileRules env.jsonString (buildEffectiveRules env config)

/-- An error is a panic. -/
def buildFilterRuntimeWithRules (env : Environment) (config : AppConfig) (rules : CompiledRules) :
    Except Text FilterRuntime := do
  let rewrites := compileRewrites config.dnsRewrites
  let clientFiltering ← clientFilteringPolicies config
  return {
    rules
    rewrites := match env.systemHosts with
      | some contents =>
        if config.systemHostsEnabled then mergeHostsFile rewrites contents else rewrites
      | none => rewrites
    blocking := blockingPolicy config
    rebindingProtectionEnabled := config.rebindingProtectionEnabled
    rebindingAllowedDomains := compileDomainSet config.rebindingAllowedDomains
    cnameCloakingEnabled := config.cnameCloakingEnabled
    logIgnore := compileDomainSet config.queryLogIgnoredDomains
    statisticsIgnore := compileDomainSet config.statisticsIgnoredDomains
    clientFiltering }

def buildFilterRuntime (env : Environment) (config : AppConfig) : Except Text FilterRuntime :=
  buildFilterRuntimeWithRules env config (compileEffectiveRules env config)

/-! ## The server -/

/-- `DnsCacheConfig::from_config` -/
def dnsCacheConfig (config : AppConfig) : DnsCacheConfig where
  enabled := config.dnsCacheEnabled
  maxSizeBytes := config.dnsCacheSize
  minTtl := config.dnsCacheMinTtl
  maxTtl := config.dnsCacheMaxTtl
  optimistic := config.dnsCacheOptimistic
  optimisticMaxStaleSeconds := config.dnsCacheOptimisticMaxStaleSeconds
  prefetchEnabled := config.dnsCachePrefetchEnabled
  prefetchHitThreshold := config.dnsCachePrefetchHitThreshold

def dnsCacheShards : ℕ := 64

/-- Where the monitoring interface listens, and the token it asks for. -/
structure MonitoringListener where
  addr : SocketAddr
  token : Text
  deriving DecidableEq

/-- `monitoring::prepare` -/
def prepareMonitoring (config : AppConfig) : Except Text (Option MonitoringListener) := do
  if config.monitoringApiEnabled then
    let addr ← monitoringApiSocketAddr config
    return some { addr, token := config.monitoringApiToken.trim }
  else return none

/-- A socket, and whether it is for IPv6 only. -/
structure Listener where
  addr : SocketAddr
  ipv6Only : Bool
  deriving DecidableEq

/-- What a server is started with, but for its filter. -/
structure ServerParameters where
  listeners : List Listener
  upstreamServers : List RuntimeUpstream
  fallbackUpstreamServers : List RuntimeUpstream
  upstreamRoutes : RuntimeRoutes
  upstreamMode : UpstreamMode
  access : ClientAccess
  refuseAny : Bool
  privateReverseDnsEnabled : Bool
  dnsCache : Option DnsCacheStore
  dnsCacheConfig : Option DnsCacheConfig
  monitoring : Option MonitoringListener
  /-- There is a queue to the database. -/
  persistence : Bool
  queryLogEnabled : Bool
  statisticsEnabled : Bool
  anonymizeClientIp : Bool
  detailedRuntimeStats : Bool

def isIpv6 : IpAddr → Bool
  | .v4 _ => false
  | .v6 _ => true

def listeners (config : AppConfig) : Except Text (List Listener) := do
  let addrs ← listenSocketAddrs config
  return addrs.map fun addr => { addr, ipv6Only := isIpv6 addr.ip && config.listenIpv6 }

def serverParameters (env : Environment) (config : AppConfig) : Except Text ServerParameters := do
  let listeners ← listeners config
  let bootstrap ← bootstrapServers config
  let upstreams ← upstreamServers env.parseUrl config
  let fallbacks ← fallbackServers env.parseUrl config
  let upstreamRoutes ← upstreamRoutes env config
  let access ← clientAccess config
  let cacheConfig := dnsCacheConfig config
  let dnsCache := DnsCacheStore.fromConfig cacheConfig dnsCacheShards
  let monitoring ← prepareMonitoring config
  return {
    listeners
    upstreamServers := buildRuntimeUpstreamsWithDnssec upstreams bootstrap config.dnssecEnabled
    fallbackUpstreamServers :=
      buildRuntimeUpstreamsWithDnssec fallbacks bootstrap config.dnssecEnabled
    upstreamRoutes
    upstreamMode := config.upstreamMode
    access
    refuseAny := config.refuseAny
    privateReverseDnsEnabled := config.privateReverseDnsEnabled
    dnsCache
    dnsCacheConfig := dnsCache.map fun _ => cacheConfig
    monitoring
    persistence := config.queryLogEnabled || config.statisticsEnabled
    queryLogEnabled := config.queryLogEnabled
    statisticsEnabled := config.statisticsEnabled
    anonymizeClientIp := config.anonymizeClientIp
    detailedRuntimeStats := !config.statisticsEnabled }

structure DnsServer where
  parameters : ServerParameters
  filterRuntime : FilterRuntime
  /-- One of its threads has ended. -/
  hasFinishedThreads : Bool := false

/-- `DnsServer::start_with_filter_runtime`, if the sockets can be had. -/
def startWithFilterRuntime (env : Environment) (config : AppConfig) (filterRuntime : FilterRuntime) :
    Except Text DnsServer := do
  validate env.parseUrl config
  let parameters ← serverParameters env config
  return { parameters, filterRuntime }

/-- The server of a configuration. -/
def buildServer (env : Environment) (config : AppConfig) : Except Text DnsServer := do
  let filterRuntime ← buildFilterRuntime env config
  startWithFilterRuntime env config filterRuntime

end DnsBlackhole.Service
