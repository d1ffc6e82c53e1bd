/-
  `AppConfig::validate` (`config.rs`): the checks of the configuration, in the
  order of the source.
-/
import DnsBlackhole.Admin.Config
import DnsBlackhole.Config.Policies

namespace DnsBlackhole.Config
open Admin (AppConfig FilterProxyMode FilterSubscription)
open Protocol (BlockingMode)

/-- `CURRENT_CONFIG_SCHEMA_VERSION` -/
def currentConfigSchemaVersion : UInt32 := 19

/-! ## Addresses -/

def listenSocketAddr (config : AppConfig) : Except Text SocketAddr := do
  let host := config.listenHost.trim
  require (host ≠ []) "监听地址不能为空".toList
  require (config.listenPort ≠ 0) "监听端口必须大于 0".toList
  let ip ← okOr (parseIpAddr host)
    "监听地址必须是 IP 地址，例如 127.0.0.1 或 0.0.0.0".toList
  return { ip, port := config.listenPort }

def listenSocketAddrs (config : AppConfig) : Except Text (List SocketAddr) := do
  let ipv4Addr ← listenSocketAddr config
  if config.listenIpv6 then
    require (ipv4Addr.ip matches .v4 _) "启用 IPv6 双监听时，监听地址必须填写 IPv4 地址".toList
    let ipv6Host := config.listenIpv6Host.trim
    require (ipv6Host ≠ []) "启用 IPv6 监听时，IPv6 监听地址不能为空".toList
    let ipv6Addr ← okOr (parseIpv6Addr ipv6Host)
      "IPv6 监听地址必须是 IPv6 地址，例如 ::、::1 或 fd00::1".toList
    return [ipv4Addr, { ip := .v6 ipv6Addr, port := config.listenPort }]
  else return [ipv4Addr]

def monitoringApiSocketAddr (config : AppConfig) : Except Text SocketAddr := do
  let ip ← okOr (parseIpAddr config.monitoringApiListenHost.trim)
    "监控接口监听地址必须是 IP 地址".toList
  require (config.monitoringApiPort ≠ 0) "监控接口端口必须大于 0".toList
  let isLoopback : Bool := match ip with
    | .v4 a => a.isLoopback
    | .v6 a => a.isLoopback
  require (¬(config.monitoringApiEnabled ∧ ¬isLoopback ∧ config.monitoringApiToken.trim.len < 16))
    "监控接口监听非本机地址时，访问令牌至少需要 16 个字符".toList
  require (¬(config.monitoringApiEnabled ∧ config.monitoringApiPort = config.listenPort))
    "监控接口端口不能与 DNS 监听端口相同".toList
  require (config.monitoringApiToken.len ≤ 256) "监控接口访问令牌不能超过 256 个字符".toList
  return { ip, port := config.monitoringApiPort }

/-! ## Servers and policies -/

section
variable (parseUrl : Text → Except Text Url)

def upstreamServers (config : AppConfig) : Except Text (List UpstreamServer) :=
  parseUpstreamServers parseUrl config.upstreamDns config.allowInsecureHttp

def fallbackServers (config : AppConfig) : Except Text (List UpstreamServer) :=
  parseOptionalUpstreamServers parseUrl config.fallbackDns config.allowInsecureHttp

def domainUpstreamRuleSpecs (config : AppConfig) : Except Text (List DomainUpstreamRuleSpec) :=
  parseDomainUpstreamRules parseUrl config.domainUpstreamRules config.allowInsecureHttp

def clientUpstreamRuleSpecs (config : AppConfig) : Except Text (List ClientUpstreamRuleSpec) :=
  parseClientUpstreamRules parseUrl config.clientUpstreamRules config.allowInsecureHttp

end

def bootstrapServers (config : AppConfig) : Except Text (List SocketAddr) :=
  parseBootstrapServers config.bootstrapDns

def clientFilteringRuleSpecs (config : AppConfig) : Except Text (List ClientFilteringRuleSpec) :=
  parseClientFilteringRules config.clientFilteringRules

def clientPolicyGroupSpecs (config : AppConfig) : Except Text (List ClientPolicyGroupSpec) :=
  parseClientPolicyGroups config.clientPolicyGroups

def familyBlockedServiceNames (config : AppConfig) : Except Text (List Text) :=
  parseBlockedServices config.familyBlockedServices "家庭策略".toList

/-! ## Filters, blocking and lists -/

def validateFilterProxy (parseUrl : Text → Except Text Url) (config : AppConfig) :
    Except Text Unit := do
  let proxyUrl := match config.filterProxyMode with
    | .direct => []
    | .system => config.filterSystemProxyUrl.trim
    | .custom => config.filterProxyUrl.trim
  if proxyUrl = [] then
    require (config.filterProxyMode ≠ .custom) "自定义过滤器下载代理不能为空".toList
  else
    let parsed ← (parseUrl proxyUrl).mapError ("过滤器下载代理地址无效：".toList ++ ·)
    require ((parsed.scheme = "http".toList ∨ parsed.scheme = "https".toList) ∧ parsed.hostStr.isSome)
      "过滤器下载代理必须是有效的 HTTP 或 HTTPS 地址".toList

/-- The check of one list, after the lists with the ids `ids`; its own id is added. -/
def validateFilter (allowInsecureHttp : Bool) (ids : List Text) (filter : FilterSubscription) :
    Except Text (List Text) := do
  let id := filter.id.trim
  require (id ≠ []) "黑名单清单 ID 不能为空".toList
  require (id.all fun ch => ch.isAlphanum || ch == '-' || ch == '_')
    ("黑名单清单 ID 只能包含字母、数字、-、_：".toList ++ id)
  require (id ∉ ids) ("黑名单清单 ID 重复：".toList ++ id)
  require (filter.name.trim ≠ []) "黑名单清单名称不能为空".toList
  let url := filter.url.trim
  require (url ≠ []) (filter.name ++ " 的清单地址不能为空".toList)
  if "https://".toList.isPrefixOf url then return id :: ids
  if "http://".toList.isPrefixOf url then
    require (allowInsecureHttp = true)
      (filter.name ++ " 使用了不安全的 HTTP 清单地址。默认只允许 HTTPS；".toList ++
        "如确需使用，请在安全防护中启用“允许不安全 HTTP”。".toList)
    return id :: ids
  else .error (filter.name ++ " 的清单地址必须以 https:// 开头".toList)

def validateFilters (filters : List FilterSubscription) (allowInsecureHttp : Bool) :
    Except Text Unit := do
  let _ ← filters.foldlM (validateFilter allowInsecureHttp) []

def validateBlockingConfig (config : AppConfig) : Except Text Unit := do
  if config.blockingMode = .customIp then
    let ipv4 := config.blockingCustomIpv4.trim
    let ipv6 := config.blockingCustomIpv6.trim
    require (¬(ipv4 = [] ∧ ipv6 = [])) "自定义拦截 IP 模式需要至少填写一个 IPv4 或 IPv6 地址".toList
    require (ipv4 = [] ∨ (parseIpv4Addr ipv4).isSome) ("自定义拦截 IPv4 地址无效：".toList ++ ipv4)
    require (ipv6 = [] ∨ (parseIpv6Addr ipv6).isSome) ("自定义拦截 IPv6 地址无效：".toList ++ ipv6)

def withoutWildcard (domain : Text) : Text := (domain.stripPrefix "*.".toList).getD domain

def validateDnsRewrites (value : Text) : Except Text Unit :=
  (numberedLines value).forM fun (trimmed, index) => do
    let line := "DNS 重写第 ".toList ++ lineNumber index ++ " 行".toList
    match trimmed.splitWhitespace with
    | domain :: ip :: rest =>
      let domain := withoutWildcard domain
      require (normalizeHostname domain).isSome (line ++ "域名无效：".toList ++ domain)
      require (parseIpAddr ip).isSome (line ++ " IP 地址无效：".toList ++ ip)
      require (rest = []) (line ++ "只能包含“域名 IP”两项：".toList ++ trimmed)
    | _ => .error (line ++ "格式必须是“域名 IP”：".toList ++ trimmed)

def validateClientNames (value : Text) : Except Text Unit :=
  (numberedLines value).forM fun (trimmed, index) => do
    let line := "客户端名称第 ".toList ++ lineNumber index ++ " 行".toList
    let (ip, name) := (trimmed.splitOnce Text.isWhitespace).getD (trimmed, [])
    require (parseIpAddr ip).isSome (line ++ "必须以 IP 地址开头：".toList ++ ip)
    require (name.trim ≠ []) (line ++ "缺少名称，格式是“IP 名称”".toList)

def validateDomainList (value label : Text) : Except Text Unit :=
  (numberedLines value).forM fun (trimmed, index) =>
    require (normalizeHostname (withoutWildcard trimmed)).isSome
      (label ++ "第 ".toList ++ lineNumber index ++ " 行域名无效：".toList ++ trimmed)

def validateIgnoredDomains (value : Text) : Except Text Unit :=
  validateDomainList value "日志忽略清单".toList

/-! ## The configuration -/

/-- The first checks of `validate`: what the server listens at, and whom it asks. -/
def validateServers (parseUrl : Text → Except Text Url) (config : AppConfig) :
    Except Text Unit := do
  let _ ← listenSocketAddrs config
  let upstreams ← upstreamServers parseUrl config
  let fallbacks ← fallbackServers parseUrl config
  let domainRules ← domainUpstreamRuleSpecs parseUrl config
  let clientRules ← clientUpstreamRuleSpecs parseUrl config
  let clientFilteringRules ← clientFilteringRuleSpecs config
  let clientPolicyGroups ← clientPolicyGroupSpecs config
  validateClientPolicyProfiles clientFilteringRules clientPolicyGroups
  let _ ← familyBlockedServiceNames config
  let servers := upstreams ++ fallbacks ++ domainRules.flatMap (·.upstreams) ++
    clientRules.flatMap (·.upstreams)
  require (¬(config.dnssecEnabled ∧ servers.any UpstreamServer.isInsecureDoh))
    "启用 DNSSEC 后不能使用不安全的 HTTP DoH 上游".toList
  let _ ← bootstrapServers config
  require (10 ≤ config.runtimeWatchdogIntervalSeconds ∧ config.runtimeWatchdogIntervalSeconds ≤ 3600)
    "自恢复检查间隔必须在 10 到 3600 秒之间".toList
  let _ ← monitoringApiSocketAddr config
  require (5 ≤ config.webAdminSessionIdleMinutes ∧ config.webAdminSessionIdleMinutes ≤ 720)
    "Web 管理会话空闲超时必须在 5 到 720 分钟之间".toList

/-- The checks of the retention and of the cache. -/
def validateLimits (config : AppConfig) : Except Text Unit := do
  require (config.rateLimitPerSecond ≤ 100000) "每客户端限速不能超过每秒 100000 次查询".toList
  require (config.queryLogRetentionHours ≠ 0 ∧ config.queryLogRetentionHours ≤ 24 * 365)
    "查询日志保留时间必须在 1 小时到 365 天之间".toList
  require (config.statisticsRetentionHours ≤ 24 * 365)
    "统计数据保留时间必须为永久或 1 小时到 365 天".toList
  require (config.securityEventRetentionHours ≠ 0 ∧ config.securityEventRetentionHours ≤ 24 * 365)
    "安全事件保留时间必须在 1 小时到 365 天之间".toList
  require (¬(config.dnsCacheEnabled ∧ config.dnsCacheSize = 0)) "DNS 缓存大小必须大于 0".toList
  require (config.dnsCacheSize ≤ 512 * 1024 * 1024) "DNS 缓存大小不能超过 512 MB".toList
  require (config.dnsCacheMinTtl ≤ 7 * 24 * 3600 ∧ config.dnsCacheMaxTtl ≤ 7 * 24 * 3600)
    "DNS 缓存 TTL 不能超过 7 天".toList
  require (¬(0 < config.dnsCacheMaxTtl ∧ config.dnsCacheMaxTtl < config.dnsCacheMinTtl))
    "DNS 缓存最小 TTL 不能大于最大 TTL".toList
  require (60 ≤ config.dnsCacheOptimisticMaxStaleSeconds ∧
      config.dnsCacheOptimisticMaxStaleSeconds ≤ 7 * 24 * 3600)
    "乐观缓存最大陈旧时间必须在 60 秒到 7 天之间".toList
  require (2 ≤ config.dnsCachePrefetchHitThreshold ∧ config.dnsCachePrefetchHitThreshold ≤ 10000)
    "热门域名预取命中阈值必须在 2 到 10000 之间".toList
  require (config.blockingResponseTtl ≤ 7 * 24 * 3600) "拦截响应 TTL 不能超过 7 天".toList

def validate (parseUrl : Text → Except Text Url) (config : AppConfig) : Except Text Unit := do
  validateServers parseUrl config
  require (config.schemaVersion ≤ currentConfigSchemaVersion)
    ("配置版本 ".toList ++ Nat.toDigits 10 config.schemaVersion.toNat ++ " 高于当前支持的版本 ".toList ++
      Nat.toDigits 10 currentConfigSchemaVersion.toNat)
  require (config.filterUpdateIntervalHours ∈ ([6, 12, 24, 72, 168] : List UInt32))
    "过滤器更新间隔只能是 6、12、24、72 或 168 小时".toList
  require (1 ≤ config.filterMaxSizeMb ∧ config.filterMaxSizeMb ≤ 256)
    "单个过滤器最大下载大小必须在 1 到 256 MB 之间".toList
  validateFilterProxy parseUrl config
  validateClientList config.allowedClients "允许客户端".toList
  validateClientList config.blockedClients "拒绝客户端".toList
  validateLimits config
  validateFilters config.filters config.allowInsecureHttp
  validateBlockingConfig config
  validateDnsRewrites config.dnsRewrites
  validateClientNames config.clientNames
  validateIgnoredDomains config.queryLogIgnoredDomains
  validateIgnoredDomains config.statisticsIgnoredDomains
  validateDomainList config.rebindingAllowedDomains "Rebinding 可信域名".toList

end DnsBlackhole.Config
