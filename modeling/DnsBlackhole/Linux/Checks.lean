/-
  Which configurations the system DNS may rest on (`linux_system_dns.rs`).
-/
import DnsBlackhole.Config.Validate
import DnsBlackhole.Linux.Journal

namespace DnsBlackhole.Linux
open Admin (AppConfig)
open Config (okOr require)

/-- `str::contains` -/
def containsText (t pattern : Text) : Bool := t.tails.any pattern.isPrefixOf

def isTargetSeparator (c : Char) : Bool :=
  Text.isWhitespace c || ['/', ':', '@', '#', '?', '[', ']', ','].contains c

/-- What `contains_loopback_target` asks of a line. -/
def loopbackLine (line : Text) : Bool :=
  let normalized := line.trim.toAsciiLowercase
  containsText normalized "localhost".toList || containsText normalized "[::1]".toList ||
    ((normalized.split isTargetSeparator).filterMap parseIpv4Addr).any Ipv4Addr.isLoopback

def containsLoopbackTarget (value : Text) : Bool := value.lines.any loopbackLine

def localIpv4 : Ipv4Addr := ⟨127, 0, 0, 1⟩

/-- What `validate_takeover_config` asks of the address of IPv4. -/
def checkListenIpv4 (listenHost : Text) : Except Text Unit := do
  let listenIpv4 ← okOr (parseIpv4Addr listenHost)
    "接管系统 DNS 前 IPv4 监听地址必须是 0.0.0.0 或 127.0.0.1".toList
  require (listenIpv4.isUnspecified ∨ listenIpv4 = localIpv4)
    "接管系统 DNS 前 IPv4 监听地址必须覆盖 127.0.0.1".toList

/-- What it asks of the address of IPv6, if there is one. -/
def checkListenIpv6 (listenIpv6 : Bool) (listenIpv6Host : Text) : Except Text Unit := do
  if listenIpv6 then
    let listenIpv6 ← okOr (parseIpv6Addr listenIpv6Host)
      "接管系统 DNS 前 IPv6 监听地址必须是 :: 或 ::1".toList
    require (listenIpv6.isUnspecified ∨ listenIpv6.isLoopback)
      "接管系统 DNS 前 IPv6 监听地址必须覆盖 ::1".toList

/-- The servers of a configuration, with what the errors call them. -/
def serverTexts (config : AppConfig) : List (Text × Text) :=
  [("主上游".toList, config.upstreamDns), ("备用上游".toList, config.fallbackDns),
    ("Bootstrap".toList, config.bootstrapDns), ("域名分流".toList, config.domainUpstreamRules),
    ("客户端分流".toList, config.clientUpstreamRules)]

def validateTakeoverConfig (config : AppConfig) : Except Text Unit := do
  checkListenIpv4 config.listenHost
  checkListenIpv6 config.listenIpv6 config.listenIpv6Host
  (serverTexts config).forM fun (name, value) =>
    require (¬containsLoopbackTarget value) (name ++ "包含本机回环 DNS 目标，会形成解析循环".toList)

/-- The state file asks for the takeover, or a part of it stands. -/
def SystemDnsState.managed (state : SystemDnsState) : Bool :=
  state.desired || state.effective || state.pending

def ensureSystemDnsNotManaged (journal : Option SystemDnsState) : Except Text Unit :=
  require (¬journal.any SystemDnsState.managed)
    "系统 DNS 正由 DnsBlackhole 管理，请先执行 system-dns restore".toList

/-- What `validate_managed_config` asks for where the system DNS is managed. -/
def validateAsManaged (config : AppConfig) : Except Text Unit := do
  require (config.enabled = true)
    "系统 DNS 正由 DnsBlackhole 管理，请先恢复原 DNS，再关闭自动运行".toList
  require (config.listenPort = 53)
    "系统 DNS 正由 DnsBlackhole 管理，请先恢复原 DNS，再修改监听端口".toList
  (validateTakeoverConfig config).mapError
    ("系统 DNS 正由 DnsBlackhole 管理，请先恢复原 DNS。".toList ++ ·)

def validateManagedConfig (journal : Option SystemDnsState) (config : AppConfig) :
    Except Text Unit :=
  if journal.any SystemDnsState.managed then validateAsManaged config else .ok ()

end DnsBlackhole.Linux
