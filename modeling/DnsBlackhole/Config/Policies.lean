/-
  Upstream routes and client policies in the configuration (`config.rs`): one
  rule or group on a line, perhaps with a schedule.
-/
import Mathlib.Data.Char
import Mathlib.Data.List.Destutter
import Mathlib.Data.List.Sort
import DnsBlackhole.Config.Upstreams

namespace DnsBlackhole.Config
open DnsBlackhole.Filter (ClientScheduleSpec)

/-! ## Routes -/

structure DomainUpstreamRuleSpec where
  pattern : Text
  includeSubdomains : Bool
  upstreams : List UpstreamServer
  deriving DecidableEq

structure ClientUpstreamRuleSpec where
  network : Text
  upstreams : List UpstreamServer
  deriving DecidableEq

/-- What stands before and behind the arrow of a line. -/
def parseRouteLine (index : ℕ) (line : Text) : Except Text (Text × Text) :=
  okOr (((line.splitOnceAt "=>".toList).map fun (selector, upstreams) =>
      (selector.trim, upstreams.trim)).filter fun (selector, upstreams) =>
        selector ≠ [] ∧ upstreams ≠ [])
    ("上游分流第 ".toList ++ lineNumber index ++ " 行格式必须是“匹配项 => 上游”".toList)

section
variable (parseUrl : Text → Except Text Url)

def parseRouteUpstreams (index : ℕ) (value : Text) (allowInsecureHttp : Bool) :
    Except Text (List UpstreamServer) := do
  let items := ((value.split (· == ',')).map Text.trim).filter (· ≠ [])
  let upstreams ← (items.mapM fun item => parseUpstreamServer parseUrl item allowInsecureHttp).mapError
    (("上游分流第 ".toList ++ lineNumber index ++ " 行无效：".toList) ++ ·)
  require (upstreams ≠ [])
    ("上游分流第 ".toList ++ lineNumber index ++ " 行至少需要一个上游".toList)
  return upstreams

def parseDomainUpstreamRule (allowInsecureHttp : Bool) (index : ℕ) (line : Text) :
    Except Text DomainUpstreamRuleSpec := do
  let (selector, upstreams) ← parseRouteLine index line
  let (stripped, includeSubdomains) :=
    match selector.stripPrefix "*.".toList with
    | some pattern => (pattern, true)
    | none => (selector, false)
  let pattern ← okOr (normalizeHostname stripped)
    ("域名分流第 ".toList ++ lineNumber index ++ " 行的域名模式无效：".toList ++ stripped)
  let upstreams ← parseRouteUpstreams parseUrl index upstreams allowInsecureHttp
  return { pattern, includeSubdomains, upstreams }

def parseDomainUpstreamRules (value : Text) (allowInsecureHttp : Bool) :
    Except Text (List DomainUpstreamRuleSpec) :=
  (numberedLines value).mapM fun (line, index) =>
    parseDomainUpstreamRule parseUrl allowInsecureHttp index line

def parseClientUpstreamRule (allowInsecureHttp : Bool) (index : ℕ) (line : Text) :
    Except Text ClientUpstreamRuleSpec := do
  let (network, upstreams) ← parseRouteLine index line
  require (validateIpOrCidr network)
    ("客户端上游策略第 ".toList ++ lineNumber index ++ " 行必须是 IP 或 CIDR：".toList ++ network)
  let upstreams ← parseRouteUpstreams parseUrl index upstreams allowInsecureHttp
  return { network, upstreams }

def parseClientUpstreamRules (value : Text) (allowInsecureHttp : Bool) :
    Except Text (List ClientUpstreamRuleSpec) :=
  (numberedLines value).mapM fun (line, index) =>
    parseClientUpstreamRule parseUrl allowInsecureHttp index line

end

/-! ## Schedules -/

def weekdayNames : List Text :=
  ["mon".toList, "tue".toList, "wed".toList, "thu".toList, "fri".toList, "sat".toList, "sun".toList]

def weekdayIndex (value : Text) : Option ℕ := weekdayNames.idxOf? value.trim

/-- The days from one to another, perhaps over the end of the week. -/
def weekdaysBetween (start finish : ℕ) : List Bool :=
  (List.range 7).map fun day => (day + 7 - start) % 7 ≤ (finish + 7 - start) % 7

def parseScheduleWeekdays (value : Text) : Except Text (List Bool) :=
  if value.eqIgnoreAsciiCase "daily".toList then .ok (List.replicate 7 true)
  else do
    let weekdays ← (value.toAsciiLowercase.split (· == ',')).foldlM (fun weekdays part => do
      let (start, finish) := (part.splitOnce (· == '-')).getD (part, part)
      let first ← okOr (weekdayIndex start) ("未知星期：".toList ++ start)
      let last ← okOr (weekdayIndex finish) ("未知星期：".toList ++ finish)
      return List.zipWith (· || ·) weekdays (weekdaysBetween first last)) (List.replicate 7 false)
    require (weekdays.any id) "至少选择一天".toList
    return weekdays

def parseScheduleTime (value : Text) : Except Text ℕ := do
  let (hour, minute) ← okOr (value.trim.splitOnce (· == ':')) "时间必须是 HH:MM".toList
  let hour ← okOr hour.parseU16 "小时不是数字".toList
  let minute ← okOr minute.parseU16 "分钟不是数字".toList
  require (hour ≤ 23 ∧ minute ≤ 59) "时间超出 00:00-23:59".toList
  return hour.toNat * 60 + minute.toNat

/-- The beginning of the messages about a line of the client policies. -/
def filteringLine (index : ℕ) : Text := "客户端过滤策略第 ".toList ++ lineNumber index ++ " 行".toList

def parseClientSchedule (index : ℕ) (value : Text) : Except Text ClientScheduleSpec := do
  let words := value.splitWhitespace
  let days ← okOr words[0]? (filteringLine index ++ "缺少计划周期".toList)
  let time ← okOr words[1]? (filteringLine index ++ "缺少计划时间".toList)
  require (words[2]? = none)
    (filteringLine index ++ "计划格式必须是“mon-fri 20:00-07:00”".toList)
  let weekdays ← (parseScheduleWeekdays days).mapError
    ((filteringLine index ++ "计划周期无效：".toList) ++ ·)
  let (start, finish) ← okOr (time.splitOnce (· == '-'))
    (filteringLine index ++ "计划时间缺少连字符".toList)
  let startMinute ← (parseScheduleTime start).mapError
    ((filteringLine index ++ "开始时间无效：".toList) ++ ·)
  let endMinute ← (parseScheduleTime finish).mapError
    ((filteringLine index ++ "结束时间无效：".toList) ++ ·)
  return { weekdays, startMinute, endMinute }

/-! ## Client policies -/

structure ClientFilteringRuleSpec where
  network : Text
  profile : Text
  schedule : Option ClientScheduleSpec

structure ClientPolicyGroupSpec where
  name : Text
  bypass : Bool
  safeSearch : Bool
  blockedServices : List Text
  deriving DecidableEq

def validPolicyName (value : Text) : Bool :=
  value ≠ [] ∧ value.len ≤ 32 ∧ value.all fun ch => ch.isAlphanum || ch == '_' || ch == '-'

def blockedServiceKeys : List Text :=
  ["youtube".toList, "tiktok".toList, "instagram".toList, "facebook".toList, "x".toList,
    "reddit".toList, "twitch".toList, "discord".toList, "steam".toList, "epic".toList,
    "roblox".toList]

/-- `sort` and `dedup`. -/
def sortedServices (services : List Text) : List Text :=
  (services.insertionSort (· ≤ ·)).destutter (· ≠ ·)

def parseBlockedServices (value label : Text) : Except Text (List Text) := do
  let items := ((value.split fun ch => ch == ',' || Text.isWhitespace ch).map Text.trim).filter
    (· ≠ [])
  let services ← items.mapM fun item => do
    let service := Text.toAsciiLowercase item
    require (service ∈ blockedServiceKeys) (label ++ "包含不支持的服务：".toList ++ service)
    return service
  return sortedServices services

def parseClientFilteringRule (index : ℕ) (line : Text) : Except Text ClientFilteringRuleSpec := do
  let (network, policyAndSchedule) ← okOr (line.splitOnceAt "=>".toList)
    (filteringLine index ++ "格式必须是“IP/CIDR => 策略组 [@ 周期 时间]”".toList)
  let network := network.trim
  require (validateIpOrCidr network)
    (filteringLine index ++ "必须以有效 IP 或 CIDR 开头：".toList ++ network)
  let (profile, schedule) ←
    match policyAndSchedule.splitOnce (· == '@') with
    | some (profile, schedule) => do
      let schedule ← parseClientSchedule index schedule.trim
      pure (profile.trim, some schedule)
    | none => pure (policyAndSchedule.trim, none)
  let profile := profile.toAsciiLowercase
  require (validPolicyName profile) (filteringLine index ++ "的策略组名称无效".toList)
  return { network, profile, schedule }

def parseClientFilteringRules (value : Text) : Except Text (List ClientFilteringRuleSpec) :=
  (numberedLines value).mapM fun (line, index) => parseClientFilteringRule index line

/-- The names of the policies that are always there. -/
def reservedPolicyNames : List Text := ["filter".toList, "bypass".toList, "family".toList]

/-- The options of a group that were read so far; `bypass` is set with the mode. -/
structure PolicyGroupOptions where
  bypass : Option Bool := none
  safeSearch : Bool := false
  blockedServices : List Text := []

def parsePolicyGroupOption (index : ℕ) (options : PolicyGroupOptions) (option : Text) :
    Except Text PolicyGroupOptions := do
  let groupLine := "客户端策略组第 ".toList ++ lineNumber index ++ " 行".toList
  let normalized := option.toAsciiLowercase
  if normalized = "filter".toList ∨ normalized = "bypass".toList then
    require (options.bypass = none) (groupLine ++ "重复指定过滤模式".toList)
    return { options with bypass := some (normalized = "bypass".toList) }
  else if normalized = "safe_search".toList then return { options with safeSearch := true }
  else
    let services ← okOr (normalized.stripPrefix "block:".toList)
      (groupLine ++ "包含未知选项：".toList ++ option)
    let services ← parseBlockedServices (services.map fun ch => if ch = '|' then ',' else ch)
      groupLine
    return { options with blockedServices := options.blockedServices ++ services }

def parseClientPolicyGroup (names : List Text) (index : ℕ) (line : Text) :
    Except Text ClientPolicyGroupSpec := do
  let groupLine := "客户端策略组第 ".toList ++ lineNumber index ++ " 行".toList
  let (name, options) ← okOr (line.splitOnceAt "=>".toList)
    (groupLine ++ "格式必须是“名称 => filter|bypass, 选项”".toList)
  let name := name.trim.toAsciiLowercase
  require (validPolicyName name ∧ name ∉ reservedPolicyNames)
    (groupLine ++ "名称无效或使用了保留名称".toList)
  require (name ∉ names) ("客户端策略组名称重复：".toList ++ name)
  let options ← (((options.split (· == ',')).map Text.trim).filter (· ≠ [])).foldlM
    (parsePolicyGroupOption index) {}
  return {
    name
    bypass := options.bypass.getD false
    safeSearch := options.safeSearch
    blockedServices := sortedServices options.blockedServices }

def parseClientPolicyGroups (value : Text) : Except Text (List ClientPolicyGroupSpec) := do
  let groups ← (numberedLines value).foldlM (fun groups (line, index) => do
    let group ← parseClientPolicyGroup (groups.map (·.name)) index line
    return groups ++ [group]) []
  require (groups.length ≤ 64) "客户端策略组不能超过 64 个".toList
  return groups

def validateClientPolicyProfiles (rules : List ClientFilteringRuleSpec)
    (groups : List ClientPolicyGroupSpec) : Except Text Unit := do
  rules.forM fun rule =>
    require (rule.profile ∈ reservedPolicyNames ∨ rule.profile ∈ groups.map (·.name))
      ("客户端过滤策略引用了未定义的策略组：".toList ++ rule.profile)
  require (rules.length ≤ 4096) "客户端过滤策略不能超过 4096 条".toList

end DnsBlackhole.Config
