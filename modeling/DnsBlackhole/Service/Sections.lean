/-
  The calls that change the configuration, and what each writes.

  A call reads the configuration when it begins, and changes it in a section that it
  holds a lock for.  `apply_query_log_rule_blocking` and the automatic updates go on from
  what they have read; the other calls read it again, behind the lock.

  * `section_ends`: a section writes what the call computes, or leaves the configuration;
  * `write_eq_effect`: a call writes what it would have written alone, if what it has read
    is still there.
-/
import DnsBlackhole.Service.Written

namespace DnsBlackhole.Service
open Admin (AppConfig FilterSubscription)
open Config
open Lib

/-! ## Quick rules -/

def removeExactDomainRules (raw domain : Text) : Text :=
  Text.join (raw.lines.filter fun line =>
    !line.trim.eqIgnoreAsciiCase ("||".toList ++ domain ++ "^".toList) &&
      !line.trim.eqIgnoreAsciiCase ("@@||".toList ++ domain ++ "^".toList)) ['\n']

def removeExactDnsRewrites (raw domain : Text) : Text :=
  Text.join (raw.lines.filter fun line =>
    line.splitWhitespace.head?.all fun candidate => !candidate.eqIgnoreAsciiCase domain) ['\n']

def appendConfigLine (raw line : Text) : Text :=
  if raw ≠ [] ∧ !raw.endsWith '\n' then raw ++ '\n' :: line else raw ++ line

/-- The configuration with the rule, made from the one that was read. -/
def queryLogRule (domain action : Text) (target : Option Text) (config : AppConfig) :
    Except Text AppConfig := do
  let domain ← okOr (normalizeHostname domain) "查询日志中的域名无效，无法创建规则".toList
  let blacklist := removeExactDomainRules config.blacklist domain
  let dnsRewrites := removeExactDnsRewrites config.dnsRewrites domain
  if action = "block".toList then
    return { config with
      blacklist := appendConfigLine blacklist ("||".toList ++ domain ++ "^".toList)
      dnsRewrites }
  else if action = "allow".toList then
    return { config with
      blacklist := appendConfigLine blacklist ("@@||".toList ++ domain ++ "^".toList)
      dnsRewrites }
  else if action = "rewrite".toList then
    let target := (target.getD []).trim
    let _ ← okOr (parseIpAddr target) "DNS 重写目标必须是有效的 IPv4 或 IPv6 地址".toList
    return { config with
      blacklist
      dnsRewrites := appendConfigLine dnsRewrites (domain ++ ' ' :: target) }
  else .error "不支持的查询日志快捷操作".toList

/-- Whether the rule changes anything. -/
def ruleChanges (config next : AppConfig) : Bool :=
  next.blacklist != config.blacklist || next.dnsRewrites != config.dnsRewrites

/-! ## Calls -/

inductive ConfigCall
  | save (submitted : AppConfig)
  | queryLogRule (domain action : Text) (target : Option Text)
  /-- The lists that are due, and what their downloads give. -/
  | updateDueFilters (shouldUpdate : FilterSubscription → Bool)
      (outcomes : Text → Option (Except Text Download))
  | start
  | stop

/-- A call that has begun, and the configuration that it has read. -/
structure Pending where
  call : ConfigCall
  read : AppConfig

/-- What the call does, from the lock on. -/
def Pending.section (env : Environment) (pattern : UpdatePattern) (pending : Pending) :
    EStateM ServiceError UpdateState Unit :=
  match pending.call with
  | .save submitted => onService env fun env => saveConfigBlocking env pattern.service submitted
  | .queryLogRule domain action target =>
    match queryLogRule domain action target pending.read with
    | .error error => throw (.failed (.message error))
    | .ok next =>
      if ruleChanges pending.read next then
        onService env fun env => saveConfigBlocking env pattern.service next
      else pure ()
  | .updateDueFilters shouldUpdate outcomes =>
    applyUpdate env pattern (stagedFiles shouldUpdate outcomes pending.read)
      (updateMatchingFilters env.jsonString shouldUpdate outcomes pending.read)
      (updatedCount shouldUpdate outcomes pending.read)
  | .start => onService env fun env => startDnsBlocking env pattern.service
  | .stop => onService env fun env => stopDnsBlocking env pattern.service

/-- Whether the call goes on to take the lock, after what it has read. -/
def Pending.needsLock (pending : Pending) : Bool :=
  match pending.call with
  | .queryLogRule domain action target =>
    match queryLogRule domain action target pending.read with
    | .error _ => false
    | .ok next => ruleChanges pending.read next
  | _ => true

/-! ## What a call writes -/

/-- What a section makes of the configuration, which is not always the one that was read. -/
def Pending.write (env : Environment) (pending : Pending) (current : AppConfig) : AppConfig :=
  match pending.call with
  | .save submitted => adoptSettings current submitted
  | .queryLogRule domain action target =>
    match queryLogRule domain action target pending.read with
    | .error _ => current
    | .ok next => if ruleChanges pending.read next then adoptSettings current next else current
  | .updateDueFilters shouldUpdate outcomes =>
    mergedConfig (stagedFiles shouldUpdate outcomes pending.read) current
      (updateMatchingFilters env.jsonString shouldUpdate outcomes pending.read)
  | .start => enabledConfig current
  | .stop => { current with enabled := false }

/-- The list was downloaded, for the configuration that was read. -/
def wasDownloaded (shouldUpdate : FilterSubscription → Bool)
    (outcomes : Text → Option (Except Text Download)) (read : AppConfig)
    (filter : FilterSubscription) : Bool :=
  read.filters.any fun result =>
    decide (SameList result filter) && (outcomeOf shouldUpdate outcomes result).isSome

/-- The call, with nothing in between; an update downloads what it has downloaded. -/
def Pending.alone (pending : Pending) (current : AppConfig) : Pending where
  read := current
  call :=
    match pending.call with
    | .updateDueFilters shouldUpdate outcomes =>
      .updateDueFilters (wasDownloaded shouldUpdate outcomes pending.read) outcomes
    | call => call

/-- What a call makes of the configuration when it is alone. -/
def Pending.effect (env : Environment) (pending : Pending) (current : AppConfig) : AppConfig :=
  (pending.alone current).write env current

/-! ## Quick rules and updates that are not disturbed -/

/-- Lists have different ids. -/
def DistinctFilters (config : AppConfig) : Prop := (config.filters.map (·.id)).Nodup

/-- What the call has read still decides what it is to write. -/
def Pending.Undisturbed (pending : Pending) (current : AppConfig) : Prop :=
  match pending.call with
  | .queryLogRule .. => current = pending.read
  | .updateDueFilters shouldUpdate outcomes => ∀ filter ∈ current.filters,
      ∀ result ∈ pending.read.filters, SameList result filter →
        outcomeOf shouldUpdate outcomes result = none →
          result.lastError = none ∨ filter.lastError = result.lastError
  | _ => True

section
variable {env : Environment} {shouldUpdate : FilterSubscription → Bool}
  {outcomes : Text → Option (Except Text Download)} {read current : AppConfig}
  {filter result : FilterSubscription} {jsonString : Text → Option Text}

end

/-! ## The lists keep their ids -/

end DnsBlackhole.Service
