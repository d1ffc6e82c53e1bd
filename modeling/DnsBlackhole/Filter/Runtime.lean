/-
  The state of the filter (`dns/filter_runtime.rs`) that a query is evaluated
  with, and what is looked at in a response before a client gets it
  (`response_protection_block` of `dns/worker.rs`): aliases of blocked domains,
  and local addresses in answers of public servers.
-/
import DnsBlackhole.Filter.Clients
import DnsBlackhole.Protocol.Respond
import DnsBlackhole.Protocol.Security

namespace DnsBlackhole.Filter
open Protocol Rules

/-- What the filter knows; it is replaced as a whole. -/
structure FilterRuntime where
  rules : CompiledRules
  rewrites : CompiledRewrites
  blocking : BlockingPolicy
  rebindingProtectionEnabled : Bool
  rebindingAllowedDomains : DomainSet
  cnameCloakingEnabled : Bool
  logIgnore : DomainSet
  statisticsIgnore : DomainSet
  clientFiltering : ClientFilteringPolicies

inductive ResponseProtectionKind
  | rebinding
  | cnameCloaking
  deriving DecidableEq

structure ResponseProtectionBlock where
  kind : ResponseProtectionKind
  ruleMatch : BlockMatch

def isRebindingV4 (a : Ipv4Addr) : Bool :=
  a.isPrivate || a.isLoopback || a.isLinkLocal || a.isUnspecified || a.isBroadcast ||
    a.isMulticast || (a.first == 100 && 64 ≤ a.second && a.second ≤ 127) || 240 ≤ a.first

def isRebindingAddress : IpAddr → Bool
  | .v4 a => isRebindingV4 a
  | .v6 a => a.toIpv4Mapped.any isRebindingV4 || a.isLoopback || a.isUnspecified ||
      a.isUniqueLocal || a.isUnicastLinkLocal || a.isMulticast

/-- The block for the first of the targets that is blocked, unless its rule
    rewrites. -/
def cnameBlock (filter : FilterRuntime) (qtype : UInt16) (targets : List Text) :
    Option ResponseProtectionBlock :=
  targets.findSome? fun target =>
    ((filter.rules.blockingMatch target qtype).filter fun ruleMatch =>
      ruleMatch.dnsrewrite.isNone).map fun ruleMatch => ⟨.cnameCloaking, ruleMatch⟩

def rebindingRule (address : IpAddr) : BlockMatch where
  rule := "private-address:".toList ++ address.display
  source := "DNS Rebinding Protection".toList
  ruleType := "response protection".toList
  importantOverrode := false
  allowlistRule := none
  dnsrewrite := none

/-- The block for the first of the addresses that is a local one. -/
def rebindingBlock (addresses : List IpAddr) : Option ResponseProtectionBlock :=
  (addresses.find? isRebindingAddress).map fun address => ⟨.rebinding, rebindingRule address⟩

/-- Whether local addresses are looked for in the responses to a question. -/
def FilterRuntime.checksRebinding (filter : FilterRuntime) (question : Question)
    (usesRoutedUpstream : Bool) : Bool :=
  filter.rebindingProtectionEnabled && !usesRoutedUpstream &&
    !filter.rebindingAllowedDomains.contains question.domain

def responseProtectionBlock (filter : FilterRuntime) (question : Question) (response : Packet)
    (usesRoutedUpstream : Bool) : Option ResponseProtectionBlock :=
  let checkCname := filter.cnameCloakingEnabled
  let checkRebinding := filter.checksRebinding question usesRoutedUpstream
  if !checkCname && !checkRebinding then none
  else do
    let data ← responseSecurityData response
    (if checkCname then cnameBlock filter question.qtype data.cnameTargets else none).or
      (if checkRebinding then rebindingBlock data.addresses else none)

section
variable {filter : FilterRuntime} {question : Question} {response : Packet} {routed : Bool}

theorem responseProtectionBlock_of_unreadable (h : responseSecurityData response = none) :
    responseProtectionBlock filter question response routed = none := by
  unfold responseProtectionBlock
  rw [h]
  exact ite_self _

theorem responseProtectionBlock_congr {response' : Packet}
    (h : responseSecurityData response = responseSecurityData response') :
    responseProtectionBlock filter question response routed =
      responseProtectionBlock filter question response' routed := by
  unfold responseProtectionBlock
  rw [h]

theorem responseProtectionBlock_eq_none {data : ResponseSecurityData}
    (hdata : responseSecurityData response = some data) :
    responseProtectionBlock filter question response routed = none ↔
      (filter.cnameCloakingEnabled = true →
        cnameBlock filter question.qtype data.cnameTargets = none) ∧
      (filter.checksRebinding question routed = true → rebindingBlock data.addresses = none) := by
  unfold responseProtectionBlock
  cases filter.cnameCloakingEnabled with
  | true =>
    cases filter.checksRebinding question routed with
    | true => simp [hdata]
    | false => simp [hdata]
  | false =>
    cases filter.checksRebinding question routed with
    | true => simp [hdata]
    | false => simp

theorem isSome_responseProtectionBlock_of_mem {data : ResponseSecurityData} {ip : IpAddr}
    (hcheck : filter.checksRebinding question routed)
    (hdata : responseSecurityData response = some data) (hip : ip ∈ data.addresses)
    (hlocal : isRebindingAddress ip) :
    (responseProtectionBlock filter question response routed).isSome := by
  have hfound : (rebindingBlock data.addresses).isSome := by
    rw [rebindingBlock, Option.isSome_map, List.find?_isSome]
    exact ⟨ip, hip, hlocal⟩
  unfold responseProtectionBlock
  simp only [hcheck, hdata, Bool.not_true, Bool.and_false, Bool.false_eq_true, if_false,
    if_true, Option.bind_eq_bind, Option.bind_some, Option.isSome_or, hfound, Bool.or_true]

theorem of_validateResponseForQuery {query : Packet}
    (h : validateResponseForQuery query response = .ok ()) : dnsHeaderLen ≤ response.length ∧
      response[2]?.getD 0 &&& 0x80 ≠ 0 ∧ readU16 response 4 = some 1 := by
  unfold validateResponseForQuery at h
  split_ifs at h with hlen hid hqr
  rw [not_or, Nat.not_lt, Nat.not_lt] at hlen
  refine ⟨hlen.2, hqr, ?_⟩
  cases hquery : parseQuestion query with
  | error e => rw [hquery] at h; cases h
  | ok q =>
    cases hresponse : parseQuestion response with
    | error e => rw [hquery, hresponse] at h; cases h
    | ok r => exact (parseQuestion_eq_ok.1 hresponse).2.1

/-- **Rebinding protection**: of the responses with a local address among their
    answers, those that can be read to the end are blocked and the others are
    not. -/
theorem responseProtectionBlock_iff_readable {query : Packet}
    (hvalid : validateResponseForQuery query response = .ok ())
    (henabled : filter.rebindingProtectionEnabled = true)
    (hallowed : filter.rebindingAllowedDomains.contains question.domain = false)
    (hlocal : ∃ ip ∈ extractResponseIps response, isRebindingAddress ip = true) :
    (responseProtectionBlock filter question response false).isSome ↔ Readable response := by
  obtain ⟨hlen, hqr, hcount⟩ := of_validateResponseForQuery hvalid
  rw [← isSome_responseSecurityData hlen hqr hcount]
  constructor
  · intro h
    by_contra hnone
    rw [Option.not_isSome_iff_eq_none] at hnone
    rw [responseProtectionBlock_of_unreadable hnone] at h
    cases h
  · intro h
    obtain ⟨data, hdata⟩ := Option.isSome_iff_exists.1 h
    obtain ⟨ip, hip, hlocal⟩ := hlocal
    refine isSome_responseProtectionBlock_of_mem ?_ hdata
      (mem_addresses_of_extract hcount hdata hip) hlocal
    simp [FilterRuntime.checksRebinding, henabled, hallowed]

end

/-- A filter with nothing but the protection against rebinding. -/
def rebindingOnly : FilterRuntime where
  rules := ⟨⟨∅, ∅⟩, ⟨∅, ∅⟩, [], noRules, false, [], none⟩
  rewrites := {}
  blocking := {}
  rebindingProtectionEnabled := true
  rebindingAllowedDomains := {}
  cnameCloakingEnabled := false
  logIgnore := {}
  statisticsIgnore := {}
  clientFiltering := ⟨[], defaultFilterProfile⟩

/-- A query for the addresses of `a`. -/
def plainQuery : Packet := [0, 7, 1, 0, 0, 1, 0, 0, 0, 0, 0, 0, 1, 97, 0, 0, 1, 0, 1]

/-- A response with the address 10.0.0.1 and `additional` as the number of
    additional records. -/
def localResponse (additional : UInt8) : Packet :=
  [0, 7, 129, 128, 0, 1, 0, 1, 0, 0, 0, additional, 1, 97, 0, 0, 1, 0, 1,
    192, 12, 0, 1, 0, 1, 0, 0, 0, 60, 0, 4, 10, 0, 0, 1]

/-- The equivalence at a response that can be read. -/
theorem localResponse_block_iff :
    (responseProtectionBlock rebindingOnly ⟨['a'], 1, 1, 19⟩ (localResponse 0) false).isSome ↔
      Readable (localResponse 0) :=
  @responseProtectionBlock_iff_readable rebindingOnly ⟨['a'], 1, 1, 19⟩ (localResponse 0)
    plainQuery (by decide) rfl rfl
    ⟨.v4 ⟨10, 0, 0, 1⟩, by decide, by decide⟩

/-- A response that announces a record that is not there is forwarded with its
    local address. -/
theorem truncatedResponse_not_blocked :
    parseQuery plainQuery = .ok ⟨⟨['a'], 1, 1, 19⟩, true, false, false, false, none, true⟩ ∧
    validateResponseForQuery plainQuery (localResponse 1) = .ok () ∧
    rebindingOnly.rebindingProtectionEnabled = true ∧
    rebindingOnly.rebindingAllowedDomains.contains ['a'] = false ∧
    IpAddr.v4 ⟨10, 0, 0, 1⟩ ∈ extractResponseIps (localResponse 1) ∧
    isRebindingAddress (.v4 ⟨10, 0, 0, 1⟩) = true ∧
    (responseProtectionBlock rebindingOnly ⟨['a'], 1, 1, 19⟩ (localResponse 1) false).isNone := by
  decide

end DnsBlackhole.Filter
