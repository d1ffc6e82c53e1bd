/-
  Responses in the cache (`dns/protocol.rs`): when a response may be cached and
  for how long (`response_cache_ttl`), how it is stored
  (`normalize_cached_response`) and how it is handed out again
  (`prepare_cached_response`).
-/
import DnsBlackhole.Protocol.Query

namespace DnsBlackhole.Protocol
open Lib

/-! ## `response_cache_ttl` -/

def rcodeNoerror : UInt8 := 0
def rcodeNxdomain : UInt8 := 3

/-- What `response_cache_ttl` collects from the records. -/
structure TtlState where
  minTtl : Option UInt32 := none
  hasAnswer : Bool := false
  hasIpAnswer : Bool := false
  hasSoaAuthority : Bool := false
  hasNsAuthority : Bool := false

/-- The smaller of the least time to live so far and the one of `record`. -/
def minTtlWith (minTtl : Option UInt32) (record : DnsRecordHeader) : Option UInt32 :=
  if record.recordType ≠ typeOpt then
    some (match minTtl with | none => record.ttl | some current => min current record.ttl)
  else minTtl

def answerTtl (s : TtlState) (record : DnsRecordHeader) : TtlState :=
  { s with
    minTtl := minTtlWith s.minTtl record
    hasAnswer := s.hasAnswer || record.recordType != typeOpt
    hasIpAnswer := s.hasIpAnswer || (record.recordClass == 1 &&
      (record.recordType == typeA || record.recordType == typeAaaa)) }

def authorityTtl (s : TtlState) (record : DnsRecordHeader) : TtlState :=
  { s with
    minTtl := minTtlWith s.minTtl record
    hasSoaAuthority := s.hasSoaAuthority || record.recordType == typeSoa
    hasNsAuthority := s.hasNsAuthority || record.recordType == typeNs }

def additionalTtl (s : TtlState) (record : DnsRecordHeader) : TtlState :=
  { s with minTtl := minTtlWith s.minTtl record }

/-- One iteration of the loop of `response_cache_ttl` over the questions: the
    offset behind the name. -/
def questionNameBody (packet : Packet) (offset : ℕ) : Option ℕ :=
  (skipDnsName packet offset).bind fun nextOffset =>
    if nextOffset + 4 > packet.length then none else some nextOffset

/-- Whether the records seen make the answer to a question of `questionType`
    with the code `rcode` cacheable. -/
def TtlState.cacheable (s : TtlState) (rcode : UInt8) (questionType : UInt16) : Bool :=
  let authoritativeNegative := s.hasSoaAuthority && !s.hasNsAuthority
  if rcode = rcodeNoerror then
    if s.hasAnswer then
      !(questionType == typeA || questionType == typeAaaa) || s.hasIpAnswer
    else authoritativeNegative
  else if rcode = rcodeNxdomain then authoritativeNegative
  else false

def responseCacheTtl (packet : Packet) : Option UInt32 :=
  if packet.length < dnsHeaderLen then none
  else do
    let rcode := packet[3]?.getD 0 &&& 0x0f
    let questionCount ← readU16 packet 4
    if questionCount ≠ 1 then none
    else do
      let answerCount ← readU16 packet 6
      let authorityCount ← readU16 packet 8
      let additionalCount ← readU16 packet 10
      let offset ← repeatN (questionNameBody packet) questionCount.toNat dnsHeaderLen
      let questionType ← readU16 packet offset
      if offset + 4 > packet.length then none
      else do
        let s ← collectRecords packet answerTtl answerCount.toNat (offset + 4, {})
        let s ← collectRecords packet authorityTtl authorityCount.toNat s
        let s ← collectRecords packet additionalTtl additionalCount.toNat s
        if s.2.cacheable rcode questionType then s.2.minTtl else none

/-! ## `normalize_cached_response` -/

/-- The loop of `normalize_cached_response` over `n` additional records from
    `offset` on: it cuts off the first OPT record if nothing follows it. -/
def stripOpt (response : Packet) (additionalCount : UInt16) : ℕ → ℕ → Option Packet
  | 0, _ => some response
  | n + 1, offset =>
    match readDnsRecord response offset with
    | none => none
    | some record =>
      if record.recordType = typeOpt then
        if record.nextOffset ≠ response.length then none
        else some ((copyAt response 10 (u16ToBytes (additionalCount - 1))).take offset)
      else stripOpt response additionalCount n record.nextOffset

/-- The response as it is stored; `none` if it may not be. -/
def normalizeCachedResponse (response : Packet) : Option Packet :=
  match parseQuestion response with
  | .error _ => none
  | .ok question =>
    match readU16 response 6, readU16 response 8, readU16 response 10 with
    | some answerCount, some authorityCount, some additionalCount =>
      if additionalCount = 0 then some response
      else
        (skipRecords response (saturatingAdd answerCount.toNat authorityCount.toNat)
          question.questionEnd).bind (stripOpt response additionalCount additionalCount.toNat)
    | _, _, _ => none

/-! ## `prepare_cached_response` -/

/-- One iteration of the loop of `rewrite_response_ttls` over the questions. -/
def questionBody (packet : Packet) (offset : ℕ) : Option ℕ :=
  (skipDnsName packet offset).bind fun nextOffset =>
    if nextOffset + 4 > packet.length then none else some (nextOffset + 4)

/-- Write the time to live of the record whose type is at `offset`, but not in
    an OPT record. -/
def writeTtl (packet : Packet) (offset : ℕ) (recordType : UInt16) (ttl : UInt32) : Option Packet :=
  if recordType ≠ typeOpt then writeU32At packet (offset + 4) ttl else some packet

/-- One iteration of the loop of `rewrite_response_ttls` over the records. -/
def rewriteTtlBody (ttl : UInt32) (s : Packet × ℕ) : Option (Packet × ℕ) :=
  (skipDnsName s.1 s.2).bind fun offset =>
    if offset + 10 > s.1.length then none
    else do
      let recordType ← readU16 s.1 offset
      let packet ← writeTtl s.1 offset recordType ttl
      let dataLen ← readU16 packet (offset + 8)
      if offset + 10 + dataLen.toNat > packet.length then none
      else some (packet, offset + 10 + dataLen.toNat)

def rewriteResponseTtls (packet : Packet) (ttl : UInt32) : Option Packet :=
  if packet.length < dnsHeaderLen then none
  else do
    let questionCount := ((readU16 packet 4).getD 0).toNat
    let answerCount := ((readU16 packet 6).getD 0).toNat
    let authorityCount := ((readU16 packet 8).getD 0).toNat
    let additionalCount := ((readU16 packet 10).getD 0).toNat
    let offset ← repeatN (questionBody packet) questionCount dnsHeaderLen
    let s ← repeatN (rewriteTtlBody ttl)
      (saturatingAdd (saturatingAdd answerCount authorityCount) additionalCount) (packet, offset)
    return s.1

/-- The bytes of an empty OPT record. -/
def emptyOpt (udpSize : UInt16) (dnssecOk : Bool) : List UInt8 :=
  0 :: u16ToBytes typeOpt ++ u16ToBytes udpSize ++
    u32ToBytes (if dnssecOk then 0x8000 else 0) ++ u16ToBytes 0

def appendEmptyOpt (response : Packet) (udpSize : UInt16) (dnssecOk : Bool) : Option Packet :=
  if response.length + 11 > maxDnsPacketSize then none
  else (readU16 response 10).bind fun additionalCount =>
    if additionalCount.toNat + 1 > 65535 then none
    else some (copyAt response 10 (u16ToBytes (additionalCount + 1)) ++ emptyOpt udpSize dnssecOk)

def prepareCachedResponse (cachedResponse query : Packet) (ttl : UInt32) : Option Packet :=
  match parseQuery query with
  | .error _ => none
  | .ok parsedQuery => do
    let response ← prepareResponseForQuery cachedResponse query
    let response ← rewriteResponseTtls response ttl
    match parsedQuery.ednsUdpSize with
    | none => return response
    | some udpSize => appendEmptyOpt response udpSize parsedQuery.dnssecOk

end DnsBlackhole.Protocol
