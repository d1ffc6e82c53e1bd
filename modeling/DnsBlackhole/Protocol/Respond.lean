/-
  Responses made here (`dns/protocol.rs`): refusals, blocked queries, local
  rewrites, aliases and the answers of rules with `$dnsrewrite`.

  Every one of them is a header with the question of the query behind it
  (`responseHead`) and records owned by a pointer to that question
  (`recordBytes`).  With `$dnsrewrite` the records of several responses are put
  behind one header.
-/
import DnsBlackhole.Filter.Rewrites
import DnsBlackhole.Protocol.Cached

namespace DnsBlackhole

/-- `Ipv4Addr::octets`. -/
def Ipv4Addr.octets (a : Ipv4Addr) : List UInt8 := [a.first, a.second, a.third, a.fourth]

/-- `Ipv6Addr::octets`. -/
def Ipv6Addr.octets (a : Ipv6Addr) : List UInt8 := a.segments.flatMap Protocol.u16ToBytes

def Ipv4Addr.unspecified : Ipv4Addr := ⟨0, 0, 0, 0⟩

def Ipv6Addr.unspecified : Ipv6Addr := ⟨List.replicate 8 0, rfl⟩

namespace Protocol
open DnsBlackhole.Filter Rules

def rcodeServfail : UInt8 := 2
def rcodeRefused : UInt8 := 5
def rewriteResponseTtl : UInt32 := 300

inductive BlockingMode
  | nullIp
  | customIp
  | nxdomain
  | refused
  deriving DecidableEq, Inhabited

structure BlockingPolicy where
  mode : BlockingMode := .nullIp
  ttl : UInt32 := 60
  customIpv4 : Option Ipv4Addr := none
  customIpv6 : Option Ipv6Addr := none

/-! ## Parts of a response -/

/-- The header of a response and the question of the query: no flag but that of
    a response, recursion as desired and available. -/
def responseHead (query : Packet) (questionEnd : ℕ) (rcode : UInt8) (answers authorities : UInt16) :
    Packet :=
  query.take 2 ++ [0x80 ||| (query[2]?.getD 0 &&& 0x01), 0x80 ||| (rcode &&& 0x0f)] ++
    u16ToBytes 1 ++ u16ToBytes answers ++ u16ToBytes authorities ++ u16ToBytes 0 ++
    (query.drop dnsHeaderLen).take (questionEnd - dnsHeaderLen)

/-- A record owned by the name of the question. -/
def recordBytes (rtype rclass : UInt16) (ttl : UInt32) (rdata : List UInt8) : List UInt8 :=
  [0xC0, 0x0C] ++ u16ToBytes rtype ++ u16ToBytes rclass ++ u32ToBytes ttl ++
    u16ToBytes (.ofNat rdata.length) ++ rdata

/-! ## The builders -/

def buildErrorResponse (query : Packet) (rcode : UInt8) : Option Packet :=
  match parseQuestion query with
  | .error _ => none
  | .ok question => some (responseHead query question.questionEnd rcode 0 0)

/-- The address that answers the question. -/
def answerIp (question : Question) (rcode : UInt8) (ipv4 : Option Ipv4Addr)
    (ipv6 : Option Ipv6Addr) : Option (List UInt8) :=
  if rcode = rcodeNoerror then
    if question.qtype = typeA then ipv4.map Ipv4Addr.octets
    else if question.qtype = typeAaaa then ipv6.map Ipv6Addr.octets
    else none
  else none

def buildIpResponse (query : Packet) (question : Question) (rcode : UInt8)
    (ipv4 : Option Ipv4Addr) (ipv6 : Option Ipv6Addr) (ttl : UInt32) : Packet :=
  match answerIp question rcode ipv4 ipv6 with
  | none => responseHead query question.questionEnd rcode 0 0
  | some ipBytes => responseHead query question.questionEnd rcode 1 0 ++
      recordBytes question.qtype question.qclass ttl ipBytes

def blockingSoaMname : List UInt8 :=
  [0x0c, 0x64, 0x6e, 0x73, 0x62, 0x6c, 0x61, 0x63, 0x6b, 0x68, 0x6f, 0x6c, 0x65, 0x07, 0x69, 0x6e,
    0x76, 0x61, 0x6c, 0x69, 0x64, 0x00]

def blockingSoaRnamePrefix : List UInt8 :=
  [0x0a, 0x68, 0x6f, 0x73, 0x74, 0x6d, 0x61, 0x73, 0x74, 0x65, 0x72]

/-- The data of the SOA record with which clients cache a refusal. -/
def blockingSoa (ttl : UInt32) : List UInt8 :=
  blockingSoaMname ++ blockingSoaRnamePrefix ++ [0xC0, 0x0C] ++ u32ToBytes 1 ++ u32ToBytes 1800 ++
    u32ToBytes 900 ++ u32ToBytes 604800 ++ u32ToBytes ttl

def buildNxdomainResponse (query : Packet) (question : Question) (ttl : UInt32) : Packet :=
  responseHead query question.questionEnd rcodeNxdomain 0 1 ++
    recordBytes typeSoa question.qclass ttl (blockingSoa ttl)

def buildBlockResponse (query : Packet) (question : Question) (policy : BlockingPolicy) : Packet :=
  match policy.mode with
  | .nullIp => buildIpResponse query question rcodeNoerror (some .unspecified)
      (some .unspecified) policy.ttl
  | .customIp => buildIpResponse query question rcodeNoerror policy.customIpv4 policy.customIpv6
      policy.ttl
  | .nxdomain => buildNxdomainResponse query question policy.ttl
  | .refused => buildIpResponse query question rcodeRefused none none 0

def buildRewriteResponse (query : Packet) (question : Question) (target : RewriteTarget) : Packet :=
  buildIpResponse query question rcodeNoerror target.ipv4 target.ipv6 rewriteResponseTtl

def buildCnameResponse (query : Packet) (question : Question) (target : Text) : Packet :=
  match encodeDnsName target with
  | none => buildIpResponse query question rcodeServfail none none 0
  | some encodedTarget => responseHead query question.questionEnd rcodeNoerror 1 0 ++
      recordBytes typeCname question.qclass rewriteResponseTtl encodedTarget

def buildRecordResponse (query : Packet) (question : Question) (rtype : UInt16)
    (rdata : List UInt8) : Packet :=
  if rdata.length > 65535 ∨ question.questionEnd + 12 + rdata.length > maxDnsPacketSize then
    buildIpResponse query question rcodeServfail none none 0
  else responseHead query question.questionEnd rcodeNoerror 1 0 ++
    recordBytes rtype question.qclass rewriteResponseTtl rdata

section
variable (query : Packet) (question : Question) (policy : BlockingPolicy)

mutual

def buildDnsrewriteResponse : DnsRewriteAction → Packet
  | .multiple actions =>
    appendRewrites actions (buildIpResponse query question 0 none none 0) 0
  | .rcode rcode =>
    if rcode = rcodeNxdomain then buildNxdomainResponse query question policy.ttl
    else buildIpResponse query question rcode none none 0
  | .address (.v4 addr) =>
    if question.qtype = typeAny then buildRecordResponse query question typeA addr.octets
    else buildIpResponse query question rcodeNoerror (some addr) none rewriteResponseTtl
  | .address (.v6 addr) =>
    if question.qtype = typeAny then buildRecordResponse query question typeAaaa addr.octets
    else buildIpResponse query question rcodeNoerror none (some addr) rewriteResponseTtl
  | .cname target => buildCnameResponse query question target
  | .record rtype value =>
    if question.qtype ≠ rtype ∧ question.qtype ≠ typeAny then
      buildIpResponse query question 0 none none 0
    else match encodeRewriteRdata rtype value question.qtype with
      | some rdata => buildRecordResponse query question rtype rdata
      -- what cannot be encoded is a failure, not a record that does not exist
      | none => buildIpResponse query question rcodeServfail none none 0

/-- The loop over the actions of `Multiple`, with the response and the number of
    answers so far. -/
def appendRewrites : List DnsRewriteAction → Packet → UInt16 → Packet
  | [], response, count => copyAt response 6 (u16ToBytes count)
  | action :: actions, response, count =>
    let part := buildDnsrewriteResponse action
    if part[3]?.getD 0 &&& 0x0f ≠ 0 then part
    else
      let answers := (readU16 part 6).getD 0
      if answers = 0 then appendRewrites actions response count
      else
        let records := part.drop question.questionEnd
        if response.length + records.length > maxDnsPacketSize then
          buildIpResponse query question rcodeServfail none none 0
        else if count.toNat + answers.toNat > 65535 then
          buildIpResponse query question rcodeServfail none none 0
        else appendRewrites actions (response ++ records) (count + answers)

end

end

/-! ## Responses over UDP -/

def maxUdpDnsPayload : ℕ := 65507

/-- The size of the responses that the client of the query can receive. -/
def udpPayloadSize (query : Packet) : ℕ :=
  match parseQuery query with
  | .ok parsed => min (max ((parsed.ednsUdpSize.map UInt16.toNat).getD 512) 512) maxUdpDnsPayload
  | .error _ => 512

/-- The header of the response with the truncation flag, and the question. -/
def truncateResponseForUdp (query response : Packet) (maxSize : ℕ) : Option Packet :=
  if response.length ≤ maxSize then some response
  else if response.length < dnsHeaderLen then none
  else match parseQuestion query with
    | .error _ => none
    | .ok question =>
      match slice? query 0 2, slice? query dnsHeaderLen question.questionEnd with
      | some id, some questionBytes =>
        let truncated := id ++ [response[2]?.getD 0 ||| 0x02, response[3]?.getD 0] ++ u16ToBytes 1 ++
          u16ToBytes 0 ++ u16ToBytes 0 ++ u16ToBytes 0 ++ questionBytes
        if truncated.length ≤ maxSize then some truncated else none
      | _, _ => none

end Protocol
end DnsBlackhole
