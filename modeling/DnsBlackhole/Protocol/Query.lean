/-
  Client queries (`dns/protocol.rs`): `parse_query`, and the two places where a
  response is matched with a query, `validate_response_for_query` and
  `prepare_response_for_query`.

  All three go through `parse_question`, so they only see the text of a name
  (`domainText`), not its labels.
-/
import DnsBlackhole.Protocol.Record

namespace DnsBlackhole.Protocol
open Lib

structure ParsedQuery where
  question : Question
  recursionDesired : Bool
  authenticData : Bool
  checkingDisabled : Bool
  dnssecOk : Bool
  ednsUdpSize : Option UInt16
  cacheSafe : Bool
  deriving DecidableEq

def ednsOptionTcpKeepalive : UInt16 := 11
def ednsOptionPadding : UInt16 := 12

/-! ## `parse_query` -/

/-- One iteration of the loop of `edns_options_are_cache_safe` over the options
    in `rest`. -/
def ednsOptionBody (rest : List UInt8) : List UInt8 ⊕ Bool :=
  match rest with
  | [] => .inr true
  | b₀ :: b₁ :: b₂ :: b₃ :: _ =>
    let code := u16OfBytes b₀ b₁
    let optionLen := (u16OfBytes b₂ b₃).toNat
    if rest.length < 4 + optionLen then .inr false
    else if code ≠ ednsOptionTcpKeepalive ∧ code ≠ ednsOptionPadding then .inr false
    else .inl (rest.drop (4 + optionLen))
  | _ => .inr false

def ednsOptionLoop : Loop (List UInt8) Bool where
  body := ednsOptionBody
  measure := List.length
  decreases rest rest' h := by
    unfold ednsOptionBody at h
    split at h
    · cases h
    · dsimp only at h
      split_ifs at h
      cases h
      simp only [List.length_drop, List.length_cons]; omega
    · cases h

/-- Whether an answer may be reused without the options of the OPT record. -/
def ednsOptionsAreCacheSafe (packet : Packet) (dataOffset dataLen : ℕ) : Bool :=
  match slice? packet dataOffset (dataOffset + dataLen) with
  | none => false
  | some rest => ednsOptionLoop.run rest

/-- What `parse_query` collects from the additional section. -/
structure EdnsState where
  offset : ℕ
  ednsUdpSize : Option UInt16
  dnssecOk : Bool
  cacheSafe : Bool

/-- One iteration of the loop of `parse_query` over the additional section. -/
def additionalBody (packet : Packet) (s : EdnsState) : Option EdnsState :=
  let ownerIsRoot := packet[s.offset]? = some 0
  (readDnsRecord packet s.offset).map fun record =>
    if record.recordType = typeOpt ∧ s.ednsUdpSize.isNone ∧ ownerIsRoot then
      { offset := record.nextOffset
        ednsUdpSize := some (max record.recordClass 512)
        dnssecOk := record.ttl &&& (0x8000 : UInt32) != 0
        -- options that change the answer, or an extended code, version or flag
        cacheSafe := s.cacheSafe && !(record.ttl &&& (0xffff7fff : UInt32) != 0 ||
          !ednsOptionsAreCacheSafe packet record.dataOffset record.dataLen) }
    else { s with offset := record.nextOffset, cacheSafe := false }

def parseQuery (packet : Packet) : Except String ParsedQuery :=
  if packet.length < dnsHeaderLen then .error "DNS 请求长度不足"
  else match readU16 packet 2 with
    | none => .error "DNS flags 读取失败"
    | some flags =>
      if flags &&& 0x8000 ≠ 0 then .error "DNS 请求的 QR 标志无效"
      else if flags &&& 0x7800 ≠ 0 then
        .error ("暂不支持非标准 DNS opcode " ++ toString ((flags >>> 11) &&& 0x0f).toNat)
      else if flags &&& 0x0040 ≠ 0 then .error "DNS 请求设置了保留标志位"
      else match parseQuestion packet with
        | .error e => .error e
        | .ok question =>
          let answerCount := ((readU16 packet 6).getD 0).toNat
          let authorityCount := ((readU16 packet 8).getD 0).toNat
          let additionalCount := ((readU16 packet 10).getD 0).toNat
          match skipRecords packet (saturatingAdd answerCount authorityCount)
              question.questionEnd with
          | none => .error "DNS 请求资源记录格式无效"
          | some offset =>
            match repeatN (additionalBody packet) additionalCount
                ⟨offset, none, false, answerCount = 0 ∧ authorityCount = 0⟩ with
            | none => .error "DNS 请求附加记录格式无效"
            | some s =>
              if s.offset ≠ packet.length then .error "DNS 请求包含未解析的尾部数据"
              else .ok
                { question
                  recursionDesired := flags &&& 0x0100 != 0
                  authenticData := flags &&& 0x0020 != 0
                  checkingDisabled := flags &&& 0x0010 != 0
                  dnssecOk := s.dnssecOk
                  ednsUdpSize := s.ednsUdpSize
                  cacheSafe := s.cacheSafe }

theorem parseQuery_question {p : Packet} {q : ParsedQuery} (h : parseQuery p = .ok q) :
    parseQuestion p = .ok q.question := by
  unfold parseQuery at h
  split_ifs at h
  split at h
  · cases h
  split_ifs at h
  split at h
  · cases h
  rename_i question hquestion
  dsimp only at h
  split at h
  · cases h
  split at h
  · cases h
  split_ifs at h
  cases h
  exact hquestion

/-- A query for the addresses of `a` with an OPT record. -/
def optQuery : Packet :=
  [0, 7, 1, 0, 0, 1, 0, 0, 0, 0, 0, 1, 1, 97, 0, 0, 1, 0, 1,
    0, 0, 41, 16, 0, 0, 0, 128, 0, 0, 0]

/-! ## Matching a response with a query -/

def validateResponseForQuery (query response : Packet) : Except String Unit :=
  if query.length < dnsHeaderLen ∨ response.length < dnsHeaderLen then .error "DNS 响应长度不足"
  else if query.take 2 ≠ response.take 2 then .error "DNS 响应 transaction ID 与请求不匹配"
  else if response[2]?.getD 0 &&& 0x80 = 0 then .error "上游返回的 DNS 包不是响应"
  else do
    let queryQuestion ← parseQuestion query
    let responseQuestion ← parseQuestion response
    if queryQuestion.domain ≠ responseQuestion.domain ∨
        queryQuestion.qtype ≠ responseQuestion.qtype ∨
        queryQuestion.qclass ≠ responseQuestion.qclass then
      .error "DNS 响应 question 与请求不匹配"
    else .ok ()

def prepareResponseForQuery (response query : Packet) : Option Packet :=
  match parseQuestion response, parseQuestion query with
  | .ok responseQuestion, .ok queryQuestion =>
    if responseQuestion.domain ≠ queryQuestion.domain ∨
        responseQuestion.qtype ≠ queryQuestion.qtype ∨
        responseQuestion.qclass ≠ queryQuestion.qclass ∨
        responseQuestion.questionEnd ≠ queryQuestion.questionEnd then none
    else
      let prepared := copyAt response 0 (query.take 2)
      some (copyAt prepared dnsHeaderLen
        ((query.drop dnsHeaderLen).take (queryQuestion.questionEnd - dnsHeaderLen)))
  | _, _ => none

end DnsBlackhole.Protocol
