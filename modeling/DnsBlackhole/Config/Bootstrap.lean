/-
  Bootstrap queries (`config.rs`): `build_dns_query` and
  `parse_bootstrap_ip_response`.

  * `QuestionSyntax`: a question of a packet, as labels of bytes with a type and a class;
  * `buildDnsQuery_eq_ok`: a query has one question, the one for its host;
  * `mem_parseBootstrapIpResponse`: an address of a response is the data of one of its answers;
  * **`answersQuestion_iff`**: a response answers the question of the query if and only if its
    bit for responses is set, it counts one question, and the bytes of the query's question
    stand there, but for the case of letters.
-/
import DnsBlackhole.Lib.Fallible
import DnsBlackhole.Protocol.Grammar
import DnsBlackhole.Protocol.Security
import Mathlib.Data.Bool.AllAny

namespace DnsBlackhole.Config.Bootstrap
open Lib Protocol

/-! ## The query -/

def encodeLabel (label : Text) : Except String (List UInt8) :=
  if label.len > 255 then .error "DNS label 长度超过 63 字节"
  else if label.len = 0 ∨ label.len > 63 then .error "DNS 域名格式无效"
  else .ok (.ofNat label.len :: label.asBytes)

/-- The labels of a host. -/
def hostLabels (host : Text) : List Text := (host.trimEndMatches '.').split (· == '.')

/-- The packet with the number that the counter of the queries has given out. -/
def buildDnsQuery (queryId : UInt16) (host : Text) (qtype : UInt16) : Except String Packet := do
  let labels ← (hostLabels host).mapM encodeLabel
  return u16ToBytes queryId ++ [0x01, 0x00, 0x00, 0x01, 0, 0, 0, 0, 0, 0] ++
    (labels.flatten ++ [0] ++ u16ToBytes qtype ++ u16ToBytes 1)

/-! ## The response -/

/-- One iteration of the loop over the questions. -/
def questionBody (response : Packet) (offset : ℕ) : Except String ℕ :=
  match skipDnsName response offset with
  | none => .error "bootstrap DNS question 格式无效"
  | some offset =>
    if offset + 4 > response.length then .error "bootstrap DNS question 越界"
    else .ok (offset + 4)

/-- The loop over `n` questions. -/
def skipQuestions (response : Packet) : ℕ → ℕ → Except String ℕ
  | 0, offset => .ok offset
  | n + 1, offset => questionBody response offset >>= skipQuestions response n

/-- The loop over `n` answers. -/
def collectIps (response : Packet) (qtype : UInt16) :
    ℕ → ℕ → List IpAddr → Except String (List IpAddr)
  | 0, _, ips => .ok ips
  | n + 1, offset, ips =>
    match skipDnsName response offset with
    | none => .error "bootstrap DNS answer 格式无效"
    | some headerOffset =>
      if headerOffset + 10 > response.length then .error "bootstrap DNS answer 越界"
      else
        let recordType := (readU16 response headerOffset).getD 0
        let recordClass := (readU16 response (headerOffset + 2)).getD 0
        let dataLen := ((readU16 response (headerOffset + 8)).getD 0).toNat
        let dataOffset := headerOffset + 10
        if dataOffset + dataLen > response.length then .error "bootstrap DNS answer 数据越界"
        else
          let ip := if recordClass = 1 ∧ recordType = qtype then
            dataAddress response qtype dataOffset dataLen else none
          collectIps response qtype n (dataOffset + dataLen) (ips ++ ip.toList)

def parseBootstrapIpResponse (response query : Packet) (qtype : UInt16) :
    Except String (List IpAddr) :=
  if response.length < dnsHeaderLen ∨ query.length < 2 ∨ response.take 2 ≠ query.take 2 then
    .error "bootstrap DNS 响应无效"
  else if response[3]?.getD 0 &&& 0x0F ≠ 0 then .error "bootstrap DNS 未返回可用记录"
  else
    match readU16 response 4, readU16 response 6 with
    | none, _ => .error "bootstrap DNS 响应缺少 question"
    | _, none => .error "bootstrap DNS 响应缺少 answer"
    | some questionCount, some answerCount => do
      let offset ← skipQuestions response questionCount.toNat dnsHeaderLen
      let ips ← collectIps response qtype answerCount.toNat offset []
      if ips.isEmpty then .error "bootstrap DNS 没有返回可用 IP" else .ok ips

/-! ## Questions on the wire -/

/-- A label: up to 63 bytes. -/
def IsLabel (label : List UInt8) : Prop := label ≠ [] ∧ label.length ≤ 63

/-- The bytes of a name: every label behind its length, and a zero byte. -/
def nameBytes (labels : List (List UInt8)) : List UInt8 :=
  labels.flatMap (fun label => .ofNat label.length :: label) ++ [0]

/-- A question. -/
structure QuestionSyntax where
  labels : List (List UInt8)
  isLabel : ∀ label ∈ labels, IsLabel label
  qtype : UInt16
  qclass : UInt16

namespace QuestionSyntax

def bytes (q : QuestionSyntax) : List UInt8 :=
  nameBytes q.labels ++ (u16ToBytes q.qtype ++ u16ToBytes q.qclass)

/-- The same name but for the case of letters, and the same type and class. -/
structure Same (q q' : QuestionSyntax) : Prop where
  labels : q.labels.map (·.map toAsciiLowercase) = q'.labels.map (·.map toAsciiLowercase)
  qtype : q.qtype = q'.qtype
  qclass : q.qclass = q'.qclass

/-- The question section of the packet is this question.  Behind the header there is no earlier
    name that a pointer could stand for. -/
structure IsSectionOf (q : QuestionSyntax) (p : Packet) : Prop where
  count : readU16 p 4 = some 1
  bytes : q.bytes <+: p.drop dnsHeaderLen

end QuestionSyntax

/-! ## Answers on the wire -/

/-- The bytes of a question, whose name may end with a pointer. -/
def QuestionBytes (question : List UInt8) : Prop :=
  ∃ name fixed, NameBytes name ∧ fixed.length = 4 ∧ question = name ++ fixed

/-- The answer section of the packet are these records. -/
structure IsAnswerSection (rs : List RecordSyntax) (p : Packet) : Prop where
  count : (readU16 p 6).map UInt16.toNat = some rs.length
  bytes : ∃ questions : List (List UInt8), (∀ question ∈ questions, QuestionBytes question) ∧
    (readU16 p 4).map UInt16.toNat = some questions.length ∧
    questions.flatten ++ RecordSyntax.allBytes rs <+: p.drop dnsHeaderLen

/-- The address is the data of the record. -/
def IsData (rdata : List UInt8) : IpAddr → Prop
  | .v4 address => rdata.length = 4 ∧ address = .ofOctets rdata
  | .v6 address => rdata.length = 16 ∧ address = .ofOctets rdata

/-- The response is one to the question of the query, and the addresses are the data of answers
    of the type. -/
structure AnswersQuestion (query response : Packet) (qtype : UInt16) (ips : List IpAddr) :
    Prop where
  isResponse : ∃ flags, response[2]? = some flags ∧ 0x80 ≤ flags
  question : ∃ q q' : QuestionSyntax, q.IsSectionOf query ∧ q'.IsSectionOf response ∧ q.Same q'
  ips : ∀ ip ∈ ips, ∃ rs, IsAnswerSection rs response ∧
    ∃ r ∈ rs, r.rtype = qtype ∧ r.rclass = 1 ∧ IsData r.rdata ip

/-- The flag for responses is set, and the response counts one question and begins with the
    query's, but for the case of letters. -/
structure EchoesQuestion (query response : Packet) : Prop where
  flag : ∃ flags, response[2]? = some flags ∧ 0x80 ≤ flags
  count : readU16 response 4 = some 1
  echo : (query.drop dnsHeaderLen).map toAsciiLowercase <+:
    (response.drop dnsHeaderLen).map toAsciiLowercase

/-! ## What is built -/

theorem encodeLabel_eq_ok {label : Text} {bytes : List UInt8} : encodeLabel label = .ok bytes ↔
    IsLabel label.asBytes ∧ bytes = .ofNat label.asBytes.length :: label.asBytes := by
  rw [encodeLabel, IsLabel, ← List.length_pos_iff, Text.length_asBytes]
  split_ifs with hlong hlabel
  · exact iff_of_false (fun h => by cases h) fun h => by omega
  · exact iff_of_false (fun h => by cases h) fun h => by omega
  · constructor
    · intro h
      exact ⟨by omega, (Except.ok.inj h).symm⟩
    · rintro ⟨-, rfl⟩
      rfl

theorem mapM_encodeLabel_eq_ok {labels : List Text} {encoded : List (List UInt8)} :
    labels.mapM encodeLabel = .ok encoded ↔ (∀ label ∈ labels.map Text.asBytes, IsLabel label) ∧
      encoded = (labels.map Text.asBytes).map fun label => .ofNat label.length :: label := by
  induction labels generalizing encoded with
  | nil =>
    constructor
    · intro h
      exact ⟨fun label h => absurd h List.not_mem_nil, (Except.ok.inj h).symm⟩
    · rintro ⟨-, rfl⟩
      rfl
  | cons label labels ih =>
    rw [List.mapM_cons, bind_eq_ok, List.map_cons, List.forall_mem_cons, List.map_cons]
    constructor
    · rintro ⟨first, hfirst, h⟩
      obtain ⟨rest, hrest, h⟩ := bind_eq_ok.1 h
      obtain ⟨hlabel, rfl⟩ := encodeLabel_eq_ok.1 hfirst
      obtain ⟨hlabels, rfl⟩ := ih.1 hrest
      exact ⟨⟨hlabel, hlabels⟩, (Except.ok.inj h).symm⟩
    · rintro ⟨⟨hlabel, hlabels⟩, rfl⟩
      exact ⟨_, encodeLabel_eq_ok.2 ⟨hlabel, rfl⟩, bind_eq_ok.2 ⟨_, ih.2 ⟨hlabels, rfl⟩, rfl⟩⟩

/-- **A query asks one question**: for the labels of the host. -/
theorem buildDnsQuery_eq_ok {queryId qtype : UInt16} {host : Text} {query : Packet} :
    buildDnsQuery queryId host qtype = .ok query ↔ ∃ q : QuestionSyntax,
      q.labels = (hostLabels host).map Text.asBytes ∧ q.qtype = qtype ∧ q.qclass = 1 ∧
      query = u16ToBytes queryId ++ [0x01, 0x00, 0x00, 0x01, 0, 0, 0, 0, 0, 0] ++ q.bytes := by
  rw [buildDnsQuery, bind_eq_ok]
  constructor
  · rintro ⟨labels, hlabels, h⟩
    obtain ⟨hisLabel, rfl⟩ := mapM_encodeLabel_eq_ok.1 hlabels
    refine ⟨⟨_, hisLabel, qtype, 1⟩, rfl, rfl, rfl, (Except.ok.inj h).symm.trans ?_⟩
    rw [QuestionSyntax.bytes, nameBytes, List.flatMap_def, List.append_assoc _ (u16ToBytes qtype)]
  · rintro ⟨⟨labels, hisLabel, qtype, qclass⟩, rfl, rfl, rfl, rfl⟩
    refine ⟨_, mapM_encodeLabel_eq_ok.2 ⟨hisLabel, rfl⟩, congrArg Except.ok ?_⟩
    rw [QuestionSyntax.bytes, nameBytes, List.flatMap_def, List.append_assoc _ (u16ToBytes _)]

/-! ## Names -/

theorem nameBytes_cons (label : List UInt8) (labels : List (List UInt8)) :
    nameBytes (label :: labels) = .ofNat label.length :: (label ++ nameBytes labels) := by
  simp [nameBytes]

theorem IsLabel.toNat_length {label : List UInt8} (h : IsLabel label) :
    (UInt8.ofNat label.length).toNat = label.length := by
  have hle := h.2
  rw [UInt8.toNat_ofNat']
  omega

theorem IsLabel.ofNat_length_ne_zero {label : List UInt8} (h : IsLabel label) :
    UInt8.ofNat label.length ≠ 0 := fun hzero => by
  have hlength := congrArg UInt8.toNat hzero
  rw [h.toNat_length] at hlength
  exact h.1 (List.length_eq_zero_iff.1 hlength)

theorem nameBytes_append_inj {labels labels' : List (List UInt8)} {rest rest' : List UInt8}
    (h : ∀ label ∈ labels, IsLabel label) (h' : ∀ label ∈ labels', IsLabel label)
    (heq : nameBytes labels ++ rest = nameBytes labels' ++ rest') :
    labels = labels' ∧ rest = rest' := by
  induction labels generalizing labels' with
  | nil =>
    cases labels' with
    | nil => exact ⟨rfl, (List.cons.inj heq).2⟩
    | cons label' labels' =>
      rw [nameBytes_cons] at heq
      exact absurd (List.cons.inj heq).1.symm (h' label' List.mem_cons_self).ofNat_length_ne_zero
  | cons label labels ih =>
    have hlabel := h label List.mem_cons_self
    cases labels' with
    | nil =>
      rw [nameBytes_cons] at heq
      exact absurd (List.cons.inj heq).1 hlabel.ofNat_length_ne_zero
    | cons label' labels' =>
      have hlabel' := h' label' List.mem_cons_self
      rw [nameBytes_cons, nameBytes_cons, List.cons_append, List.cons_append, List.append_assoc,
        List.append_assoc] at heq
      obtain ⟨hfirst, hrest⟩ := List.cons.inj heq
      have hlength := congrArg UInt8.toNat hfirst
      rw [hlabel.toNat_length, hlabel'.toNat_length] at hlength
      obtain ⟨rfl, htail⟩ := List.append_inj hrest hlength
      obtain ⟨rfl, rfl⟩ := ih (fun l hl => h l (List.mem_cons_of_mem _ hl))
        (fun l hl => h' l (List.mem_cons_of_mem _ hl)) htail
      exact ⟨rfl, rfl⟩

theorem u16ToBytes_inj {v v' : UInt16} (h : u16ToBytes v = u16ToBytes v') : v = v' := by
  have hread : ∀ w : UInt16, readU16 (u16ToBytes w) 0 = some w := fun w =>
    readU16_eq_some_iff.2 List.prefix_rfl
  have hread' := hread v
  rw [h, hread v'] at hread'
  exact (Option.some.inj hread').symm

theorem QuestionSyntax.IsSectionOf.unique {q q' : QuestionSyntax} {p : Packet}
    (h : q.IsSectionOf p) (h' : q'.IsSectionOf p) : q = q' := by
  obtain ⟨rest, hrest⟩ := h.bytes
  obtain ⟨rest', hrest'⟩ := h'.bytes
  have heq := hrest.trans hrest'.symm
  simp only [QuestionSyntax.bytes, List.append_assoc] at heq
  obtain ⟨hlabels, heq⟩ := nameBytes_append_inj q.isLabel q'.isLabel heq
  obtain ⟨hqtype, heq⟩ := List.append_inj heq rfl
  obtain ⟨hqclass, -⟩ := List.append_inj heq rfl
  obtain ⟨labels, isLabel, qtype, qclass⟩ := q
  obtain ⟨labels', isLabel', qtype', qclass'⟩ := q'
  cases hlabels
  cases u16ToBytes_inj hqtype
  cases u16ToBytes_inj hqclass
  rfl

/-! ## What is read -/

section
variable {response query : Packet} {qtype : UInt16} {ips ips' : List IpAddr}

theorem questionBody_eq_ok {o e : ℕ} (h : questionBody response o = .ok e) :
    ∃ question, QuestionBytes question ∧ question <+: response.drop o ∧
      e = o + question.length := by
  unfold questionBody at h
  cases hskip : skipDnsName response o with
  | none =>
    rw [hskip] at h
    cases h
  | some nameEnd =>
    rw [hskip] at h
    dsimp only at h
    split_ifs at h with hle
    cases h
    obtain ⟨name, hname, hbegin, rfl⟩ := skipDnsName_eq_some_iff.1 hskip
    have hfixed : ((response.drop (o + name.length)).take 4).length = 4 := by
      rw [List.length_take, List.length_drop]
      omega
    refine ⟨_, ⟨name, _, hname, hfixed, rfl⟩,
      append_prefix_iff.2 ⟨hbegin, List.take_prefix _ _⟩, ?_⟩
    rw [List.length_append, hfixed, Nat.add_assoc]

theorem skipQuestions_eq_ok {n o e : ℕ} (h : skipQuestions response n o = .ok e) :
    ∃ questions : List (List UInt8), (∀ question ∈ questions, QuestionBytes question) ∧
      questions.length = n ∧ questions.flatten <+: response.drop o ∧
      e = o + questions.flatten.length := by
  induction n generalizing o with
  | zero =>
    cases h
    exact ⟨[], fun _ h => absurd h List.not_mem_nil, rfl, List.nil_prefix, rfl⟩
  | succ n ih =>
    obtain ⟨next, hnext, h⟩ := bind_eq_ok.1 h
    obtain ⟨question, hquestion, hbegin, rfl⟩ := questionBody_eq_ok hnext
    obtain ⟨questions, hquestions, rfl, hrest, rfl⟩ := ih h
    refine ⟨question :: questions, List.forall_mem_cons.2 ⟨hquestion, hquestions⟩, rfl,
      append_prefix_iff.2 ⟨hbegin, hrest⟩, ?_⟩
    rw [List.flatten_cons, List.length_append, Nat.add_assoc]

/-- The address that the loop takes from a record. -/
def answerIp (response : Packet) (qtype : UInt16) (r : DnsRecordHeader) : Option IpAddr :=
  if r.recordClass = 1 ∧ r.recordType = qtype then
    dataAddress response qtype r.dataOffset r.dataLen else none

/-- **The loop over the answers** walks over the records. -/
theorem collectIps_eq_ok {n o : ℕ} (h : collectIps response qtype n o ips = .ok ips') :
    ∃ headers e, headers.length = n ∧ Records response o headers e ∧
      ips' = ips ++ headers.flatMap fun r => (answerIp response qtype r).toList := by
  induction n generalizing o ips with
  | zero =>
    cases h
    exact ⟨[], o, rfl, rfl, (List.append_nil _).symm⟩
  | succ n ih =>
    unfold collectIps at h
    cases hskip : skipDnsName response o with
    | none =>
      rw [hskip] at h
      cases h
    | some headerOffset =>
      rw [hskip] at h
      dsimp only at h
      split at h
      · cases h
      rename_i hheader
      obtain ⟨recordType, htype⟩ := Option.isSome_iff_exists.1
        (isSome_readU16.2 (show headerOffset + 1 < response.length by omega))
      obtain ⟨recordClass, hclass⟩ := Option.isSome_iff_exists.1
        (isSome_readU16.2 (show headerOffset + 2 + 1 < response.length by omega))
      obtain ⟨ttl, httl⟩ := Option.isSome_iff_exists.1
        (isSome_readU32 (show headerOffset + 4 + 3 < response.length by omega))
      obtain ⟨dataLen, hlen⟩ := Option.isSome_iff_exists.1
        (isSome_readU16.2 (show headerOffset + 8 + 1 < response.length by omega))
      simp only [htype, hclass, hlen, Option.getD_some] at h
      split at h
      · cases h
      rename_i hdata
      obtain ⟨headers, e, rfl, hrecords, rfl⟩ := ih h
      refine ⟨⟨recordType, recordClass, ttl, headerOffset + 10, dataLen.toNat,
        headerOffset + 10 + dataLen.toNat⟩ :: headers, e, rfl, ⟨?_, hrecords⟩, ?_⟩
      · exact readDnsRecord_eq_some.2 ⟨headerOffset, dataLen, hskip, htype, hclass, httl, hlen,
          rfl, rfl, rfl, Nat.le_of_not_gt hdata⟩
      · rw [List.flatMap_cons, ← List.append_assoc]
        rfl

theorem exists_header {rs : List RecordSyntax} {o : ℕ} {r : DnsRecordHeader}
    (hbegin : RecordSyntax.allBytes rs <+: response.drop o)
    (h : r ∈ RecordSyntax.headers o rs) :
    ∃ record ∈ rs, ∃ o', record.bytes <+: response.drop o' ∧ r = record.header o' := by
  induction rs generalizing o with
  | nil => cases h
  | cons record rs ih =>
    obtain ⟨hrecord, hrs⟩ := append_prefix_iff.1 hbegin
    rcases List.mem_cons.1 h with rfl | h
    · exact ⟨record, List.mem_cons_self, o, hrecord, rfl⟩
    · obtain ⟨record', hmem, hrest⟩ := ih hrs h
      exact ⟨record', List.mem_cons_of_mem _ hmem, hrest⟩

theorem isData_of_answerIp {record : RecordSyntax} {o : ℕ} {ip : IpAddr}
    (hbegin : record.bytes <+: response.drop o)
    (h : answerIp response qtype (record.header o) = some ip) :
    record.rtype = qtype ∧ record.rclass = 1 ∧ IsData record.rdata ip := by
  unfold answerIp at h
  split_ifs at h with hsame
  have hrdata : (response.drop (record.header o).dataOffset).take record.rdata.length =
      record.rdata := by
    simp only [RecordSyntax.bytes, append_prefix_iff, length_u16ToBytes, length_u32ToBytes]
      at hbegin
    exact (List.prefix_iff_eq_take.1 hbegin.2.2.2.2.2).symm
  refine ⟨hsame.2, hsame.1, ?_⟩
  unfold dataAddress at h
  rw [show (record.header o).dataLen = record.rdata.length from rfl, hrdata] at h
  dsimp only at h
  split_ifs at h with hv4 hv6
  · cases h
    exact ⟨hv4.2, rfl⟩
  · cases h
    exact ⟨hv6.2, rfl⟩

theorem parseBootstrapIpResponse_eq_ok
    (h : parseBootstrapIpResponse response query qtype = .ok ips) :
    ∃ questionCount answerCount o, readU16 response 4 = some questionCount ∧
      readU16 response 6 = some answerCount ∧
      skipQuestions response questionCount.toNat dnsHeaderLen = .ok o ∧
      collectIps response qtype answerCount.toNat o [] = .ok ips ∧ ips ≠ [] := by
  unfold parseBootstrapIpResponse at h
  split_ifs at h
  split at h
  · cases h
  · cases h
  · rename_i questionCount answerCount hquestions hanswers
    obtain ⟨o, ho, h⟩ := bind_eq_ok.1 h
    obtain ⟨found, hfound, h⟩ := bind_eq_ok.1 h
    split_ifs at h with hempty
    cases h
    exact ⟨questionCount, answerCount, o, hquestions, hanswers, ho, hfound,
      fun hnil => hempty (List.isEmpty_iff.2 hnil)⟩

/-- **Every address of an accepted response** is the data of one of its answers, which has the
    type that was asked for. -/
theorem mem_parseBootstrapIpResponse
    (h : parseBootstrapIpResponse response query qtype = .ok ips) {ip : IpAddr} (hip : ip ∈ ips) :
    ∃ rs, IsAnswerSection rs response ∧
      ∃ r ∈ rs, r.rtype = qtype ∧ r.rclass = 1 ∧ IsData r.rdata ip := by
  obtain ⟨questionCount, answerCount, o, hquestions, hanswers, ho, hcollect, -⟩ :=
    parseBootstrapIpResponse_eq_ok h
  obtain ⟨questions, hquestion, hcount, hbegin, rfl⟩ := skipQuestions_eq_ok ho
  obtain ⟨headers, e, hlength, hrecords, rfl⟩ := collectIps_eq_ok hcollect
  obtain ⟨rs, hrs, rfl, -⟩ := records_iff.1 hrecords
  rw [RecordSyntax.length_headers] at hlength
  refine ⟨rs, ⟨?_, questions, hquestion, ?_, append_prefix_iff.2 ⟨hbegin, hrs⟩⟩, ?_⟩
  · rw [hanswers, hlength]
    rfl
  · rw [hquestions, hcount]
    rfl
  · obtain ⟨header, hheader, hip⟩ := List.mem_flatMap.1 hip
    obtain ⟨record, hmem, o', hrecord, rfl⟩ := exists_header hrs hheader
    exact ⟨record, hmem, isData_of_answerIp hrecord (Option.mem_toList.1 hip)⟩

theorem qtype_of_parseBootstrapIpResponse
    (h : parseBootstrapIpResponse response query qtype = .ok ips) :
    qtype = typeA ∨ qtype = typeAaaa := by
  obtain ⟨questionCount, answerCount, o, -, -, -, hcollect, hne⟩ :=
    parseBootstrapIpResponse_eq_ok h
  obtain ⟨headers, e, -, -, rfl⟩ := collectIps_eq_ok hcollect
  by_contra hother
  rw [not_or] at hother
  refine hne (List.flatMap_eq_nil_iff.2 fun r _ => ?_)
  rw [answerIp, dataAddress_eq_none hother.1 hother.2, ite_self]
  rfl

end

/-! ## The case of letters -/

theorem toAsciiLowercase_eq_iff {b c : UInt8} (h : c.toNat ≤ 63) :
    toAsciiLowercase b = toAsciiLowercase c ↔ b = c := by
  have hnat : ∀ b : UInt8, 65 ≤ b ∧ b ≤ 90 ↔ 65 ≤ b.toNat ∧ b.toNat ≤ 90 := fun b => Iff.rfl
  have hc : ¬ (65 ≤ c ∧ c ≤ 90) := by
    rw [hnat]
    omega
  unfold toAsciiLowercase
  rw [if_neg hc]
  split_ifs with hb
  · -- a letter becomes a greater byte
    rw [hnat] at hb
    have hsum : (b + 32).toNat = b.toNat + 32 := by
      rw [UInt8.toNat_add]
      exact Nat.mod_eq_of_lt (show b.toNat + 32 < 256 by omega)
    rw [← UInt8.toNat_inj, ← UInt8.toNat_inj, hsum]
    omega
  · rfl

theorem map_toAsciiLowercase_eq_iff {bs cs : List UInt8} (h : ∀ c ∈ cs, c.toNat ≤ 63) :
    bs.map toAsciiLowercase = cs.map toAsciiLowercase ↔ bs = cs := by
  refine ⟨fun heq => ?_, congrArg _⟩
  induction cs generalizing bs with
  | nil => exact List.map_eq_nil_iff.1 heq
  | cons c cs ih =>
    obtain ⟨b, bs, rfl, hb, hbs⟩ := List.map_eq_cons_iff.1 heq
    rw [(toAsciiLowercase_eq_iff (h c List.mem_cons_self)).1 hb,
      ih (fun c' hc' => h c' (List.mem_cons_of_mem _ hc')) hbs]

theorem exists_prefix_of_map {bs cs ds : List UInt8}
    (h : (bs ++ cs).map toAsciiLowercase <+: ds.map toAsciiLowercase) :
    ∃ bs' ds', ds = bs' ++ ds' ∧ bs'.map toAsciiLowercase = bs.map toAsciiLowercase ∧
      cs.map toAsciiLowercase <+: ds'.map toAsciiLowercase := by
  obtain ⟨rest, hrest⟩ := h
  rw [List.map_append, List.append_assoc] at hrest
  obtain ⟨bs', ds', rfl, hbs, hds⟩ := List.map_eq_append_iff.1 hrest.symm
  exact ⟨bs', ds', rfl, hbs, rest, hds.symm⟩

theorem map_nameBytes {labels : List (List UInt8)} (h : ∀ label ∈ labels, IsLabel label) :
    (nameBytes labels).map toAsciiLowercase =
      nameBytes (labels.map (·.map toAsciiLowercase)) := by
  induction labels with
  | nil => rfl
  | cons label labels ih =>
    have hlabel := h label List.mem_cons_self
    have hlength : toAsciiLowercase (.ofNat label.length) = .ofNat label.length := by
      have hsmall : ∀ n < 64, toAsciiLowercase (UInt8.ofNat n) = UInt8.ofNat n := by decide +kernel
      exact hsmall _ (Nat.lt_succ_of_le hlabel.2)
    rw [nameBytes_cons, List.map_cons, List.map_append, hlength,
      ih fun l hl => h l (List.mem_cons_of_mem _ hl), List.map_cons, nameBytes_cons,
      List.length_map]

theorem exists_nameBytes {labels : List (List UInt8)} {rest bs : List UInt8}
    (h : ∀ label ∈ labels, IsLabel label)
    (hbegin : (nameBytes labels ++ rest).map toAsciiLowercase <+: bs.map toAsciiLowercase) :
    ∃ labels' rest', (∀ label ∈ labels', IsLabel label) ∧ bs = nameBytes labels' ++ rest' ∧
      labels.map (·.map toAsciiLowercase) = labels'.map (·.map toAsciiLowercase) ∧
      rest.map toAsciiLowercase <+: rest'.map toAsciiLowercase := by
  induction labels generalizing bs with
  | nil =>
    obtain ⟨zero, rest', rfl, hzero, hrest⟩ := exists_prefix_of_map hbegin
    have hroot : ∀ b ∈ [(0 : UInt8)], b.toNat ≤ 63 := List.forall_mem_singleton.2 (by decide)
    obtain rfl := (map_toAsciiLowercase_eq_iff hroot).1 hzero
    exact ⟨[], rest', fun _ h => absurd h List.not_mem_nil, rfl, rfl, hrest⟩
  | cons label labels ih =>
    have hlabel := h label List.mem_cons_self
    rw [nameBytes_cons, ← List.singleton_append, List.append_assoc, List.append_assoc] at hbegin
    obtain ⟨length, bs, rfl, hlength, hbegin⟩ := exists_prefix_of_map hbegin
    obtain ⟨label', bs, rfl, hlabel', hbegin⟩ := exists_prefix_of_map hbegin
    obtain ⟨labels', rest', hlabels', rfl, hsame, hrest⟩ :=
      ih (fun l hl => h l (List.mem_cons_of_mem _ hl)) hbegin
    have hsize : label'.length = label.length := by
      have hmap := congrArg List.length hlabel'
      rwa [List.length_map, List.length_map] at hmap
    have hlength : length = [UInt8.ofNat label.length] := by
      refine (map_toAsciiLowercase_eq_iff fun c hc => ?_).1 hlength
      rw [List.mem_singleton.1 hc, hlabel.toNat_length]
      exact hlabel.2
    have hisLabel : IsLabel label' := by
      rw [IsLabel, ← List.length_pos_iff, hsize]
      exact ⟨List.length_pos_iff.2 hlabel.1, hlabel.2⟩
    refine ⟨label' :: labels', rest', List.forall_mem_cons.2 ⟨hisLabel, hlabels'⟩, ?_, ?_, hrest⟩
    · rw [nameBytes_cons, hlength, hsize, List.singleton_append, List.cons_append,
        List.append_assoc]
    · rw [List.map_cons, List.map_cons, hlabel', hsame]

theorem QuestionSyntax.Same.map_bytes {q q' : QuestionSyntax} (h : q.Same q') :
    q.bytes.map toAsciiLowercase = q'.bytes.map toAsciiLowercase := by
  simp only [bytes, List.map_append, map_nameBytes q.isLabel, map_nameBytes q'.isLabel, h.labels,
    h.qtype, h.qclass]

theorem QuestionSyntax.exists_same {q : QuestionSyntax} {bs : List UInt8}
    (hsmall : ∀ b ∈ u16ToBytes q.qtype ++ u16ToBytes q.qclass, b.toNat ≤ 63)
    (h : q.bytes.map toAsciiLowercase <+: bs.map toAsciiLowercase) :
    ∃ q' : QuestionSyntax, q'.bytes <+: bs ∧ q.Same q' := by
  obtain ⟨labels', rest, hlabels', rfl, hsame, hrest⟩ := exists_nameBytes q.isLabel h
  rw [← List.append_nil (u16ToBytes q.qtype ++ u16ToBytes q.qclass)] at hrest
  obtain ⟨fixed, rest, rfl, hfixed, -⟩ := exists_prefix_of_map hrest
  obtain rfl := (map_toAsciiLowercase_eq_iff hsmall).1 hfixed
  refine ⟨⟨labels', hlabels', q.qtype, q.qclass⟩, ⟨rest, ?_⟩, hsame, rfl, rfl⟩
  rw [bytes, List.append_assoc]

/-! ## The question of a response -/

/-- **A response answers the question of the query** if and only if it echoes it. -/
theorem answersQuestion_iff {queryId qtype : UInt16} {host : Text} {query response : Packet}
    {ips : List IpAddr} (hquery : buildDnsQuery queryId host qtype = .ok query)
    (hresponse : parseBootstrapIpResponse response query qtype = .ok ips) :
    AnswersQuestion query response qtype ips ↔ EchoesQuestion query response := by
  obtain ⟨q, -, hqtype, hqclass, rfl⟩ := buildDnsQuery_eq_ok.1 hquery
  have hdrop : (u16ToBytes queryId ++ [0x01, 0x00, 0x00, 0x01, 0, 0, 0, 0, 0, 0] ++
      q.bytes).drop dnsHeaderLen = q.bytes := List.drop_left' rfl
  have hsection : q.IsSectionOf (u16ToBytes queryId ++
      [0x01, 0x00, 0x00, 0x01, 0, 0, 0, 0, 0, 0] ++ q.bytes) :=
    ⟨rfl, hdrop ▸ List.prefix_rfl⟩
  constructor
  · rintro ⟨hflag, ⟨q₁, q', hq, hq', hsame⟩, -⟩
    obtain rfl := hq.unique hsection
    refine ⟨hflag, hq'.count, ?_⟩
    rw [hdrop, hsame.map_bytes]
    exact hq'.bytes.map _
  · rintro ⟨hflag, hcount, hecho⟩
    rw [hdrop] at hecho
    have hsmall : ∀ b ∈ u16ToBytes q.qtype ++ u16ToBytes q.qclass, b.toNat ≤ 63 := by
      rw [hqtype, hqclass]
      rcases qtype_of_parseBootstrapIpResponse hresponse with rfl | rfl <;>
        exact List.all_iff_forall_prop.1 (by decide)
    obtain ⟨q', hq', hsame⟩ := QuestionSyntax.exists_same hsmall hecho
    exact ⟨hflag, ⟨q, q', hsection, ⟨hcount, hq'⟩, hsame⟩,
      fun ip hip => mem_parseBootstrapIpResponse hresponse hip⟩

/-- A query for the host `dns`, with the number 7. -/
def sampleQuery : Packet :=
  [0, 7, 1, 0, 0, 1, 0, 0, 0, 0, 0, 0, 3, 100, 110, 115, 0, 0, 1, 0, 1]

/-- A response with this question and the flags, and with an answer for the root. -/
def sampleResponse (flags : UInt8) (question : List UInt8) : Packet :=
  [0, 7, flags, 0, 0, 1, 0, 1, 0, 0, 0, 0] ++ question ++
    [0, 0, 1, 0, 1, 0, 0, 0, 60, 0, 4, 192, 0, 2, 1]

/-- The name of the question comes back in upper case. -/
theorem answersQuestion_sample :
    AnswersQuestion sampleQuery (sampleResponse 0x80 [3, 68, 78, 83, 0, 0, 1, 0, 1]) typeA
      [.v4 ⟨192, 0, 2, 1⟩] := by
  have hquery : buildDnsQuery 7 "dns".toList typeA = .ok sampleQuery := by rfl
  have hresponse : parseBootstrapIpResponse (sampleResponse 0x80 [3, 68, 78, 83, 0, 0, 1, 0, 1])
      sampleQuery typeA = .ok [.v4 ⟨192, 0, 2, 1⟩] := by rfl
  refine (answersQuestion_iff hquery hresponse).2 ⟨⟨0x80, rfl, by decide⟩, rfl, ?_⟩
  decide

/-- A query for another name, sent back as it would be with an answer, supplies an address. -/
theorem otherName_accepted :
    buildDnsQuery 7 "dns".toList typeA = .ok sampleQuery ∧
    parseBootstrapIpResponse (sampleResponse 0x01 [3, 101, 118, 105, 0, 0, 1, 0, 1]) sampleQuery
      typeA = .ok [.v4 ⟨192, 0, 2, 1⟩] ∧
    ¬ AnswersQuestion sampleQuery (sampleResponse 0x01 [3, 101, 118, 105, 0, 0, 1, 0, 1]) typeA
      [.v4 ⟨192, 0, 2, 1⟩] := by
  refine ⟨rfl, rfl, fun h => ?_⟩
  obtain ⟨flags, hflags, hset⟩ := h.isResponse
  cases hflags
  exact absurd hset (by decide)

end DnsBlackhole.Config.Bootstrap
