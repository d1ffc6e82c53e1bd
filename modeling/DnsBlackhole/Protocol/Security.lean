/-
  What a response tells a client to connect to (`dns/protocol.rs`): the
  addresses of the answer section (`extract_response_ips`) and what the
  response protection looks at (`response_security_data`), which are the
  addresses, the targets of aliases and the address hints of service bindings
  in all three sections.

  The first reader stops at the first record it cannot read and keeps what it
  has; the second one gives up.  `Readable p` says, in terms of the records of
  the packet, when the second one returns something
  (`isSome_responseSecurityData`), and then it has found every address the
  first one finds (`mem_addresses_of_extract`).
-/
import DnsBlackhole.Ip
import DnsBlackhole.Protocol.Walks

namespace DnsBlackhole
open Protocol

/-! ## `String::from_utf8_lossy` -/

/-- A character whose first bytes have been read: their value, how many more
    bytes there are, and what the next one may be. -/
structure Utf8Pending where
  value : ℕ
  remaining : ℕ
  low : UInt8 := 0x80
  high : UInt8 := 0xBF

def replacementCharacter : Char := '\uFFFD'

/-- The first byte of a character: what it adds to the text, and what is pending
    behind it. -/
def utf8First (byte : UInt8) : Text × Option Utf8Pending :=
  let b := byte.toNat
  if b < 0x80 then ([charOfByte byte], none)
  else if 0xC2 ≤ b ∧ b ≤ 0xDF then ([], some { value := b - 0xC0, remaining := 1 })
  else if b = 0xE0 then ([], some { value := 0, remaining := 2, low := 0xA0 })
  else if b = 0xED then ([], some { value := 0xD, remaining := 2, high := 0x9F })
  else if 0xE1 ≤ b ∧ b ≤ 0xEF then ([], some { value := b - 0xE0, remaining := 2 })
  else if b = 0xF0 then ([], some { value := 0, remaining := 3, low := 0x90 })
  else if 0xF1 ≤ b ∧ b ≤ 0xF3 then ([], some { value := b - 0xF0, remaining := 3 })
  else if b = 0xF4 then ([], some { value := 4, remaining := 3, high := 0x8F })
  else ([replacementCharacter], none)

/-- The next byte.  One that cannot go on a character replaces what has been read
    of it, and begins anew. -/
def utf8Step : Option Utf8Pending → UInt8 → Text × Option Utf8Pending
  | none, byte => utf8First byte
  | some p, byte =>
    if p.low ≤ byte ∧ byte ≤ p.high then
      let value := p.value * 64 + (byte.toNat - 0x80)
      if p.remaining ≤ 1 then ([Char.ofNat value], none)
      else ([], some { value, remaining := p.remaining - 1 })
    else
      let r := utf8First byte
      (replacementCharacter :: r.1, r.2)

def fromUtf8LossyFrom : Option Utf8Pending → List UInt8 → Text
  | none, [] => []
  | some _, [] => [replacementCharacter]
  | p, byte :: bytes =>
    let r := utf8Step p byte
    r.1 ++ fromUtf8LossyFrom r.2 bytes

/-- `String::from_utf8_lossy`. -/
def fromUtf8Lossy (bytes : List UInt8) : Text := fromUtf8LossyFrom none bytes

theorem fromUtf8Lossy_ascii {bytes : List UInt8} (h : bytes.all (· < 128)) :
    fromUtf8Lossy bytes = bytes.map charOfByte := by
  unfold fromUtf8Lossy
  induction bytes with
  | nil => rfl
  | cons byte bytes ih =>
    rw [List.all_cons, Bool.and_eq_true, decide_eq_true_iff, UInt8.lt_iff_toNat_lt] at h
    have hfirst : utf8First byte = ([charOfByte byte], none) := if_pos h.1
    simp only [fromUtf8LossyFrom, utf8Step, hfirst, ih h.2, List.map_cons, List.singleton_append]

namespace Protocol
open Lib

/-! ## `decode_dns_name` -/

structure NameState where
  cursor : ℕ
  nextOffset : Option ℕ
  labels : List Text

/-- One iteration of the loop of `decode_dns_name`. -/
def decodeBody (packet : Packet) (s : NameState) : NameState ⊕ Option (Text × ℕ) :=
  match packet[s.cursor]? with
  | none => .inr none
  | some length =>
    if length = 0 then .inr (some (Text.join s.labels ['.'], s.nextOffset.getD (s.cursor + 1)))
    else if length &&& 0xC0 = 0xC0 then
      match packet[s.cursor + 1]? with
      | none => .inr none
      | some next =>
        .inl { s with
          cursor := (length.toNat &&& 0x3F) <<< 8 ||| next.toNat
          nextOffset := s.nextOffset.or (some (s.cursor + 2)) }
    else if length &&& 0xC0 ≠ 0 then .inr none
    else match slice? packet (s.cursor + 1) (s.cursor + 1 + length.toNat) with
      | none => .inr none
      | some label =>
        .inl { s with
          cursor := s.cursor + 1 + length.toNat
          labels := s.labels ++ [fromUtf8Lossy label] }

/-- `n` iterations of the loop of `decode_dns_name`. -/
def decodeIterations (packet : Packet) : ℕ → NameState → Option (Text × ℕ)
  | 0, _ => none
  | n + 1, s =>
    match decodeBody packet s with
    | .inl s' => decodeIterations packet n s'
    | .inr r => r

/-- The name at `offset`, following compression pointers, and the offset behind
    it. -/
def decodeDnsName (packet : Packet) (offset : ℕ) : Option (Text × ℕ) :=
  decodeIterations packet (packet.length + 1) ⟨offset, none, []⟩

/-! ## Addresses -/

/-- The address in the data of a record of the type A or AAAA. -/
def dataAddress (packet : Packet) (recordType : UInt16) (dataOffset dataLen : ℕ) :
    Option IpAddr :=
  let octets := (packet.drop dataOffset).take dataLen
  if recordType = typeA ∧ dataLen = 4 then some (.v4 (.ofOctets octets))
  else if recordType = typeAaaa ∧ dataLen = 16 then some (.v6 (.ofOctets octets))
  else none

/-- The loop of `extract_response_ips` over `n` answers. -/
def extractAnswers (packet : Packet) : ℕ → ℕ → List IpAddr → List IpAddr
  | 0, _, ips => ips
  | n + 1, offset, ips =>
    match skipDnsName packet offset with
    | none => ips
    | some offset =>
      if offset + 10 > packet.length then ips
      else
        let recordType := (readU16 packet offset).getD 0
        let recordClass := (readU16 packet (offset + 2)).getD 0
        let dataLen := ((readU16 packet (offset + 8)).getD 0).toNat
        let dataOffset := offset + 10
        if dataOffset + dataLen > packet.length then ips
        else
          let address := if recordClass = 1 then dataAddress packet recordType dataOffset dataLen
            else none
          extractAnswers packet n (dataOffset + dataLen) (ips ++ address.toList)

def extractResponseIps (packet : Packet) : List IpAddr :=
  if packet.length < dnsHeaderLen then []
  else
    let questionCount := ((readU16 packet 4).getD 0).toNat
    let answerCount := ((readU16 packet 6).getD 0).toNat
    match repeatN (questionBody packet) questionCount dnsHeaderLen with
    | none => []
    | some offset => extractAnswers packet answerCount offset []

/-! ## `response_security_data` -/

structure ResponseSecurityData where
  addresses : List IpAddr := []
  cnameTargets : List Text := []

/-- A parameter of a service binding: its key, its value, and where it ends. -/
structure SvcParam where
  key : UInt16
  value : List UInt8
  valueEnd : ℕ

/-- The parameter at `offset`, in a record that ends at `recordEnd`. -/
def readSvcParam (packet : Packet) (recordEnd offset : ℕ) : Option SvcParam := do
  let key ← readU16 packet offset
  let length ← readU16 packet (offset + 2)
  let valueEnd := offset + 4 + length.toNat
  if valueEnd > recordEnd then none
  else (slice? packet (offset + 4) valueEnd).map fun value => ⟨key, value, valueEnd⟩

/-- The addresses in a parameter: `ipv4hint` and `ipv6hint`. -/
def SvcParam.addresses (param : SvcParam) : List IpAddr :=
  if param.key = 4 ∧ param.value.length % 4 = 0 then
    (param.value.toChunks 4).map fun octets => .v4 (.ofOctets octets)
  else if param.key = 6 ∧ param.value.length % 16 = 0 then
    (param.value.toChunks 16).map fun octets => .v6 (.ofOctets octets)
  else []

/-- One iteration of the loop of `append_svcb_ip_hints`. -/
def svcbHintBody (packet : Packet) (recordEnd : ℕ) (s : ℕ × List IpAddr) :
    (ℕ × List IpAddr) ⊕ Option (List IpAddr) :=
  if s.1 < recordEnd then
    match readSvcParam packet recordEnd s.1 with
    | none => .inr none
    | some param => .inl (param.valueEnd, s.2 ++ param.addresses)
  else .inr (some s.2)

theorem readSvcParam_bounds {packet : Packet} {recordEnd offset : ℕ} {param : SvcParam}
    (h : readSvcParam packet recordEnd offset = some param) :
    offset < param.valueEnd ∧ param.valueEnd ≤ recordEnd := by
  simp only [readSvcParam, Option.bind_eq_bind, Option.bind_eq_some_iff] at h
  obtain ⟨key, -, length, -, h⟩ := h
  split_ifs at h with hle
  obtain ⟨value, -, rfl⟩ := Option.map_eq_some_iff.1 h
  dsimp only
  omega

def svcbHintLoop (packet : Packet) (recordEnd : ℕ) :
    Loop (ℕ × List IpAddr) (Option (List IpAddr)) where
  body := svcbHintBody packet recordEnd
  measure s := recordEnd - s.1
  decreases s s' h := by
    unfold svcbHintBody at h
    split_ifs at h with hlt
    split at h
    · cases h
    · rename_i param hparam
      cases h
      have := readSvcParam_bounds hparam
      dsimp only
      omega

/-- The addresses so far, with those of the hints in `record`. -/
def appendSvcbIpHints (packet : Packet) (record : DnsRecordHeader) (addresses : List IpAddr) :
    Option (List IpAddr) :=
  (decodeDnsName packet (record.dataOffset + 2)).bind fun (_, offset) =>
    if offset > record.nextOffset then none
    else (svcbHintLoop packet record.nextOffset).run (offset, addresses)

/-- What one iteration of the loop of `response_security_data` collects from a
    record. -/
def securityUpdate (packet : Packet) (result : ResponseSecurityData) (record : DnsRecordHeader) :
    Option ResponseSecurityData :=
  if record.recordClass ≠ 1 then some result
  else match dataAddress packet record.recordType record.dataOffset record.dataLen with
    | some address => some { result with addresses := result.addresses ++ [address] }
    | none =>
      if record.recordType = typeCname then
        (decodeDnsName packet record.dataOffset).bind fun (target, nextOffset) =>
          if nextOffset ≠ record.nextOffset then none
          else
            let target := (target.trimEndMatches '.').toAsciiLowercase
            some (if target.isEmpty then result
              else { result with cnameTargets := result.cnameTargets ++ [target] })
      else if record.recordType = typeSvcb ∨ record.recordType = typeHttps then
        (appendSvcbIpHints packet record result.addresses).map fun addresses =>
          { result with addresses }
      else some result

def responseSecurityData (packet : Packet) : Option ResponseSecurityData :=
  if packet.length < dnsHeaderLen ∨ packet[2]?.getD 0 &&& 0x80 = 0 then none
  else do
    let questionCount ← readU16 packet 4
    let answerCount ← readU16 packet 6
    let authorityCount ← readU16 packet 8
    let additionalCount ← readU16 packet 10
    let recordCount := answerCount.toNat + authorityCount.toNat + additionalCount.toNat
    let offset ← repeatN (questionBody packet) questionCount.toNat dnsHeaderLen
    let s ← repeatN (recordStep (readDnsRecord packet) DnsRecordHeader.nextOffset
      (securityUpdate packet)) recordCount (offset, {})
    return s.2

/-! ## What can be read -/

/-- The hints in the data of `r` can be read up to its end. -/
def HintsReadable (p : Packet) (r : DnsRecordHeader) : Prop :=
  ∃ name o params, decodeDnsName p (r.dataOffset + 2) = some (name, o) ∧ o ≤ r.nextOffset ∧
    Walk (readSvcParam p r.nextOffset) SvcParam.valueEnd o params r.nextOffset

/-- The data of `r` can be read, as far as the response protection looks at it:
    the target of an alias is the whole data of its record. -/
structure RecordReadable (p : Packet) (r : DnsRecordHeader) : Prop where
  cname : r.recordClass = 1 → r.recordType = typeCname →
    ∃ name, decodeDnsName p r.dataOffset = some (name, r.nextOffset)
  svcb : r.recordClass = 1 → r.recordType = typeSvcb ∨ r.recordType = typeHttps →
    HintsReadable p r

/-- The packet can be walked, and all that the response protection looks at can
    be read. -/
def Readable (p : Packet) : Prop :=
  ∃ qe an ns ar rs e, Walks p qe an ns ar rs e ∧ ∀ r ∈ rs, RecordReadable p r

theorem svcbHintBody_param {p : Packet} {recordEnd o : ℕ} {addresses : List IpAddr}
    {param : SvcParam} (h : readSvcParam p recordEnd o = some param) :
    svcbHintBody p recordEnd (o, addresses) =
      .inl (param.valueEnd, addresses ++ param.addresses) := by
  have := readSvcParam_bounds h
  unfold svcbHintBody
  rw [if_pos (by dsimp only; omega)]
  dsimp only
  rw [h]

/-- **The loop over the hints** is a walk over the parameters. -/
theorem svcbHintLoop_run_eq_some {p : Packet} {recordEnd o : ℕ}
    {addresses addresses' : List IpAddr} (ho : o ≤ recordEnd) :
    (svcbHintLoop p recordEnd).run (o, addresses) = some addresses' ↔ ∃ params,
      Walk (readSvcParam p recordEnd) SvcParam.valueEnd o params recordEnd ∧
      addresses' = addresses ++ params.flatMap SvcParam.addresses := by
  constructor
  · revert ho
    refine Loop.inv (svcbHintLoop p recordEnd) (P := fun s r => s.1 ≤ recordEnd →
      r = some addresses' → ∃ params,
        Walk (readSvcParam p recordEnd) SvcParam.valueEnd s.1 params recordEnd ∧
        addresses' = s.2 ++ params.flatMap SvcParam.addresses) ?_ ?_ (o, addresses)
    · rintro ⟨o, addresses⟩ r h ho rfl
      change svcbHintBody p recordEnd (o, addresses) = _ at h
      unfold svcbHintBody at h
      split_ifs at h with hlt
      · split at h <;> cases h
      · cases h
        exact ⟨[], Nat.le_antisymm ho (Nat.le_of_not_gt hlt), by simp⟩
    · rintro ⟨o, addresses⟩ s' r h ih ho hr
      change svcbHintBody p recordEnd (o, addresses) = _ at h
      unfold svcbHintBody at h
      split_ifs at h with hlt
      split at h
      · cases h
      · rename_i param hparam
        cases h
        obtain ⟨params, hw, rfl⟩ := ih (readSvcParam_bounds hparam).2 hr
        exact ⟨param :: params, ⟨hparam, hw⟩, by simp⟩
  · rintro ⟨params, hw, rfl⟩
    induction params generalizing o addresses with
    | nil =>
      obtain rfl : o = recordEnd := hw
      have hbody : svcbHintBody p o (o, addresses) = .inr (some addresses) :=
        if_neg (Nat.lt_irrefl o)
      rw [(svcbHintLoop p o).run_inr hbody, List.flatMap_nil, List.append_nil]
    | cons param params ih =>
      obtain ⟨hparam, hw⟩ := hw
      rw [(svcbHintLoop p recordEnd).run_inl (svcbHintBody_param hparam),
        ih (readSvcParam_bounds hparam).2 hw, List.flatMap_cons, List.append_assoc]

theorem appendSvcbIpHints_eq_some {p : Packet} {r : DnsRecordHeader}
    {addresses addresses' : List IpAddr}
    (h : appendSvcbIpHints p r addresses = some addresses') :
    HintsReadable p r ∧ addresses ⊆ addresses' := by
  obtain ⟨⟨name, o⟩, hname, h⟩ := Option.bind_eq_some_iff.1 h
  dsimp only at h
  split_ifs at h with ho
  obtain ⟨params, hw, rfl⟩ := (svcbHintLoop_run_eq_some (Nat.le_of_not_gt ho)).1 h
  exact ⟨⟨name, o, params, hname, Nat.le_of_not_gt ho, hw⟩, List.subset_append_left _ _⟩

theorem isSome_appendSvcbIpHints {p : Packet} {r : DnsRecordHeader} (addresses : List IpAddr) :
    (appendSvcbIpHints p r addresses).isSome ↔ HintsReadable p r := by
  constructor
  · intro h
    obtain ⟨addresses', h⟩ := Option.isSome_iff_exists.1 h
    exact (appendSvcbIpHints_eq_some h).1
  · rintro ⟨name, o, params, hname, ho, hw⟩
    rw [appendSvcbIpHints, hname, Option.bind_some]
    dsimp only
    rw [if_neg (Nat.not_lt.2 ho), (svcbHintLoop_run_eq_some ho).2 ⟨params, hw, rfl⟩]
    rfl

/-- The address in the data of a record of the class IN. -/
def recordAddress (p : Packet) (r : DnsRecordHeader) : Option IpAddr :=
  if r.recordClass = 1 then dataAddress p r.recordType r.dataOffset r.dataLen else none

theorem dataAddress_eq_none {p : Packet} {recordType : UInt16} {dataOffset dataLen : ℕ}
    (ha : recordType ≠ typeA) (haaaa : recordType ≠ typeAaaa) :
    dataAddress p recordType dataOffset dataLen = none := by
  simp [dataAddress, ha, haaaa]

/-- What one iteration of `response_security_data` needs of a record, and that it
    keeps the addresses and takes the one of the record. -/
theorem securityUpdate_isSome_iff {p : Packet} {r : DnsRecordHeader}
    (result : ResponseSecurityData) :
    (securityUpdate p result r).isSome ↔ RecordReadable p r := by
  unfold securityUpdate
  by_cases hclass : r.recordClass = 1
  swap
  · rw [if_pos hclass]
    exact ⟨fun _ => ⟨fun h => absurd h hclass, fun h => absurd h hclass⟩, fun _ => rfl⟩
  rw [if_neg (not_not.2 hclass)]
  split
  · -- an address record is neither an alias nor a service binding
    rename_i address haddress
    refine ⟨fun _ => ⟨fun _ htype => ?_, fun _ htype => ?_⟩, fun _ => rfl⟩
    · rw [dataAddress_eq_none (by rw [htype]; decide) (by rw [htype]; decide)] at haddress
      cases haddress
    · rw [dataAddress_eq_none (by rcases htype with h | h <;> rw [h] <;> decide)
        (by rcases htype with h | h <;> rw [h] <;> decide)] at haddress
      cases haddress
  · split_ifs with hcname hsvcb
    · have hsvcb : ¬ (r.recordType = typeSvcb ∨ r.recordType = typeHttps) := by
        rw [hcname]; decide
      constructor
      · intro h
        obtain ⟨result', h⟩ := Option.isSome_iff_exists.1 h
        obtain ⟨⟨target, o⟩, hname, h⟩ := Option.bind_eq_some_iff.1 h
        dsimp only at h
        split_ifs at h with ho
        all_goals exact ⟨fun _ _ => ⟨target, not_not.1 ho ▸ hname⟩, fun _ h => absurd h hsvcb⟩
      · intro h
        obtain ⟨target, hname⟩ := h.cname hclass hcname
        rw [hname]
        simp
    · rw [Option.isSome_map, isSome_appendSvcbIpHints]
      exact ⟨fun h => ⟨fun _ hc => absurd hc hcname, fun _ _ => h⟩, fun h => h.svcb hclass hsvcb⟩
    · exact ⟨fun _ => ⟨fun _ h => absurd h hcname, fun _ h => absurd h hsvcb⟩, fun _ => rfl⟩

theorem securityUpdate_addresses {p : Packet} {r : DnsRecordHeader}
    {result result' : ResponseSecurityData} (h : securityUpdate p result r = some result') :
    result.addresses ⊆ result'.addresses ∧ (recordAddress p r).toList ⊆ result'.addresses := by
  unfold securityUpdate at h
  unfold recordAddress
  by_cases hclass : r.recordClass = 1
  swap
  · rw [if_pos hclass] at h
    cases h
    rw [if_neg hclass]
    exact ⟨List.Subset.refl _, List.nil_subset _⟩
  rw [if_neg (not_not.2 hclass)] at h
  rw [if_pos hclass]
  split at h
  · rename_i address haddress
    cases h
    rw [haddress]
    exact ⟨List.subset_append_left _ _, List.subset_append_right _ _⟩
  · rename_i hnone
    rw [hnone]
    refine ⟨?_, List.nil_subset _⟩
    split_ifs at h with hcname hsvcb
    · obtain ⟨⟨target, o⟩, -, h⟩ := Option.bind_eq_some_iff.1 h
      dsimp only at h
      split_ifs at h
      all_goals cases h; exact List.Subset.refl _
    · obtain ⟨addresses, happend, rfl⟩ := Option.map_eq_some_iff.1 h
      exact (appendSvcbIpHints_eq_some happend).2
    · cases h
      exact List.Subset.refl _

theorem isSome_foldlM_securityUpdate {p : Packet} {rs : List DnsRecordHeader}
    (result : ResponseSecurityData) :
    (rs.foldlM (securityUpdate p) result).isSome ↔ ∀ r ∈ rs, RecordReadable p r := by
  induction rs generalizing result with
  | nil => simp
  | cons r rs ih =>
    rw [List.foldlM_cons, List.forall_mem_cons, ← securityUpdate_isSome_iff result]
    cases h : securityUpdate p result r with
    | none => simp
    | some result' => simpa using ih result'

theorem foldlM_securityUpdate_addresses {p : Packet} {rs : List DnsRecordHeader}
    {result result' : ResponseSecurityData}
    (h : rs.foldlM (securityUpdate p) result = some result') :
    result.addresses ⊆ result'.addresses ∧
      ∀ r ∈ rs, (recordAddress p r).toList ⊆ result'.addresses := by
  induction rs generalizing result with
  | nil => cases h; simp
  | cons r rs ih =>
    rw [List.foldlM_cons] at h
    obtain ⟨result₁, h₁, h⟩ := Option.bind_eq_some_iff.1 h
    obtain ⟨hkeep, htake⟩ := securityUpdate_addresses h₁
    obtain ⟨hkeep', htake'⟩ := ih h
    exact ⟨List.Subset.trans hkeep hkeep',
      List.forall_mem_cons.2 ⟨List.Subset.trans htake hkeep', htake'⟩⟩

section
variable {p : Packet}

/-- **When the response protection can look at a response** with one question. -/
theorem isSome_responseSecurityData (hlen : dnsHeaderLen ≤ p.length)
    (hqr : p[2]?.getD 0 &&& 0x80 ≠ 0) (hcount : readU16 p 4 = some 1) :
    (responseSecurityData p).isSome ↔ Readable p := by
  have hhead : ¬ (p.length < dnsHeaderLen ∨ p[2]?.getD 0 &&& 0x80 = 0) := by
    rintro (h | h)
    · omega
    · exact hqr h
  unfold responseSecurityData
  rw [if_neg hhead]
  constructor
  · intro h
    obtain ⟨result, h⟩ := Option.isSome_iff_exists.1 h
    simp only [Option.bind_eq_bind, Option.bind_eq_some_iff, hcount, Option.some.injEq,
      exists_eq_left'] at h
    obtain ⟨an, han, ns, hns, ar, har, o, ho, ⟨e, result'⟩, hs, -⟩ := h
    obtain ⟨qe, hname, hle, rfl⟩ := repeatN_questionBody_eq_some.1 ho
    obtain ⟨rs, hn, hw, hf⟩ := repeatN_recordStep.1 hs
    refine ⟨qe, an, ns, ar, rs, e, ⟨hname, hcount, hle, han, hns, har, hn, hw⟩, ?_⟩
    exact (isSome_foldlM_securityUpdate _).1 (by rw [hf]; rfl)
  · rintro ⟨qe, an, ns, ar, rs, e, hw, hread⟩
    obtain ⟨result, hf⟩ :=
      Option.isSome_iff_exists.1 ((isSome_foldlM_securityUpdate {}).2 hread)
    have hs := repeatN_recordStep.2 ⟨rs, hw.length, hw.records, hf⟩
    have ho := repeatN_questionBody_eq_some.2 ⟨qe, hw.name, hw.question_le, rfl⟩
    simp [hw.question, hw.answer, hw.authority, hw.additional, ho, hs]

theorem extractAnswers_eq {n o e : ℕ} {rs : List DnsRecordHeader} (hrs : Records p o rs e)
    (hn : n ≤ rs.length) (ips : List IpAddr) :
    extractAnswers p n o ips =
      ips ++ (rs.take n).flatMap fun r => (recordAddress p r).toList := by
  induction n generalizing o rs ips with
  | zero => simp [extractAnswers]
  | succ n ih =>
    cases rs with
    | nil => cases hn
    | cons r rs =>
      obtain ⟨hr, hw⟩ := hrs
      obtain ⟨h, len, hskip, htype, hclass, -, hlen, hd, hdl, hnext, hle⟩ :=
        readDnsRecord_eq_some.1 hr
      have hnext' : h + 10 + len.toNat = r.nextOffset := hnext.symm
      rw [extractAnswers]
      simp only [hskip, htype, hclass, hlen, Option.getD_some]
      rw [if_neg (by omega), if_neg (by omega), hnext', ih hw (by simpa using hn),
        List.take_succ_cons, List.flatMap_cons, List.append_assoc, recordAddress, hd, hdl]

theorem mem_addresses_of_extract {result : ResponseSecurityData}
    (hcount : readU16 p 4 = some 1) (h : responseSecurityData p = some result) {ip : IpAddr}
    (hip : ip ∈ extractResponseIps p) : ip ∈ result.addresses := by
  unfold responseSecurityData at h
  split_ifs at h
  simp only [Option.bind_eq_bind, Option.bind_eq_some_iff, hcount, Option.some.injEq,
    exists_eq_left', Option.pure_def] at h
  obtain ⟨an, han, ns, hns, ar, har, o, ho, ⟨e, result'⟩, hs, rfl⟩ := h
  obtain ⟨rs, hn, hw, hf⟩ := repeatN_recordStep.1 hs
  unfold extractResponseIps at hip
  split_ifs at hip with hlen
  · cases hip
  have ho' : repeatN (questionBody p) (1 : UInt16).toNat dnsHeaderLen = some o := ho
  simp only [hcount, han, Option.getD_some, ho', extractAnswers_eq hw (by omega : an.toNat ≤ _),
    List.nil_append] at hip
  obtain ⟨r, hr, hip⟩ := List.mem_flatMap.1 hip
  exact (foldlM_securityUpdate_addresses hf).2 r (List.mem_of_mem_take hr) hip

end

end Protocol
end DnsBlackhole
