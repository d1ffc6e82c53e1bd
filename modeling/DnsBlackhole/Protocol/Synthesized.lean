/-
  Responses made here are well formed.

  `Built query qe p rcode an ns rs`: the packet `p` is the head of a response to
  `query`, whose question ends at `qe`, with the records `rs` behind it, all of
  them owned by a pointer to the question.  Every builder returns such a packet,
  `$dnsrewrite` by induction on its actions (`buildDnsrewriteResponse_built`), and
  every such packet is a response to the query that can be walked to its last
  byte (`Built.wellFormed`).
-/
import DnsBlackhole.Protocol.QueryGrammar
import DnsBlackhole.Protocol.Respond
import DnsBlackhole.Protocol.Security

namespace DnsBlackhole.Protocol
open Lib DnsBlackhole.Filter Rules

/-! ## Decoding names -/

/-- The characters of a label, as they stand in the packet. -/
def Label.rawText (l : Label) : Text := l.bytes.map charOfByte

theorem toLower_charOfByte {byte : UInt8} (h : byte < 128) :
    (charOfByte byte).toLower = charOfByte (toAsciiLowercase byte) := by
  have hall : ∀ n : Fin 128, (charOfByte (.ofNat n.val)).toLower =
      charOfByte (toAsciiLowercase (.ofNat n.val)) := by decide
  have := hall ⟨byte.toNat, by rwa [UInt8.lt_iff_toNat_lt] at h⟩
  rwa [UInt8.ofNat_toNat] at this

theorem Label.lower_rawText (l : Label) : l.rawText.toAsciiLowercase = l.text := by
  have hascii := l.ascii
  rw [List.all_eq_true] at hascii
  rw [Text.toAsciiLowercase, Label.rawText, Label.text, List.map_map]
  exact List.map_congr_left fun byte hbyte =>
    toLower_charOfByte (of_decide_eq_true (hascii byte hbyte))

theorem lower_joined (s : Char) (hs : s.toLower = s) (ts : List Text) :
    (joined s ts).map Char.toLower = joined s (ts.map (List.map Char.toLower)) := by
  induction ts with
  | nil => rfl
  | cons t ts ih =>
    cases ts with
    | nil => simp
    | cons t' ts =>
      simp only [joined_cons_cons, List.map_append, List.map_cons, hs] at ih ⊢
      rw [ih]

/-- The name with its labels as they stand in the packet. -/
def rawDomain (ls : List Label) : Text := Text.join (ls.map Label.rawText) ['.']

theorem lower_rawDomain (ls : List Label) : (rawDomain ls).toAsciiLowercase = domainText ls := by
  have hmap : (ls.map Label.rawText).map (List.map Char.toLower) = ls.map Label.text := by
    rw [List.map_map]
    exact List.map_congr_left fun l _ => l.lower_rawText
  have := lower_joined '.' rfl (ls.map Label.rawText)
  rwa [hmap] at this

theorem length_wireName_ge (ls : List Label) : 2 * ls.length + 1 ≤ (wireName ls).length := by
  induction ls with
  | nil => simp
  | cons l ls ih =>
    have := l.length_pos
    rw [wireName_cons, List.length_cons, List.length_cons, List.length_append]
    omega

theorem decodeIterations_wireName {p : Packet} {ls : List Label} {n o : ℕ} {next : Option ℕ}
    {labels : List Text} (h : wireName ls <+: p.drop o) (hn : ls.length < n) :
    decodeIterations p n ⟨o, next, labels⟩ =
      some (Text.join (labels ++ ls.map Label.rawText) ['.'],
        next.getD (o + (wireName ls).length)) := by
  induction ls generalizing n o labels with
  | nil =>
    cases n with
    | zero => cases hn
    | succ n =>
      have hget := (prefix_drop_cons_iff.1 h).1
      rw [decodeIterations, decodeBody]
      simp [hget]
  | cons l ls ih =>
    cases n with
    | zero => cases hn
    | succ n =>
      rw [wireName_cons, prefix_drop_cons_iff, append_prefix_drop_iff] at h
      obtain ⟨hget, htake, hls⟩ := h
      have hle : o + 1 + l.bytes.length ≤ p.length := by
        have := congrArg List.length htake
        rw [List.length_take, List.length_drop] at this
        have := l.length_pos; omega
      have hbits := and_eq_zero_of_toNat_le (b := UInt8.ofNat l.bytes.length)
        (by rw [l.toNat_length]; exact l.length_le)
      have hslice : slice? p (o + 1) (o + 1 + l.bytes.length) = some l.bytes := by
        rw [slice?, if_pos ⟨by omega, hle⟩, Nat.add_sub_cancel_left, htake]
      have hbody : decodeBody p ⟨o, next, labels⟩ =
          .inl ⟨o + 1 + l.bytes.length, next, labels ++ [l.rawText]⟩ := by
        simp only [decodeBody, hget, l.ofNat_length_ne_zero, if_false, hbits, ne_eq,
          not_true_eq_false, l.toNat_length, hslice, fromUtf8Lossy_ascii l.ascii, Label.rawText]
        exact if_neg (by decide)
      rw [decodeIterations, hbody]
      dsimp only
      rw [ih hls (by simpa using hn), wireName_cons]
      simp only [List.map_cons, List.append_assoc, List.singleton_append, List.length_cons,
        List.length_append]
      congr 3; omega

section
variable {p : Packet} {ls : List Label}

theorem length_labels_lt (h : HasName p ls) : ls.length + 1 < p.length := by
  have := length_wireName_ge ls
  rcases length_le_of_prefix_drop h with hnil | hle
  · rw [hnil, List.length_nil] at this
    omega
  · simp only [dnsHeaderLen] at hle
    omega

theorem decodeDnsName_question (h : HasName p ls) :
    decodeDnsName p dnsHeaderLen = some (rawDomain ls, dnsHeaderLen + (wireName ls).length) := by
  have := length_labels_lt h
  exact decodeIterations_wireName h (by omega)

theorem decodeDnsName_pointer {o : ℕ} (h : HasName p ls) (hptr : [0xC0, 0x0C] <+: p.drop o) :
    decodeDnsName p o = some (rawDomain ls, o + 2) := by
  obtain ⟨h₀, h₁⟩ := pair_prefix_iff.1 hptr
  have hbody : decodeBody p ⟨o, none, []⟩ = .inl ⟨dnsHeaderLen, some (o + 2), []⟩ := by
    simp only [decodeBody, h₀, h₁]
    rfl
  have := length_labels_lt h
  rw [decodeDnsName, decodeIterations, hbody]
  dsimp only
  rw [decodeIterations_wireName h (by omega)]
  rfl

end

/-! ## Well-formed responses -/

/-- The owner and the record at an offset. -/
def readOwnedRecord (p : Packet) (o : ℕ) : Option (Text × DnsRecordHeader) :=
  (decodeDnsName p o).bind fun owner => (readDnsRecord p o).map fun r => (owner.1, r)

/-- The packet `p` is a well-formed response to `query` with the question
    `question`. -/
structure ResponseWellFormed (query : Packet) (question : Question) (p : Packet) : Prop where
  validated : validateResponseForQuery query p = .ok ()
  echoed : Agree dnsHeaderLen question.questionEnd query p
  recursionDesired : p[2]?.getD 0 &&& 0x01 = query[2]?.getD 0 &&& 0x01
  additional : readU16 p 10 = some 0
  /-- As many records as the counts say follow the question, up to the last byte,
      and each of them is owned by the name of the question. -/
  records : ∃ an ns rs, readU16 p 6 = some an ∧ readU16 p 8 = some ns ∧
    rs.length = an.toNat + ns.toNat ∧
    Walk (readOwnedRecord p) (fun r => r.2.nextOffset) question.questionEnd rs p.length ∧
    ∀ r ∈ rs, (decodeDnsName query dnsHeaderLen).map Prod.fst = some r.1 ∧
      r.1.toAsciiLowercase = question.domain

theorem responseBits (byte : UInt8) : (0x80 ||| (byte &&& 0x01)) &&& 0x01 = byte &&& 0x01 ∧
    (0x80 ||| (byte &&& 0x01)) &&& 0x80 ≠ 0 ∧
    (0x80 ||| (byte &&& 0x0f)) &&& 0x0f = byte &&& 0x0f := by
  have hall : ∀ n : Fin 256, (0x80 ||| (UInt8.ofNat n.val &&& 0x01)) &&& 0x01 =
      UInt8.ofNat n.val &&& 0x01 ∧ (0x80 ||| (UInt8.ofNat n.val &&& 0x01)) &&& 0x80 ≠ 0 ∧
      (0x80 ||| (UInt8.ofNat n.val &&& 0x0f)) &&& 0x0f = UInt8.ofNat n.val &&& 0x0f := by
    decide +kernel
  have := hall ⟨byte.toNat, byte.toNat_lt⟩
  rwa [UInt8.ofNat_toNat] at this

/-- The bytes of the pointer to the question. -/
def questionPointer : List UInt8 := [0xC0, 0x0C]

/-- The packet `p` is a head with the records `rs` behind it; a response without
    an error has no authority records. -/
structure Built (query : Packet) (questionEnd : ℕ) (p : Packet) (rcode : UInt8) (an ns : UInt16)
    (rs : List RecordSyntax) : Prop where
  eq : p = responseHead query questionEnd rcode an ns ++ RecordSyntax.allBytes rs
  length : rs.length = an.toNat + ns.toNat
  owner : ∀ r ∈ rs, r.name = questionPointer
  authorities : rcode &&& 0x0f = 0 → ns = 0

/-- None of the records is an OPT record. -/
def WithoutOpt (rs : List RecordSyntax) : Prop := ∀ r ∈ rs, r.rtype ≠ typeOpt

theorem withoutOpt_nil : WithoutOpt [] := fun _ h => absurd h List.not_mem_nil

/-- A query with its question. -/
structure HasQuestion (query : Packet) (question : Question) (ls : List Label) : Prop where
  parsed : parseQuestion query = .ok question
  name : HasName query ls
  domain : question.domain = domainText ls
  questionEnd : question.questionEnd = dnsHeaderLen + (wireName ls).length + 4
  le_length : question.questionEnd ≤ query.length

theorem exists_hasQuestion {query : Packet} {question : Question}
    (h : parseQuestion query = .ok question) : ∃ ls, HasQuestion query question ls := by
  obtain ⟨-, -, ls, hname, hdomain, hend, -, hclass⟩ := parseQuestion_eq_ok.1 h
  have := isSome_readU16.1 (Option.isSome_iff_exists.2 ⟨_, hclass⟩)
  exact ⟨ls, h, hname, hdomain, hend, by omega⟩

section
variable {query : Packet} {question : Question} {ls : List Label}

theorem responseHead_eq (rcode : UInt8) (an ns : UInt16) (hq : HasQuestion query question ls) :
    ∃ a b mid, query.take 2 = [a, b] ∧ mid.length = question.questionEnd - 12 ∧
      (∀ i < question.questionEnd - 12, query[i + 12]? = mid[i]?) ∧
      responseHead query question.questionEnd rcode an ns =
        [a, b, 0x80 ||| (query[2]?.getD 0 &&& 0x01), 0x80 ||| (rcode &&& 0x0f)] ++
          (u16ToBytes 1 ++ (u16ToBytes an ++ (u16ToBytes ns ++ (u16ToBytes 0 ++ mid)))) := by
  have hend := hq.questionEnd
  have hle := hq.le_length
  simp only [dnsHeaderLen] at hend
  have h2 : (query.take 2).length = 2 := by rw [List.length_take]; omega
  obtain ⟨a, b, hab⟩ := List.length_eq_two.1 h2
  refine ⟨a, b, (query.drop 12).take (question.questionEnd - 12), hab, ?_, ?_, ?_⟩
  · rw [List.length_take, List.length_drop]; omega
  · intro i hi
    rw [List.getElem?_take_of_lt hi, List.getElem?_drop, Nat.add_comm]
  · rw [responseHead, hab]
    simp only [dnsHeaderLen, List.append_assoc, List.cons_append, List.nil_append]

variable {p : Packet} {rcode : UInt8} {an ns : UInt16} {rs : List RecordSyntax}

theorem Built.head (h : Built query question.questionEnd p rcode an ns rs)
    (hq : HasQuestion query question ls) : question.questionEnd ≤ p.length ∧
      p.drop question.questionEnd = RecordSyntax.allBytes rs ∧ p.take 2 = query.take 2 ∧
      p[2]? = some (0x80 ||| (query[2]?.getD 0 &&& 0x01)) ∧
      p[3]? = some (0x80 ||| (rcode &&& 0x0f)) ∧ readU16 p 4 = some 1 ∧ readU16 p 6 = some an ∧
      readU16 p 8 = some ns ∧ readU16 p 10 = some 0 ∧
      Agree 12 question.questionEnd query p := by
  obtain ⟨a, b, mid, hab, hmid, hmem, hhead⟩ := responseHead_eq rcode an ns hq
  have hend := hq.questionEnd
  simp only [dnsHeaderLen] at hend
  have hlen : (responseHead query question.questionEnd rcode an ns).length =
      question.questionEnd := by
    rw [hhead]
    simp only [List.length_append, length_u16ToBytes, List.length_cons, List.length_nil, hmid]
    omega
  have hp := h.eq
  have hread : ∀ v o, u16ToBytes v <+: (responseHead query question.questionEnd rcode an ns).drop o →
      readU16 p o = some v := by
    intro v o hv
    rw [readU16_eq_some_iff, hp]
    obtain ⟨t, ht⟩ := hv
    rw [List.drop_append, ← ht, List.append_assoc]
    exact List.prefix_append _ _
  refine ⟨by rw [hp, List.length_append, hlen]; omega, by rw [hp]; exact List.drop_left' hlen,
    ?_, ?_, ?_, ?_, ?_, ?_, ?_, fun i hi hib => ?_⟩
  · rw [hp, hhead, hab]; rfl
  · rw [hp, hhead]; rfl
  · rw [hp, hhead]; rfl
  · exact hread 1 4 (by rw [hhead]; exact List.prefix_append _ _)
  · exact hread an 6 (by rw [hhead]; exact List.prefix_append _ _)
  · exact hread ns 8 (by rw [hhead]; exact List.prefix_append _ _)
  · exact hread 0 10 (by rw [hhead]; exact List.prefix_append _ _)
  · obtain ⟨k, rfl⟩ : ∃ k, i = k + 12 := ⟨i - 12, by omega⟩
    rw [hmem k (by omega), hp, List.getElem?_append_left (by omega), hhead]
    simp only [u16ToBytes, List.cons_append, List.nil_append, List.getElem?_cons_succ]

theorem walk_readOwnedRecord {o : ℕ} (hname : HasName p ls)
    (hbegin : RecordSyntax.allBytes rs <+: p.drop o) (howner : ∀ r ∈ rs, r.name = questionPointer) :
    Walk (readOwnedRecord p) (fun r => r.2.nextOffset) o
      ((RecordSyntax.headers o rs).map fun r => (rawDomain ls, r))
      (o + (RecordSyntax.allBytes rs).length) := by
  induction rs generalizing o with
  | nil => rfl
  | cons r rs ih =>
    obtain ⟨hr, hrs⟩ := append_prefix_iff.1 hbegin
    obtain ⟨hown, howner⟩ := List.forall_mem_cons.1 howner
    have hptr : questionPointer <+: p.drop o := by
      rw [RecordSyntax.bytes, append_prefix_iff, hown] at hr
      exact hr.1
    refine ⟨?_, ?_⟩
    · rw [readOwnedRecord, decodeDnsName_pointer hname hptr, Option.bind_some,
        readDnsRecord_eq_some_iff.2 ⟨r, hr, rfl⟩]
      rfl
    · rw [RecordSyntax.allBytes_cons, List.length_append, ← Nat.add_assoc]
      exact ih hrs howner

theorem HasQuestion.parse_echo (hq : HasQuestion query question ls)
    (hle : question.questionEnd ≤ p.length) (hcount : readU16 p 4 = some 1)
    (hagree : Agree 12 question.questionEnd query p) : parseQuestion p = .ok question := by
  have hend := hq.questionEnd
  simp only [dnsHeaderLen] at hend
  have hname : HasName p ls := prefix_drop_of_agree hq.name
    (hagree.mono (Nat.le_refl _) (by simp only [dnsHeaderLen]; omega))
  obtain ⟨-, -, ls', hname', hdomain, hend', htype, hclass⟩ := parseQuestion_eq_ok.1 hq.parsed
  obtain rfl := HasName.unique hname' hq.name
  simp only [dnsHeaderLen] at hend' htype hclass
  refine parseQuestion_eq_ok.2 ⟨by simp only [dnsHeaderLen]; omega, hcount, ls', hname, hdomain,
    hend', ?_, ?_⟩
  · simp only [dnsHeaderLen]
    rwa [← hagree.readU16 (by omega) (by omega)]
  · simp only [dnsHeaderLen]
    rwa [← hagree.readU16 (by omega) (by omega)]

theorem HasQuestion.validate_echo (hq : HasQuestion query question ls)
    (hle : question.questionEnd ≤ p.length) (hid : p.take 2 = query.take 2)
    (hqr : p[2]?.getD 0 &&& 0x80 ≠ 0) (hparsed : parseQuestion p = .ok question) :
    validateResponseForQuery query p = .ok () := by
  have hend := hq.questionEnd
  have hlen : ¬ (query.length < dnsHeaderLen ∨ p.length < dnsHeaderLen) := by
    have := hq.le_length
    simp only [dnsHeaderLen] at hend ⊢
    omega
  rw [validateResponseForQuery, if_neg hlen, if_neg (not_not.2 hid.symm), if_neg hqr, hq.parsed,
    hparsed]
  simp [bind, Except.bind]

/-- **Every packet that is built so** is a well-formed response. -/
theorem Built.wellFormed (h : Built query question.questionEnd p rcode an ns rs)
    (hq : HasQuestion query question ls) : ResponseWellFormed query question p := by
  obtain ⟨hle, hdrop, hid, h2, -, h4, h6, h8, h10, hagree⟩ := h.head hq
  have hend := hq.questionEnd
  simp only [dnsHeaderLen] at hend
  have hname : HasName p ls := prefix_drop_of_agree hq.name
    (hagree.mono (Nat.le_refl _) (by simp only [dnsHeaderLen]; omega))
  have hparsed := hq.parse_echo hle h4 hagree
  obtain ⟨hrd, hqr, -⟩ := responseBits (query[2]?.getD 0)
  refine ⟨?_, hagree, by rw [h2]; exact hrd, h10, an, ns,
    (RecordSyntax.headers question.questionEnd rs).map fun r => (rawDomain ls, r), h6, h8, ?_, ?_,
    ?_⟩
  · exact hq.validate_echo hle hid (by rw [h2]; exact hqr) hparsed
  · rw [List.length_map, RecordSyntax.length_headers, h.length]
  · have hbegin : RecordSyntax.allBytes rs <+: p.drop question.questionEnd :=
      hdrop ▸ List.prefix_refl _
    have hplen : p.length = question.questionEnd + (RecordSyntax.allBytes rs).length := by
      rw [← hdrop, List.length_drop]; omega
    rw [hplen]
    exact walk_readOwnedRecord hname hbegin h.owner
  · intro r hr
    obtain ⟨r, -, rfl⟩ := List.mem_map.1 hr
    refine ⟨?_, by rw [lower_rawDomain, hq.domain]⟩
    rw [decodeDnsName_question hq.name]
    rfl

end

/-! ## The builders -/

section
variable {query : Packet} {question : Question} {ls : List Label}

theorem built_head (query : Packet) (qe : ℕ) (rcode : UInt8) :
    Built query qe (responseHead query qe rcode 0 0) rcode 0 0 [] where
  eq := (List.append_nil _).symm
  length := rfl
  owner _ h := absurd h List.not_mem_nil
  authorities _ := rfl

/-- A record owned by the question. -/
def answerRecord (rtype rclass : UInt16) (ttl : UInt32) (rdata : List UInt8)
    (h : rdata.length < 65536) : RecordSyntax :=
  ⟨questionPointer, .pointer 0x0C (by decide), rtype, rclass, ttl, rdata, h⟩

theorem built_record (query : Packet) (qe : ℕ) {rcode : UInt8} {an ns rtype rclass : UInt16}
    {ttl : UInt32} {rdata : List UInt8} (h : rdata.length < 65536)
    (hcount : 1 = an.toNat + ns.toNat) (hns : rcode &&& 0x0f = 0 → ns = 0) :
    Built query qe (responseHead query qe rcode an ns ++ recordBytes rtype rclass ttl rdata) rcode an
      ns [answerRecord rtype rclass ttl rdata h] where
  eq := by
    simp only [RecordSyntax.allBytes, List.flatMap_cons, List.flatMap_nil, List.append_nil,
      RecordSyntax.bytes, recordBytes, answerRecord, questionPointer, List.append_assoc]
  length := hcount
  owner r hr := by
    rw [List.mem_singleton.1 hr]
    rfl
  authorities := hns

theorem withoutOpt_record {rtype rclass : UInt16} {ttl : UInt32} {rdata : List UInt8}
    (h : rdata.length < 65536) (hrtype : rtype ≠ typeOpt) :
    WithoutOpt [answerRecord rtype rclass ttl rdata h] := by
  intro r hr
  rw [List.mem_singleton.1 hr]
  exact hrtype

theorem buildIpResponse_built (query : Packet) (question : Question) (rcode : UInt8)
    (ipv4 : Option Ipv4Addr) (ipv6 : Option Ipv6Addr) (ttl : UInt32) : ∃ an rs,
      Built query question.questionEnd (buildIpResponse query question rcode ipv4 ipv6 ttl) rcode
        an 0 rs ∧ WithoutOpt rs := by
  unfold buildIpResponse
  split
  · exact ⟨0, [], built_head query question.questionEnd rcode, withoutOpt_nil⟩
  · rename_i ipBytes hip
    obtain ⟨hlen, hqtype⟩ : ipBytes.length < 65536 ∧ question.qtype ≠ typeOpt := by
      unfold answerIp at hip
      split_ifs at hip with _ hv4 hv6
      · obtain ⟨addr, -, rfl⟩ := Option.map_eq_some_iff.1 hip
        exact ⟨by simp [Ipv4Addr.octets], by rw [hv4]; decide⟩
      · obtain ⟨addr, -, rfl⟩ := Option.map_eq_some_iff.1 hip
        have := addr.length_segments
        simp only [Ipv6Addr.octets, List.length_flatMap, length_u16ToBytes, List.map_const',
          List.sum_replicate, this]
        exact ⟨by decide, by rw [hv6]; decide⟩
    exact ⟨1, _, built_record query question.questionEnd hlen rfl fun _ => rfl,
      withoutOpt_record hlen hqtype⟩

theorem buildIpResponse_none (query : Packet) (question : Question) (rcode : UInt8) :
    Built query question.questionEnd (buildIpResponse query question rcode none none 0) rcode 0 0
      [] := by
  have h : buildIpResponse query question rcode none none 0 =
      responseHead query question.questionEnd rcode 0 0 := by
    have hip : answerIp question rcode none none = none := by
      unfold answerIp
      split_ifs <;> rfl
    rw [buildIpResponse, hip]
  rw [h]
  exact built_head query question.questionEnd rcode

theorem length_blockingSoa (ttl : UInt32) : (blockingSoa ttl).length = 55 := rfl

theorem buildNxdomainResponse_built (query : Packet) (question : Question) (ttl : UInt32) :
    ∃ rs, Built query question.questionEnd (buildNxdomainResponse query question ttl)
      rcodeNxdomain 0 1 rs ∧ WithoutOpt rs :=
  have hlen : (blockingSoa ttl).length < 65536 := by simp [length_blockingSoa]
  ⟨_, built_record query question.questionEnd hlen rfl fun h => absurd h (by decide),
    withoutOpt_record hlen (by decide)⟩

theorem sum_len_split_add_length_le (p : Char → Bool) (t : Text) :
    ((t.split p).map Text.len).sum + (t.split p).length ≤ t.len + 1 := by
  induction t with
  | nil => simp [Text.split, Text.len]
  | cons c t ih =>
    have hcons : Text.len (c :: t) = c.utf8Size + Text.len t := by simp [Text.len]
    have hsize := c.utf8Size_pos
    rw [Text.split, hcons]
    split_ifs
    · have hnil : Text.len [] = 0 := rfl
      simp only [List.map_cons, List.sum_cons, List.length_cons]
      omega
    · cases hs : Text.split p t with
      | nil => exact absurd hs (Text.split_ne_nil p t)
      | cons part parts =>
        rw [hs] at ih
        have hpart : Text.len (c :: part) = c.utf8Size + Text.len part := by simp [Text.len]
        simp only [List.map_cons, List.sum_cons, List.length_cons] at ih ⊢
        omega

theorem length_encodeLabels_eq {labels : List Text} {bytes : List (List UInt8)}
    (h : labels.mapM encodeLabel = some bytes) :
    bytes.flatten.length = (labels.map Text.len).sum + labels.length := by
  induction labels generalizing bytes with
  | nil => cases h; rfl
  | cons label labels ih =>
    simp only [List.mapM_cons, Option.bind_eq_bind, Option.bind_eq_some_iff, Option.pure_def,
      Option.some.injEq] at h
    obtain ⟨encoded, hencoded, rest, hrest, rfl⟩ := h
    have := ih hrest
    unfold encodeLabel at hencoded
    split_ifs at hencoded
    cases hencoded
    simp only [List.flatten_cons, List.length_append, List.length_cons, Text.length_asBytes,
      List.map_cons, List.sum_cons]
    omega

/-- **An encoded name** has 255 bytes at most. -/
theorem length_encodeDnsName_le {name : Text} {bytes : List UInt8}
    (h : encodeDnsName name = some bytes) : bytes.length ≤ 255 := by
  unfold encodeDnsName at h
  dsimp only at h
  split_ifs at h with hroot hlong
  · cases h; decide
  · obtain ⟨labels, hlabels, rfl⟩ := Option.map_eq_some_iff.1 h
    have h₁ := length_encodeLabels_eq hlabels
    have h₂ := sum_len_split_add_length_le (· == '.') (name.trimEndMatches '.')
    rw [not_or] at hlong
    rw [List.length_append, List.length_singleton]
    omega

theorem buildCnameResponse_built (query : Packet) (question : Question) (target : Text) :
    ∃ rcode an rs, Built query question.questionEnd (buildCnameResponse query question target)
      rcode an 0 rs ∧ WithoutOpt rs := by
  unfold buildCnameResponse
  split
  · exact ⟨_, _, _, buildIpResponse_none query question rcodeServfail, withoutOpt_nil⟩
  · rename_i encodedTarget h
    exact ⟨_, 1, _, built_record query question.questionEnd
      ((length_encodeDnsName_le h).trans_lt (by decide)) rfl
      fun _ => rfl, withoutOpt_record _ (by decide)⟩

theorem buildRecordResponse_built (query : Packet) (question : Question) {rtype : UInt16}
    (hrtype : rtype ≠ typeOpt) (rdata : List UInt8) : ∃ rcode an rs,
      Built query question.questionEnd (buildRecordResponse query question rtype rdata) rcode an 0
        rs ∧ WithoutOpt rs := by
  unfold buildRecordResponse
  split_ifs with h
  · exact ⟨_, _, _, buildIpResponse_none query question rcodeServfail, withoutOpt_nil⟩
  · exact ⟨_, 1, _, built_record query question.questionEnd (by omega) rfl fun _ => rfl,
      withoutOpt_record _ hrtype⟩

theorem buildBlockResponse_built (query : Packet) (question : Question) (policy : BlockingPolicy) :
    ∃ rcode an ns rs, Built query question.questionEnd
      (buildBlockResponse query question policy) rcode an ns rs ∧ WithoutOpt rs := by
  unfold buildBlockResponse
  split
  · exact ⟨_, _, _, (buildIpResponse_built query question _ _ _ _).choose_spec⟩
  · exact ⟨_, _, _, (buildIpResponse_built query question _ _ _ _).choose_spec⟩
  · exact ⟨_, _, _, buildNxdomainResponse_built query question policy.ttl⟩
  · exact ⟨_, _, _, _, buildIpResponse_none query question rcodeRefused, withoutOpt_nil⟩

theorem ne_typeOpt_of_encodeRewriteRdata {rtype qtype : UInt16} {value : Text}
    {rdata : List UInt8} (h : encodeRewriteRdata rtype value qtype = some rdata) :
    rtype ≠ typeOpt := by
  unfold encodeRewriteRdata at h
  split_ifs at h with _ htxt hptr hmx hsrv
  · rw [htxt]; decide
  · rw [hptr]; decide
  · rw [hmx]; decide
  · rw [hsrv]; decide

theorem copyAt_responseHead (hq : HasQuestion query question ls) (count : UInt16)
    (rest : List UInt8) :
    copyAt (responseHead query question.questionEnd 0 0 0 ++ rest) 6 (u16ToBytes count) =
      responseHead query question.questionEnd 0 count 0 ++ rest := by
  obtain ⟨a, b, mid, hab, hmid, -, hhead⟩ := responseHead_eq 0 0 0 hq
  obtain ⟨a', b', mid', hab', hmid', -, hhead'⟩ := responseHead_eq 0 count 0 hq
  simp only [copyAt, responseHead, hab, u16ToBytes, List.cons_append, List.nil_append,
    List.take_succ_cons, List.take_zero, List.length_cons, List.length_nil, List.drop_succ_cons,
    List.drop_zero]

section
variable (policy : BlockingPolicy)

mutual

/-- **Responses of `$dnsrewrite` rules**, by induction on the action. -/
theorem buildDnsrewriteResponse_built (hq : HasQuestion query question ls) :
    ∀ action : DnsRewriteAction, ∃ rcode an ns rs, Built query question.questionEnd
      (buildDnsrewriteResponse query question policy action) rcode an ns rs ∧ WithoutOpt rs
  | .multiple actions => by
    rw [buildDnsrewriteResponse]
    have h := buildIpResponse_none query question 0
    exact appendRewrites_built hq actions _ 0 [] h.eq rfl h.owner withoutOpt_nil
  | .rcode rcode => by
    rw [buildDnsrewriteResponse]
    split_ifs
    · exact ⟨_, _, _, buildNxdomainResponse_built query question policy.ttl⟩
    · exact ⟨_, _, _, _, buildIpResponse_none query question rcode, withoutOpt_nil⟩
  | .address (.v4 addr) => by
    rw [buildDnsrewriteResponse]
    split_ifs
    · obtain ⟨rcode, an, rs, h⟩ := buildRecordResponse_built query question
        (show typeA ≠ typeOpt by decide) addr.octets
      exact ⟨rcode, an, 0, rs, h⟩
    · obtain ⟨an, rs, h⟩ := buildIpResponse_built query question rcodeNoerror (some addr) none
        rewriteResponseTtl
      exact ⟨_, an, 0, rs, h⟩
  | .address (.v6 addr) => by
    rw [buildDnsrewriteResponse]
    split_ifs
    · obtain ⟨rcode, an, rs, h⟩ := buildRecordResponse_built query question
        (show typeAaaa ≠ typeOpt by decide) addr.octets
      exact ⟨rcode, an, 0, rs, h⟩
    · obtain ⟨an, rs, h⟩ := buildIpResponse_built query question rcodeNoerror none (some addr)
        rewriteResponseTtl
      exact ⟨_, an, 0, rs, h⟩
  | .cname target => by
    rw [buildDnsrewriteResponse]
    obtain ⟨rcode, an, rs, h⟩ := buildCnameResponse_built query question target
    exact ⟨rcode, an, 0, rs, h⟩
  | .record rtype value => by
    rw [buildDnsrewriteResponse]
    split_ifs
    · exact ⟨_, _, _, _, buildIpResponse_none query question 0, withoutOpt_nil⟩
    · split
      · rename_i rdata hrdata
        obtain ⟨rcode, an, rs, h⟩ := buildRecordResponse_built query question
          (ne_typeOpt_of_encodeRewriteRdata hrdata) rdata
        exact ⟨rcode, an, 0, rs, h⟩
      · exact ⟨_, _, _, _, buildIpResponse_none query question rcodeServfail, withoutOpt_nil⟩

/-- The loop over the actions keeps a head with the records so far, whose number
    is counted. -/
theorem appendRewrites_built (hq : HasQuestion query question ls) :
    ∀ (actions : List DnsRewriteAction) (response : Packet) (count : UInt16)
      (rs : List RecordSyntax),
    response = responseHead query question.questionEnd 0 0 0 ++ RecordSyntax.allBytes rs →
    rs.length = count.toNat → (∀ r ∈ rs, r.name = questionPointer) → WithoutOpt rs →
      ∃ rcode an ns rs', Built query question.questionEnd
        (appendRewrites query question policy actions response count) rcode an ns rs' ∧
          WithoutOpt rs'
  | [], response, count, rs => by
    rintro rfl hcount howner hopt
    rw [appendRewrites, copyAt_responseHead hq]
    exact ⟨0, count, 0, rs, ⟨rfl, by rw [hcount]; rfl, howner, fun _ => rfl⟩, hopt⟩
  | action :: actions, response, count, rs => by
    rintro rfl hcount howner hopt
    obtain ⟨rcode, an, ns, part, hpart, hpartOpt⟩ := buildDnsrewriteResponse_built hq action
    obtain ⟨-, hdrop, -, -, h3, -, h6, -⟩ := hpart.head hq
    rw [appendRewrites]
    simp only [h3, h6, Option.getD_some, hdrop]
    split_ifs with hcode hzero hsize hsum
    · exact ⟨_, _, _, _, hpart, hpartOpt⟩
    · exact appendRewrites_built hq actions _ count rs rfl hcount howner hopt
    · exact ⟨_, _, _, _, buildIpResponse_none query question rcodeServfail, withoutOpt_nil⟩
    · exact ⟨_, _, _, _, buildIpResponse_none query question rcodeServfail, withoutOpt_nil⟩
    · -- the part has no error, so its records are answers
      rw [not_not, (responseBits rcode).2.2] at hcode
      obtain rfl := hpart.authorities hcode
      refine appendRewrites_built hq actions _ (count + an) (rs ++ part) ?_ ?_ ?_ ?_
      · rw [RecordSyntax.allBytes_append, List.append_assoc]
      · have := hpart.length
        rw [List.length_append, hcount, this, UInt16.toNat_add,
          Nat.mod_eq_of_lt (by omega : count.toNat + an.toNat < 2 ^ 16)]
        rfl
      · intro r hr
        rcases List.mem_append.1 hr with hr | hr
        · exact howner r hr
        · exact hpart.owner r hr
      · intro r hr
        rcases List.mem_append.1 hr with hr | hr
        · exact hopt r hr
        · exact hpartOpt r hr

end

end

end

/-- **Every response made here is well formed**: for every query, whatever the
    code, the policy, the target or the actions. -/
theorem synthesized_wellFormed {query : Packet} {q : ParsedQuery}
    (h : parseQuery query = .ok q) :
    (∀ rcode, ∃ p, buildErrorResponse query rcode = some p ∧
      ResponseWellFormed query q.question p) ∧
    (∀ policy, ResponseWellFormed query q.question (buildBlockResponse query q.question policy)) ∧
    (∀ target, ResponseWellFormed query q.question
      (buildRewriteResponse query q.question target)) ∧
    (∀ target, ResponseWellFormed query q.question (buildCnameResponse query q.question target)) ∧
    ∀ policy action, ResponseWellFormed query q.question
      (buildDnsrewriteResponse query q.question policy action) := by
  obtain ⟨ls, hq⟩ := exists_hasQuestion (parseQuery_question h)
  refine ⟨fun rcode => ?_, fun policy => ?_, fun target => ?_, fun target => ?_,
    fun policy action => ?_⟩
  · refine ⟨_, ?_, (built_head query q.question.questionEnd rcode).wellFormed hq⟩
    rw [buildErrorResponse, hq.parsed]
  · obtain ⟨rcode, an, ns, rs, hb, -⟩ := buildBlockResponse_built query q.question policy
    exact hb.wellFormed hq
  · obtain ⟨an, rs, hb, -⟩ := buildIpResponse_built query q.question rcodeNoerror target.ipv4
      target.ipv6 rewriteResponseTtl
    exact hb.wellFormed hq
  · obtain ⟨rcode, an, rs, hb, -⟩ := buildCnameResponse_built query q.question target
    exact hb.wellFormed hq
  · obtain ⟨rcode, an, ns, rs, hb, -⟩ := buildDnsrewriteResponse_built policy hq action
    exact hb.wellFormed hq

/-- The responses to `optQuery`. -/
theorem synthesized_wellFormed_optQuery :
    (∀ rcode, ∃ p, buildErrorResponse optQuery rcode = some p ∧
      ResponseWellFormed optQuery ⟨['a'], 1, 1, 19⟩ p) ∧
    (∀ policy, ResponseWellFormed optQuery ⟨['a'], 1, 1, 19⟩
      (buildBlockResponse optQuery ⟨['a'], 1, 1, 19⟩ policy)) ∧
    (∀ target, ResponseWellFormed optQuery ⟨['a'], 1, 1, 19⟩
      (buildRewriteResponse optQuery ⟨['a'], 1, 1, 19⟩ target)) ∧
    (∀ target, ResponseWellFormed optQuery ⟨['a'], 1, 1, 19⟩
      (buildCnameResponse optQuery ⟨['a'], 1, 1, 19⟩ target)) ∧
    ∀ policy action, ResponseWellFormed optQuery ⟨['a'], 1, 1, 19⟩
      (buildDnsrewriteResponse optQuery ⟨['a'], 1, 1, 19⟩ policy action) :=
  synthesized_wellFormed (q := ⟨⟨['a'], 1, 1, 19⟩, true, false, false, true, some 4096, true⟩)
    (by decide)

end DnsBlackhole.Protocol
