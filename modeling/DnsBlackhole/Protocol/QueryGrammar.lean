/-
  The grammar of queries: what `parse_query` accepts, and what it returns.

  A query is a header, a question whose name is a sequence of labels, and the
  records that the header counts (`QuerySyntax`).  `parse_query` accepts exactly
  the bytes of a query and returns its parts (`parseQuery_eq_ok_iff`).
-/
import DnsBlackhole.Protocol.Grammar
import DnsBlackhole.Protocol.Query

namespace DnsBlackhole.Protocol
open Lib

/-! ## Options -/

/-- An option of an OPT record. -/
structure EdnsOption where
  code : UInt16
  data : List UInt8
  length_data : data.length < 65536

def EdnsOption.bytes (option : EdnsOption) : List UInt8 :=
  u16ToBytes option.code ++ (u16ToBytes (.ofNat option.data.length) ++ option.data)

/-- The option does not change the answer. -/
def EdnsOption.Harmless (option : EdnsOption) : Prop :=
  option.code = ednsOptionTcpKeepalive ∨ option.code = ednsOptionPadding

theorem EdnsOption.toNat_length (option : EdnsOption) :
    (UInt16.ofNat option.data.length).toNat = option.data.length := by
  rw [UInt16.toNat_ofNat']
  exact Nat.mod_eq_of_lt option.length_data

theorem ednsOptionBody_eq_inl {rest rest' : List UInt8} :
    ednsOptionBody rest = .inl rest' ↔
      ∃ option : EdnsOption, option.Harmless ∧ rest = option.bytes ++ rest' := by
  constructor
  · intro h
    unfold ednsOptionBody at h
    split at h
    · cases h
    · rename_i b₀ b₁ b₂ b₃ tail
      dsimp only at h
      split_ifs at h with hlen hcode
      cases h
      simp only [List.length_cons, Nat.not_lt] at hlen
      have hlt := (u16OfBytes b₂ b₃).toNat_lt
      have htake : (tail.take (u16OfBytes b₂ b₃).toNat).length = (u16OfBytes b₂ b₃).toNat := by
        rw [List.length_take]; omega
      refine ⟨⟨u16OfBytes b₀ b₁, tail.take (u16OfBytes b₂ b₃).toNat, by omega⟩, ?_, ?_⟩
      · exact or_iff_not_imp_left.2 fun h => by_contra fun h' => hcode ⟨h, h'⟩
      · dsimp only [EdnsOption.bytes]
        rw [htake, UInt16.ofNat_toNat, u16ToBytes_ofBytes, u16ToBytes_ofBytes, Nat.add_comm 4]
        simp [List.take_append_drop]
    · cases h
  · rintro ⟨option, hcode, rfl⟩
    have hlen := option.toNat_length
    unfold EdnsOption.bytes
    generalize UInt16.ofNat option.data.length = len at hlen ⊢
    simp only [u16ToBytes, List.cons_append, List.nil_append, ednsOptionBody, u16OfBytes_toBytes]
    rw [hlen, if_neg (by simp; omega), if_neg (by rcases hcode with h | h <;> simp [h]),
      Nat.add_comm 4]
    simp

theorem ednsOptionBody_eq_true {rest : List UInt8} :
    ednsOptionBody rest = .inr true ↔ rest = [] := by
  unfold ednsOptionBody
  split
  · simp
  · dsimp only
    split_ifs <;> simp
  · rename_i h _
    simp only [Sum.inr.injEq, Bool.false_eq_true, false_iff]
    exact h

/-- **The loop over the options** accepts sequences of harmless options. -/
theorem ednsOptionLoop_run_iff {rest : List UInt8} : ednsOptionLoop.run rest = true ↔
    ∃ options : List EdnsOption, (∀ option ∈ options, option.Harmless) ∧
      rest = options.flatMap EdnsOption.bytes := by
  constructor
  · refine Loop.inv ednsOptionLoop (P := fun rest r => r = true →
      ∃ options : List EdnsOption, (∀ option ∈ options, option.Harmless) ∧
        rest = options.flatMap EdnsOption.bytes) ?_ ?_ rest
    · rintro rest r h rfl
      exact ⟨[], by simp, ednsOptionBody_eq_true.1 h⟩
    · rintro rest rest' r h ih hr
      obtain ⟨option, hcode, rfl⟩ := ednsOptionBody_eq_inl.1 h
      obtain ⟨options, hall, rfl⟩ := ih hr
      exact ⟨option :: options, List.forall_mem_cons.2 ⟨hcode, hall⟩, rfl⟩
  · rintro ⟨options, hall, rfl⟩
    induction options with
    | nil => exact ednsOptionLoop.run_inr (ednsOptionBody_eq_true.2 rfl)
    | cons option options ih =>
      obtain ⟨hcode, hall⟩ := List.forall_mem_cons.1 hall
      rw [List.flatMap_cons,
        ednsOptionLoop.run_inl (ednsOptionBody_eq_inl.2 ⟨option, hcode, rfl⟩)]
      exact ih hall

/-! ## OPT records -/

namespace RecordSyntax

/-- An OPT record owned by the root. -/
def isRootOpt (r : RecordSyntax) : Bool := r.rtype == typeOpt && r.name == [0]

/-- The OPT record asks for nothing that changes the answer: no extended code,
    version or flag but the DO bit, and no other options than harmless ones. -/
def Harmless (r : RecordSyntax) : Prop :=
  r.ttl &&& 0xffff7fff = 0 ∧ ∃ options : List EdnsOption,
    (∀ option ∈ options, option.Harmless) ∧ r.rdata = options.flatMap EdnsOption.bytes

/-- `Harmless`, as the loop over the options decides it. -/
def isHarmless (r : RecordSyntax) : Bool :=
  !(r.ttl &&& 0xffff7fff != 0 || !ednsOptionLoop.run r.rdata)

theorem isHarmless_iff (r : RecordSyntax) : r.isHarmless = true ↔ r.Harmless := by
  unfold isHarmless Harmless
  rw [Bool.not_eq_true', Bool.or_eq_false_iff, bne_eq_false_iff_eq, Bool.not_eq_false',
    ednsOptionLoop_run_iff]

end RecordSyntax

/-- What `parse_query` collects from a record of the additional section. -/
def ednsStep (s : EdnsState) (r : RecordSyntax) : EdnsState :=
  if r.isRootOpt ∧ s.ednsUdpSize.isNone then
    { offset := s.offset + r.bytes.length
      ednsUdpSize := some (max r.rclass 512)
      dnssecOk := r.ttl &&& 0x8000 != 0
      cacheSafe := s.cacheSafe && r.isHarmless }
  else { s with offset := s.offset + r.bytes.length, cacheSafe := false }

/-- **One iteration of the loop over the additional section** reads a record. -/
theorem additionalBody_eq_some {p : Packet} {s s' : EdnsState} :
    additionalBody p s = some s' ↔
      ∃ r : RecordSyntax, r.bytes <+: p.drop s.offset ∧ s' = ednsStep s r := by
  have hstep : ∀ r : RecordSyntax, r.bytes <+: p.drop s.offset →
      additionalBody p s = some (ednsStep s r) := by
    intro r hr
    have hread := readDnsRecord_eq_some_iff.2 ⟨r, hr, rfl⟩
    have hroot : p[s.offset]? = some 0 ↔ r.name = [0] := by
      obtain ⟨rest, hrest⟩ := hr
      rw [RecordSyntax.bytes, List.append_assoc] at hrest
      have hget : p[s.offset]? = (p.drop s.offset)[0]? := by rw [List.getElem?_drop, Nat.add_zero]
      rw [hget, ← hrest]
      exact r.isName.eq_root_iff
    have hsafe : ednsOptionsAreCacheSafe p (r.header s.offset).dataOffset
        (r.header s.offset).dataLen = ednsOptionLoop.run r.rdata := by
      have hdata := hr
      have hlast := length_le_of_prefix_drop hr
      have hbytes := r.length_bytes
      simp only [RecordSyntax.bytes, append_prefix_iff, length_u16ToBytes,
        length_u32ToBytes] at hdata
      have htake := List.prefix_iff_eq_take.1 hdata.2.2.2.2.2
      rw [ednsOptionsAreCacheSafe, slice?, if_pos]
      · simp only [RecordSyntax.header, Nat.add_sub_cancel_left]
        rw [show s.offset + r.name.length + 10 = s.offset + r.name.length + 2 + 2 + 4 + 2 by omega,
          ← htake]
      · simp only [RecordSyntax.header]
        rcases hlast with hnil | hle
        · rw [hnil] at hbytes
          simp only [List.length_nil] at hbytes
          omega
        · omega
    rw [additionalBody, hread, Option.map_some, hsafe, ednsStep]
    congr 1
    have hcond : ((r.header s.offset).recordType = typeOpt ∧ s.ednsUdpSize.isNone ∧
        p[s.offset]? = some 0) ↔ (r.isRootOpt ∧ s.ednsUdpSize.isNone) := by
      rw [hroot, RecordSyntax.isRootOpt, Bool.and_eq_true, beq_iff_eq, beq_iff_eq,
        RecordSyntax.header]
      tauto
    by_cases hc : r.isRootOpt ∧ s.ednsUdpSize.isNone
    · rw [if_pos (hcond.2 hc), if_pos hc]
      rfl
    · rw [if_neg fun h => hc (hcond.1 h), if_neg hc]
      rfl
  constructor
  · intro h
    obtain ⟨hd, hread, -⟩ := Option.map_eq_some_iff.1 h
    obtain ⟨r, hr, rfl⟩ := readDnsRecord_eq_some_iff.1 hread
    exact ⟨r, hr, Option.some.inj (h.symm.trans (hstep r hr))⟩
  · rintro ⟨r, hr, rfl⟩
    exact hstep r hr

theorem repeatN_additionalBody_eq_some {p : Packet} {n : ℕ} {s s' : EdnsState} :
    repeatN (additionalBody p) n s = some s' ↔ ∃ rs : List RecordSyntax, rs.length = n ∧
      RecordSyntax.allBytes rs <+: p.drop s.offset ∧ s' = rs.foldl ednsStep s := by
  have hoffset : ∀ s r, (ednsStep s r).offset = s.offset + r.bytes.length := by
    intro s r
    unfold ednsStep
    split_ifs <;> rfl
  induction n generalizing s with
  | zero =>
    constructor
    · intro h
      cases h
      exact ⟨[], rfl, List.nil_prefix, rfl⟩
    · rintro ⟨rs, hn, -, rfl⟩
      obtain rfl := List.length_eq_zero_iff.1 hn
      rfl
  | succ n ih =>
    rw [repeatN_succ_eq_some]
    constructor
    · rintro ⟨s₁, h₁, h⟩
      obtain ⟨r, hr, rfl⟩ := additionalBody_eq_some.1 h₁
      obtain ⟨rs, hn, hrs, rfl⟩ := ih.1 h
      rw [hoffset] at hrs
      exact ⟨r :: rs, by rw [List.length_cons, hn], append_prefix_iff.2 ⟨hr, hrs⟩, rfl⟩
    · rintro ⟨rs, hn, hbegin, rfl⟩
      cases rs with
      | nil => cases hn
      | cons r rs =>
        obtain ⟨hr, hrs⟩ := append_prefix_iff.1 hbegin
        refine ⟨ednsStep s r, additionalBody_eq_some.2 ⟨r, hr, rfl⟩,
          ih.2 ⟨rs, by simpa using hn, ?_, rfl⟩⟩
        rwa [hoffset]

/-- Behind the OPT record that counts, any record makes the query unsafe to
    answer from the cache. -/
theorem foldl_ednsStep_some (rs : List RecordSyntax) (o : ℕ) (size : UInt16) (dnssecOk safe : Bool) :
    rs.foldl ednsStep ⟨o, some size, dnssecOk, safe⟩ =
      ⟨o + (RecordSyntax.allBytes rs).length, some size, dnssecOk, safe && rs.isEmpty⟩ := by
  induction rs generalizing o safe with
  | nil => simp [RecordSyntax.allBytes]
  | cons r rs ih =>
    have hstep : ednsStep ⟨o, some size, dnssecOk, safe⟩ r =
        ⟨o + r.bytes.length, some size, dnssecOk, false⟩ := by simp [ednsStep]
    rw [List.foldl_cons, hstep, ih, RecordSyntax.allBytes_cons, List.length_append]
    simp [Nat.add_assoc]

/-- **What the additional section says**: the first OPT record of the root counts,
    and the query is safe if there is no other record and that one is harmless. -/
theorem foldl_ednsStep (rs : List RecordSyntax) (o : ℕ) (safe : Bool) :
    let opt := rs.find? RecordSyntax.isRootOpt
    let s := rs.foldl ednsStep ⟨o, none, false, safe⟩
    s.offset = o + (RecordSyntax.allBytes rs).length ∧
      s.ednsUdpSize = opt.map (fun r => max r.rclass 512) ∧
      s.dnssecOk = opt.any (fun r => r.ttl &&& 0x8000 != 0) ∧
      (s.cacheSafe = true ↔ safe = true ∧
        (rs = [] ∨ ∃ r, rs = [r] ∧ r.isRootOpt = true ∧ r.Harmless)) := by
  induction rs generalizing o safe with
  | nil => simp [RecordSyntax.allBytes]
  | cons r rs ih =>
    intro opt s
    by_cases hr : r.isRootOpt = true
    · have hs : s = ⟨o + r.bytes.length + (RecordSyntax.allBytes rs).length,
          some (max r.rclass 512), r.ttl &&& 0x8000 != 0,
          (safe && r.isHarmless) && rs.isEmpty⟩ := by
        rw [← foldl_ednsStep_some]
        simp [s, ednsStep, hr]
      have hopt : opt = some r := by simp [opt, hr]
      rw [hs, hopt, RecordSyntax.allBytes_cons, List.length_append]
      refine ⟨by dsimp only; omega, rfl, rfl, ?_⟩
      simp only [Bool.and_eq_true, r.isHarmless_iff, List.isEmpty_iff, List.cons_ne_nil, false_or,
        List.cons.injEq]
      constructor
      · rintro ⟨⟨hsafe, hharmless⟩, hnil⟩
        exact ⟨hsafe, r, ⟨rfl, hnil⟩, hr, hharmless⟩
      · rintro ⟨hsafe, r', ⟨rfl, hnil⟩, -, hharmless⟩
        exact ⟨⟨hsafe, hharmless⟩, hnil⟩
    · have hstep : ednsStep ⟨o, none, false, safe⟩ r = ⟨o + r.bytes.length, none, false, false⟩ := by
        simp [ednsStep, hr]
      have hs : s = rs.foldl ednsStep ⟨o + r.bytes.length, none, false, false⟩ := by
        simp only [s, List.foldl_cons, hstep]
      have hopt : opt = rs.find? RecordSyntax.isRootOpt := by simp [opt, hr]
      obtain ⟨h₁, h₂, h₃, h₄⟩ := ih (o + r.bytes.length) false
      rw [hs, hopt, RecordSyntax.allBytes_cons, List.length_append]
      refine ⟨by rw [h₁]; omega, h₂, h₃, ?_⟩
      rw [h₄]
      simp only [Bool.false_eq_true, false_and, List.cons_ne_nil, false_or, List.cons.injEq,
        false_iff, not_and]
      rintro - ⟨r', ⟨rfl, -⟩, hr', -⟩
      exact hr hr'

/-! ## Queries -/

/-- A query: its header, of which the bits not named here are free, its question
    and its records. -/
structure QuerySyntax where
  id : UInt16
  flags : UInt16
  isQuery : flags &&& 0x8000 = 0
  isStandard : flags &&& 0x7800 = 0
  reserved : flags &&& 0x0040 = 0
  labels : List Label
  qtype : UInt16
  qclass : UInt16
  answers : List RecordSyntax
  authorities : List RecordSyntax
  additional : List RecordSyntax
  length_answers : answers.length < 65536
  length_authorities : authorities.length < 65536
  length_additional : additional.length < 65536

namespace QuerySyntax
variable (s : QuerySyntax)

/-- The header with its counts. -/
def headerBytes : List UInt8 :=
  u16ToBytes s.id ++ (u16ToBytes s.flags ++ (u16ToBytes 1 ++
    (u16ToBytes (.ofNat s.answers.length) ++ (u16ToBytes (.ofNat s.authorities.length) ++
      u16ToBytes (.ofNat s.additional.length)))))

/-- The question. -/
def questionBytes : List UInt8 :=
  wireName s.labels ++ (u16ToBytes s.qtype ++ u16ToBytes s.qclass)

/-- The bytes of a query. -/
def bytes : Packet :=
  s.headerBytes ++ (s.questionBytes ++ (RecordSyntax.allBytes s.answers ++
    (RecordSyntax.allBytes s.authorities ++ RecordSyntax.allBytes s.additional)))

/-- What `parse_query` returns for a query. -/
structure Parsed (q : ParsedQuery) : Prop where
  question : q.question = ⟨domainText s.labels, s.qtype, s.qclass,
    dnsHeaderLen + s.questionBytes.length⟩
  recursionDesired : q.recursionDesired = true ↔ s.flags &&& 0x0100 ≠ 0
  authenticData : q.authenticData = true ↔ s.flags &&& 0x0020 ≠ 0
  checkingDisabled : q.checkingDisabled = true ↔ s.flags &&& 0x0010 ≠ 0
  /-- The size is that of the first OPT record of the root, 512 at least. -/
  ednsUdpSize : q.ednsUdpSize =
    (s.additional.find? RecordSyntax.isRootOpt).map fun r => max r.rclass 512
  dnssecOk : q.dnssecOk = true ↔
    ∃ r, s.additional.find? RecordSyntax.isRootOpt = some r ∧ r.ttl &&& 0x8000 ≠ 0
  cacheSafe : q.cacheSafe = true ↔ s.answers = [] ∧ s.authorities = [] ∧
    (s.additional = [] ∨ ∃ r, s.additional = [r] ∧ r.isRootOpt = true ∧ r.Harmless)

theorem Parsed.unique {s : QuerySyntax} {q q' : ParsedQuery} (h : s.Parsed q) (h' : s.Parsed q') :
    q = q' := by
  obtain ⟨question, rd, ad, cd, dnssecOk, size, safe⟩ := q
  obtain ⟨question', rd', ad', cd', dnssecOk', size', safe'⟩ := q'
  have hq := h.question.trans h'.question.symm
  have hrd := Bool.eq_iff_iff.2 (h.recursionDesired.trans h'.recursionDesired.symm)
  have had := Bool.eq_iff_iff.2 (h.authenticData.trans h'.authenticData.symm)
  have hcd := Bool.eq_iff_iff.2 (h.checkingDisabled.trans h'.checkingDisabled.symm)
  have hsize := h.ednsUdpSize.trans h'.ednsUdpSize.symm
  have hdo := Bool.eq_iff_iff.2 (h.dnssecOk.trans h'.dnssecOk.symm)
  have hsafe := Bool.eq_iff_iff.2 (h.cacheSafe.trans h'.cacheSafe.symm)
  dsimp only at hq hrd had hcd hsize hdo hsafe
  rw [hq, hrd, had, hcd, hsize, hdo, hsafe]

theorem length_headerBytes : s.headerBytes.length = 12 := rfl

theorem length_questionBytes : s.questionBytes.length = (wireName s.labels).length + 4 := by
  simp only [questionBytes, List.length_append, length_u16ToBytes]

end QuerySyntax

theorem bne_zero_iff {w : UInt16} : (w != 0) = true ↔ w ≠ 0 := bne_iff_ne

theorem length_allBytes_ge (rs : List RecordSyntax) :
    11 * rs.length ≤ (RecordSyntax.allBytes rs).length := by
  induction rs with
  | nil => simp [RecordSyntax.allBytes]
  | cons r rs ih =>
    have := r.length_bytes
    have := List.length_pos_iff.2 r.isName.ne_nil
    rw [RecordSyntax.allBytes_cons, List.length_append, List.length_cons]
    omega

theorem toNat_ofNat_length {α : Type} {l : List α} (h : l.length < 65536) :
    (UInt16.ofNat l.length).toNat = l.length := by
  rw [UInt16.toNat_ofNat']
  exact Nat.mod_eq_of_lt h

theorem parseQuery_eq_ok {p : Packet} {q : ParsedQuery} : parseQuery p = .ok q ↔
    ∃ flags question an ns ar o s, readU16 p 2 = some flags ∧ flags &&& 0x8000 = 0 ∧
      flags &&& 0x7800 = 0 ∧ flags &&& 0x0040 = 0 ∧ parseQuestion p = .ok question ∧
      readU16 p 6 = some an ∧ readU16 p 8 = some ns ∧ readU16 p 10 = some ar ∧
      skipRecords p (saturatingAdd an.toNat ns.toNat) question.questionEnd = some o ∧
      repeatN (additionalBody p) ar.toNat ⟨o, none, false, an.toNat = 0 ∧ ns.toNat = 0⟩ =
        some s ∧ s.offset = p.length ∧
      q = ⟨question, flags &&& 0x0100 != 0, flags &&& 0x0020 != 0, flags &&& 0x0010 != 0,
        s.dnssecOk, s.ednsUdpSize, s.cacheSafe⟩ := by
  unfold parseQuery
  constructor
  · intro h
    split_ifs at h with hlen
    split at h
    · cases h
    rename_i flags hflags
    split_ifs at h with hqr hop hz
    split at h
    · cases h
    rename_i question hquestion
    simp only [dnsHeaderLen, Nat.not_lt] at hlen
    obtain ⟨an, han⟩ := Option.isSome_iff_exists.1 (isSome_readU16.2 (by omega) :
      (readU16 p 6).isSome)
    obtain ⟨ns, hns⟩ := Option.isSome_iff_exists.1 (isSome_readU16.2 (by omega) :
      (readU16 p 8).isSome)
    obtain ⟨ar, har⟩ := Option.isSome_iff_exists.1 (isSome_readU16.2 (by omega) :
      (readU16 p 10).isSome)
    simp only [han, hns, har, Option.getD_some] at h
    split at h
    · cases h
    rename_i o ho
    split at h
    · cases h
    rename_i s hs
    split_ifs at h with hend
    cases h
    exact ⟨flags, question, an, ns, ar, o, s, hflags, not_not.1 hqr, not_not.1 hop, not_not.1 hz,
      hquestion, han, hns, har, ho, hs, not_not.1 hend, rfl⟩
  · rintro ⟨flags, question, an, ns, ar, o, s, hflags, hqr, hop, hz, hquestion, han, hns, har, ho,
      hs, hend, rfl⟩
    have hlen : ¬ p.length < dnsHeaderLen := by
      have := isSome_readU16.1 (Option.isSome_iff_exists.2 ⟨_, har⟩)
      simp only [dnsHeaderLen]; omega
    rw [if_neg hlen]
    simp only [hflags, hqr, hop, hz, hquestion, han, hns, har, Option.getD_some, ho, hs, hend,
      ne_eq, not_true_eq_false, if_false]

theorem QuerySyntax.parseQuery_bytes (s : QuerySyntax) (hlen : s.bytes.length ≤ maxDnsPacketSize) :
    ∃ q, parseQuery s.bytes = .ok q ∧ s.Parsed q := by
  have han := toNat_ofNat_length s.length_answers
  have hns := toNat_ofNat_length s.length_authorities
  have har := toNat_ofNat_length s.length_additional
  have hbytes : s.bytes.length = 12 + s.questionBytes.length +
      (RecordSyntax.allBytes s.answers).length + (RecordSyntax.allBytes s.authorities).length +
      (RecordSyntax.allBytes s.additional).length := by
    simp only [bytes, List.length_append, s.length_headerBytes]; omega
  have hge := length_allBytes_ge (s.answers ++ s.authorities)
  rw [RecordSyntax.allBytes_append, List.length_append, List.length_append] at hge
  simp only [maxDnsPacketSize] at hlen
  -- where the parts of the query stand
  obtain ⟨p, hp⟩ : ∃ p, s.bytes = p := ⟨_, rfl⟩
  have hall : s.bytes <+: p.drop 0 := hp ▸ List.prefix_refl _
  rw [bytes, append_prefix_iff, append_prefix_iff, ← List.append_assoc, append_prefix_iff,
    ← RecordSyntax.allBytes_append, s.length_headerBytes, Nat.zero_add] at hall
  obtain ⟨hhead, hquestion, hrecords, hadditional⟩ := hall
  simp only [headerBytes, append_prefix_iff, length_u16ToBytes, ← readU16_eq_some_iff] at hhead
  obtain ⟨-, hflags, hcount, hanswers, hauthorities, hadds⟩ := hhead
  simp only [questionBytes, append_prefix_iff, length_u16ToBytes, ← readU16_eq_some_iff]
    at hquestion
  obtain ⟨hname, hqtype, hqclass⟩ := hquestion
  have hquestion := s.length_questionBytes
  have hparse : parseQuestion p = .ok ⟨domainText s.labels, s.qtype, s.qclass,
      dnsHeaderLen + s.questionBytes.length⟩ := by
    refine parseQuestion_eq_ok.2 ⟨by rw [← hp, hbytes, dnsHeaderLen]; omega, hcount, s.labels,
      hname, rfl, ?_, hqtype, hqclass⟩
    dsimp only
    omega
  have hskip := skipRecords_eq_some.2 ⟨_, RecordSyntax.length_headers _ _,
    records_iff.2 ⟨s.answers ++ s.authorities, hrecords, rfl, rfl⟩⟩
  have hallbytes : (RecordSyntax.allBytes (s.answers ++ s.authorities)).length =
      (RecordSyntax.allBytes s.answers).length + (RecordSyntax.allBytes s.authorities).length := by
    rw [RecordSyntax.allBytes_append, List.length_append]
  obtain ⟨s', hs'⟩ : ∃ s', s.additional.foldl ednsStep
      ⟨12 + s.questionBytes.length + (RecordSyntax.allBytes (s.answers ++ s.authorities)).length,
        none, false, decide (s.answers.length = 0 ∧ s.authorities.length = 0)⟩ = s' := ⟨_, rfl⟩
  obtain ⟨h₁, h₂, h₃, h₄⟩ := foldl_ednsStep s.additional
    (12 + s.questionBytes.length + (RecordSyntax.allBytes (s.answers ++ s.authorities)).length)
    (decide (s.answers.length = 0 ∧ s.authorities.length = 0))
  rw [hs'] at h₁ h₂ h₃ h₄
  have hloop := repeatN_additionalBody_eq_some.2 ⟨s.additional, rfl, hadditional, hs'.symm⟩
  rw [List.length_append, ← Nat.min_eq_left (by omega : s.answers.length + s.authorities.length ≤
    65535), ← saturatingAdd, ← han, ← hns] at hskip
  rw [← har, ← han, ← hns] at hloop
  have hend : s'.offset = p.length := by
    rw [h₁, ← hp, hbytes, hallbytes]
    omega
  rw [hp]
  refine ⟨_, parseQuery_eq_ok.2 ⟨s.flags, _, _, _, _, _, s', hflags, s.isQuery, s.isStandard,
    s.reserved, hparse, hanswers, hauthorities, hadds, hskip, hloop, hend, rfl⟩, ?_⟩
  · refine ⟨rfl, bne_zero_iff, bne_zero_iff, bne_zero_iff, h₂, ?_, ?_⟩
    · dsimp only
      rw [h₃, Option.any_eq_true]
      exact exists_congr fun r => and_congr_right fun _ => bne_iff_ne
    · dsimp only
      rw [h₄, decide_eq_true_iff, List.length_eq_zero_iff, List.length_eq_zero_iff, and_assoc]

theorem exists_querySyntax {p : Packet} {q : ParsedQuery} (hlen : p.length ≤ maxDnsPacketSize)
    (h : parseQuery p = .ok q) : ∃ s : QuerySyntax, s.bytes = p := by
  obtain ⟨flags, question, an, ns, ar, o, s', hflags, hqr, hop, hz, hparse, han, hns, har, hskip,
    hloop, hend, -⟩ := parseQuery_eq_ok.1 h
  obtain ⟨h12, hcount, ls, hname, -, hqend, hqtype, hqclass⟩ := parseQuestion_eq_ok.1 hparse
  obtain ⟨hs, hn, hw⟩ := skipRecords_eq_some.1 hskip
  obtain ⟨rs, hrs, rfl, rfl⟩ := records_iff.1 hw
  obtain ⟨adds, hadds, hbegin, rfl⟩ := repeatN_additionalBody_eq_some.1 hloop
  obtain ⟨id, hid⟩ := Option.isSome_iff_exists.1
    (isSome_readU16.2 (by simp only [dnsHeaderLen] at h12; omega) : (readU16 p 0).isSome)
  rw [RecordSyntax.length_headers] at hn
  have hoffset := (foldl_ednsStep adds (question.questionEnd + (RecordSyntax.allBytes rs).length)
    (decide (an.toNat = 0 ∧ ns.toNat = 0))).1
  dsimp only at hoffset hbegin
  rw [hend] at hoffset
  have hge := length_allBytes_ge rs
  simp only [maxDnsPacketSize] at hlen
  simp only [saturatingAdd] at hn
  have hlt := an.toNat_lt
  have hlt' := ns.toNat_lt
  have hlt'' := ar.toNat_lt
  have hlen_answers : (rs.take an.toNat).length = an.toNat := by rw [List.length_take]; omega
  have hlen_authorities : (rs.drop an.toNat).length = ns.toNat := by rw [List.length_drop]; omega
  let s : QuerySyntax :=
    ⟨id, flags, hqr, hop, hz, ls, question.qtype, question.qclass, rs.take an.toNat,
      rs.drop an.toNat, adds, by omega, by omega, by omega⟩
  have hquestion : s.questionBytes.length = (wireName ls).length + 4 := s.length_questionBytes
  have hallbytes : RecordSyntax.allBytes s.answers ++ (RecordSyntax.allBytes s.authorities ++
      RecordSyntax.allBytes s.additional) =
      RecordSyntax.allBytes rs ++ RecordSyntax.allBytes adds := by
    rw [← List.append_assoc, ← RecordSyntax.allBytes_append]
    exact congrArg (RecordSyntax.allBytes · ++ _) (List.take_append_drop _ _)
  refine ⟨s, eq_of_prefix_of_length ?_ ?_⟩
  · rw [QuerySyntax.bytes, hallbytes, append_prefix_iff, append_prefix_iff, append_prefix_iff,
      s.length_headerBytes, hquestion]
    refine ⟨?_, ?_, ?_, ?_⟩
    · simp only [QuerySyntax.headerBytes, append_prefix_iff, length_u16ToBytes,
        ← readU16_eq_some_iff, s, hlen_answers, hlen_authorities, hadds, UInt16.ofNat_toNat]
      exact ⟨hid, hflags, hcount, han, hns, har⟩
    · simp only [QuerySyntax.questionBytes, append_prefix_iff, length_u16ToBytes,
        ← readU16_eq_some_iff]
      exact ⟨hname, hqtype, hqclass⟩
    · rwa [hqend, Nat.add_assoc, dnsHeaderLen, ← Nat.zero_add 12] at hrs
    · rwa [hqend, show dnsHeaderLen + (wireName ls).length + 4 =
        0 + 12 + ((wireName ls).length + 4) by simp only [dnsHeaderLen]; omega] at hbegin
  · rw [QuerySyntax.bytes, hallbytes]
    simp only [List.length_append, s.length_headerBytes, hquestion]
    simp only [dnsHeaderLen] at hqend
    omega

/-- **The grammar of queries**: of the packets of at most 65535 bytes,
    `parse_query` accepts exactly the bytes of queries, and it returns what they
    say. -/
theorem parseQuery_eq_ok_iff {p : Packet} (hlen : p.length ≤ maxDnsPacketSize) (q : ParsedQuery) :
    parseQuery p = .ok q ↔ ∃ s : QuerySyntax, s.bytes = p ∧ s.Parsed q := by
  constructor
  · intro h
    obtain ⟨s, rfl⟩ := exists_querySyntax hlen h
    obtain ⟨q', hq', hparsed⟩ := s.parseQuery_bytes hlen
    cases h.symm.trans hq'
    exact ⟨s, rfl, hparsed⟩
  · rintro ⟨s, rfl, hparsed⟩
    obtain ⟨q', hq', hparsed'⟩ := s.parseQuery_bytes hlen
    rw [hq', hparsed.unique hparsed']

/-- The equivalence at `optQuery`. -/
theorem optQuery_eq_ok_iff :
    parseQuery optQuery = .ok ⟨⟨['a'], 1, 1, 19⟩, true, false, false, true, some 4096, true⟩ ↔
      ∃ s : QuerySyntax, s.bytes = optQuery ∧
        s.Parsed ⟨⟨['a'], 1, 1, 19⟩, true, false, false, true, some 4096, true⟩ :=
  parseQuery_eq_ok_iff (by decide) _

example :
    parseQuery optQuery = .ok ⟨⟨['a'], 1, 1, 19⟩, true, false, false, true, some 4096, true⟩ := by
  decide

end DnsBlackhole.Protocol
