/-
  Cached answers stay well formed.

  `Walks p qe an ns ar rs e`: in the packet `p` the name of the question ends at
  `qe`, the three counts are `an`, `ns` and `ar`, and as many records `rs` as
  they say follow the question, up to `e`.

  A response is admitted to the cache if it can be walked; the walk then is
  followed through the steps that make an answer of it (`stripOpt`,
  `prepareResponseForQuery`, `rewriteResponseTtls`, `appendEmptyOpt`).  None of
  them looks at bytes behind the walk, which therefore end up between the
  records and the OPT record of the answer: the answer is well formed exactly
  when there are none (`cachedAnswer_wellFormed_iff`).
-/
import DnsBlackhole.Protocol.Frame

namespace DnsBlackhole.Protocol
open Lib

/-- The walk over the question and the records of a packet. -/
structure Walks (p : Packet) (qe : ℕ) (an ns ar : UInt16) (rs : List DnsRecordHeader) (e : ℕ) :
    Prop where
  name : skipDnsName p dnsHeaderLen = some qe
  question : readU16 p 4 = some 1
  question_le : qe + 4 ≤ p.length
  answer : readU16 p 6 = some an
  authority : readU16 p 8 = some ns
  additional : readU16 p 10 = some ar
  length : rs.length = an.toNat + ns.toNat + ar.toNat
  records : Records p (qe + 4) rs e

namespace Walks
variable {p : Packet} {qe e : ℕ} {an ns ar : UInt16} {rs : List DnsRecordHeader}

theorem le_length (h : Walks p qe an ns ar rs e) : e ≤ p.length := by
  cases hrs : rs with
  | nil => have := h.records; rw [hrs] at this; cases this; exact h.question_le
  | cons r rs => exact (Records.bounds h.records).2 (by simp [hrs])

theorem header_le (h : Walks p qe an ns ar rs e) : dnsHeaderLen < qe :=
  (skipDnsName_eq_some h.name).1

theorem unique {qe' e' : ℕ} {an' ns' ar' : UInt16} {rs' : List DnsRecordHeader}
    (h : Walks p qe an ns ar rs e) (h' : Walks p qe' an' ns' ar' rs' e') :
    qe = qe' ∧ an = an' ∧ ns = ns' ∧ ar = ar' ∧ rs = rs' ∧ e = e' := by
  cases h.name.symm.trans h'.name
  cases h.answer.symm.trans h'.answer
  cases h.authority.symm.trans h'.authority
  cases h.additional.symm.trans h'.additional
  obtain ⟨rfl, rfl⟩ := h.records.unique h'.records (h.length.trans h'.length.symm)
  exact ⟨rfl, rfl, rfl, rfl, rfl, rfl⟩

theorem questionEnd_eq (h : Walks p qe an ns ar rs e) {q : Question}
    (hq : parseQuestion p = .ok q) : q.questionEnd = qe + 4 := by
  obtain ⟨qe', hname, hend, -⟩ := exists_name_of_parseQuestion hq
  cases hname.symm.trans h.name
  exact hend

/-- A packet with the same header, but for the number of additional records,
    and with other records. -/
theorem of_agree (h : Walks p qe an ns ar rs e) {q : Packet} {m : ℕ} {ar' : UInt16}
    {rs' : List DnsRecordHeader} (hname : skipDnsName q dnsHeaderLen = some qe)
    (hhead : Agree 4 10 p q) (hadd : readU16 q 10 = some ar')
    (hlen : rs'.length = an.toNat + ns.toNat + ar'.toNat) (hle : qe + 4 ≤ q.length)
    (hrec : Records q (qe + 4) rs' m) : Walks q qe an ns ar' rs' m where
  name := hname
  question := by rw [← hhead.readU16 (by omega) (by omega)]; exact h.question
  question_le := hle
  answer := by rw [← hhead.readU16 (by omega) (by omega)]; exact h.answer
  authority := by rw [← hhead.readU16 (by omega) (by omega)]; exact h.authority
  additional := hadd
  length := hlen
  records := hrec

end Walks

/-- The walk over `p` takes in all of its bytes. -/
def WalkEndsAtLastByte (p : Packet) : Prop := ∃ qe an ns ar rs, Walks p qe an ns ar rs p.length

/-- The record `r`, read from `p` at `o`, is an empty OPT record owned by the
    root. -/
structure IsEmptyOpt (p : Packet) (o : ℕ) (r : DnsRecordHeader) (udpSize : UInt16)
    (dnssecOk : Bool) : Prop where
  read : readDnsRecord p o = some r
  owner : p[o]? = some 0
  recordType : r.recordType = typeOpt
  recordClass : r.recordClass = udpSize
  ttl : r.ttl = if dnssecOk then 0x8000 else 0
  dataLen : r.dataLen = 0

/-- The answer `p` to `query` is well formed: the walk ends at its last byte,
    and if the query had an OPT record, the last record is an empty one with its
    size and its DO bit, and the only one in the additional section. -/
def CachedAnswerWellFormed (query p : Packet) : Prop :=
  ∃ qe an ns ar rs, Walks p qe an ns ar rs p.length ∧
    ∀ q udpSize, parseQuery query = .ok q → q.ednsUdpSize = some udpSize →
      ∃ rs' o opt, rs = rs' ++ [opt] ∧ Records p (qe + 4) rs' o ∧
        IsEmptyOpt p o opt udpSize q.dnssecOk ∧ ar ≠ 0 ∧
        ∀ r ∈ rs'.drop (an.toNat + ns.toNat), r.recordType ≠ typeOpt

/-! ## Admission -/

theorem exists_walks_of_responseCacheTtl {p : Packet} {ttl : UInt32}
    (h : responseCacheTtl p = some ttl) : ∃ qe an ns ar rs e, Walks p qe an ns ar rs e := by
  unfold responseCacheTtl at h
  split_ifs at h with h₀
  simp only [Option.bind_eq_bind, Option.bind_eq_some_iff] at h
  obtain ⟨count, hcount, h⟩ := h
  split_ifs at h with h₁
  rw [not_not] at h₁
  subst h₁
  simp only [Option.bind_eq_some_iff] at h
  obtain ⟨an, han, ns, hns, ar, har, qe, hqe, qtype, -, h⟩ := h
  split_ifs at h with h₂
  simp only [Option.bind_eq_some_iff] at h
  obtain ⟨⟨o₁, s₁⟩, hr₁, ⟨o₂, s₂⟩, hr₂, ⟨o₃, s₃⟩, hr₃, -⟩ := h
  obtain ⟨rs₁, hn₁, hw₁, -⟩ := collectRecords_eq_some.1 hr₁
  obtain ⟨rs₂, hn₂, hw₂, -⟩ := collectRecords_eq_some.1 hr₂
  obtain ⟨rs₃, hn₃, hw₃, -⟩ := collectRecords_eq_some.1 hr₃
  obtain ⟨qe', hqe', hz⟩ := repeatN_succ_eq_some.1 hqe
  obtain ⟨qe'', hname, hle⟩ := Option.bind_eq_some_iff.1 hqe'
  split_ifs at hle
  cases hle
  cases hz
  refine ⟨qe, an, ns, ar, rs₁ ++ rs₂ ++ rs₃, o₃, hname, hcount, by omega, han, hns, har, ?_, ?_⟩
  · rw [List.length_append, List.length_append, hn₁, hn₂, hn₃]
  · exact walk_append.2 ⟨o₂, walk_append.2 ⟨o₁, hw₁, hw₂⟩, hw₃⟩

/-! ## Storing -/

/-- `stripOpt` returns the response, if no record of the section is an OPT
    record, or cuts off the first one, behind which there is nothing. -/
theorem stripOpt_eq_some {p n : Packet} {ar : UInt16} {k o : ℕ}
    (h : stripOpt p ar k o = some n) : ∃ xs m, Records p o xs m ∧
      (∀ x ∈ xs, x.recordType ≠ typeOpt) ∧ ((xs.length = k ∧ n = p) ∨
        (xs.length < k ∧ (∃ x, readDnsRecord p m = some x ∧ x.recordType = typeOpt ∧
            x.nextOffset = p.length) ∧
          n = (copyAt p 10 (u16ToBytes (ar - 1))).take m)) := by
  induction k generalizing o with
  | zero => cases h; exact ⟨[], o, rfl, by simp, .inl ⟨rfl, rfl⟩⟩
  | succ k ih =>
    unfold stripOpt at h
    split at h
    · cases h
    · rename_i x hx
      split_ifs at h with hopt hend
      · cases h
        exact ⟨[], o, rfl, by simp, .inr ⟨by simp, ⟨x, hx, hopt, not_not.1 hend⟩, rfl⟩⟩
      · obtain ⟨xs, m, hw, hno, hcase⟩ := ih h
        refine ⟨x :: xs, m, ⟨hx, hw⟩, ?_, ?_⟩
        · exact List.forall_mem_cons.2 ⟨hopt, hno⟩
        · rcases hcase with ⟨hl, rfl⟩ | ⟨hl, hx', rfl⟩
          · exact .inl ⟨by rw [List.length_cons, hl], rfl⟩
          · exact .inr ⟨by rw [List.length_cons]; omega, hx', rfl⟩

theorem Walks.strip {p : Packet} {qe : ℕ} {an ns ar : UInt16} {rs : List DnsRecordHeader}
    {x : DnsRecordHeader} {m : ℕ} (h : Walks p qe an ns ar (rs ++ [x]) p.length)
    (har : ar ≠ 0) (hrs : Records p (qe + 4) rs m) :
    let n := (copyAt p 10 (u16ToBytes (ar - 1))).take m
    Walks n qe an ns (ar - 1) rs m ∧ n.length = m := by
  intro n
  have hm := (Records.bounds hrs).1
  have hhead := h.header_le
  simp only [dnsHeaderLen] at hhead
  have hmp : m ≤ p.length := by
    obtain ⟨m', hm', hx⟩ := walk_append.1 h.records
    obtain ⟨-, rfl⟩ := hrs.unique hm' rfl
    have := (Records.bounds hx).1
    omega
  have hcopy : 10 + (u16ToBytes (ar - 1)).length ≤ p.length := by rw [length_u16ToBytes]; omega
  have hn : n.length = m := by rw [List.length_take, length_copyAt hcopy]; omega
  -- the bytes before the record, but for the count, are those of the response
  have hagree : ∀ a b, b ≤ m → (b ≤ 10 ∨ 12 ≤ a) → Agree a b p n := by
    intro a b hb hout i ha hi
    rw [List.getElem?_take_of_lt (by omega), getElem?_copyAt hcopy, if_neg]
    rw [length_u16ToBytes]; omega
  refine ⟨h.of_agree ?_ (hagree 4 10 (by omega) (.inl (Nat.le_refl _))) ?_ ?_ (by omega)
    (Records.agree hrs (hagree _ _ (Nat.le_refl _) (.inr (by omega))) (Nat.le_of_eq hn.symm)), hn⟩
  · exact (skipDnsName_eq_some h.name).2.2 _ (hagree _ _ (by omega) (.inr (Nat.le_refl _)))
  · have : Agree 10 12 (copyAt p 10 (u16ToBytes (ar - 1))) n := fun i _ hi =>
      (List.getElem?_take_of_lt (by omega)).symm
    rw [← this.readU16 (by omega) (by omega)]
    exact readU16_copyAt _ (by omega)
  · have hpos : 0 < ar.toNat := Nat.pos_iff_ne_zero.2 fun h => har (UInt16.toNat_inj.1 h)
    have hlen := h.length
    rw [List.length_append, List.length_singleton] at hlen
    have hsub : (ar - 1).toNat = ar.toNat - 1 :=
      UInt16.toNat_sub_of_le _ _ (UInt16.le_iff_toNat_le.2 hpos)
    omega

/-- What is stored of a packet with a walk: the packet itself, or what stands
    before the OPT record at its end, with one additional record less. -/
inductive Stored (p n : Packet) (ar : UInt16) (rs : List DnsRecordHeader) (e : ℕ) :
    UInt16 → List DnsRecordHeader → ℕ → Prop
  | whole (h : n = p) : Stored p n ar rs e ar rs e
  | stripped (x : DnsRecordHeader) (rs' : List DnsRecordHeader) (hrs : rs = rs' ++ [x])
    (har : ar ≠ 0) (hread : readDnsRecord p n.length = some x) (hopt : x.recordType = typeOpt)
    (hend : x.nextOffset = p.length) (he : e = p.length)
    (hn : n = (copyAt p 10 (u16ToBytes (ar - 1))).take n.length) :
    Stored p n ar rs e (ar - 1) rs' n.length

/-- **Storing a response keeps its walk**, up to the OPT record at its end.  No
    OPT record is left in the additional section of a packet of ordinary size. -/
theorem Walks.stored {p n : Packet} {qe e : ℕ} {an ns ar : UInt16}
    {rs : List DnsRecordHeader} (h : Walks p qe an ns ar rs e)
    (hn : normalizeCachedResponse p = some n) : ∃ ar' rs' e', Walks n qe an ns ar' rs' e' ∧
      Stored p n ar rs e ar' rs' e' ∧ (n.length ≤ maxDnsPacketSize →
        ∀ r ∈ rs'.drop (an.toNat + ns.toNat), r.recordType ≠ typeOpt) := by
  unfold normalizeCachedResponse at hn
  split at hn
  · cases hn
  rename_i q hq
  rw [h.questionEnd_eq hq, h.answer, h.authority, h.additional] at hn
  dsimp only at hn
  have hlen := h.length
  have hbounds := (Records.bounds h.records).1
  have hlast := h.le_length
  split_ifs at hn with har
  · cases hn
    subst har
    refine ⟨0, rs, e, h, .whole rfl, fun _ r hr => ?_⟩
    rw [List.drop_eq_nil_of_le (by rw [hlen]; simp)] at hr
    cases hr
  obtain ⟨o, ho, hs⟩ := Option.bind_eq_some_iff.1 hn
  obtain ⟨ws, hws, hwalk⟩ := skipRecords_eq_some.1 ho
  obtain ⟨xs, m, hxs, hno, hcase⟩ := stripOpt_eq_some hs
  have hwx := walk_append.2 ⟨o, hwalk, hxs⟩
  simp only [saturatingAdd] at hws
  rcases hcase with ⟨hk, rfl⟩ | ⟨hk, ⟨x, hx, hopt, hend⟩, hcut⟩
  · -- nothing is cut off: the section has been looked through
    refine ⟨ar, rs, e, h, .whole rfl, fun hsize r hr => hno r ?_⟩
    obtain ⟨zs, rfl, -⟩ := hwx.append_of_le h.records (by rw [List.length_append]; omega)
    simp only [maxDnsPacketSize] at hsize
    simp only [List.length_append] at hlen hbounds
    have hz : zs = [] := List.length_eq_zero_iff.1 (by omega)
    rwa [hz, List.append_nil, show an.toNat + ns.toNat = ws.length by omega,
      List.drop_left' rfl] at hr
  · -- the OPT record is the last record of the walk
    have hxw : Records p m [x] p.length := ⟨hx, hend⟩
    have hall : Records p (qe + 4) (ws ++ xs ++ [x]) p.length := walk_append.2 ⟨m, hwx, hxw⟩
    obtain ⟨zs, hzs, hz⟩ := hall.append_of_le h.records
      (by simp only [List.length_append, List.length_singleton]; omega)
    have hz0 : zs = [] := by
      have := (Records.bounds hz).1
      exact List.length_eq_zero_iff.1 (by omega)
    subst hz0
    cases hz
    rw [List.append_nil] at hzs
    subst hzs
    obtain ⟨hw, hnlen⟩ := h.strip har hwx
    rw [← hcut] at hw hnlen
    subst hnlen
    refine ⟨ar - 1, ws ++ xs, n.length, hw, .stripped x _ rfl har hx hopt hend rfl hcut,
      fun _ r hr => hno r ?_⟩
    simp only [List.length_append, List.length_singleton] at hlen
    rwa [show an.toNat + ns.toNat = ws.length by omega, List.drop_left' rfl] at hr

theorem Walks.normalize {p n : Packet} {qe e : ℕ} {an ns ar : UInt16}
    {rs : List DnsRecordHeader} (h : Walks p qe an ns ar rs e)
    (hn : normalizeCachedResponse p = some n) : ∃ ar' rs' e', Walks n qe an ns ar' rs' e' ∧
      (e' = n.length ↔ e = p.length) ∧ (n.length ≤ maxDnsPacketSize →
        ∀ r ∈ rs'.drop (an.toNat + ns.toNat), r.recordType ≠ typeOpt) := by
  obtain ⟨ar', rs', e', hw, hstored, hno⟩ := h.stored hn
  refine ⟨ar', rs', e', hw, ?_, hno⟩
  cases hstored with
  | whole h => rw [h]
  | stripped _ _ _ _ _ _ _ he => simp [he]

/-! ## Handing out -/

/-- **The identifier and the question of the query** take the place of those of
    the response, which has the same length. -/
theorem Walks.prepare {n query p : Packet} {qe e : ℕ} {an ns ar : UInt16}
    {rs : List DnsRecordHeader} (h : Walks n qe an ns ar rs e)
    (hp : prepareResponseForQuery n query = some p) :
    Walks p qe an ns ar rs e ∧ p.length = n.length := by
  obtain ⟨_, q, hrq, hq, rfl, hplen, -, hhead, hquery, hbody⟩ := prepareResponseForQuery_eq_some hp
  rw [h.questionEnd_eq hrq] at hquery hbody
  have hle := h.question_le
  refine ⟨h.of_agree ?_ (hhead.mono (by omega) (by omega)) ?_ h.length (by omega)
    (Records.agree h.records (hbody.mono (Nat.le_refl _) h.le_length)
      (by rw [hplen]; exact h.le_length)), hplen⟩
  · obtain ⟨qe', hname, hend, -⟩ := exists_name_of_parseQuestion hq
    obtain rfl : qe' = qe := by have := h.questionEnd_eq hrq; omega
    exact (skipDnsName_eq_some hname).2.2 _ (hquery.mono (Nat.le_refl _) (by omega))
  · rw [← hhead.readU16 (by omega) (Nat.le_refl _)]
    exact h.additional

/-- **Rewriting the times to live keeps the walk**, but for the times to live. -/
theorem Walks.rewriteTtls {p p' : Packet} {qe e : ℕ} {an ns ar : UInt16} {ttl : UInt32}
    {rs : List DnsRecordHeader} (h : Walks p qe an ns ar rs e)
    (hp : rewriteResponseTtls p ttl = some p') : p'.length = p.length ∧ ∃ rs',
      Walks p' qe an ns ar rs' e ∧
      rs'.map DnsRecordHeader.recordType = rs.map DnsRecordHeader.recordType := by
  obtain ⟨qe', rs₁, m, hname, hn, hw₁, hlen, hw', hframe⟩ :=
    rewriteResponseTtls_eq_some h.question h.answer h.authority h.additional hp
  cases h.name.symm.trans hname
  have hcount := h.length
  obtain ⟨zs, rfl, hz⟩ := hw₁.append_of_le h.records
    (by rw [hn]; simp only [saturatingAdd]; omega)
  have hhead := h.header_le
  simp only [dnsHeaderLen] at hhead
  have hstart := Records.lt_ttl hw₁
  have hend := Records.dataOffset_le hw₁
  -- before the records and behind those rewritten the packets are the same
  have hbefore : Agree 0 (qe + 4) p p' := fun i _ hi => hframe i fun r hr ht => by
    have := hstart r hr
    have := ht.2.1
    omega
  have hafter : Agree m e p p' := fun i hi _ => hframe i fun r hr ht => by
    have := hend r hr
    have := ht.2.2
    omega
  refine ⟨hlen, rs₁.map (DnsRecordHeader.withTtl ttl) ++ zs, ⟨?_, ?_, ?_, ?_, ?_, ?_, ?_, ?_⟩, ?_⟩
  · exact (skipDnsName_eq_some h.name).2.2 _ (hbefore.mono (Nat.zero_le _) (by omega))
  · rw [← hbefore.readU16 (Nat.zero_le _) (by omega)]; exact h.question
  · rw [hlen]; exact h.question_le
  · rw [← hbefore.readU16 (Nat.zero_le _) (by omega)]; exact h.answer
  · rw [← hbefore.readU16 (Nat.zero_le _) (by omega)]; exact h.authority
  · rw [← hbefore.readU16 (Nat.zero_le _) (by omega)]; exact h.additional
  · rw [List.length_append, List.length_map, ← List.length_append]; exact h.length
  · exact walk_append.2 ⟨m, hw', Records.agree hz hafter (by rw [hlen]; exact h.le_length)⟩
  · simp

theorem appendEmptyOpt_eq_some {p p' : Packet} {udpSize : UInt16} {dnssecOk : Bool} :
    appendEmptyOpt p udpSize dnssecOk = some p' ↔ p.length + 11 ≤ maxDnsPacketSize ∧
      ∃ ar, readU16 p 10 = some ar ∧ ar.toNat + 1 ≤ 65535 ∧
        p' = copyAt p 10 (u16ToBytes (ar + 1)) ++ emptyOpt udpSize dnssecOk := by
  unfold appendEmptyOpt
  rw [← Nat.not_lt]
  split_ifs with h
  · simp [h]
  · cases readU16 p 10 with
    | none => simp
    | some ar =>
      simp only [h, not_false_eq_true, true_and, Option.some.injEq, exists_eq_left',
        Option.bind_some, ← Nat.not_lt]
      split_ifs with h₁
      · simp [h₁]
      · simp [h₁, eq_comm]

@[simp] theorem length_emptyOpt (udpSize : UInt16) (dnssecOk : Bool) :
    (emptyOpt udpSize dnssecOk).length = 11 := rfl

theorem readDnsRecord_append_emptyOpt (p : Packet) (udpSize : UInt16) (dnssecOk : Bool) :
    let ttl := if dnssecOk then 0x8000 else 0
    readDnsRecord (p ++ emptyOpt udpSize dnssecOk) p.length =
      some ⟨typeOpt, udpSize, ttl, p.length + 11, 0, p.length + 11⟩ := by
  intro ttl
  have hget : ∀ i, (p ++ emptyOpt udpSize dnssecOk)[p.length + i]? =
      (emptyOpt udpSize dnssecOk)[i]? := fun i => by
    rw [List.getElem?_append_right (by omega), Nat.add_sub_cancel_left]
  have hroot : (p ++ emptyOpt udpSize dnssecOk)[p.length]? = some 0 := hget 0
  refine readDnsRecord_eq_some.2 ⟨p.length + 1, 0, ?_, ?_, ?_, ?_, ?_, rfl, rfl, rfl, ?_⟩
  · exact (skipLoop _).run_inr (skipBody_eq_inr_some.2 (.inl ⟨hroot, rfl⟩))
  · exact readU16_eq_some.2 ⟨_, _, hget 1, hget 2, u16OfBytes_toBytes typeOpt⟩
  · exact readU16_eq_some.2 ⟨_, _, hget 3, hget 4, u16OfBytes_toBytes udpSize⟩
  · rw [readU32, show p.length + 1 + 4 = p.length + 5 by omega, hget 5,
      show p.length + 5 + 1 = p.length + 6 by omega, hget 6,
      show p.length + 5 + 2 = p.length + 7 by omega, hget 7,
      show p.length + 5 + 3 = p.length + 8 by omega, hget 8]
    exact congrArg some (u32OfBytes_toBytes ttl)
  · exact readU16_eq_some.2 ⟨_, _, hget 9, hget 10, u16OfBytes_toBytes 0⟩
  · simp

/-- **Appending an OPT record** to a packet with a walk. -/
theorem Walks.appendEmptyOpt {p p' : Packet} {qe e : ℕ} {an ns ar : UInt16} {udpSize : UInt16}
    {dnssecOk : Bool} {rs : List DnsRecordHeader} (h : Walks p qe an ns ar rs e)
    (hp : appendEmptyOpt p udpSize dnssecOk = some p') :
    p'.length = p.length + 11 ∧ skipDnsName p' dnsHeaderLen = some qe ∧ Agree 4 10 p p' ∧
      readU16 p' 10 = some (ar + 1) ∧ (ar + 1).toNat = ar.toNat + 1 ∧ Agree 12 p.length p p' ∧
      readDnsRecord p' p.length = some ⟨typeOpt, udpSize, if dnssecOk then 0x8000 else 0,
        p.length + 11, 0, p.length + 11⟩ ∧ p'[p.length]? = some 0 := by
  obtain ⟨-, ar', har, hlt, rfl⟩ := appendEmptyOpt_eq_some.1 hp
  cases h.additional.symm.trans har
  have hhead := h.header_le
  have hle := h.question_le
  simp only [dnsHeaderLen] at hhead ⊢
  have hcopy : 10 + (u16ToBytes (ar + 1)).length ≤ p.length := by rw [length_u16ToBytes]; omega
  generalize hc : copyAt p 10 (u16ToBytes (ar + 1)) = c
  have hclen : c.length = p.length := by rw [← hc, length_copyAt hcopy]
  have hleft : Agree 0 p.length c (c ++ emptyOpt udpSize dnssecOk) := fun i _ hi =>
    (List.getElem?_append_left (by omega)).symm
  have hagree : ∀ a b, b ≤ p.length → (b ≤ 10 ∨ 12 ≤ a) →
      Agree a b p (c ++ emptyOpt udpSize dnssecOk) := by
    intro a b hb hout i ha hi
    rw [← hleft i (Nat.zero_le _) (by omega), ← hc, getElem?_copyAt hcopy, if_neg]
    rw [length_u16ToBytes]; omega
  refine ⟨by rw [List.length_append, hclen, length_emptyOpt], ?_, hagree 4 10 (by omega)
    (.inl (Nat.le_refl _)), ?_, ?_, hagree _ _ (Nat.le_refl _) (.inr (Nat.le_refl _)), ?_, ?_⟩
  · exact (skipDnsName_eq_some h.name).2.2 _ (hagree _ _ (by omega) (.inr (Nat.le_refl _)))
  · rw [← hleft.readU16 (Nat.zero_le _) (by omega), ← hc]
    exact readU16_copyAt _ (by omega)
  · rw [UInt16.toNat_add]
    exact Nat.mod_eq_of_lt (by simp; omega)
  · rw [← hclen]
    exact readDnsRecord_append_emptyOpt c udpSize dnssecOk
  · rw [← hclen, List.getElem?_append_right (Nat.le_refl _), Nat.sub_self]
    rfl

/-! ## The answer -/

theorem dataOffset_of_root {p : Packet} {o : ℕ} {r : DnsRecordHeader}
    (h : readDnsRecord p o = some r) (hroot : p[o]? = some 0) : r.dataOffset = o + 11 := by
  obtain ⟨ho, len, hskip, -, -, -, -, hd, -⟩ := readDnsRecord_eq_some.1 h
  have : skipDnsName p o = some (o + 1) :=
    (skipLoop p).run_inr (skipBody_eq_inr_some.2 (.inl ⟨hroot, rfl⟩))
  cases hskip.symm.trans this
  exact hd

/-- A packet with an OPT record appended ends with it in its walk exactly when
    the walk before ended at the last byte. -/
theorem Walks.wellFormed_append_iff {query p p' : Packet} {q : ParsedQuery} {qe e : ℕ}
    {an ns ar : UInt16} {udpSize : UInt16} {rs : List DnsRecordHeader}
    (h : Walks p qe an ns ar rs e) (hq : parseQuery query = .ok q)
    (hopt : q.ednsUdpSize = some udpSize)
    (hp : Protocol.appendEmptyOpt p udpSize q.dnssecOk = some p')
    (hno : ∀ r ∈ rs.drop (an.toNat + ns.toNat), r.recordType ≠ typeOpt) :
    CachedAnswerWellFormed query p' ↔ e = p.length := by
  obtain ⟨hlen, hname, hhead, hadd, hcount, hbody, hread, hroot⟩ := h.appendEmptyOpt hp
  have hqe := h.header_le
  have hqle := h.question_le
  simp only [dnsHeaderLen] at hqe
  -- the records before the appended one
  have hrs : Records p' (qe + 4) rs e :=
    Records.agree h.records (hbody.mono (by omega) h.le_length) (by have := h.le_length; omega)
  constructor
  · rintro ⟨qe', an', ns', ar', all, hw, hlast⟩
    obtain ⟨rs', o, opt, rfl, hrs', hempty, -⟩ := hlast q udpSize hq hopt
    cases hname.symm.trans hw.name
    have han := hw.answer
    have hns := hw.authority
    have har := hw.additional
    rw [← hhead.readU16 (by omega) (by omega), h.answer] at han
    rw [← hhead.readU16 (by omega) (by omega), h.authority] at hns
    rw [hadd] at har
    cases han; cases hns; cases har
    have hl := hw.length
    rw [List.length_append, List.length_singleton, hcount, ← Nat.add_assoc, ← h.length] at hl
    obtain ⟨-, rfl⟩ := hrs.unique hrs' (by omega)
    obtain ⟨m, hm, hlastrec⟩ := walk_append.1 hw.records
    obtain ⟨-, rfl⟩ := hrs.unique hm (by omega)
    have hend : opt.nextOffset = p'.length := hlastrec.2
    have hd := dataOffset_of_root hempty.read hempty.owner
    have hb := readDnsRecord_bounds hempty.read
    have hdl := hempty.dataLen
    omega
  · rintro rfl
    refine ⟨qe, an, ns, ar + 1, rs ++ [_], h.of_agree hname hhead hadd ?_ (by omega)
      (walk_append.2 ⟨_, hrs, hread, hlen.symm⟩), fun q' size' hq' hsize => ?_⟩
    · rw [List.length_append, List.length_singleton, hcount, h.length]; omega
    · cases hq.symm.trans hq'
      cases hopt.symm.trans hsize
      refine ⟨rs, _, _, rfl, hrs, ⟨hread, hroot, rfl, rfl, rfl, rfl⟩, fun h0 => ?_, hno⟩
      rw [h0] at hcount
      simp at hcount

theorem Walks.cachedAnswer_iff {response stored query answer : Packet} {ttl : UInt32} {qe e : ℕ}
    {an ns ar : UInt16} {rs : List DnsRecordHeader} (h : Walks response qe an ns ar rs e)
    (hstored : normalizeCachedResponse response = some stored)
    (hanswer : prepareCachedResponse stored query ttl = some answer) :
    CachedAnswerWellFormed query answer ↔ e = response.length := by
  obtain ⟨ar₁, rs₁, e₁, hw₁, hend, hno⟩ := h.normalize hstored
  rw [← hend]
  unfold prepareCachedResponse at hanswer
  split at hanswer
  · cases hanswer
  rename_i q hq
  simp only [Option.bind_eq_bind, Option.bind_eq_some_iff] at hanswer
  obtain ⟨p₂, hp₂, p₃, hp₃, hanswer⟩ := hanswer
  obtain ⟨hw₂, hlen₂⟩ := hw₁.prepare hp₂
  obtain ⟨hlen₃, rs₃, hw₃, htypes⟩ := hw₂.rewriteTtls hp₃
  rw [← hlen₂, ← hlen₃]
  split at hanswer
  · rename_i hsize
    cases hanswer
    constructor
    · rintro ⟨qe', an', ns', ar', rs', hw', -⟩
      exact (hw₃.unique hw').2.2.2.2.2
    · rintro rfl
      refine ⟨_, _, _, _, _, hw₃, fun q' size' hq' hsize' => ?_⟩
      cases hq.symm.trans hq'
      rw [hsize] at hsize'
      cases hsize'
  · rename_i udpSize hsize
    refine hw₃.wellFormed_append_iff hq hsize hanswer fun r hr => ?_
    have hlen := (appendEmptyOpt_eq_some.1 hanswer).1
    -- the types of the records are those of the stored response
    have hmem : r.recordType ∈ (rs₁.map DnsRecordHeader.recordType).drop (an.toNat + ns.toNat) := by
      rw [← htypes, ← List.map_drop]
      exact List.mem_map_of_mem hr
    rw [← List.map_drop] at hmem
    obtain ⟨r₁, hr₁, htype⟩ := List.mem_map.1 hmem
    rw [← htype]
    exact hno (by omega) r₁ hr₁

/-- **Cached answers are well formed** exactly when the response that was
    admitted has no bytes behind the records its counts announce. -/
theorem cachedAnswer_wellFormed_iff {response stored query answer : Packet} {ttl₀ ttl : UInt32}
    (hadm : responseCacheTtl response = some ttl₀)
    (hstored : normalizeCachedResponse response = some stored)
    (hanswer : prepareCachedResponse stored query ttl = some answer) :
    CachedAnswerWellFormed query answer ↔ WalkEndsAtLastByte response := by
  obtain ⟨qe, an, ns, ar, rs, e, hw⟩ := exists_walks_of_responseCacheTtl hadm
  rw [hw.cachedAnswer_iff hstored hanswer]
  constructor
  · rintro rfl
    exact ⟨_, _, _, _, _, hw⟩
  · rintro ⟨qe', an', ns', ar', rs', hw'⟩
    exact (hw.unique hw').2.2.2.2.2

/-- A response with one address. -/
def addressResponse : Packet :=
  [0, 9, 129, 128, 0, 1, 0, 1, 0, 0, 0, 0, 1, 97, 0, 0, 1, 0, 1,
    192, 12, 0, 1, 0, 1, 0, 0, 0, 60, 0, 4, 192, 0, 2, 1]

/-- The answer to `optQuery` made of it. -/
def addressAnswer : Packet :=
  [0, 7, 129, 128, 0, 1, 0, 1, 0, 0, 0, 1, 1, 97, 0, 0, 1, 0, 1,
    192, 12, 0, 1, 0, 1, 0, 0, 0, 60, 0, 4, 192, 0, 2, 1, 0, 0, 41, 16, 0, 0, 0, 128, 0, 0, 0]

/-- The equivalence at `addressResponse`. -/
theorem addressResponse_wellFormed_iff :
    CachedAnswerWellFormed optQuery addressAnswer ↔ WalkEndsAtLastByte addressResponse :=
  @cachedAnswer_wellFormed_iff addressResponse addressResponse optQuery addressAnswer 60 60
    (by decide) (by decide) (by decide)

/-- The same response with one more byte behind its record. -/
def trailingResponse : Packet := addressResponse ++ [0]

/-- The answer to `optQuery` made of that one: the byte stands before the OPT
    record. -/
def trailingAnswer : Packet :=
  [0, 7, 129, 128, 0, 1, 0, 1, 0, 0, 0, 1, 1, 97, 0, 0, 1, 0, 1,
    192, 12, 0, 1, 0, 1, 0, 0, 0, 60, 0, 4, 192, 0, 2, 1, 0, 0, 0, 41, 16, 0, 0, 0, 128, 0, 0, 0]

/-- A response with a byte behind its records is admitted, and the answer made
    of it is not well formed. -/
theorem trailingResponse_not_wellFormed :
    responseCacheTtl trailingResponse = some 60 ∧
    normalizeCachedResponse trailingResponse = some trailingResponse ∧
    prepareCachedResponse trailingResponse optQuery 60 = some trailingAnswer ∧
    ¬ CachedAnswerWellFormed optQuery trailingAnswer := by
  have hstored : normalizeCachedResponse trailingResponse = some trailingResponse := by decide
  have hanswer : prepareCachedResponse trailingResponse optQuery 60 = some trailingAnswer := by
    decide
  have hwalk : Walks trailingResponse 15 1 0 0 [⟨1, 1, 60, 31, 4, 35⟩] 35 :=
    ⟨by decide, by decide, by decide, by decide, by decide, by decide, by decide,
      by decide, rfl⟩
  refine ⟨by decide, hstored, hanswer, ?_⟩
  rw [hwalk.cachedAnswer_iff hstored hanswer]
  decide

end DnsBlackhole.Protocol
