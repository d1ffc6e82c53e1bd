/-
  What handing out a cached response changes: one lemma for each step of
  `prepare_cached_response`, with the bytes that it writes.

  `rewrite_response_ttls` walks over the packet that it writes to.  It only
  writes to times to live, which no later step of the walk reads, so the records
  it walks over are those of the packet it was given
  (`repeatN_rewriteTtlBody_eq_some`).
-/
import DnsBlackhole.Protocol.Cached

namespace DnsBlackhole.Protocol
open Lib

theorem exists_name_of_parseQuestion {p : Packet} {q : Question} (h : parseQuestion p = .ok q) :
    ∃ qe, skipDnsName p dnsHeaderLen = some qe ∧ q.questionEnd = qe + 4 ∧ dnsHeaderLen < qe ∧
      qe + 4 ≤ p.length ∧ readU16 p 4 = some 1 := by
  obtain ⟨-, hcount, ls, hls, -, hend, -, hclass⟩ := parseQuestion_eq_ok.1 h
  have hlen := isSome_readU16.1 (Option.isSome_iff_exists.2 ⟨_, hclass⟩)
  have hname := skipDnsName_wireName hls
  exact ⟨_, hname, hend, (skipDnsName_eq_some hname).1, by omega, hcount⟩

/-! ## The identifier and the question -/

/-- `prepare_response_for_query` writes the identifier and the question of the
    query, which has the same length, and nothing else. -/
theorem prepareResponseForQuery_eq_some {response query p : Packet}
    (h : prepareResponseForQuery response query = some p) : ∃ rq q,
      parseQuestion response = .ok rq ∧ parseQuestion query = .ok q ∧ rq = q ∧
      p.length = response.length ∧ Agree 0 2 query p ∧ Agree 2 12 response p ∧
      Agree 12 q.questionEnd query p ∧ Agree q.questionEnd response.length response p := by
  unfold prepareResponseForQuery at h
  split at h
  swap
  · cases h
  rename_i rq q hrq hq
  split_ifs at h with hne
  cases h
  have hsame : rq = q := by
    obtain ⟨d, t, c, e⟩ := rq
    obtain ⟨d', t', c', e'⟩ := q
    simpa only [not_or, ne_eq, not_not, Question.mk.injEq] using hne
  subst hsame
  obtain ⟨-, -, ls, -, -, hend, -, hclass⟩ := parseQuestion_eq_ok.1 hrq
  obtain ⟨-, -, ls', -, -, hend', -, hclass'⟩ := parseQuestion_eq_ok.1 hq
  have hlen := isSome_readU16.1 (Option.isSome_iff_exists.2 ⟨_, hclass⟩)
  have hlen' := isSome_readU16.1 (Option.isSome_iff_exists.2 ⟨_, hclass'⟩)
  simp only [dnsHeaderLen] at hend hend' hlen hlen' ⊢
  have hid2 : (query.take 2).length = 2 := by rw [List.length_take]; omega
  have hid : 0 + (query.take 2).length ≤ response.length := by omega
  generalize hmid : (query.drop 12).take (rq.questionEnd - 12) = mid
  have hmidlen : mid.length = rq.questionEnd - 12 := by
    rw [← hmid, List.length_take, List.length_drop]; omega
  have hq12 : 12 + mid.length ≤ (copyAt response 0 (query.take 2)).length := by
    rw [length_copyAt hid]; omega
  have hframe : ∀ a b, 2 ≤ a → b ≤ 12 ∨ rq.questionEnd ≤ a →
      Agree a b response (copyAt (copyAt response 0 (query.take 2)) 12 mid) := by
    intro a b ha hout i hi hib
    rw [getElem?_copyAt hq12, if_neg (by omega), getElem?_copyAt hid, if_neg (by omega)]
  refine ⟨rq, rq, hrq, hq, rfl, by rw [length_copyAt hq12, length_copyAt hid], ?_,
    hframe 2 12 (Nat.le_refl _) (.inl (Nat.le_refl _)), ?_,
    hframe _ _ (by omega) (.inr (Nat.le_refl _))⟩
  · intro i _ hi
    rw [getElem?_copyAt hq12, if_neg (by omega), getElem?_copyAt hid, if_pos (by omega),
      Nat.sub_zero, List.getElem?_take_of_lt hi]
  · intro i hi hib
    rw [getElem?_copyAt hq12, if_pos ⟨hi, by omega⟩, ← hmid,
      List.getElem?_take_of_lt (by omega), List.getElem?_drop]
    congr 1; omega

/-! ## The times to live -/

theorem repeatN_questionBody_eq_some {p : Packet} {o : ℕ} :
    repeatN (questionBody p) 1 dnsHeaderLen = some o ↔
      ∃ qe, skipDnsName p dnsHeaderLen = some qe ∧ qe + 4 ≤ p.length ∧ o = qe + 4 := by
  rw [repeatN_succ_eq_some]
  constructor
  · rintro ⟨o', hq, hz⟩
    cases hz
    obtain ⟨qe, hname, hle⟩ := Option.bind_eq_some_iff.1 hq
    split_ifs at hle with hlt
    cases hle
    exact ⟨qe, hname, Nat.le_of_not_gt hlt, rfl⟩
  · rintro ⟨qe, hname, hle, rfl⟩
    refine ⟨qe + 4, ?_, rfl⟩
    rw [questionBody, hname, Option.bind_some, if_neg (Nat.not_lt.2 hle)]

/-- The record with the time to live `ttl`, unless it is an OPT record. -/
def DnsRecordHeader.withTtl (ttl : UInt32) (r : DnsRecordHeader) : DnsRecordHeader :=
  if r.recordType = typeOpt then r else { r with ttl }

/-- The byte at `i` belongs to the time to live of `r`, which is not an OPT
    record. -/
def DnsRecordHeader.TtlAt (r : DnsRecordHeader) (i : ℕ) : Prop :=
  r.recordType ≠ typeOpt ∧ r.dataOffset - 6 ≤ i ∧ i < r.dataOffset - 2

@[simp] theorem DnsRecordHeader.withTtl_nextOffset (ttl : UInt32) (r : DnsRecordHeader) :
    (r.withTtl ttl).nextOffset = r.nextOffset := by
  unfold withTtl; split_ifs <;> rfl

@[simp] theorem DnsRecordHeader.withTtl_recordType (ttl : UInt32) (r : DnsRecordHeader) :
    (r.withTtl ttl).recordType = r.recordType := by
  unfold withTtl; split_ifs <;> rfl

theorem Records.lt_ttl {p : Packet} {rs : List DnsRecordHeader} {o e : ℕ}
    (h : Records p o rs e) : ∀ r ∈ rs, o + 4 < r.dataOffset - 6 := by
  induction rs generalizing o with
  | nil => simp
  | cons r rs ih =>
    obtain ⟨hr, hw⟩ := h
    have hb := readDnsRecord_bounds hr
    refine List.forall_mem_cons.2 ⟨by omega, fun r' hr' => ?_⟩
    have := ih hw r' hr'
    omega

theorem Records.dataOffset_le {p : Packet} {rs : List DnsRecordHeader} {o e : ℕ}
    (h : Records p o rs e) : ∀ r ∈ rs, r.dataOffset ≤ e := by
  induction rs generalizing o with
  | nil => simp
  | cons r rs ih =>
    obtain ⟨hr, hw⟩ := h
    have hb := readDnsRecord_bounds hr
    have he := (Records.bounds hw).1
    exact List.forall_mem_cons.2 ⟨by omega, ih hw⟩

/-- **One iteration of the loop of `rewrite_response_ttls`** reads a record and
    writes its time to live. -/
theorem rewriteTtlBody_eq_some {p p' : Packet} {o o' : ℕ} {ttl : UInt32}
    (h : rewriteTtlBody ttl (p, o) = some (p', o')) : ∃ r, readDnsRecord p o = some r ∧
      o' = r.nextOffset ∧ p'.length = p.length ∧ readDnsRecord p' o = some (r.withTtl ttl) ∧
      ∀ i, ¬ r.TtlAt i → p[i]? = p'[i]? := by
  obtain ⟨ho, hskip, h⟩ := Option.bind_eq_some_iff.1 h
  dsimp only at hskip h
  split_ifs at h with h10
  simp only [Option.bind_eq_bind, Option.bind_eq_some_iff] at h
  obtain ⟨recordType, htype, p₁, hwrite, dataLen, hlen, h⟩ := h
  split_ifs at h with hle
  cases h
  have hlt := (skipDnsName_eq_some hskip).1
  -- the record before its time to live is written
  have hread : ∀ q : Packet, Agree 0 (ho + 4) q p → Agree (ho + 8) p.length q p →
      q.length = p.length → ∀ len, readU16 q (ho + 8) = some len →
      ho + 10 + len.toNat ≤ p.length → ∃ recordClass ttl', readU32 q (ho + 4) = some ttl' ∧
        readDnsRecord q o = some ⟨recordType, recordClass, ttl', ho + 10, len.toNat,
          ho + 10 + len.toNat⟩ ∧ readU16 p (ho + 2) = some recordClass := by
    intro q hb ha hqlen len hqlen' hle
    obtain ⟨recordClass, hclass⟩ := Option.isSome_iff_exists.1
      (isSome_readU16.2 (by omega) : (readU16 p (ho + 2)).isSome)
    obtain ⟨ttl', httl⟩ := Option.isSome_iff_exists.1
      (isSome_readU32 (by omega) : (readU32 q (ho + 4)).isSome)
    refine ⟨recordClass, ttl', httl, readDnsRecord_eq_some.2 ⟨ho, len, ?_, ?_, ?_, httl, hqlen',
      rfl, rfl, rfl, by rw [hqlen]; exact hle⟩, hclass⟩
    · exact (skipDnsName_eq_some hskip).2.2 _ (hb.symm.mono (Nat.zero_le _) (by omega))
    · rwa [hb.readU16 (Nat.zero_le _) (by omega)]
    · rwa [hb.readU16 (Nat.zero_le _) (by omega)]
  unfold writeTtl at hwrite
  split_ifs at hwrite with hopt
  · -- the time to live is written
    unfold writeU32At at hwrite
    split_ifs at hwrite with h4
    cases hwrite
    have hcopy : ho + 4 + (u32ToBytes ttl).length ≤ p.length := h4
    have hplen := length_copyAt hcopy
    have hafter : Agree (ho + 8) p.length (copyAt p (ho + 4) (u32ToBytes ttl)) p :=
      agree_copyAt_after hcopy (by have := length_u32ToBytes ttl; omega)
    have hbefore : Agree 0 (ho + 4) (copyAt p (ho + 4) (u32ToBytes ttl)) p :=
      agree_copyAt_before hcopy (Nat.le_refl _)
    rw [hplen] at hle
    obtain ⟨c, t, -, hr, hc⟩ := hread p (fun _ _ _ => rfl) (fun _ _ _ => rfl) rfl dataLen
      (by rwa [← hafter.readU16 (by omega) (by omega)]) (by omega)
    obtain ⟨c', t', ht', hr', hc'⟩ := hread _ hbefore hafter hplen dataLen hlen (by omega)
    cases hc.symm.trans hc'
    cases (readU32_copyAt ttl h4).symm.trans ht'
    refine ⟨_, hr, rfl, hplen, ?_, fun i hi => ?_⟩
    · rw [hr', DnsRecordHeader.withTtl, if_neg hopt]
    · rw [getElem?_copyAt hcopy, if_neg]
      rintro ⟨h₁, h₂⟩
      rw [length_u32ToBytes] at h₂
      exact hi ⟨hopt, by dsimp only; omega, by dsimp only; omega⟩
  · cases hwrite
    obtain ⟨c, t, -, hr, -⟩ := hread _ (fun _ _ _ => rfl) (fun _ _ _ => rfl) rfl dataLen hlen
      (by omega)
    refine ⟨_, hr, rfl, rfl, ?_, fun i _ => rfl⟩
    rw [hr, DnsRecordHeader.withTtl, if_pos (not_not.1 hopt)]

/-- **The loop of `rewrite_response_ttls`** walks over the records of the packet
    it was given, and only writes to their times to live. -/
theorem repeatN_rewriteTtlBody_eq_some {ttl : UInt32} {k : ℕ} {p p' : Packet} {o e : ℕ}
    (h : repeatN (rewriteTtlBody ttl) k (p, o) = some (p', e)) : ∃ rs, rs.length = k ∧
      Records p o rs e ∧ p'.length = p.length ∧
      Records p' o (rs.map (DnsRecordHeader.withTtl ttl)) e ∧
      ∀ i, (∀ r ∈ rs, ¬ r.TtlAt i) → p[i]? = p'[i]? := by
  induction k generalizing p o with
  | zero => cases h; exact ⟨[], rfl, rfl, rfl, rfl, fun _ _ => rfl⟩
  | succ k ih =>
    obtain ⟨⟨p₁, o₁⟩, h₁, h⟩ := repeatN_succ_eq_some.1 h
    obtain ⟨r, hr, rfl, hlen₁, hr₁, hframe₁⟩ := rewriteTtlBody_eq_some h₁
    obtain ⟨rs, hn, hw₁, hlen, hw', hframe⟩ := ih h
    have hb := readDnsRecord_bounds hr
    have he := (Records.bounds hw₁).1
    have hle : e ≤ p.length := by
      cases hrs : rs with
      | nil => rw [hrs] at hw₁; cases hw₁; omega
      | cons => rw [← hlen₁]; exact (Records.bounds hw₁).2 (by rw [hrs]; simp)
    -- behind the record nothing is written before the rest is read
    have hw : Records p r.nextOffset rs e := Records.agree hw₁
      (fun i hi _ => (hframe₁ i fun ht => by have := ht.2.2; omega).symm) hle
    have hr' : readDnsRecord p' o = some (r.withTtl ttl) := by
      refine readDnsRecord_agree hr₁ (fun i _ hi => hframe i fun r' hr' ht => ?_) ?_
      · have := Records.lt_ttl hw r' hr'
        have := ht.2.1
        rw [DnsRecordHeader.withTtl_nextOffset] at hi
        omega
      · rw [DnsRecordHeader.withTtl_nextOffset]; omega
    refine ⟨r :: rs, by rw [List.length_cons, hn], ⟨hr, hw⟩, hlen.trans hlen₁,
      ⟨hr', by rw [DnsRecordHeader.withTtl_nextOffset]; exact hw'⟩, fun i hi => ?_⟩
    rw [List.forall_mem_cons] at hi
    exact (hframe₁ i hi.1).trans (hframe i hi.2)

/-- **`rewrite_response_ttls`** on a packet with one question. -/
theorem rewriteResponseTtls_eq_some {p p' : Packet} {an ns ar : UInt16} {ttl : UInt32}
    (hcount : readU16 p 4 = some 1) (han : readU16 p 6 = some an) (hns : readU16 p 8 = some ns)
    (har : readU16 p 10 = some ar) (h : rewriteResponseTtls p ttl = some p') : ∃ qe rs e,
      skipDnsName p dnsHeaderLen = some qe ∧
      rs.length = saturatingAdd (saturatingAdd an.toNat ns.toNat) ar.toNat ∧
      Records p (qe + 4) rs e ∧ p'.length = p.length ∧
      Records p' (qe + 4) (rs.map (DnsRecordHeader.withTtl ttl)) e ∧
      ∀ i, (∀ r ∈ rs, ¬ r.TtlAt i) → p[i]? = p'[i]? := by
  unfold rewriteResponseTtls at h
  split_ifs at h
  simp only [hcount, han, hns, har, Option.getD_some, Option.bind_eq_bind,
    Option.bind_eq_some_iff] at h
  obtain ⟨o, ho, ⟨p₁, e⟩, hs, h⟩ := h
  cases h
  obtain ⟨qe, hname, -, rfl⟩ := repeatN_questionBody_eq_some.1 ho
  obtain ⟨rs, hrs⟩ := repeatN_rewriteTtlBody_eq_some hs
  exact ⟨qe, rs, e, hname, hrs⟩

end DnsBlackhole.Protocol
