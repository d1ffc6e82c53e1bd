/-
  What a client gets from the cache: the cached response with the identifier
  and the question of the query, another time to live in every record, and an
  OPT record behind it if the query had one (`prepareCachedResponse_served`).
-/
import DnsBlackhole.Protocol.Walks

namespace DnsBlackhole.Protocol
open Lib

/-- The packet `p` is the packet `cached` with the records `rs`, from `o` to `e`
    and `ar` of them additional ones, as it is served for the query `q` with the
    time to live `ttl`. -/
structure ServedFromCache (cached query p : Packet) (q : ParsedQuery) (ttl : UInt32) (ar : UInt16)
    (rs : List DnsRecordHeader) (o e : ℕ) : Prop where
  /-- The identifier is that of the query. -/
  id : p.take 2 = query.take 2
  /-- The bytes of the question are those of the query, at the same place. -/
  question : Agree dnsHeaderLen o query p
  questionEnd : q.question.questionEnd = o
  /-- The records stand where they stood, with the same types, classes, lengths
      and data, and with the time to live `ttl` unless they are OPT records. -/
  records : Records p o (rs.map (DnsRecordHeader.withTtl ttl)) e
  ttls : ∀ r ∈ rs, r.recordType ≠ typeOpt → readU32 p (r.dataOffset - 6) = some ttl
  /-- Any other byte is that of the cached packet, but for the number of
      additional records if there is an OPT record to append. -/
  frame : ∀ i, 2 ≤ i → i < cached.length → i < dnsHeaderLen ∨ o ≤ i →
    (∀ r ∈ rs, ¬ r.TtlAt i) → q.ednsUdpSize = none ∨ i ≠ 10 ∧ i ≠ 11 → p[i]? = cached[i]?
  length : q.ednsUdpSize = none → p.length = cached.length
  /-- The OPT record behind the packet, and in the number of records. -/
  opt : ∀ udpSize, q.ednsUdpSize = some udpSize → p.length = cached.length + 11 ∧
    p.drop cached.length = emptyOpt udpSize q.dnssecOk ∧
    ∃ count, readU16 p 10 = some count ∧ count.toNat = ar.toNat + 1

theorem Records.readU32_ttl {p : Packet} {rs : List DnsRecordHeader} {ttl : UInt32} {o e : ℕ}
    (h : Records p o (rs.map (DnsRecordHeader.withTtl ttl)) e) :
    ∀ r ∈ rs, r.recordType ≠ typeOpt → readU32 p (r.dataOffset - 6) = some ttl := by
  induction rs generalizing o with
  | nil => simp
  | cons r rs ih =>
    obtain ⟨hr, hw⟩ := h
    refine List.forall_mem_cons.2 ⟨fun hopt => ?_, ih hw⟩
    rw [DnsRecordHeader.withTtl, if_neg hopt] at hr
    obtain ⟨ho, len, -, -, -, httl, -, hd, -⟩ := readDnsRecord_eq_some.1 hr
    dsimp only at httl hd
    rwa [show r.dataOffset - 6 = ho + 4 by omega]

theorem rewritten_of_prepare {cached query p₁ p₂ : Packet} {ttl : UInt32}
    (hlen : cached.length ≤ maxDnsPacketSize)
    (h₁ : prepareResponseForQuery cached query = some p₁)
    (h₂ : rewriteResponseTtls p₁ ttl = some p₂) : ∃ question qe an ns ar rs e,
      parseQuestion query = .ok question ∧ question.questionEnd = qe + 4 ∧
      Walks cached qe an ns ar rs e ∧ p₂.length = cached.length ∧ Agree 0 2 query p₂ ∧
      Agree 12 (qe + 4) query p₂ ∧ Records p₂ (qe + 4) (rs.map (DnsRecordHeader.withTtl ttl)) e ∧
      (∀ i, 2 ≤ i → i < cached.length → i < 12 ∨ qe + 4 ≤ i → (∀ r ∈ rs, ¬ r.TtlAt i) →
        cached[i]? = p₂[i]?) ∧ readU16 p₂ 10 = some ar := by
  obtain ⟨question, _, hcached, hquery, rfl, hlen₁, hid, hhead, hquestion, hbody⟩ :=
    prepareResponseForQuery_eq_some h₁
  obtain ⟨qe, hname, hend, hqe, hle, hcount⟩ := exists_name_of_parseQuestion hcached
  rw [hend] at hquestion hbody
  simp only [dnsHeaderLen] at hqe
  have hread : ∀ o, o + 2 ≤ 12 → ∃ v, readU16 cached o = some v := fun o ho =>
    Option.isSome_iff_exists.1 (isSome_readU16.2 (by omega))
  obtain ⟨an, han⟩ := hread 6 (by omega)
  obtain ⟨ns, hns⟩ := hread 8 (by omega)
  obtain ⟨ar, har⟩ := hread 10 (by omega)
  have hread₁ : ∀ o, 2 ≤ o → o + 2 ≤ 12 → readU16 p₁ o = readU16 cached o := fun o ho ho' =>
    (hhead.readU16 ho ho').symm
  obtain ⟨qe', rs, e, hname₁, hn, hw₁, hlen₂, hw₂, hframe⟩ := rewriteResponseTtls_eq_some
    ((hread₁ 4 (by omega) (by omega)).trans hcount) ((hread₁ 6 (by omega) (by omega)).trans han)
    ((hread₁ 8 (by omega) (by omega)).trans hns) ((hread₁ 10 (by omega) (by omega)).trans har) h₂
  -- the name of the question ends where it does in the cached packet
  obtain rfl : qe' = qe := by
    obtain ⟨qe'', hname'', hend'', -⟩ := exists_name_of_parseQuestion hquery
    obtain rfl : qe'' = qe := by omega
    have := (skipDnsName_eq_some hname'').2.2 _ (hquestion.mono (Nat.le_refl _) (by omega))
    exact Option.some.inj (hname₁.symm.trans this)
  have he : e ≤ p₁.length := by
    cases hrs : rs with
    | nil => rw [hrs] at hw₁; cases hw₁; omega
    | cons => exact (Records.bounds hw₁).2 (by rw [hrs]; simp)
  have hw : Records cached (qe' + 4) rs e :=
    Records.agree hw₁ (hbody.symm.mono (Nat.le_refl _) (by omega)) (by omega)
  have hbounds := (Records.bounds hw).1
  have hstart := Records.lt_ttl hw₁
  have hbefore : Agree 0 (qe' + 4) p₁ p₂ := fun i _ hi => hframe i fun r hr ht => by
    have := hstart r hr
    have := ht.2.1
    omega
  simp only [maxDnsPacketSize] at hlen
  simp only [saturatingAdd] at hn
  refine ⟨question, qe', an, ns, ar, rs, e, hquery, hend, ⟨hname, hcount, hle, han, hns, har,
    by omega, hw⟩, by omega, hid.trans (hbefore.mono (Nat.le_refl _) (by omega)),
    hquestion.trans (hbefore.mono (Nat.zero_le _) (Nat.le_refl _)), hw₂, ?_, ?_⟩
  · intro i h2 hi hout ht
    rw [← hframe i ht]
    rcases hout with hout | hout
    · exact hhead i h2 hout
    · exact hbody i hout hi
  · rw [← hbefore.readU16 (Nat.zero_le _) (by omega), hread₁ 10 (by omega) (by omega), har]

/-- **Serving from the cache changes what it must and nothing else**, for any
    cached packet of at most the size of what is received from an upstream. -/
theorem prepareCachedResponse_served {cached query p : Packet} {ttl : UInt32}
    (hlen : cached.length ≤ maxDnsPacketSize)
    (h : prepareCachedResponse cached query ttl = some p) : ∃ q qe an ns ar rs e,
      parseQuery query = .ok q ∧ Walks cached qe an ns ar rs e ∧
      ServedFromCache cached query p q ttl ar rs (qe + 4) e := by
  unfold prepareCachedResponse at h
  split at h
  · cases h
  rename_i q hq
  simp only [Option.bind_eq_bind, Option.bind_eq_some_iff] at h
  obtain ⟨p₁, h₁, p₂, h₂, h⟩ := h
  obtain ⟨question, qe, an, ns, ar, rs, e, hquestion, hend, hw, hlen₂, hid, hqs, hrs, hframe,
    har⟩ := rewritten_of_prepare hlen h₁ h₂
  cases hquestion.symm.trans (parseQuery_question hq)
  refine ⟨q, qe, an, ns, ar, rs, e, hq, hw, ?_⟩
  split at h
  · rename_i hsize
    cases h
    exact
      { id := (take_eq_of_agree hid).symm
        question := hqs
        questionEnd := hend
        records := hrs
        ttls := Records.readU32_ttl hrs
        frame := fun i h2 hi hout ht _ => (hframe i h2 hi hout ht).symm
        length := fun _ => hlen₂
        opt := fun udpSize hsome => by rw [hsize] at hsome; cases hsome }
  · rename_i udpSize hsize
    obtain ⟨-, ar', har', hcount, rfl⟩ := appendEmptyOpt_eq_some.1 h
    cases har.symm.trans har'
    have hqe := hw.header_le
    have hqle := hw.question_le
    have hle := hw.le_length
    simp only [dnsHeaderLen] at hqe
    have hcopy : 10 + (u16ToBytes (ar + 1)).length ≤ p₂.length := by
      rw [length_u16ToBytes]; omega
    generalize hc : copyAt p₂ 10 (u16ToBytes (ar + 1)) = c
    have hclen : c.length = cached.length := by rw [← hc, length_copyAt hcopy, hlen₂]
    have hleft : Agree 0 cached.length c (c ++ emptyOpt udpSize q.dnssecOk) := fun i _ hi =>
      (List.getElem?_append_left (by omega)).symm
    have hagree : ∀ a b, b ≤ cached.length → b ≤ 10 ∨ 12 ≤ a →
        Agree a b p₂ (c ++ emptyOpt udpSize q.dnssecOk) := by
      intro a b hb hout i ha hi
      rw [← hleft i (Nat.zero_le _) (by omega), ← hc, getElem?_copyAt hcopy, if_neg]
      rw [length_u16ToBytes]; omega
    have hrs' : Records (c ++ emptyOpt udpSize q.dnssecOk) (qe + 4)
        (rs.map (DnsRecordHeader.withTtl ttl)) e :=
      Records.agree hrs (hagree _ _ hle (.inr (by omega)))
        (by rw [List.length_append]; omega)
    exact
      { id := (take_eq_of_agree
          (hid.trans (hagree 0 2 (by omega) (.inl (by omega))))).symm
        question := hqs.trans (hagree _ _ (by omega) (.inr (Nat.le_refl _)))
        questionEnd := hend
        records := hrs'
        ttls := Records.readU32_ttl hrs'
        frame := fun i h2 hi hout ht hcount => by
          rw [hsize] at hcount
          have hne := hcount.resolve_left (Option.some_ne_none _)
          rw [hframe i h2 hi hout ht]
          exact (hagree i (i + 1) (by omega) (by omega) i (Nat.le_refl _) (Nat.lt_succ_self _)).symm
        length := fun hnone => by rw [hsize] at hnone; cases hnone
        opt := fun udpSize' hsome => by
          cases hsize.symm.trans hsome
          refine ⟨by rw [List.length_append, hclen, length_emptyOpt], ?_, ar + 1, ?_, ?_⟩
          · rw [← hclen, List.drop_left' rfl]
          · rw [← hleft.readU16 (Nat.zero_le _) (by omega), ← hc]
            exact readU16_copyAt _ (by omega)
          · rw [UInt16.toNat_add]
            exact Nat.mod_eq_of_lt (by simp; omega) }

/-- `addressAnswer` is the cached response as it is served. -/
theorem addressAnswer_served : ∃ q qe an ns ar rs e, parseQuery optQuery = .ok q ∧
    Walks addressResponse qe an ns ar rs e ∧
    ServedFromCache addressResponse optQuery addressAnswer q 60 ar rs (qe + 4) e :=
  prepareCachedResponse_served (by decide) (by decide)

end DnsBlackhole.Protocol
