/-
  OPT records in messages.

  `hasOpt p`: one of the records that can be read from the packet `p`, as many as
  its header announces, is an OPT record, in whatever section.

  * `hasOpt_prepare`, `not_hasOpt_normalize`, `not_hasOpt_prepareCached`: what is
    made of a response without an OPT record has none, unless the query has one;
  * `Built.not_hasOpt`: the responses made here have none;
  * `hasOpt_of_ednsUdpSize`, `hasOpt_of_cacheSafe`: what `parse_query` says about the
    OPT records of a query.
-/
import DnsBlackhole.Protocol.Reframed
import DnsBlackhole.Protocol.Synthesized

namespace DnsBlackhole.Protocol
open Lib

/-- One of the records that can be read from the offset on, up to a number of them, is an
    OPT record. -/
def optAmong (p : Packet) : ℕ → ℕ → Bool
  | 0, _ => false
  | n + 1, offset =>
    match readDnsRecord p offset with
    | none => false
    | some record => record.recordType == typeOpt || optAmong p n record.nextOffset

/-- The number of records that the header announces. -/
def announcedRecords (p : Packet) : ℕ :=
  ((readU16 p 6).getD 0).toNat + ((readU16 p 8).getD 0).toNat + ((readU16 p 10).getD 0).toNat

def hasOpt (p : Packet) : Bool :=
  match skipDnsName p dnsHeaderLen with
  | none => false
  | some offset => optAmong p (announcedRecords p) (offset + 4)

/-! ## Records that are read -/

section
variable {p p' : Packet} {qe n o : ℕ} {an ns ar : UInt16}

theorem optAmong_iff : optAmong p n o = true ↔
    ∃ rs e, Records p o rs e ∧ rs.length ≤ n ∧ ∃ r ∈ rs, r.recordType = typeOpt := by
  induction n generalizing o with
  | zero =>
    refine ⟨fun h => absurd h Bool.false_ne_true, ?_⟩
    rintro ⟨rs, e, -, hlen, r, hr, -⟩
    rw [List.length_eq_zero_iff.1 (Nat.le_zero.1 hlen)] at hr
    cases hr
  | succ n ih =>
    unfold optAmong
    cases hread : readDnsRecord p o with
    | none =>
      refine ⟨fun h => absurd h Bool.false_ne_true, ?_⟩
      rintro ⟨rs, e, hrs, -, r, hr, -⟩
      cases rs with
      | nil => cases hr
      | cons r' rs => exact absurd (hread.symm.trans hrs.1) (by simp)
    | some record =>
      simp only [Bool.or_eq_true, beq_iff_eq, ih]
      constructor
      · rintro (hopt | ⟨rs, e, hrs, hlen, hr⟩)
        · exact ⟨[record], _, ⟨hread, rfl⟩, by simp, record, List.mem_singleton_self _, hopt⟩
        · obtain ⟨r, hmem, hopt⟩ := hr
          exact ⟨record :: rs, e, ⟨hread, hrs⟩, Nat.succ_le_succ hlen, r,
            List.mem_cons_of_mem _ hmem, hopt⟩
      · rintro ⟨rs, e, hrs, hlen, r, hr, hopt⟩
        cases rs with
        | nil => cases hr
        | cons r' rs =>
          obtain ⟨hr', hrs⟩ := hrs
          cases hread.symm.trans hr'
          rcases List.mem_cons.1 hr with rfl | hr
          · exact .inl hopt
          · exact .inr ⟨rs, e, hrs, Nat.le_of_succ_le_succ hlen, r, hr, hopt⟩

theorem HasCounts.hasOpt_iff (h : HasCounts p qe an ns ar) : hasOpt p = true ↔
    ∃ rs e, Records p (qe + 4) rs e ∧ rs.length ≤ an.toNat + ns.toNat + ar.toNat ∧
      ∃ r ∈ rs, r.recordType = typeOpt := by
  rw [hasOpt, h.name]
  simp only [announcedRecords, h.answer, h.authority, h.additional, Option.getD_some]
  exact optAmong_iff

/-- A packet whose records are read as those of another one, up to their times to live. -/
theorem HasCounts.not_hasOpt_of (h : HasCounts p qe an ns ar) (h' : HasCounts p' qe an ns ar)
    (hrecords : ∀ rs' e, Records p' (qe + 4) rs' e → ∃ rs e', Records p (qe + 4) rs e' ∧
      rs.map DnsRecordHeader.recordType = rs'.map DnsRecordHeader.recordType)
    (hopt : hasOpt p = false) : hasOpt p' = false := by
  rw [Bool.eq_false_iff] at hopt ⊢
  refine fun hopt' => hopt ?_
  obtain ⟨rs', e, hrs', hlen, r', hr', hr'opt⟩ := h'.hasOpt_iff.1 hopt'
  obtain ⟨rs, e', hrs, htypes⟩ := hrecords rs' e hrs'
  have hlen' : rs.length = rs'.length := by simpa using congrArg List.length htypes
  have hmem : typeOpt ∈ rs.map DnsRecordHeader.recordType := by
    rw [htypes, ← hr'opt]
    exact List.mem_map_of_mem hr'
  obtain ⟨r, hr, hropt⟩ := List.mem_map.1 hmem
  exact h.hasOpt_iff.2 ⟨rs, e', hrs, by omega, r, hr, hropt⟩

/-! ## Responses on their way -/

theorem hasOpt_prepare {query : Packet} (h : prepareResponseForQuery p query = some p')
    (hopt : hasOpt p = false) : hasOpt p' = false := by
  obtain ⟨question, _, hquestion, -⟩ := prepareResponseForQuery_eq_some h
  obtain ⟨qe, an, ns, ar, hc, -⟩ := exists_hasCounts hquestion
  obtain ⟨hc', -, hrecords⟩ := hc.prepare h
  exact hc.not_hasOpt_of hc' (fun rs e hrs => ⟨rs, e, (hrecords rs e).2 hrs, rfl⟩) hopt

theorem hasOpt_congr (hlen : p'.length = p.length) (hagree : Agree 2 p.length p p')
    (hopt : hasOpt p = false) : hasOpt p' = false := by
  rw [Bool.eq_false_iff] at hopt ⊢
  refine fun hopt' => hopt ?_
  unfold hasOpt at hopt' ⊢
  cases hskip : skipDnsName p' dnsHeaderLen with
  | none => rw [hskip] at hopt'; cases hopt'
  | some qe =>
    have hqe := (skipDnsName_eq_some hskip).1
    have hle := (skipDnsName_eq_some hskip).2.1
    simp only [dnsHeaderLen] at hqe
    have hskip' : skipDnsName p dnsHeaderLen = some qe := (skipDnsName_eq_some hskip).2.2 _
      (hagree.symm.mono (by simp only [dnsHeaderLen]; omega) (by omega))
    have hannounced : announcedRecords p = announcedRecords p' := by
      unfold announcedRecords
      rw [hagree.readU16 (by omega) (by omega), hagree.readU16 (by omega) (by omega),
        hagree.readU16 (by omega) (by omega)]
    rw [hskip] at hopt'
    rw [hskip', hannounced]
    obtain ⟨rs, e, hrs, hcount, hr⟩ := optAmong_iff.1 hopt'
    refine optAmong_iff.2 ⟨rs, e, ?_, hcount, hr⟩
    cases rs with
    | nil => exact hrs
    | cons r rs =>
      have he := (Records.bounds hrs).2 (List.cons_ne_nil r rs)
      exact Records.agree hrs (hagree.symm.mono (by omega) (by omega)) (by omega)

theorem hasOpt_copyIdentifier {identifier : List UInt8} (hlen : identifier.length ≤ 2)
    (hle : 2 ≤ p.length) (hopt : hasOpt p = false) : hasOpt (copyAt p 0 identifier) = false := by
  have hcopy : 0 + identifier.length ≤ p.length := by omega
  exact hasOpt_congr (length_copyAt hcopy) (agree_copyAt_after hcopy (by omega)).symm hopt

theorem HasCounts.not_hasOpt_rewriteTtls (h : HasCounts p qe an ns ar) {ttl : UInt32}
    (hp : rewriteResponseTtls p ttl = some p') (hopt : hasOpt p = false) :
    hasOpt p' = false := by
  obtain ⟨qe', rs₁, m, hname, -, hw₁, hlen, hw', hframe⟩ :=
    rewriteResponseTtls_eq_some h.question h.answer h.authority h.additional hp
  cases h.name.symm.trans hname
  have hqe := h.header_lt
  have hle := h.question_le
  simp only [dnsHeaderLen] at hqe
  have hbefore : Agree 0 (qe + 4) p p' := fun i _ hi => hframe i fun r hr ht => by
    have := Records.lt_ttl hw₁ r hr
    have := ht.2.1
    omega
  have hafter : Agree m p.length p p' := fun i hi _ => hframe i fun r hr ht => by
    have := Records.dataOffset_le hw₁ r hr
    have := ht.2.2
    omega
  have hread : ∀ offset v, offset + 2 ≤ qe + 4 → readU16 p offset = some v →
      readU16 p' offset = some v := fun offset v hhi hv =>
    (hbefore.readU16 (Nat.zero_le _) hhi).symm.trans hv
  have hc' : HasCounts p' qe an ns ar :=
    ⟨(skipDnsName_eq_some h.name).2.2 _ (hbefore.mono (Nat.zero_le _) (by omega)),
      hread 4 1 (by omega) h.question, by omega, hread 6 an (by omega) h.answer,
      hread 8 ns (by omega) h.authority, hread 10 ar (by omega) h.additional⟩
  refine h.not_hasOpt_of hc' (fun rs' e hrs' => ?_) hopt
  -- what is read is the beginning of the records with new times, or goes on behind them
  have htypes : ∀ rs : List DnsRecordHeader,
      (rs.map (DnsRecordHeader.withTtl ttl)).map DnsRecordHeader.recordType =
        rs.map DnsRecordHeader.recordType := fun rs => by
    rw [List.map_map]
    refine List.map_congr_left fun r _ => ?_
    simp only [Function.comp_apply, DnsRecordHeader.withTtl]
    split_ifs <;> rfl
  rcases Nat.le_total rs'.length rs₁.length with hshort | hlong
  · obtain ⟨zs, heq, -⟩ := hrs'.append_of_le hw' (by rwa [List.length_map])
    have htake : rs' = (rs₁.take rs'.length).map (DnsRecordHeader.withTtl ttl) := by
      rw [List.map_take, heq, List.take_left]
    have hsplit : Records p (qe + 4) (rs₁.take rs'.length ++ rs₁.drop rs'.length) m := by
      rwa [List.take_append_drop]
    obtain ⟨m', hm', -⟩ := walk_append.1 hsplit
    refine ⟨rs₁.take rs'.length, m', hm', ?_⟩
    conv_rhs => rw [htake]
    rw [htypes]
  · obtain ⟨zs, rfl, hz⟩ := hw'.append_of_le hrs' (by rwa [List.length_map])
    have hzp : Records p m zs e := by
      cases zs with
      | nil => exact hz
      | cons z zs =>
        have he := (Records.bounds hz).2 (List.cons_ne_nil z zs)
        exact Records.agree hz (hafter.symm.mono (Nat.le_refl _) (by omega)) (by omega)
    refine ⟨rs₁ ++ zs, e, walk_append.2 ⟨m, hw₁, hzp⟩, ?_⟩
    rw [List.map_append, List.map_append, htypes]

theorem not_hasOpt_normalize (h : normalizeCachedResponse p = some p')
    (hopt : hasOpt p = false) : p' = p := by
  unfold normalizeCachedResponse at h
  split at h
  · cases h
  rename_i question hquestion
  obtain ⟨qe, an, ns, ar, hc, hend⟩ := exists_hasCounts hquestion
  rw [hc.answer, hc.authority, hc.additional] at h
  dsimp only at h
  split_ifs at h with hzero
  · exact (Option.some.inj h).symm
  · obtain ⟨m, hskip, hstrip⟩ := Option.bind_eq_some_iff.1 h
    obtain ⟨rs, hn, hrs⟩ := skipRecords_eq_some.1 hskip
    obtain ⟨xs, m', hxs, -, ⟨-, rfl⟩ | ⟨hlt, ⟨x, hx, hxopt, -⟩, -⟩⟩ := stripOpt_eq_some hstrip
    · rfl
    · -- the record that would be cut off
      rw [hend] at hrs
      have hwalk : Records p (qe + 4) (rs ++ (xs ++ [x])) x.nextOffset :=
        walk_append.2 ⟨m, hrs, walk_append.2 ⟨m', hxs, hx, rfl⟩⟩
      have hopt' : hasOpt p = true := by
        refine hc.hasOpt_iff.2 ⟨_, _, hwalk, ?_, x, by simp, hxopt⟩
        simp only [saturatingAdd] at hn
        simp only [List.length_append, List.length_singleton]
        omega
      rw [hopt] at hopt'
      cases hopt'

theorem not_hasOpt_prepareCached {query : Packet} {q : ParsedQuery} {ttl : UInt32}
    (hq : parseQuery query = .ok q) (hsize : q.ednsUdpSize = none)
    (h : prepareCachedResponse p query ttl = some p') (hopt : hasOpt p = false) :
    hasOpt p' = false := by
  unfold prepareCachedResponse at h
  rw [hq] at h
  simp only [Option.bind_eq_bind, Option.bind_eq_some_iff, hsize] at h
  obtain ⟨p₁, hp₁, p₂, hp₂, hp'⟩ := h
  cases hp'
  obtain ⟨question, _, hquestion, -⟩ := prepareResponseForQuery_eq_some hp₁
  obtain ⟨qe, an, ns, ar, hc, -⟩ := exists_hasCounts hquestion
  exact (hc.prepare hp₁).1.not_hasOpt_rewriteTtls hp₂ (hasOpt_prepare hp₁ hopt)

/-! ## Responses made here -/

theorem RecordSyntax.exists_of_mem_headers {rs : List RecordSyntax} {header : DnsRecordHeader}
    (h : header ∈ headers o rs) : ∃ r ∈ rs, header.recordType = r.rtype := by
  induction rs generalizing o with
  | nil => cases h
  | cons r rs ih =>
    rcases List.mem_cons.1 h with rfl | h
    · exact ⟨r, List.mem_cons_self, rfl⟩
    · obtain ⟨r', hr', htype⟩ := ih h
      exact ⟨r', List.mem_cons_of_mem _ hr', htype⟩

theorem RecordSyntax.exists_header_of_mem {rs : List RecordSyntax} {r : RecordSyntax}
    (h : r ∈ rs) : ∃ header ∈ headers o rs, header.recordType = r.rtype := by
  induction rs generalizing o with
  | nil => cases h
  | cons r' rs ih =>
    rcases List.mem_cons.1 h with rfl | h
    · exact ⟨r.header o, List.mem_cons_self, rfl⟩
    · obtain ⟨header, hmem, htype⟩ := ih (o := o + r'.bytes.length) h
      exact ⟨header, List.mem_cons_of_mem _ hmem, htype⟩

theorem HasQuestion.hasCounts {query : Packet} {question : Question} {ls : List Label}
    (hq : HasQuestion query question ls) (hle : question.questionEnd ≤ p.length)
    (hagree : Agree 12 question.questionEnd query p) (hcount : readU16 p 4 = some 1)
    (han : readU16 p 6 = some an) (hns : readU16 p 8 = some ns) (har : readU16 p 10 = some ar) :
    HasCounts p (dnsHeaderLen + (wireName ls).length) an ns ar := by
  have hend := hq.questionEnd
  have hname : HasName p ls := prefix_drop_of_agree hq.name
    (hagree.mono (Nat.le_refl _) (by omega))
  exact ⟨skipDnsName_wireName hname, hcount, by omega, han, hns, har⟩

/-- **A response made here** has no OPT record. -/
theorem Built.not_hasOpt {query : Packet} {question : Question} {ls : List Label} {rcode : UInt8}
    {rs : List RecordSyntax} (h : Built query question.questionEnd p rcode an ns rs)
    (hq : HasQuestion query question ls) (hrs : WithoutOpt rs) : hasOpt p = false := by
  obtain ⟨hle, hdrop, -, -, -, h4, h6, h8, h10, hagree⟩ := h.head hq
  have hc := hq.hasCounts hle hagree h4 h6 h8 h10
  rw [Bool.eq_false_iff]
  intro hopt
  obtain ⟨rs', e, hrs', hlen, r, hr, hropt⟩ := hc.hasOpt_iff.1 hopt
  rw [← hq.questionEnd] at hrs'
  have hwalk : Records p question.questionEnd (RecordSyntax.headers question.questionEnd rs)
      (question.questionEnd + (RecordSyntax.allBytes rs).length) :=
    records_iff.2 ⟨rs, hdrop ▸ List.prefix_refl _, rfl, rfl⟩
  have hcount := h.length
  obtain ⟨zs, heq, -⟩ := hrs'.append_of_le hwalk (by
    rw [RecordSyntax.length_headers]
    have h0 : (0 : UInt16).toNat = 0 := rfl
    omega)
  -- the records that are read are among those that stand there
  have hmem : r ∈ RecordSyntax.headers question.questionEnd rs := by
    rw [heq]
    exact List.mem_append_left _ hr
  obtain ⟨r', hr', htype⟩ := RecordSyntax.exists_of_mem_headers hmem
  exact hrs r' hr' (htype.symm.trans hropt)

/-! ## Queries -/

theorem hasOpt_of_ednsUdpSize {q : ParsedQuery} (hq : parseQuery p = .ok q)
    (hsize : q.ednsUdpSize.isSome) : hasOpt p = true := by
  obtain ⟨flags, question, an, ns, ar, m, s, -, -, -, -, hquestion, han, hns, har, hskip, hloop, -,
    rfl⟩ := parseQuery_eq_ok.1 hq
  obtain ⟨qe, an', ns', ar', hc, hend⟩ := exists_hasCounts hquestion
  cases hc.answer.symm.trans han
  cases hc.authority.symm.trans hns
  cases hc.additional.symm.trans har
  obtain ⟨before, hn, hbefore⟩ := skipRecords_eq_some.1 hskip
  obtain ⟨rs, hlen, hbytes, rfl⟩ := repeatN_additionalBody_eq_some.1 hloop
  rw [hend] at hbefore
  -- the record that the query is read with
  obtain ⟨-, hfold, -⟩ := foldl_ednsStep rs m (an.toNat = 0 ∧ ns.toNat = 0)
  obtain ⟨r, hr, hopt⟩ : ∃ r ∈ rs, r.rtype = typeOpt := by
    dsimp only at hsize
    rw [hfold, Option.isSome_map, List.find?_isSome] at hsize
    obtain ⟨r, hr, hroot⟩ := hsize
    rw [RecordSyntax.isRootOpt, Bool.and_eq_true, beq_iff_eq] at hroot
    exact ⟨r, hr, hroot.1⟩
  have hwalk : Records p (qe + 4) (before ++ RecordSyntax.headers m rs)
      (m + (RecordSyntax.allBytes rs).length) :=
    walk_append.2 ⟨m, hbefore, records_iff.2 ⟨rs, hbytes, rfl, rfl⟩⟩
  obtain ⟨header, hheader, htype⟩ := RecordSyntax.exists_header_of_mem (o := m) hr
  refine hc.hasOpt_iff.2 ⟨_, _, hwalk, ?_, header, List.mem_append_right _ hheader,
    htype.trans hopt⟩
  simp only [saturatingAdd] at hn
  rw [List.length_append, RecordSyntax.length_headers, hn, hlen]
  omega

theorem hasOpt_of_cacheSafe {q : ParsedQuery} (hq : parseQuery p = .ok q)
    (hsafe : q.cacheSafe = true) : hasOpt p = q.ednsUdpSize.isSome := by
  cases hsize : q.ednsUdpSize with
  | some size => exact hasOpt_of_ednsUdpSize hq (by rw [hsize]; rfl)
  | none =>
    obtain ⟨flags, question, an, ns, ar, m, s, -, -, -, -, hquestion, han, hns, har, -, hloop, -,
      rfl⟩ := parseQuery_eq_ok.1 hq
    obtain ⟨qe, an', ns', ar', hc, hend⟩ := exists_hasCounts hquestion
    cases hc.answer.symm.trans han
    cases hc.authority.symm.trans hns
    cases hc.additional.symm.trans har
    obtain ⟨rs, hlen, -, rfl⟩ := repeatN_additionalBody_eq_some.1 hloop
    dsimp only at hsafe hsize
    obtain ⟨-, hfold, -, hfoldSafe⟩ := foldl_ednsStep rs m (an.toNat = 0 ∧ ns.toNat = 0)
    obtain ⟨hcounts, hrecords⟩ := hfoldSafe.1 hsafe
    rcases hrecords with rfl | ⟨r, rfl, hroot, -⟩
    · have hzero : ar.toNat = 0 := hlen.symm
      obtain ⟨hanZero, hnsZero⟩ := of_decide_eq_true hcounts
      rw [hasOpt, hc.name]
      simp only [announcedRecords, hc.answer, hc.authority, hc.additional, Option.getD_some, hzero,
        hanZero, hnsZero]
      rfl
    · rw [hfold, List.find?_singleton, if_pos hroot] at hsize
      cases hsize

end

end DnsBlackhole.Protocol
