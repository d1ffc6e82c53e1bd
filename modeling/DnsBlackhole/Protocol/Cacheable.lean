/-
  What may be cached and for how long (`response_cache_ttl`).

  The three loops over the sections keep a least time to live and four flags.
  Each flag says that a section has a record of some kind, and the least time to
  live is one over all sections; so the answer is a property of the list of
  records of the packet (`Cacheable`, `IsMinTtl`).

  * `responseCacheTtl_eq_some_iff`: the time to live of a packet, from its walk;
  * `storedFrom_normalize`: what is stored of a packet that may be cached is the
    packet up to the OPT record at its end, and has the same time to live.
-/
import DnsBlackhole.Protocol.Walks

namespace DnsBlackhole.Protocol
open Lib

/-- `t` is the least time to live of the records that are not OPT records. -/
structure IsMinTtl (rs : List DnsRecordHeader) (t : UInt32) : Prop where
  mem : ∃ r ∈ rs, r.recordType ≠ typeOpt ∧ r.ttl = t
  le : ∀ r ∈ rs, r.recordType ≠ typeOpt → t ≤ r.ttl

/-- There is an answer, which for a question for addresses includes an
    address. -/
def PositiveAnswer (qtype : UInt16) (answers : List DnsRecordHeader) : Prop :=
  (∃ r ∈ answers, r.recordType ≠ typeOpt) ∧ (qtype = typeA ∨ qtype = typeAaaa →
    ∃ r ∈ answers, r.recordClass = 1 ∧ (r.recordType = typeA ∨ r.recordType = typeAaaa))

/-- The authority section has a SOA record and no NS record. -/
def AuthoritativeNegative (authorities : List DnsRecordHeader) : Prop :=
  (∃ r ∈ authorities, r.recordType = typeSoa) ∧ ∀ r ∈ authorities, r.recordType ≠ typeNs

/-- What may be cached: a positive answer, or a negative one of the authority. -/
def Cacheable (rcode : UInt8) (qtype : UInt16) (answers authorities : List DnsRecordHeader) :
    Prop :=
  rcode = rcodeNoerror ∧ PositiveAnswer qtype answers ∨
    (rcode = rcodeNoerror ∧ (∀ r ∈ answers, r.recordType = typeOpt) ∨ rcode = rcodeNxdomain) ∧
      AuthoritativeNegative authorities

/-! ## The loops -/

theorem foldl_minTtlWith {rs : List DnsRecordHeader} {m : Option UInt32} {t : UInt32} :
    rs.foldl minTtlWith m = some t ↔
      (m = some t ∨ ∃ r ∈ rs, r.recordType ≠ typeOpt ∧ r.ttl = t) ∧
      (∀ u, m = some u → t ≤ u) ∧ ∀ r ∈ rs, r.recordType ≠ typeOpt → t ≤ r.ttl := by
  induction rs generalizing m with
  | nil =>
    simp only [List.foldl_nil, List.not_mem_nil, false_and, exists_false, or_false, false_imp_iff,
      implies_true, and_true]
    refine ⟨fun h => ⟨h, fun u hu => ?_⟩, And.left⟩
    cases h.symm.trans hu
    exact UInt32.le_refl t
  | cons r rs ih =>
    rw [List.foldl_cons, ih]
    simp only [List.mem_cons, forall_eq_or_imp, exists_eq_or_imp]
    unfold minTtlWith
    by_cases hopt : r.recordType = typeOpt
    · simp only [hopt, ne_eq, not_true_eq_false, if_false, false_and, false_or, false_imp_iff,
        true_and]
    · simp only [ne_eq, hopt, not_false_eq_true, if_true, Option.some.injEq, true_and,
        forall_eq', true_imp_iff]
      cases m with
      | none => simp
      | some u =>
        -- the minimum so far is the smaller of the two
        simp only [Option.some.injEq, forall_eq']
        rcases UInt32.le_total u r.ttl with h | h
        · rw [show min u r.ttl = u from if_pos h]
          constructor
          · rintro ⟨he, htu, hle⟩
            exact ⟨he.imp_right .inr, htu, UInt32.le_trans htu h, hle⟩
          · rintro ⟨rfl | rfl | he, htu, htr, hle⟩
            · exact ⟨.inl rfl, htu, hle⟩
            · exact ⟨.inl (UInt32.le_antisymm h htu), htu, hle⟩
            · exact ⟨.inr he, htu, hle⟩
        · have hmin : min u r.ttl = r.ttl := by
            by_cases h' : u ≤ r.ttl
            · rw [show min u r.ttl = u from if_pos h', UInt32.le_antisymm h h']
            · exact if_neg h'
          rw [hmin]
          constructor
          · rintro ⟨he, htr, hle⟩
            exact ⟨.inr he, UInt32.le_trans htr h, htr, hle⟩
          · rintro ⟨rfl | rfl | he, htu, htr, hle⟩
            · exact ⟨.inl (UInt32.le_antisymm h htr), htr, hle⟩
            · exact ⟨.inl rfl, htr, hle⟩
            · exact ⟨.inr he, htr, hle⟩

theorem foldl_answerTtl (rs : List DnsRecordHeader) (s : TtlState) :
    rs.foldl answerTtl s =
      { s with
        minTtl := rs.foldl minTtlWith s.minTtl
        hasAnswer := s.hasAnswer || rs.any fun r => r.recordType != typeOpt
        hasIpAnswer := s.hasIpAnswer || rs.any fun r => r.recordClass == 1 &&
          (r.recordType == typeA || r.recordType == typeAaaa) } := by
  induction rs generalizing s with
  | nil => simp
  | cons r rs ih => simp only [List.foldl_cons, ih, answerTtl, List.any_cons, Bool.or_assoc]

theorem foldl_authorityTtl (rs : List DnsRecordHeader) (s : TtlState) :
    rs.foldl authorityTtl s =
      { s with
        minTtl := rs.foldl minTtlWith s.minTtl
        hasSoaAuthority := s.hasSoaAuthority || rs.any fun r => r.recordType == typeSoa
        hasNsAuthority := s.hasNsAuthority || rs.any fun r => r.recordType == typeNs } := by
  induction rs generalizing s with
  | nil => simp
  | cons r rs ih => simp only [List.foldl_cons, ih, authorityTtl, List.any_cons, Bool.or_assoc]

theorem foldl_additionalTtl (rs : List DnsRecordHeader) (s : TtlState) :
    rs.foldl additionalTtl s = { s with minTtl := rs.foldl minTtlWith s.minTtl } := by
  induction rs generalizing s with
  | nil => rfl
  | cons r rs ih => simp only [List.foldl_cons, ih, additionalTtl]

/-- What the three loops collect from the three sections. -/
def collectTtl (answers authorities additionals : List DnsRecordHeader) : TtlState :=
  additionals.foldl additionalTtl (authorities.foldl authorityTtl (answers.foldl answerTtl {}))

section
variable (answers authorities additionals : List DnsRecordHeader)

theorem minTtl_collectTtl : (collectTtl answers authorities additionals).minTtl =
    (answers ++ authorities ++ additionals).foldl minTtlWith none := by
  simp only [collectTtl, foldl_additionalTtl, foldl_authorityTtl, foldl_answerTtl,
    List.foldl_append]

theorem minTtl_collectTtl_eq_some {t : UInt32} :
    (collectTtl answers authorities additionals).minTtl = some t ↔
      IsMinTtl (answers ++ authorities ++ additionals) t := by
  rw [minTtl_collectTtl, foldl_minTtlWith]
  constructor
  · rintro ⟨he, -, hle⟩
    exact ⟨he.resolve_left (by simp), hle⟩
  · exact fun h => ⟨.inr h.mem, by simp, h.le⟩

/-- **The flags collected** say whether the packet may be cached. -/
theorem cacheable_collectTtl (rcode : UInt8) (qtype : UInt16) :
    (collectTtl answers authorities additionals).cacheable rcode qtype ↔
      Cacheable rcode qtype answers authorities := by
  have hnegative : ((authorities.any fun r => r.recordType == typeSoa) &&
      !authorities.any fun r => r.recordType == typeNs) = true ↔
        AuthoritativeNegative authorities := by
    simp [AuthoritativeNegative]
  have hpositive : (answers.any fun r => r.recordType != typeOpt) = true →
      ((!(qtype == typeA || qtype == typeAaaa) || answers.any fun r => r.recordClass == 1 &&
        (r.recordType == typeA || r.recordType == typeAaaa)) = true ↔
          PositiveAnswer qtype answers) := by
    intro h
    have h' : ∃ r ∈ answers, r.recordType ≠ typeOpt := by simpa using h
    rw [PositiveAnswer, and_iff_right h']
    simp only [Bool.or_eq_true, Bool.not_eq_true', Bool.or_eq_false_iff, beq_eq_false_iff_ne,
      List.any_eq_true, Bool.and_eq_true, beq_iff_eq, ne_eq]
    rw [← not_or, ← imp_iff_not_or]
  have hnone : (answers.any fun r => r.recordType != typeOpt) = false ↔
      ∀ r ∈ answers, r.recordType = typeOpt := by simp
  have hne : rcodeNxdomain ≠ rcodeNoerror := by decide
  simp only [collectTtl, foldl_additionalTtl, foldl_authorityTtl, foldl_answerTtl,
    TtlState.cacheable, Bool.false_or, Cacheable]
  split_ifs with hcode hanswer hnx
  · -- NOERROR with an answer
    rw [hpositive hanswer]
    refine ⟨fun h => .inl ⟨hcode, h⟩, fun h => ?_⟩
    rcases h with h | ⟨⟨-, hno⟩ | hnx, -⟩
    · exact h.2
    · rw [hnone.2 hno] at hanswer; cases hanswer
    · exact absurd (hnx.symm.trans hcode) hne
  · -- NOERROR without an answer
    rw [Bool.not_eq_true] at hanswer
    rw [hnegative]
    refine ⟨fun h => .inr ⟨.inl ⟨hcode, hnone.1 hanswer⟩, h⟩, fun h => ?_⟩
    rcases h with ⟨-, ⟨r, hr, hopt⟩, -⟩ | h
    · exact absurd (hnone.1 hanswer r hr) hopt
    · exact h.2
  · -- NXDOMAIN
    rw [hnegative]
    refine ⟨fun h => .inr ⟨.inr hnx, h⟩, fun h => ?_⟩
    rcases h with ⟨h, -⟩ | h
    · exact absurd h hcode
    · exact h.2
  · -- any other code
    constructor
    · intro h
      cases h
    · rintro (⟨h, -⟩ | ⟨⟨h, -⟩ | h, -⟩)
      · exact absurd h hcode
      · exact absurd h hcode
      · exact absurd h hnx

end

/-! ## The time to live -/

/-- What may be cached can be walked, and conversely the time to live of a packet
    with a walk is computed from its records. -/
theorem responseCacheTtl_eq {p : Packet} {t : UInt32} : responseCacheTtl p = some t ↔
    ∃ qe qtype an ns ar as us xs e, Walks p qe an ns ar (as ++ us ++ xs) e ∧
      readU16 p qe = some qtype ∧ as.length = an.toNat ∧ us.length = ns.toNat ∧
      (collectTtl as us xs).cacheable (p[3]?.getD 0 &&& 0x0f) qtype ∧
      (collectTtl as us xs).minTtl = some t := by
  constructor
  · intro h
    unfold responseCacheTtl at h
    split_ifs at h with h₀
    simp only [Option.bind_eq_bind, Option.bind_eq_some_iff] at h
    obtain ⟨count, hcount, h⟩ := h
    split_ifs at h with h₁
    rw [not_not] at h₁
    subst h₁
    simp only [Option.bind_eq_some_iff] at h
    obtain ⟨an, han, ns, hns, ar, har, qe, hqe, qtype, hqtype, h⟩ := h
    split_ifs at h with h₂
    simp only [Option.bind_eq_some_iff] at h
    obtain ⟨⟨o₁, s₁⟩, hr₁, ⟨o₂, s₂⟩, hr₂, ⟨o₃, s₃⟩, hr₃, h⟩ := h
    obtain ⟨as, hn₁, hw₁, rfl⟩ := collectRecords_eq_some.1 hr₁
    obtain ⟨us, hn₂, hw₂, rfl⟩ := collectRecords_eq_some.1 hr₂
    obtain ⟨xs, hn₃, hw₃, rfl⟩ := collectRecords_eq_some.1 hr₃
    obtain ⟨qe', hqe', hz⟩ := repeatN_succ_eq_some.1 hqe
    obtain ⟨qe'', hname, hle⟩ := Option.bind_eq_some_iff.1 hqe'
    split_ifs at hle
    cases hle
    cases hz
    split_ifs at h with hcache
    exact ⟨qe, qtype, an, ns, ar, as, us, xs, o₃, ⟨hname, hcount, by omega, han, hns, har,
      by simp only [List.length_append, hn₁, hn₂, hn₃],
      walk_append.2 ⟨o₂, walk_append.2 ⟨o₁, hw₁, hw₂⟩, hw₃⟩⟩, hqtype, hn₁, hn₂, hcache, h⟩
  · rintro ⟨qe, qtype, an, ns, ar, as, us, xs, e, hw, hqtype, has, hus, hcache, hmin⟩
    obtain ⟨o₂, hw₂, hxs⟩ := walk_append.1 hw.records
    obtain ⟨o₁, has', hus'⟩ := walk_append.1 hw₂
    have hlen := hw.length
    simp only [List.length_append] at hlen
    have hle := hw.question_le
    have hqe := hw.header_le
    simp only [dnsHeaderLen] at hqe
    have hquestion : repeatN (questionNameBody p) (1 : UInt16).toNat dnsHeaderLen = some qe := by
      refine repeatN_succ_eq_some.2 ⟨qe, ?_, rfl⟩
      rw [questionNameBody, hw.name, Option.bind_some, if_neg (by omega)]
    unfold responseCacheTtl
    rw [if_neg (by simp only [dnsHeaderLen]; omega)]
    simp only [Option.bind_eq_bind, hw.question, hw.answer, hw.authority, hw.additional,
      Option.bind_some, ne_eq, not_true_eq_false, if_false, hquestion, hqtype]
    rw [if_neg (by omega), collectRecords_eq_some.2 ⟨as, has, has', rfl⟩, Option.bind_some,
      collectRecords_eq_some.2 ⟨us, hus, hus', rfl⟩, Option.bind_some,
      collectRecords_eq_some.2 ⟨xs, by omega, hxs, rfl⟩, Option.bind_some]
    exact (if_pos hcache).trans hmin

theorem Walks.sections {p : Packet} {qe e : ℕ} {an ns ar : UInt16} {rs : List DnsRecordHeader}
    (h : Walks p qe an ns ar rs e) : ∃ as us xs, rs = as ++ us ++ xs ∧ as.length = an.toNat ∧
      us.length = ns.toNat ∧ rs.take an.toNat = as ∧ (rs.drop an.toNat).take ns.toNat = us := by
  have hlen := h.length
  refine ⟨_, _, (rs.drop an.toNat).drop ns.toNat, ?_, ?_, ?_, rfl, rfl⟩
  · rw [List.append_assoc, List.take_append_drop, List.take_append_drop]
  · rw [List.length_take]; omega
  · rw [List.length_take, List.length_drop]; omega

/-- **The time to live of a packet** with the walk `h`. -/
theorem Walks.responseCacheTtl_eq_some {p : Packet} {qe e : ℕ} {an ns ar : UInt16}
    {rs : List DnsRecordHeader} (h : Walks p qe an ns ar rs e) {t : UInt32} :
    responseCacheTtl p = some t ↔ (∃ qtype, readU16 p qe = some qtype ∧
      Cacheable (p[3]?.getD 0 &&& 0x0f) qtype (rs.take an.toNat)
        ((rs.drop an.toNat).take ns.toNat)) ∧ IsMinTtl rs t := by
  obtain ⟨as, us, xs, hrs, has, hus, htake, hdrop⟩ := h.sections
  rw [responseCacheTtl_eq, htake, hdrop]
  constructor
  · rintro ⟨qe', qtype, an', ns', ar', as', us', xs', e', hw, hqtype, has', hus', hcache, hmin⟩
    obtain ⟨rfl, rfl, rfl, rfl, hrs', rfl⟩ := h.unique hw
    obtain ⟨h₁, -⟩ := List.append_inj (hrs.symm.trans hrs') (by simp [has, hus, has', hus'])
    obtain ⟨rfl, rfl⟩ := List.append_inj h₁ (has.trans has'.symm)
    refine ⟨⟨qtype, hqtype, (cacheable_collectTtl _ _ _ _ _).1 hcache⟩, ?_⟩
    rw [hrs']
    exact (minTtl_collectTtl_eq_some _ _ _).1 hmin
  · rintro ⟨⟨qtype, hqtype, hcache⟩, hmin⟩
    rw [hrs] at h hmin
    exact ⟨qe, qtype, an, ns, ar, as, us, xs, e, h, hqtype, has, hus,
      (cacheable_collectTtl _ _ _ _ _).2 hcache, (minTtl_collectTtl_eq_some _ _ _).2 hmin⟩

/-- **What may be cached and for how long**: the packet has one question and as
    many records as its counts say, they make a cacheable answer, and the time
    to live is their least one. -/
theorem responseCacheTtl_eq_some_iff {p : Packet} {t : UInt32} : responseCacheTtl p = some t ↔
    ∃ qe an ns ar rs e qtype, Walks p qe an ns ar rs e ∧ readU16 p qe = some qtype ∧
      Cacheable (p[3]?.getD 0 &&& 0x0f) qtype (rs.take an.toNat)
        ((rs.drop an.toNat).take ns.toNat) ∧ IsMinTtl rs t := by
  constructor
  · intro h
    obtain ⟨qe, an, ns, ar, rs, e, hw⟩ := exists_walks_of_responseCacheTtl h
    obtain ⟨⟨qtype, hqtype, hcache⟩, hmin⟩ := hw.responseCacheTtl_eq_some.1 h
    exact ⟨qe, an, ns, ar, rs, e, qtype, hw, hqtype, hcache, hmin⟩
  · rintro ⟨qe, an, ns, ar, rs, e, qtype, hw, hqtype, hcache, hmin⟩
    exact hw.responseCacheTtl_eq_some.2 ⟨⟨qtype, hqtype, hcache⟩, hmin⟩

/-! ## Storing -/

/-- The packet `stored` is what is stored of `response`: the packet itself, or
    what stands before the OPT record at its end. -/
structure StoredFrom (response stored : Packet) : Prop where
  noOpt : ∀ qe an ns ar rs e, Walks stored qe an ns ar rs e →
    ∀ r ∈ rs.drop (an.toNat + ns.toNat), r.recordType ≠ typeOpt
  bytes : ∀ i, i < stored.length → i ≠ 10 → i ≠ 11 → stored[i]? = response[i]?
  rest : stored = response ∨ ∃ r ar, readDnsRecord response stored.length = some r ∧
    r.recordType = typeOpt ∧ r.nextOffset = response.length ∧
    readU16 response 10 = some ar ∧ ar ≠ 0 ∧ readU16 stored 10 = some (ar - 1)
  ttl : responseCacheTtl stored = responseCacheTtl response

theorem isMinTtl_append_opt {rs : List DnsRecordHeader} {x : DnsRecordHeader} {t : UInt32}
    (hx : x.recordType = typeOpt) : IsMinTtl (rs ++ [x]) t ↔ IsMinTtl rs t := by
  constructor
  · rintro ⟨⟨r, hr, hno, ht⟩, hle⟩
    refine ⟨⟨r, ?_, hno, ht⟩, fun r hr => hle r (List.mem_append_left _ hr)⟩
    rcases List.mem_append.1 hr with hr | hr
    · exact hr
    · exact absurd ((List.mem_singleton.1 hr).symm ▸ hx) hno
  · rintro ⟨⟨r, hr, hno, ht⟩, hle⟩
    refine ⟨⟨r, List.mem_append_left _ hr, hno, ht⟩, fun r hr hno => ?_⟩
    rcases List.mem_append.1 hr with hr | hr
    · exact hle r hr hno
    · exact absurd ((List.mem_singleton.1 hr).symm ▸ hx) hno

/-- **Storing a response keeps its time to live**, and all of it that is not the
    OPT record at its end. -/
theorem storedFrom_normalize {response stored : Packet} {t : UInt32}
    (hlen : response.length ≤ maxDnsPacketSize) (hadm : responseCacheTtl response = some t)
    (hn : normalizeCachedResponse response = some stored) : StoredFrom response stored := by
  obtain ⟨qe, an, ns, ar, rs, e, hw⟩ := exists_walks_of_responseCacheTtl hadm
  obtain ⟨ar', rs', e', hw', hstored, hno⟩ := hw.stored hn
  have hqe := hw.header_le
  simp only [dnsHeaderLen] at hqe
  have hnoOpt : stored.length ≤ maxDnsPacketSize → ∀ qe an ns ar rs e,
      Walks stored qe an ns ar rs e →
      ∀ r ∈ rs.drop (an.toNat + ns.toNat), r.recordType ≠ typeOpt := by
    intro hsize qe₁ an₁ ns₁ ar₁ rs₁ e₁ hw₁
    obtain ⟨-, rfl, rfl, -, rfl, -⟩ := hw'.unique hw₁
    exact hno hsize
  cases hstored with
  | whole h =>
    subst h
    exact ⟨hnoOpt hlen, fun _ _ _ _ => rfl, .inl rfl, rfl⟩
  | stripped x _ hrs har hread hopt hend _ hcut =>
    have hle := hw'.question_le
    have hxlen := readDnsRecord_bounds hread
    have hcopy : 10 + (u16ToBytes (ar - 1)).length ≤ response.length := by
      rw [length_u16ToBytes]; omega
    have hbytes : ∀ i, i < stored.length → i ≠ 10 → i ≠ 11 → stored[i]? = response[i]? := by
      intro i hi h₁ h₂
      rw [hcut, List.getElem?_take_of_lt hi, getElem?_copyAt hcopy, if_neg]
      rw [length_u16ToBytes]; omega
    refine ⟨hnoOpt (by omega), hbytes, .inr ⟨x, ar, hread, hopt, hend, hw.additional, har,
      hw'.additional⟩, Option.ext fun t => ?_⟩
    -- the sections the flags are about, the code and the type are the same
    have hqtype : readU16 stored qe = readU16 response qe :=
      Agree.readU16 (fun i h₁ h₂ => hbytes i (by omega) (by omega) (by omega)) (Nat.le_refl _)
        (Nat.le_refl _)
    have hcode : stored[3]? = response[3]? := hbytes 3 (by omega) (by omega) (by omega)
    have hlen' := hw'.length
    rw [hw'.responseCacheTtl_eq_some, hw.responseCacheTtl_eq_some, hqtype, hcode, hrs,
      isMinTtl_append_opt hopt, List.take_append_of_le_length (by omega),
      List.drop_append_of_le_length (by omega),
      List.take_append_of_le_length (by rw [List.length_drop]; omega)]

end DnsBlackhole.Protocol
