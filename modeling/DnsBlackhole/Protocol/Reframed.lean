/-
  When a cached response can be handed out for a query.

  `prepare_cached_response` fails when any of its steps does.  Rewriting the
  times to live fails only where the records cannot be read
  (`HasCounts.isSome_rewriteTtls`), so that what is left are three conditions on
  the cached packet (`FramesFor`): it has the question of the query, its records
  can be read, and there is room for an OPT record if the query had one.

  * `isSome_prepareCachedResponse`: the preparation succeeds exactly then,
    whatever the time to live.
-/
import DnsBlackhole.Protocol.Walks

namespace DnsBlackhole.Protocol
open Lib

/-- The packet `cached` can be framed for the query `q`. -/
structure FramesFor (cached : Packet) (q : ParsedQuery) : Prop where
  /-- It has the question of the query, which ends at the same place. -/
  question : parseQuestion cached = .ok q.question
  /-- Its records can be read, as many as its counts say. -/
  records : ∀ an ns ar, readU16 cached 6 = some an → readU16 cached 8 = some ns →
    readU16 cached 10 = some ar → (skipRecords cached (saturatingAdd
      (saturatingAdd an.toNat ns.toNat) ar.toNat) q.question.questionEnd).isSome
  /-- An OPT record fits behind it, and into its count of additional records. -/
  room : q.ednsUdpSize.isSome → cached.length + 11 ≤ maxDnsPacketSize ∧
    ∀ ar, readU16 cached 10 = some ar → ar.toNat + 1 ≤ 65535

/-! ## The times to live -/

theorem exists_rewriteTtlBody {p : Packet} {o : ℕ} {r : DnsRecordHeader} (ttl : UInt32)
    (h : readDnsRecord p o = some r) :
    ∃ p', rewriteTtlBody ttl (p, o) = some (p', r.nextOffset) := by
  obtain ⟨ho, len, hskip, htype, -, -, hlen, -, -, hn, hle⟩ := readDnsRecord_eq_some.1 h
  have h10 : ho + 10 ≤ p.length := by omega
  -- the length of the data stands behind what is written
  have hwrite : ∃ p', writeTtl p ho r.recordType ttl = some p' ∧ p'.length = p.length ∧
      readU16 p' (ho + 8) = some len := by
    unfold writeTtl
    split_ifs with hopt
    · have hcopy : ho + 4 + (u32ToBytes ttl).length ≤ p.length := by
        rw [length_u32ToBytes]; omega
      refine ⟨_, if_pos (by omega), length_copyAt hcopy, ?_⟩
      rwa [(agree_copyAt_after hcopy (a := ho + 8) (b := p.length)
        (by rw [length_u32ToBytes])).readU16 (Nat.le_refl _) (by omega)]
    · exact ⟨p, rfl, rfl, hlen⟩
  obtain ⟨p', hp', hlen', hread⟩ := hwrite
  refine ⟨p', ?_⟩
  simp only [rewriteTtlBody, hskip, Option.bind_eq_bind, Option.bind_some, htype, hp', hread]
  rw [if_neg (by omega), if_neg (by omega), hn]

/-- **The loop of `rewrite_response_ttls`** takes every record that can be
    read. -/
theorem exists_repeatN_rewriteTtlBody {p : Packet} {rs : List DnsRecordHeader} {o e : ℕ}
    (ttl : UInt32) (h : Records p o rs e) :
    ∃ p', repeatN (rewriteTtlBody ttl) rs.length (p, o) = some (p', e) := by
  induction rs generalizing p o with
  | nil => cases h; exact ⟨p, rfl⟩
  | cons r rs ih =>
    have hle := (Records.bounds h).2 (List.cons_ne_nil r rs)
    obtain ⟨hr, hw⟩ := h
    obtain ⟨p₁, h₁⟩ := exists_rewriteTtlBody ttl hr
    obtain ⟨r', hr', -, hlen, -, hframe⟩ := rewriteTtlBody_eq_some h₁
    cases hr.symm.trans hr'
    have hb := readDnsRecord_bounds hr
    -- the records behind this one are those they were
    have hw₁ : Records p₁ r.nextOffset rs e := by
      refine Records.agree hw (fun i hi _ => hframe i fun ht => ?_) (by omega)
      have := ht.2.2
      omega
    obtain ⟨p', h'⟩ := ih hw₁
    exact ⟨p', repeatN_succ_eq_some.2 ⟨_, h₁, h'⟩⟩

/-! ## Packets with one question -/

/-- The name of the one question of `p` ends at `qe`, and the other counts are
    `an`, `ns` and `ar`. -/
structure HasCounts (p : Packet) (qe : ℕ) (an ns ar : UInt16) : Prop where
  name : skipDnsName p dnsHeaderLen = some qe
  question : readU16 p 4 = some 1
  question_le : qe + 4 ≤ p.length
  answer : readU16 p 6 = some an
  authority : readU16 p 8 = some ns
  additional : readU16 p 10 = some ar

/-- The number of records `rewrite_response_ttls` walks over. -/
def recordCount (an ns ar : UInt16) : ℕ :=
  saturatingAdd (saturatingAdd an.toNat ns.toNat) ar.toNat

theorem exists_hasCounts {p : Packet} {q : Question} (h : parseQuestion p = .ok q) :
    ∃ qe an ns ar, HasCounts p qe an ns ar ∧ q.questionEnd = qe + 4 := by
  obtain ⟨qe, hname, hend, hqe, hle, hcount⟩ := exists_name_of_parseQuestion h
  simp only [dnsHeaderLen] at hqe
  have hsome : ∀ o, o + 2 ≤ 12 → ∃ v, readU16 p o = some v := fun o ho =>
    Option.isSome_iff_exists.1 (isSome_readU16.2 (by omega))
  obtain ⟨an, han⟩ := hsome 6 (by omega)
  obtain ⟨ns, hns⟩ := hsome 8 (by omega)
  obtain ⟨ar, har⟩ := hsome 10 (by omega)
  exact ⟨qe, an, ns, ar, ⟨hname, hcount, hle, han, hns, har⟩, hend⟩

namespace HasCounts
variable {p : Packet} {qe : ℕ} {an ns ar : UInt16} (h : HasCounts p qe an ns ar)
include h

theorem header_lt : dnsHeaderLen < qe := (skipDnsName_eq_some h.name).1

theorem questionEnd_eq {q : Question} (hq : parseQuestion p = .ok q) : q.questionEnd = qe + 4 := by
  obtain ⟨qe', hname, hend, -⟩ := exists_name_of_parseQuestion hq
  cases hname.symm.trans h.name
  exact hend

theorem prepare {query p₁ : Packet} (hp : prepareResponseForQuery p query = some p₁) :
    HasCounts p₁ qe an ns ar ∧ p₁.length = p.length ∧
      ∀ rs e, Records p (qe + 4) rs e ↔ Records p₁ (qe + 4) rs e := by
  obtain ⟨_, q, hrq, hq, rfl, hlen, -, hhead, hquery, hbody⟩ := prepareResponseForQuery_eq_some hp
  have hend := h.questionEnd_eq hrq
  have hle := h.question_le
  have hqe := h.header_lt
  simp only [dnsHeaderLen] at hqe
  rw [hend] at hquery hbody
  have hread : ∀ o v, 2 ≤ o → o + 2 ≤ 12 → readU16 p o = some v → readU16 p₁ o = some v :=
    fun o v ho ho' hv => (hhead.readU16 ho ho').symm.trans hv
  have hname : skipDnsName p₁ dnsHeaderLen = some qe := by
    obtain ⟨qe', hname, hend', -⟩ := exists_name_of_parseQuestion hq
    obtain rfl : qe' = qe := by omega
    exact (skipDnsName_eq_some hname).2.2 _ (hquery.mono (Nat.le_refl _) (by omega))
  have hrecords : ∀ a b : Packet, a.length = b.length → Agree (qe + 4) b.length a b →
      ∀ rs e, Records a (qe + 4) rs e → Records b (qe + 4) rs e := by
    intro a b hlen hab rs e hw
    cases hrs : rs with
    | nil => rw [hrs] at hw; exact hw
    | cons r rs' =>
      have he := (Records.bounds hw).2 (by rw [hrs]; exact List.cons_ne_nil _ _)
      rw [← hrs]
      exact Records.agree hw (hab.mono (Nat.le_refl _) (by omega)) (by omega)
  refine ⟨⟨hname, hread 4 1 (by omega) (by omega) h.question, by omega,
    hread 6 an (by omega) (by omega) h.answer, hread 8 ns (by omega) (by omega) h.authority,
    hread 10 ar (by omega) (by omega) h.additional⟩, hlen, fun rs e => ⟨?_, ?_⟩⟩
  · exact hrecords p p₁ hlen.symm (by rw [hlen]; exact hbody) rs e
  · exact hrecords p₁ p hlen hbody.symm rs e

theorem isSome_rewriteTtls (ttl : UInt32) : (rewriteResponseTtls p ttl).isSome ↔
    ∃ rs e, rs.length = recordCount an ns ar ∧ Records p (qe + 4) rs e := by
  constructor
  · intro hs
    obtain ⟨p', hp'⟩ := Option.isSome_iff_exists.1 hs
    obtain ⟨qe', rs, e, hname, hn, hw, -⟩ :=
      rewriteResponseTtls_eq_some h.question h.answer h.authority h.additional hp'
    cases hname.symm.trans h.name
    exact ⟨rs, e, hn, hw⟩
  · rintro ⟨rs, e, hn, hw⟩
    obtain ⟨p', hp'⟩ := exists_repeatN_rewriteTtlBody ttl hw
    have hqe := h.header_lt
    have hle := h.question_le
    rw [hn, recordCount] at hp'
    unfold rewriteResponseTtls
    rw [if_neg (by omega)]
    simp only [h.question, h.answer, h.authority, h.additional, Option.getD_some,
      Option.bind_eq_bind]
    rw [show (1 : UInt16).toNat = 1 from rfl,
      repeatN_questionBody_eq_some.2 ⟨qe, h.name, hle, rfl⟩, Option.bind_some, hp']
    rfl

theorem rewriteTtls {p' : Packet} {ttl : UInt32} (hp : rewriteResponseTtls p ttl = some p') :
    p'.length = p.length ∧ readU16 p' 10 = some ar := by
  obtain ⟨qe', rs, e, hname, -, hw, hlen, -, hframe⟩ :=
    rewriteResponseTtls_eq_some h.question h.answer h.authority h.additional hp
  cases hname.symm.trans h.name
  have hqe := h.header_lt
  simp only [dnsHeaderLen] at hqe
  have hbefore : Agree 0 12 p p' := fun i _ hi => hframe i fun r hr ht => by
    have := Records.lt_ttl hw r hr
    have := ht.2.1
    omega
  exact ⟨hlen, by rw [← hbefore.readU16 (Nat.zero_le _) (by omega), h.additional]⟩

end HasCounts

/-! ## The preparation -/

section
variable {cached query : Packet} {q : ParsedQuery}

/-- The identifier and the question of the query are taken over exactly when the
    questions are the same. -/
theorem isSome_prepareResponseForQuery (hq : parseQuery query = .ok q) :
    (prepareResponseForQuery cached query).isSome ↔ parseQuestion cached = .ok q.question := by
  constructor
  · intro h
    obtain ⟨p, hp⟩ := Option.isSome_iff_exists.1 h
    obtain ⟨rq, q', hrq, hq', rfl, -⟩ := prepareResponseForQuery_eq_some hp
    cases (parseQuery_question hq).symm.trans hq'
    exact hrq
  · intro h
    simp [prepareResponseForQuery, h, parseQuery_question hq]

theorem isSome_appendEmptyOpt {p : Packet} {ar udpSize : UInt16} {dnssecOk : Bool}
    (har : readU16 p 10 = some ar) : (appendEmptyOpt p udpSize dnssecOk).isSome ↔
      p.length + 11 ≤ maxDnsPacketSize ∧ ar.toNat + 1 ≤ 65535 := by
  simp only [Option.isSome_iff_exists, appendEmptyOpt_eq_some, har]
  constructor
  · rintro ⟨_, hlen, _, he, hmax, -⟩
    cases he
    exact ⟨hlen, hmax⟩
  · exact fun ⟨hlen, hmax⟩ => ⟨_, hlen, ar, rfl, hmax, rfl⟩

/-- **A cached response can be handed out** exactly when it can be framed for
    the query. -/
theorem isSome_prepareCachedResponse (hq : parseQuery query = .ok q) (ttl : UInt32) :
    (prepareCachedResponse cached query ttl).isSome ↔ FramesFor cached q := by
  by_cases hquestion : parseQuestion cached = .ok q.question
  swap
  · have hnone : prepareResponseForQuery cached query = none := by
      rw [← Option.not_isSome_iff_eq_none, isSome_prepareResponseForQuery hq]
      exact hquestion
    have hno : prepareCachedResponse cached query ttl = none := by
      simp only [prepareCachedResponse, hq, hnone, Option.bind_eq_bind, Option.bind_none]
    rw [hno]
    exact ⟨fun h => absurd h Bool.false_ne_true, fun h => absurd h.question hquestion⟩
  obtain ⟨p₁, h₁⟩ := Option.isSome_iff_exists.1 ((isSome_prepareResponseForQuery hq).2 hquestion)
  obtain ⟨qe, an, ns, ar, hc, hend⟩ := exists_hasCounts hquestion
  obtain ⟨hc₁, hlen₁, hrecords⟩ := hc.prepare h₁
  -- the records, as the definition speaks of them
  have hskip : (skipRecords cached (recordCount an ns ar) q.question.questionEnd).isSome ↔
      (rewriteResponseTtls p₁ ttl).isSome := by
    rw [hc₁.isSome_rewriteTtls, hend, Option.isSome_iff_exists]
    simp only [skipRecords_eq_some, ← hrecords]
    exact exists_comm
  simp only [prepareCachedResponse, hq, Option.bind_eq_bind, h₁, Option.bind_some]
  constructor
  · intro h
    obtain ⟨p, hp⟩ := Option.isSome_iff_exists.1 h
    obtain ⟨p₂, h₂, hopt⟩ := Option.bind_eq_some_iff.1 hp
    obtain ⟨hlen₂, har₂⟩ := hc₁.rewriteTtls h₂
    refine ⟨hquestion, fun an' ns' ar' han hns har => ?_, fun hedns => ?_⟩
    · cases hc.answer.symm.trans han
      cases hc.authority.symm.trans hns
      cases hc.additional.symm.trans har
      exact hskip.2 (by rw [h₂]; rfl)
    · obtain ⟨udpSize, hsize⟩ := Option.isSome_iff_exists.1 hedns
      rw [hsize] at hopt
      obtain ⟨hroom, hmax⟩ := (isSome_appendEmptyOpt har₂).1 (Option.isSome_iff_exists.2 ⟨p, hopt⟩)
      refine ⟨by omega, fun ar' har => ?_⟩
      cases hc.additional.symm.trans har
      exact hmax
  · intro h
    obtain ⟨p₂, h₂⟩ := Option.isSome_iff_exists.1
      (hskip.1 (h.records an ns ar hc.answer hc.authority hc.additional))
    obtain ⟨hlen₂, har₂⟩ := hc₁.rewriteTtls h₂
    rw [h₂, Option.bind_some]
    cases hsize : q.ednsUdpSize with
    | none => rfl
    | some udpSize =>
      obtain ⟨hroom, hmax⟩ := h.room (by rw [hsize]; rfl)
      exact (isSome_appendEmptyOpt har₂).2 ⟨by omega, hmax ar hc.additional⟩

end

end DnsBlackhole.Protocol
