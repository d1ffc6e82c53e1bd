/-
  The first byte of flags, with the truncation flag.

  It stays what it is when a response is stored, served from the cache or prepared
  for another query; a response that is made here has nothing of it but that it is a
  response, and whether recursion is desired.
-/
import DnsBlackhole.Protocol.Reframed
import DnsBlackhole.Protocol.Synthesized

namespace DnsBlackhole.Protocol
open Lib

section
variable {p p' query : Packet} {qe : ℕ} {an ns ar : UInt16} {ttl : UInt32}

theorem flags_prepareResponseForQuery (h : prepareResponseForQuery p query = some p') :
    p'[2]? = p[2]? := by
  obtain ⟨question, _, -, -, -, -, -, hhead, -⟩ := prepareResponseForQuery_eq_some h
  exact (hhead 2 (Nat.le_refl _) (by omega)).symm

theorem flags_rewriteResponseTtls (hc : HasCounts p qe an ns ar)
    (h : rewriteResponseTtls p ttl = some p') : p'[2]? = p[2]? := by
  obtain ⟨qe', rs, m, -, -, hw, -, -, hframe⟩ :=
    rewriteResponseTtls_eq_some hc.question hc.answer hc.authority hc.additional h
  refine (hframe 2 fun r hr ht => ?_).symm
  have := Records.lt_ttl hw r hr
  have := ht.2.1
  omega

theorem flags_appendEmptyOpt {udpSize : UInt16} {dnssecOk : Bool}
    (h : appendEmptyOpt p udpSize dnssecOk = some p') : p'[2]? = p[2]? := by
  obtain ⟨-, count, hcount, -, rfl⟩ := appendEmptyOpt_eq_some.1 h
  have hlen : 10 + 1 < p.length := isSome_readU16.1 (by rw [hcount]; rfl)
  have hcopy : 10 + (u16ToBytes (count + 1)).length ≤ p.length := by
    rw [length_u16ToBytes]
    omega
  rw [List.getElem?_append_left (by rw [length_copyAt hcopy]; omega), getElem?_copyAt hcopy,
    if_neg (by omega)]

/-- **What is served from the cache** has the flags of what is stored. -/
theorem flags_prepareCachedResponse (h : prepareCachedResponse p query ttl = some p') :
    p'[2]? = p[2]? := by
  unfold prepareCachedResponse at h
  split at h
  · cases h
  · rename_i q hq
    simp only [Option.bind_eq_bind, Option.bind_eq_some_iff] at h
    obtain ⟨p₁, hp₁, p₂, hp₂, hp'⟩ := h
    obtain ⟨question, _, hquestion, -⟩ := prepareResponseForQuery_eq_some hp₁
    obtain ⟨qe, an, ns, ar, hc, -⟩ := exists_hasCounts hquestion
    have h₁ := flags_prepareResponseForQuery hp₁
    have h₂ := flags_rewriteResponseTtls (hc.prepare hp₁).1 hp₂
    split at hp'
    · cases hp'
      rw [h₂, h₁]
    · rw [flags_appendEmptyOpt hp', h₂, h₁]

/-- **What is stored** has the flags of the response. -/
theorem flags_normalizeCachedResponse (h : normalizeCachedResponse p = some p') :
    p'[2]? = p[2]? := by
  unfold normalizeCachedResponse at h
  split at h
  · cases h
  rename_i question hquestion
  obtain ⟨qe, an, ns, ar, hc, hend⟩ := exists_hasCounts hquestion
  rw [hc.answer, hc.authority, hc.additional] at h
  dsimp only at h
  split_ifs at h with hzero
  · cases h
    rfl
  · obtain ⟨m, hskip, hstrip⟩ := Option.bind_eq_some_iff.1 h
    obtain ⟨rs, -, hrs⟩ := skipRecords_eq_some.1 hskip
    obtain ⟨xs, m', hxs, -, ⟨-, rfl⟩ | ⟨-, -, rfl⟩⟩ := stripOpt_eq_some hstrip
    · rfl
    · -- the packet is cut behind its header
      have hqe := hc.header_lt
      have hle := hc.question_le
      simp only [dnsHeaderLen] at hqe
      have hm := (Records.bounds hrs).1
      have hm' := (Records.bounds hxs).1
      rw [hend] at hm
      have hcopy : 10 + (u16ToBytes (ar - 1)).length ≤ p.length := by
        rw [length_u16ToBytes]
        omega
      rw [List.getElem?_take_of_lt (by omega), getElem?_copyAt hcopy, if_neg (by omega)]

theorem Built.flags {question : Question} {ls : List Label} {rcode : UInt8}
    {rs : List RecordSyntax} (h : Built query question.questionEnd p rcode an ns rs)
    (hq : HasQuestion query question ls) :
    p[2]? = some (0x80 ||| (query[2]?.getD 0 &&& 0x01)) := by
  have hend := hq.questionEnd
  have hle := hq.le_length
  simp only [dnsHeaderLen] at hend
  obtain ⟨a, b, hab⟩ : ∃ a b, query.take 2 = [a, b] :=
    List.length_eq_two.1 (by rw [List.length_take]; omega)
  rw [h.eq, responseHead, hab]
  rfl

end

end DnsBlackhole.Protocol
