/-
  The length of the responses made here.

  The question of a query is echoed at any length that `parse_question` accepts,
  up to the whole packet.  `build_record_response` and the loop over merged
  actions check that what they append fits into a message; the other builders do
  not, so their responses fit exactly when the question leaves room for their
  record (`blockTail`, `addressTail`, `aliasTail`, `actionTail`).

  * `synthesized_fits`: when the responses to a query fit, builder by builder;
    all of them do exactly if the question ends 267 bytes before the limit,
    which is what the longest alias takes;
  * `wideQuery_overflows`: a query of 65535 bytes for which no record fits.
-/
import DnsBlackhole.Protocol.RewriteRecords

namespace DnsBlackhole.Protocol
open Lib DnsBlackhole.Filter Rules

/-! ## What stands behind the question -/

/-- The length of the record of an address, for a query of its type. -/
def addressTail (qtype : UInt16) (ipv4 : Option Ipv4Addr) (ipv6 : Option Ipv6Addr) : ℕ :=
  if qtype = typeA then if ipv4.isSome then 16 else 0
  else if qtype = typeAaaa then if ipv6.isSome then 28 else 0
  else 0

def blockTail (policy : BlockingPolicy) (qtype : UInt16) : ℕ :=
  match policy.mode with
  | .nullIp => addressTail qtype (some .unspecified) (some .unspecified)
  | .customIp => addressTail qtype policy.customIpv4 policy.customIpv6
  | .nxdomain => 67
  | .refused => 0

/-- The length of the record of an alias, if its target can be encoded. -/
def aliasTail (target : Text) : ℕ :=
  match encodeDnsName target with
  | some encoded => 12 + encoded.length
  | none => 0

/-- The length of what is appended for an action without being checked. -/
def actionTail (qtype : UInt16) : DnsRewriteAction → ℕ
  | .rcode rcode => if rcode = rcodeNxdomain then 67 else 0
  | .address (.v4 _) => if qtype = typeA then 16 else 0
  | .address (.v6 _) => if qtype = typeAaaa then 28 else 0
  | .cname target => aliasTail target
  | .record _ _ | .multiple _ => 0

/-- What the longest alias takes. -/
def maxTail : ℕ := 267

theorem addressTail_le (qtype : UInt16) (ipv4 : Option Ipv4Addr) (ipv6 : Option Ipv6Addr) :
    addressTail qtype ipv4 ipv6 ≤ 28 := by
  unfold addressTail
  split_ifs <;> decide

theorem blockTail_le (policy : BlockingPolicy) (qtype : UInt16) : blockTail policy qtype ≤ 67 := by
  have h₁ := addressTail_le qtype (some .unspecified) (some .unspecified)
  have h₂ := addressTail_le qtype policy.customIpv4 policy.customIpv6
  unfold blockTail
  split <;> omega

theorem aliasTail_le (target : Text) : aliasTail target ≤ maxTail := by
  unfold aliasTail maxTail
  cases h : encodeDnsName target with
  | none => exact Nat.zero_le _
  | some encoded =>
    have := length_encodeDnsName_le h
    dsimp only
    omega

/-! ## The builders -/

section
variable {query : Packet} {question : Question} {ls : List Label}

theorem length_octets (addr : Ipv6Addr) : addr.octets.length = 16 := by
  have := addr.length_segments
  simp only [Ipv6Addr.octets, List.length_flatMap, length_u16ToBytes, List.map_const',
    List.sum_replicate, this]
  rfl

theorem length_buildIpResponse (hq : HasQuestion query question ls) (ipv4 : Option Ipv4Addr)
    (ipv6 : Option Ipv6Addr) (ttl : UInt32) :
    (buildIpResponse query question rcodeNoerror ipv4 ipv6 ttl).length =
      question.questionEnd + addressTail question.qtype ipv4 ipv6 := by
  unfold buildIpResponse answerIp addressTail
  rw [if_pos rfl]
  split_ifs with h₁ h₂ h₃ h₄
  · obtain ⟨addr, rfl⟩ := Option.isSome_iff_exists.1 h₂
    simp only [Option.map_some, List.length_append, length_responseHead hq, length_recordBytes]
    rfl
  · rw [Option.not_isSome_iff_eq_none.1 h₂]
    exact length_responseHead hq _ _ _
  · obtain ⟨addr, rfl⟩ := Option.isSome_iff_exists.1 h₄
    simp only [Option.map_some, List.length_append, length_responseHead hq, length_recordBytes,
      length_octets]
  · rw [Option.not_isSome_iff_eq_none.1 h₄]
    exact length_responseHead hq _ _ _
  · exact length_responseHead hq _ _ _

theorem length_buildNxdomainResponse (hq : HasQuestion query question ls) (ttl : UInt32) :
    (buildNxdomainResponse query question ttl).length = question.questionEnd + 67 := by
  rw [buildNxdomainResponse, List.length_append, length_responseHead hq, length_recordBytes,
    length_blockingSoa]

theorem length_buildBlockResponse (hq : HasQuestion query question ls) (policy : BlockingPolicy) :
    (buildBlockResponse query question policy).length =
      question.questionEnd + blockTail policy question.qtype := by
  unfold buildBlockResponse blockTail
  cases policy.mode with
  | nullIp => exact length_buildIpResponse hq _ _ _
  | customIp => exact length_buildIpResponse hq _ _ _
  | nxdomain => exact length_buildNxdomainResponse hq _
  | refused =>
    dsimp only
    rw [buildIpResponse_none_eq]
    exact length_responseHead hq _ _ _

theorem length_buildCnameResponse (hq : HasQuestion query question ls) (target : Text) :
    (buildCnameResponse query question target).length =
      question.questionEnd + aliasTail target := by
  unfold buildCnameResponse aliasTail
  cases encodeDnsName target with
  | none =>
    dsimp only
    rw [buildIpResponse_none_eq]
    exact length_responseHead hq _ _ _
  | some encoded =>
    dsimp only
    rw [List.length_append, length_responseHead hq, length_recordBytes]

theorem length_buildRecordResponse_le (hq : HasQuestion query question ls)
    (hend : question.questionEnd ≤ maxDnsPacketSize) (rtype : UInt16) (rdata : List UInt8) :
    (buildRecordResponse query question rtype rdata).length ≤ maxDnsPacketSize := by
  unfold buildRecordResponse
  split_ifs with hlong
  · rw [buildIpResponse_none_eq, length_responseHead hq]
    exact hend
  · rw [not_or] at hlong
    rw [List.length_append, length_responseHead hq, length_recordBytes]
    omega

section
variable (policy : BlockingPolicy)

/-- **The response to one action** fits exactly when the question leaves room for
    what is appended unchecked. -/
theorem buildDnsrewriteResponse_fits (hq : HasQuestion query question ls)
    (hend : question.questionEnd ≤ maxDnsPacketSize) {action : DnsRewriteAction}
    (hone : ∀ actions, action ≠ .multiple actions) :
    (buildDnsrewriteResponse query question policy action).length ≤ maxDnsPacketSize ↔
      question.questionEnd + actionTail question.qtype action ≤ maxDnsPacketSize := by
  have hany : typeAny ≠ typeA ∧ typeAny ≠ typeAaaa := by decide
  cases action with
  | multiple actions => exact absurd rfl (hone actions)
  | rcode rcode =>
    rw [buildDnsrewriteResponse, actionTail]
    split_ifs
    · rw [length_buildNxdomainResponse hq]
    · rw [buildIpResponse_none_eq, length_responseHead hq, Nat.add_zero]
  | address address =>
    cases address with
    | v4 addr =>
      rw [buildDnsrewriteResponse, actionTail]
      by_cases h : question.qtype = typeAny
      · rw [if_pos h, h, if_neg hany.1, Nat.add_zero]
        exact iff_of_true (length_buildRecordResponse_le hq hend _ _) hend
      · rw [if_neg h, length_buildIpResponse hq]
        simp [addressTail]
    | v6 addr =>
      rw [buildDnsrewriteResponse, actionTail]
      by_cases h : question.qtype = typeAny
      · rw [if_pos h, h, if_neg hany.2, Nat.add_zero]
        exact iff_of_true (length_buildRecordResponse_le hq hend _ _) hend
      · rw [if_neg h, length_buildIpResponse hq]
        have hne : typeAaaa ≠ typeA := by decide
        by_cases h₆ : question.qtype = typeAaaa
        · simp [addressTail, h₆, hne]
        · simp [addressTail, h₆]
  | cname target =>
    rw [buildDnsrewriteResponse, actionTail, length_buildCnameResponse hq]
  | record rtype value =>
    rw [actionTail, Nat.add_zero]
    refine iff_of_true ?_ hend
    rw [buildDnsrewriteResponse]
    split_ifs
    · rw [buildIpResponse_none_eq, length_responseHead hq]
      exact hend
    · split
      · exact length_buildRecordResponse_le hq hend _ _
      · rw [buildIpResponse_none_eq, length_responseHead hq]
        exact hend

theorem actionTail_le (qtype : UInt16) (action : DnsRewriteAction) :
    actionTail qtype action ≤ maxTail := by
  cases action with
  | cname target => exact aliasTail_le target
  | rcode => rw [actionTail]; split_ifs <;> decide
  | address address =>
    cases address with
    | v4 => rw [actionTail]; split_ifs <;> decide
    | v6 => rw [actionTail]; split_ifs <;> decide
  | record | multiple => exact Nat.zero_le _

theorem buildDnsrewriteResponse_single (hq : HasQuestion query question ls)
    (hroom : question.questionEnd + maxTail ≤ maxDnsPacketSize) {action : DnsRewriteAction}
    (hone : ∀ actions, action ≠ .multiple actions) :
    (buildDnsrewriteResponse query question policy action).length ≤ maxDnsPacketSize := by
  have := actionTail_le question.qtype action
  exact (buildDnsrewriteResponse_fits policy hq (by omega) hone).2 (by omega)

/-- **The loop over merged actions** checks what it appends, so that its response
    fits if every part with an error does. -/
theorem appendRewrites_le (hq : HasQuestion query question ls)
    (hend : question.questionEnd ≤ maxDnsPacketSize) (actions : List DnsRewriteAction)
    (hparts : ∀ a ∈ actions,
      (buildDnsrewriteResponse query question policy a)[3]?.getD 0 &&& 0x0f ≠ 0 →
      (buildDnsrewriteResponse query question policy a).length ≤ maxDnsPacketSize)
    (response : Packet) (count : UInt16) (hlen : response.length ≤ maxDnsPacketSize)
    (hmin : 8 ≤ response.length) :
    (appendRewrites query question policy actions response count).length ≤ maxDnsPacketSize := by
  have hfail : (buildIpResponse query question rcodeServfail none none 0).length ≤
      maxDnsPacketSize := by
    rw [buildIpResponse_none_eq, length_responseHead hq]
    exact hend
  induction actions generalizing response count with
  | nil =>
    rw [appendRewrites, length_copyAt (by rw [length_u16ToBytes]; omega)]
    exact hlen
  | cons action actions ih =>
    obtain ⟨hpart, hparts⟩ := List.forall_mem_cons.1 hparts
    rw [appendRewrites]
    dsimp only
    split_ifs with hcode hzero hsize hcount
    · exact hpart hcode
    · exact ih hparts response count hlen hmin
    · exact hfail
    · exact hfail
    · refine ih hparts _ _ ?_ ?_
      · rw [List.length_append]; omega
      · rw [List.length_append]; omega

theorem length_multiple_le (hq : HasQuestion query question ls)
    (hend : question.questionEnd ≤ maxDnsPacketSize) {actions : List DnsRewriteAction}
    (hparts : ∀ a ∈ actions,
      (buildDnsrewriteResponse query question policy a)[3]?.getD 0 &&& 0x0f ≠ 0 →
      (buildDnsrewriteResponse query question policy a).length ≤ maxDnsPacketSize) :
    (buildDnsrewriteResponse query question policy (.multiple actions)).length ≤
      maxDnsPacketSize := by
  have hlen := length_responseHead hq 0 0 0
  have hname := hq.questionEnd
  simp only [dnsHeaderLen] at hname
  rw [buildDnsrewriteResponse, buildIpResponse_none_eq]
  exact appendRewrites_le policy hq hend actions hparts _ 0 (by omega) (by omega)

/-- Merged actions of rules for addresses and records: a part with an error is a
    failure without records. -/
theorem length_multiple_records_le (hq : HasQuestion query question ls)
    (hend : question.questionEnd ≤ maxDnsPacketSize) {actions : List DnsRewriteAction}
    (hact : ∀ a ∈ actions, RecordAction a) :
    (buildDnsrewriteResponse query question policy (.multiple actions)).length ≤
      maxDnsPacketSize := by
  refine length_multiple_le policy hq hend fun a ha hcode => ?_
  obtain ⟨r, hr⟩ := (hact a ha).exists_record
  rcases buildDnsrewriteResponse_record hq policy hr with hpart | ⟨hpart, -⟩
  · rw [hpart] at hcode
    unfold noerrorWith at hcode
    rw [(head_append hq _ _ _ _).1] at hcode
    exact absurd (by decide) hcode
  · rw [hpart, servfail, length_responseHead hq]
    exact hend

mutual

/-- Where there is room for the longest alias, every response to an action fits,
    by induction on the action. -/
theorem buildDnsrewriteResponse_le (hq : HasQuestion query question ls)
    (hroom : question.questionEnd + maxTail ≤ maxDnsPacketSize) : ∀ action : DnsRewriteAction,
    (buildDnsrewriteResponse query question policy action).length ≤ maxDnsPacketSize
  | .multiple actions => length_multiple_le policy hq (by omega) fun a ha _ =>
    buildDnsrewriteResponses_le hq hroom actions a ha
  | .rcode rcode => buildDnsrewriteResponse_single policy hq hroom fun _ h => by cases h
  | .address addr => buildDnsrewriteResponse_single policy hq hroom fun _ h => by cases h
  | .cname target => buildDnsrewriteResponse_single policy hq hroom fun _ h => by cases h
  | .record rtype value => buildDnsrewriteResponse_single policy hq hroom fun _ h => by cases h

theorem buildDnsrewriteResponses_le (hq : HasQuestion query question ls)
    (hroom : question.questionEnd + maxTail ≤ maxDnsPacketSize) :
    ∀ (actions : List DnsRewriteAction), ∀ a ∈ actions,
    (buildDnsrewriteResponse query question policy a).length ≤ maxDnsPacketSize
  | [], a, h => absurd h List.not_mem_nil
  | action :: actions, a, h => by
    rcases List.mem_cons.1 h with he | h
    · rw [he]
      exact buildDnsrewriteResponse_le hq hroom action
    · exact buildDnsrewriteResponses_le hq hroom actions a h

end

end

end

/-! ## Every builder -/

/-- A name of 253 bytes. -/
def longestName : Text :=
  List.replicate 63 'a' ++ '.' :: List.replicate 63 'a' ++ '.' :: List.replicate 63 'a' ++
    '.' :: List.replicate 61 'a'

theorem aliasTail_longestName : aliasTail longestName = maxTail := by decide +kernel

/-- **When the responses made here fit into a message**: exactly if the question
    leaves room for the record that is appended unchecked.  All of them do if it
    leaves room for the longest alias, and otherwise some do not. -/
theorem synthesized_fits {query : Packet} {q : ParsedQuery} (h : parseQuery query = .ok q)
    (hlen : query.length ≤ maxDnsPacketSize) :
    (∀ policy, (buildBlockResponse query q.question policy).length ≤ maxDnsPacketSize ↔
      q.question.questionEnd + blockTail policy q.question.qtype ≤ maxDnsPacketSize) ∧
    (∀ target, (buildRewriteResponse query q.question target).length ≤ maxDnsPacketSize ↔
      q.question.questionEnd + addressTail q.question.qtype target.ipv4 target.ipv6 ≤
        maxDnsPacketSize) ∧
    (∀ target, (buildCnameResponse query q.question target).length ≤ maxDnsPacketSize ↔
      q.question.questionEnd + aliasTail target ≤ maxDnsPacketSize) ∧
    (∀ policy action, (∀ actions, action = .multiple actions → ∀ a ∈ actions, RecordAction a) →
      ((buildDnsrewriteResponse query q.question policy action).length ≤ maxDnsPacketSize ↔
        q.question.questionEnd + actionTail q.question.qtype action ≤ maxDnsPacketSize)) ∧
    ((∀ policy target name action,
      (buildBlockResponse query q.question policy).length ≤ maxDnsPacketSize ∧
      (buildRewriteResponse query q.question target).length ≤ maxDnsPacketSize ∧
      (buildCnameResponse query q.question name).length ≤ maxDnsPacketSize ∧
      (buildDnsrewriteResponse query q.question policy action).length ≤ maxDnsPacketSize) ↔
      q.question.questionEnd + maxTail ≤ maxDnsPacketSize) := by
  obtain ⟨ls, hq⟩ := exists_hasQuestion (parseQuery_question h)
  have hend : q.question.questionEnd ≤ maxDnsPacketSize := hq.le_length.trans hlen
  have hblock := length_buildBlockResponse hq
  have hcname := length_buildCnameResponse hq
  have hrewrite : ∀ target : RewriteTarget, (buildRewriteResponse query q.question target).length =
      q.question.questionEnd + addressTail q.question.qtype target.ipv4 target.ipv6 :=
    fun target => length_buildIpResponse hq _ _ _
  refine ⟨fun policy => by rw [hblock], fun target => by rw [hrewrite],
    fun target => by rw [hcname], fun policy action hact => ?_, ?_, ?_⟩
  · by_cases hmultiple : ∃ actions, action = .multiple actions
    · obtain ⟨actions, rfl⟩ := hmultiple
      exact iff_of_true (length_multiple_records_le policy hq hend (hact actions rfl)) hend
    · exact buildDnsrewriteResponse_fits policy hq hend fun actions he => hmultiple ⟨actions, he⟩
  · intro hall
    have := (hall {} {} longestName (.rcode 0)).2.2.1
    rwa [hcname, aliasTail_longestName] at this
  · intro hroom policy target name action
    have h₁ := blockTail_le policy q.question.qtype
    have h₂ := addressTail_le q.question.qtype target.ipv4 target.ipv6
    have h₃ := aliasTail_le name
    have hmax : maxTail = 267 := rfl
    exact ⟨by rw [hblock]; omega, by rw [hrewrite]; omega, by rw [hcname]; omega,
      buildDnsrewriteResponse_le policy hq hroom action⟩

/-- For `optQuery` all of them fit. -/
theorem optQuery_fits :
    (buildBlockResponse optQuery ⟨['a'], 1, 1, 19⟩ {}).length ≤ maxDnsPacketSize ∧
    (buildRewriteResponse optQuery ⟨['a'], 1, 1, 19⟩ {}).length ≤ maxDnsPacketSize ∧
    (buildCnameResponse optQuery ⟨['a'], 1, 1, 19⟩ longestName).length ≤ maxDnsPacketSize ∧
    (buildDnsrewriteResponse optQuery ⟨['a'], 1, 1, 19⟩ {} (.rcode 0)).length ≤
      maxDnsPacketSize :=
  (synthesized_fits (q := ⟨⟨['a'], 1, 1, 19⟩, true, false, false, true, some 4096, true⟩)
    (by decide) (by decide)).2.2.2.2.2 (by decide) {} {} longestName (.rcode 0)

/-! ## A query without room -/

/-- A label of `n` letters. -/
def letters (n : ℕ) (h₀ : 0 < n) (h : n ≤ 63) : Label where
  bytes := List.replicate n 97
  ne_nil := by rw [Ne, List.replicate_eq_nil_iff]; omega
  length_le := by rw [List.length_replicate]; exact h
  ascii := by rw [List.all_replicate]; simp

/-- A query for the addresses of a name of 65519 bytes. -/
def wideQuery : QuerySyntax where
  id := 7
  flags := 0x0100
  isQuery := by decide
  isStandard := by decide
  reserved := by decide
  labels := List.replicate 1023 (letters 63 (by decide) (by decide)) ++
    [letters 45 (by decide) (by decide)]
  qtype := typeA
  qclass := 1
  answers := []
  authorities := []
  additional := []
  length_answers := by decide
  length_authorities := by decide
  length_additional := by decide

theorem length_wireName (ls : List Label) :
    (wireName ls).length = (ls.map fun l => l.bytes.length + 1).sum + 1 := by
  induction ls with
  | nil => rfl
  | cons l ls ih =>
    rw [wireName_cons, List.length_cons, List.length_append, ih, List.map_cons, List.sum_cons]
    omega

theorem length_wideQuery : wideQuery.questionBytes.length = 65523 ∧
    wideQuery.bytes.length = 65535 := by
  have hname : (wireName wideQuery.labels).length = 65519 := by
    rw [length_wireName]
    simp only [wideQuery, List.map_append, List.map_replicate, List.map_cons, List.map_nil,
      List.sum_append, List.sum_replicate, List.sum_cons, List.sum_nil, letters,
      List.length_replicate]
    decide
  have hquestion : wideQuery.questionBytes.length = 65523 := by
    rw [wideQuery.length_questionBytes, hname]
  refine ⟨hquestion, ?_⟩
  have hbytes : wideQuery.bytes = wideQuery.headerBytes ++ wideQuery.questionBytes := by
    simp only [QuerySyntax.bytes, wideQuery, RecordSyntax.allBytes, List.flatMap_nil,
      List.append_nil]
  rw [hbytes, List.length_append, wideQuery.length_headerBytes, hquestion]

/-- The query fills a message, and the response to it with the default policy is
    longer than one; so are the refusal with NXDOMAIN and the answers of rewrites
    and aliases. -/
theorem wideQuery_overflows : wideQuery.bytes.length ≤ maxDnsPacketSize ∧
    ∃ q, parseQuery wideQuery.bytes = .ok q ∧
      (buildBlockResponse wideQuery.bytes q.question {}).length = 65551 ∧
      (buildBlockResponse wideQuery.bytes q.question { mode := .nxdomain }).length = 65602 ∧
      (buildRewriteResponse wideQuery.bytes q.question
        { ipv4 := some ⟨192, 0, 2, 1⟩ }).length = 65551 ∧
      (buildCnameResponse wideQuery.bytes q.question ['b']).length = 65550 ∧
      (buildDnsrewriteResponse wideQuery.bytes q.question {}
        (.address (.v4 ⟨192, 0, 2, 1⟩))).length = 65551 := by
  obtain ⟨hquestion, hbytes⟩ := length_wideQuery
  obtain ⟨q, hq, hparsed⟩ := wideQuery.parseQuery_bytes (by rw [hbytes]; decide)
  obtain ⟨ls, hls⟩ := exists_hasQuestion (parseQuery_question hq)
  have hend : q.question.questionEnd = 65535 := by
    rw [hparsed.question, hquestion]
    decide
  have htype : q.question.qtype = typeA := by rw [hparsed.question]; rfl
  refine ⟨by rw [hbytes]; decide, q, hq, ?_, ?_, ?_, ?_, ?_⟩
  · rw [length_buildBlockResponse hls, hend, htype]; rfl
  · rw [length_buildBlockResponse hls, hend, htype]; rfl
  · rw [buildRewriteResponse, length_buildIpResponse hls, hend, htype]; rfl
  · rw [length_buildCnameResponse hls, hend, show aliasTail ['b'] = 15 by decide]
  · rw [buildDnsrewriteResponse, if_neg (by rw [htype]; decide), length_buildIpResponse hls, hend,
      htype]
    rfl

end DnsBlackhole.Protocol
