/-
  Rules with `$dnsrewrite` answer with exactly their records.

  A rule for an address or a record stands for one record (`actionRecord`),
  whose data was encoded when the rule was parsed; a query gets the records of
  its type, or all of them if it asks for any.  `build_dnsrewrite_response`
  builds one answer for each action and puts the records behind one header; the
  loop keeps what it has put there (`appendRewrites_eq`), and gives up only when
  the whole answer would not fit.

  * `flatten_toChunks`: cutting a list into chunks loses nothing;
  * `rewrite_exact`: the answers to queries.
-/
import DnsBlackhole.Protocol.Synthesized

/-! ## Chunks -/

namespace DnsBlackhole.Lib

theorem toChunks_go {α : Type*} (n : ℕ) (hn : 0 < n) (xs : List α) (acc : Array α)
    (chunks : Array (List α)) (hacc : acc.size ≤ n) (hchunks : ∀ c ∈ chunks.toList, c.length ≤ n) :
    (List.toChunks.go n xs acc chunks).flatten = chunks.toList.flatten ++ acc.toList ++ xs ∧
      ∀ c ∈ List.toChunks.go n xs acc chunks, c.length ≤ n := by
  induction xs generalizing acc chunks with
  | nil =>
    rw [List.toChunks.go, Array.toList_push]
    refine ⟨by simp, fun c hc => ?_⟩
    rcases List.mem_append.1 hc with hc | hc
    · exact hchunks c hc
    · rw [List.mem_singleton.1 hc, Array.length_toList]
      exact hacc
  | cons x xs ih =>
    rw [List.toChunks.go]
    split_ifs with hfull
    · -- a new chunk begins
      obtain ⟨hflat, hle⟩ := ih #[x] (chunks.push acc.toList) hn (fun c hc => by
        rw [Array.toList_push] at hc
        rcases List.mem_append.1 hc with hc | hc
        · exact hchunks c hc
        · rw [List.mem_singleton.1 hc, Array.length_toList]
          exact hacc)
      exact ⟨by rw [show (Array.mkEmpty n).push x = #[x] from rfl, hflat]; simp, hle⟩
    · have hlt : acc.size < n := by
        rw [beq_iff_eq] at hfull
        omega
      obtain ⟨hflat, hle⟩ := ih (acc.push x) chunks (by rw [Array.size_push]; omega) hchunks
      exact ⟨by rw [hflat, Array.toList_push]; simp, hle⟩

/-- **The chunks of a list** are the list again, and none is too long. -/
theorem flatten_toChunks {α : Type*} {n : ℕ} (hn : 0 < n) (xs : List α) :
    (xs.toChunks n).flatten = xs ∧ ∀ c ∈ xs.toChunks n, c.length ≤ n := by
  cases xs with
  | nil => simp [List.toChunks]
  | cons x xs =>
    obtain ⟨k, rfl⟩ := Nat.exists_eq_succ_of_ne_zero (Nat.ne_of_gt hn)
    have := toChunks_go (k + 1) hn xs #[x] #[] (by simp) (by simp)
    simpa [List.toChunks] using this

end DnsBlackhole.Lib

namespace DnsBlackhole.Protocol
open Lib DnsBlackhole.Filter Rules

/-! ## The records of rules -/

/-- The record an action stands for: its type and its data. -/
def actionRecord : DnsRewriteAction → Option (UInt16 × List UInt8)
  | .address (.v4 addr) => some (typeA, addr.octets)
  | .address (.v6 addr) => some (typeAaaa, addr.octets)
  | .record rtype value => (encodeRewriteRdata rtype value rtype).map fun rdata => (rtype, rdata)
  | .rcode _ | .cname _ | .multiple _ => none

/-- An action of a rule that is neither a code nor an alias. -/
structure RecordAction (action : DnsRewriteAction) : Prop where
  parsed : ∃ raw, parseDnsrewrite raw = some action
  not_rcode : ∀ rcode, action ≠ .rcode rcode
  not_cname : ∀ target, action ≠ .cname target

/-- The actions merged into one. -/
def mergedActions : DnsRewriteAction → List DnsRewriteAction
  | .multiple actions => actions
  | action => [action]

/-- The records that answer a query of type `qtype`, in the order of the
    actions. -/
def recordsFor (qtype : UInt16) (actions : List DnsRewriteAction) : List (UInt16 × List UInt8) :=
  (actions.filterMap actionRecord).filter fun r => r.1 == qtype || qtype == typeAny

def recordsBytes (qclass : UInt16) (rs : List (UInt16 × List UInt8)) : List UInt8 :=
  rs.flatMap fun r => recordBytes r.1 qclass rewriteResponseTtl r.2

/-- NOERROR with the answers `rs`. -/
def noerrorWith (query : Packet) (question : Question) (rs : List (UInt16 × List UInt8)) : Packet :=
  responseHead query question.questionEnd rcodeNoerror (.ofNat rs.length) 0 ++
    recordsBytes question.qclass rs

/-- SERVFAIL without answers. -/
def servfail (query : Packet) (question : Question) : Packet :=
  responseHead query question.questionEnd rcodeServfail 0 0

theorem cnameTarget_eq_some {value : Text} {action : DnsRewriteAction}
    (h : cnameTarget value = some action) :
    ∃ target encoded, action = .cname target ∧ encodeDnsName target = some encoded := by
  simp only [cnameTarget, Option.bind_eq_bind, Option.bind_eq_some_iff, Option.some.injEq] at h
  obtain ⟨target, -, encoded, hencoded, rfl⟩ := h
  exact ⟨target, encoded, rfl, hencoded⟩

/-- **The kinds of actions** of rules; aliases and records have been encoded. -/
theorem parseDnsrewrite_cases {raw : Text} {action : DnsRewriteAction}
    (h : parseDnsrewrite raw = some action) :
    (∃ rcode, action = .rcode rcode) ∨ (∃ address, action = .address address) ∨
      (∃ target encoded, action = .cname target ∧ encodeDnsName target = some encoded) ∨
      ∃ rtype value rdata, action = .record rtype value ∧
        (rtype = typePtr ∨ rtype = typeMx ∨ rtype = typeTxt ∨ rtype = typeSrv) ∧
        encodeRewriteRdata rtype value rtype = some rdata := by
  unfold parseDnsrewrite at h
  dsimp only at h
  split_ifs at h
  split at h
  · cases h
  · split at h
    · cases h; exact .inl ⟨_, rfl⟩
    · split at h
      · cases h; exact .inr (.inl ⟨_, rfl⟩)
      · exact .inr (.inr (.inl (cnameTarget_eq_some h)))
  · -- the long form
    unfold parseLongDnsrewrite at h
    simp only [Option.bind_eq_bind] at h
    obtain ⟨rcode, -, h⟩ := Option.bind_eq_some_iff.1 h
    split_ifs at h
    · cases h; exact .inl ⟨_, rfl⟩
    · obtain ⟨rtype, -, h⟩ := Option.bind_eq_some_iff.1 h
      split_ifs at h with h₁ h₂ h₃ h₄
      · obtain ⟨addr, -, rfl⟩ := Option.map_eq_some_iff.1 h
        exact .inr (.inl ⟨_, rfl⟩)
      · obtain ⟨addr, -, rfl⟩ := Option.map_eq_some_iff.1 h
        exact .inr (.inl ⟨_, rfl⟩)
      · exact .inr (.inr (.inl (cnameTarget_eq_some h)))
      · obtain ⟨rdata, hrdata, rfl⟩ := Option.map_eq_some_iff.1 h
        exact .inr (.inr (.inr ⟨_, _, rdata, rfl, h₄, hrdata⟩))

theorem RecordAction.exists_record {action : DnsRewriteAction} (h : RecordAction action) :
    ∃ r, actionRecord action = some r := by
  obtain ⟨raw, hraw⟩ := h.parsed
  rcases parseDnsrewrite_cases hraw with ⟨rcode, rfl⟩ | ⟨address, rfl⟩ | ⟨target, -, rfl, -⟩ |
    ⟨rtype, value, rdata, rfl, -, hrdata⟩
  · exact absurd rfl (h.not_rcode rcode)
  · cases address with
    | v4 addr => exact ⟨_, rfl⟩
    | v6 addr => exact ⟨_, rfl⟩
  · exact absurd rfl (h.not_cname target)
  · exact ⟨(rtype, rdata), by rw [actionRecord, hrdata, Option.map_some]⟩

theorem encodeTxt_eq_some {value : Text} {rdata : List UInt8} (h : encodeTxt value = some rdata) :
    ∃ chunks : List (List UInt8), chunks.flatten = value.asBytes ∧
      (∀ c ∈ chunks, c.length ≤ 255) ∧
      rdata = chunks.flatMap fun chunk => .ofNat chunk.length :: chunk := by
  unfold encodeTxt at h
  dsimp only at h
  split_ifs at h
  cases h
  obtain ⟨hflat, hle⟩ := flatten_toChunks (by decide : 0 < 255) value.asBytes
  exact ⟨_, hflat, hle, rfl⟩

/-! ## One action -/

section
variable {query : Packet} {question : Question} {ls : List Label}

theorem length_responseHead (hq : HasQuestion query question ls) (rcode : UInt8)
    (an ns : UInt16) :
    (responseHead query question.questionEnd rcode an ns).length = question.questionEnd := by
  obtain ⟨a, b, mid, -, hmid, -, hhead⟩ := responseHead_eq rcode an ns hq
  have hend := hq.questionEnd
  simp only [dnsHeaderLen] at hend
  rw [hhead]
  simp only [List.length_append, length_u16ToBytes, List.length_cons, List.length_nil, hmid]
  omega

theorem length_recordBytes (rtype rclass : UInt16) (ttl : UInt32) (rdata : List UInt8) :
    (recordBytes rtype rclass ttl rdata).length = 12 + rdata.length := by
  simp only [recordBytes, List.length_append, List.length_cons, List.length_nil, length_u16ToBytes,
    length_u32ToBytes]

@[simp] theorem recordsBytes_nil (qclass : UInt16) : recordsBytes qclass [] = [] := rfl

theorem recordsBytes_singleton (qclass : UInt16) (r : UInt16 × List UInt8) :
    recordsBytes qclass [r] = recordBytes r.1 qclass rewriteResponseTtl r.2 := by
  simp [recordsBytes]

theorem recordsBytes_append (qclass : UInt16) (rs rs' : List (UInt16 × List UInt8)) :
    recordsBytes qclass (rs ++ rs') = recordsBytes qclass rs ++ recordsBytes qclass rs' :=
  List.flatMap_append

theorem le_length_recordsBytes (qclass : UInt16) (rs : List (UInt16 × List UInt8)) :
    12 * rs.length ≤ (recordsBytes qclass rs).length := by
  induction rs with
  | nil => simp
  | cons r rs ih =>
    rw [show r :: rs = [r] ++ rs from rfl, recordsBytes_append, recordsBytes_singleton,
      List.length_append, List.length_append, length_recordBytes, List.length_singleton]
    omega

theorem length_noerrorWith (hq : HasQuestion query question ls)
    (rs : List (UInt16 × List UInt8)) : (noerrorWith query question rs).length =
      question.questionEnd + (recordsBytes question.qclass rs).length := by
  rw [noerrorWith, List.length_append, length_responseHead hq]

theorem buildIpResponse_none_eq (query : Packet) (question : Question) (rcode : UInt8) :
    buildIpResponse query question rcode none none 0 =
      responseHead query question.questionEnd rcode 0 0 := by
  have hip : answerIp question rcode none none = none := by
    unfold answerIp
    split_ifs <;> rfl
  rw [buildIpResponse, hip]

theorem buildRecordResponse_cases (hq : HasQuestion query question ls) (rtype : UInt16)
    (rdata : List UInt8) :
    buildRecordResponse query question rtype rdata = noerrorWith query question [(rtype, rdata)] ∨
      buildRecordResponse query question rtype rdata = servfail query question ∧
        maxDnsPacketSize < (noerrorWith query question [(rtype, rdata)]).length := by
  unfold buildRecordResponse
  split_ifs with hlong
  · right
    rw [buildIpResponse_none_eq, length_noerrorWith hq, recordsBytes_singleton,
      length_recordBytes]
    refine ⟨rfl, ?_⟩
    simp only [maxDnsPacketSize] at hlong ⊢
    omega
  · left
    rw [noerrorWith, recordsBytes_singleton]
    rfl

theorem buildIpResponse_v4 (query : Packet) (question : Question) (addr : Ipv4Addr) :
    buildIpResponse query question rcodeNoerror (some addr) none rewriteResponseTtl =
      noerrorWith query question
        (if question.qtype = typeA then [(typeA, addr.octets)] else []) := by
  unfold buildIpResponse answerIp
  rw [if_pos rfl]
  split_ifs with h₁ h₂
  · rw [noerrorWith, recordsBytes_singleton, h₁]
    rfl
  · rw [noerrorWith, recordsBytes_nil, List.append_nil]
    rfl
  · rw [noerrorWith, recordsBytes_nil, List.append_nil]
    rfl

theorem buildIpResponse_v6 (query : Packet) (question : Question) (addr : Ipv6Addr) :
    buildIpResponse query question rcodeNoerror none (some addr) rewriteResponseTtl =
      noerrorWith query question
        (if question.qtype = typeAaaa then [(typeAaaa, addr.octets)] else []) := by
  unfold buildIpResponse answerIp
  rw [if_pos rfl]
  by_cases hA : question.qtype = typeA
  · rw [if_pos hA, if_neg (by rw [hA]; decide), noerrorWith, recordsBytes_nil, List.append_nil]
    rfl
  · rw [if_neg hA]
    split_ifs with h₂
    · rw [noerrorWith, recordsBytes_singleton, h₂]
      rfl
    · rw [noerrorWith, recordsBytes_nil, List.append_nil]
      rfl

/-- **The answer of one action**: its record, if the query asks for it and it
    fits. -/
theorem buildDnsrewriteResponse_record (hq : HasQuestion query question ls)
    (policy : BlockingPolicy) {action : DnsRewriteAction} {r : UInt16 × List UInt8}
    (hr : actionRecord action = some r) :
    buildDnsrewriteResponse query question policy action =
        noerrorWith query question (recordsFor question.qtype [action]) ∨
      buildDnsrewriteResponse query question policy action = servfail query question ∧
        maxDnsPacketSize <
          (noerrorWith query question (recordsFor question.qtype [action])).length := by
  have hrecords : recordsFor question.qtype [action] =
      if r.1 = question.qtype ∨ question.qtype = typeAny then [r] else [] := by
    simp [recordsFor, hr, List.filter_cons]
  rw [hrecords]
  cases action with
  | rcode => cases hr
  | cname => cases hr
  | multiple => cases hr
  | address address =>
    cases address with
    | v4 addr =>
      cases hr
      rw [buildDnsrewriteResponse]
      by_cases hany : question.qtype = typeAny
      · rw [if_pos hany, if_pos (.inr hany)]
        exact buildRecordResponse_cases hq _ _
      · rw [if_neg hany, buildIpResponse_v4]
        left
        congr 1
        simp [hany, eq_comm]
    | v6 addr =>
      cases hr
      rw [buildDnsrewriteResponse]
      by_cases hany : question.qtype = typeAny
      · rw [if_pos hany, if_pos (.inr hany)]
        exact buildRecordResponse_cases hq _ _
      · rw [if_neg hany, buildIpResponse_v6]
        left
        congr 1
        simp [hany, eq_comm]
  | record rtype value =>
    obtain ⟨rdata, hrdata, rfl⟩ := Option.map_eq_some_iff.1 hr
    rw [buildDnsrewriteResponse]
    by_cases hmatch : question.qtype = rtype ∨ question.qtype = typeAny
    · -- the type of the query does not change the data
      have hencode : encodeRewriteRdata rtype value question.qtype = some rdata := by
        have hself : ¬ (rtype ≠ rtype ∧ rtype ≠ typeAny) := fun h => h.1 rfl
        rw [← hrdata, encodeRewriteRdata, encodeRewriteRdata,
          if_neg (by rwa [← not_or, not_not]), if_neg hself]
      rw [if_neg (by rwa [← not_or, not_not]), hencode, if_pos (hmatch.imp_left Eq.symm)]
      exact buildRecordResponse_cases hq _ _
    · rw [if_pos (not_or.1 hmatch), if_neg fun h => hmatch (h.imp_left Eq.symm),
        buildIpResponse_none_eq]
      left
      rw [noerrorWith, recordsBytes_nil, List.append_nil]
      rfl

/-! ## Merged actions -/

theorem head_append (hq : HasQuestion query question ls) (rcode : UInt8) (an ns : UInt16)
    (rest : List UInt8) :
    (responseHead query question.questionEnd rcode an ns ++ rest)[3]? =
        some (0x80 ||| (rcode &&& 0x0f)) ∧
      readU16 (responseHead query question.questionEnd rcode an ns ++ rest) 6 = some an ∧
      (responseHead query question.questionEnd rcode an ns ++ rest).drop question.questionEnd =
        rest := by
  have hlen := length_responseHead hq rcode an ns
  obtain ⟨a, b, mid, -, -, -, hhead⟩ := responseHead_eq rcode an ns hq
  refine ⟨?_, ?_, List.drop_left' hlen⟩
  · rw [hhead]; rfl
  · rw [hhead]
    exact readU16_eq_some.2 ⟨_, _, rfl, rfl, u16OfBytes_toBytes an⟩

theorem recordsFor_cons (qtype : UInt16) (action : DnsRewriteAction)
    (actions : List DnsRewriteAction) : recordsFor qtype (action :: actions) =
      recordsFor qtype [action] ++ recordsFor qtype actions := by
  rw [recordsFor, show action :: actions = [action] ++ actions from rfl, List.filterMap_append,
    List.filter_append]
  rfl

theorem recordsFor_singleton (qtype : UInt16) (action : DnsRewriteAction) :
    recordsFor qtype [action] = [] ∨ ∃ r, recordsFor qtype [action] = [r] := by
  cases hr : actionRecord action with
  | none => left; simp [recordsFor, hr]
  | some r =>
    by_cases hmatch : (r.1 == qtype || qtype == typeAny) = true
    · right
      exact ⟨r, by simp only [recordsFor, List.filterMap_cons, hr, List.filterMap_nil,
        List.filter_cons, hmatch, if_true, List.filter_nil]⟩
    · left
      simp only [recordsFor, List.filterMap_cons, hr, List.filterMap_nil, List.filter_cons, hmatch,
        List.filter_nil, if_false, Bool.false_eq_true]

theorem length_noerrorWith_mono (hq : HasQuestion query question ls)
    (before rs behind : List (UInt16 × List UInt8)) : (noerrorWith query question rs).length ≤
      (noerrorWith query question (before ++ rs ++ behind)).length := by
  rw [length_noerrorWith hq, length_noerrorWith hq, recordsBytes_append, recordsBytes_append,
    List.length_append, List.length_append]
  omega

theorem appendRewrites_cons {policy : BlockingPolicy} {action : DnsRewriteAction}
    {actions : List DnsRewriteAction} {part response : Packet} {records : List UInt8} {byte : UInt8}
    {count answers : UInt16}
    (hpart : buildDnsrewriteResponse query question policy action = part)
    (h3 : part[3]? = some byte) (hbyte : byte &&& 0x0f = 0) (h6 : readU16 part 6 = some answers)
    (hdrop : part.drop question.questionEnd = records) :
    appendRewrites query question policy (action :: actions) response count =
      if answers = 0 then appendRewrites query question policy actions response count
      else if response.length + records.length > maxDnsPacketSize then servfail query question
      else if count.toNat + answers.toNat > 65535 then servfail query question
      else appendRewrites query question policy actions (response ++ records)
        (count + answers) := by
  rw [appendRewrites]
  simp only [hpart, h3, h6, hdrop, Option.getD_some, hbyte, ne_eq, not_true_eq_false, if_false,
    buildIpResponse_none_eq]
  rfl

/-- **The loop over the actions** answers with the records so far and those of
    the actions left, or fails because they do not fit. -/
theorem appendRewrites_eq (hq : HasQuestion query question ls) (policy : BlockingPolicy)
    (actions : List DnsRewriteAction) (hact : ∀ a ∈ actions, ∃ r, actionRecord a = some r)
    (rs : List (UInt16 × List UInt8)) (hrs : rs.length ≤ 65535) :
    let all := rs ++ recordsFor question.qtype actions
    let answer := appendRewrites query question policy actions
      (responseHead query question.questionEnd 0 0 0 ++ recordsBytes question.qclass rs)
      (.ofNat rs.length)
    answer = noerrorWith query question all ∧ all.length ≤ 65535 ∨
      answer = servfail query question ∧
        maxDnsPacketSize < (noerrorWith query question all).length := by
  induction actions generalizing rs with
  | nil =>
    left
    rw [appendRewrites, copyAt_responseHead hq, show recordsFor question.qtype [] = [] from rfl,
      List.append_nil]
    exact ⟨rfl, hrs⟩
  | cons action actions ih =>
    obtain ⟨⟨r, hr⟩, hact⟩ := List.forall_mem_cons.1 hact
    have hall : rs ++ recordsFor question.qtype (action :: actions) =
        rs ++ recordsFor question.qtype [action] ++ recordsFor question.qtype actions := by
      rw [recordsFor_cons, List.append_assoc]
    dsimp only
    rw [hall]
    rcases buildDnsrewriteResponse_record hq policy hr with hpart | ⟨hpart, hlong⟩
    · -- the part has the record of the action, if the query asks for it
      obtain ⟨h3, h6, hdrop⟩ := head_append hq rcodeNoerror
        (.ofNat (recordsFor question.qtype [action]).length) 0
        (recordsBytes question.qclass (recordsFor question.qtype [action]))
      rw [appendRewrites_cons hpart h3 (by decide) h6 hdrop]
      rcases recordsFor_singleton question.qtype action with hnone | ⟨r', hone⟩
      · rw [hnone, List.append_nil]
        exact ih hact rs hrs
      · have hone' : (UInt16.ofNat 1).toNat = 1 := rfl
        have hcount : (UInt16.ofNat rs.length).toNat = rs.length := by
          rw [UInt16.toNat_ofNat', Nat.mod_eq_of_lt (by omega)]
        have hlen := length_noerrorWith hq (rs ++ [r'])
        have hbytes := le_length_recordsBytes question.qclass (rs ++ [r'])
        have hmono := length_noerrorWith_mono hq [] (rs ++ [r'])
          (recordsFor question.qtype actions)
        have hsize : (responseHead query question.questionEnd 0 0 0 ++
            recordsBytes question.qclass rs).length + (recordsBytes question.qclass [r']).length =
              (noerrorWith query question (rs ++ [r'])).length := by
          rw [List.length_append, length_responseHead hq, hlen, recordsBytes_append,
            List.length_append, Nat.add_assoc]
        rw [List.nil_append] at hmono
        rw [List.length_append, List.length_singleton] at hbytes
        rw [hone, List.length_singleton, if_neg (by decide), hsize, hcount, hone']
        split_ifs with hlong hmany
        · exact .inr ⟨rfl, Nat.lt_of_lt_of_le hlong hmono⟩
        · refine .inr ⟨rfl, ?_⟩
          simp only [maxDnsPacketSize]
          omega
        · have hadd : UInt16.ofNat rs.length + UInt16.ofNat 1 =
              UInt16.ofNat (rs ++ [r']).length := by
            rw [List.length_append, List.length_singleton, UInt16.ofNat_add]
          rw [hadd, List.append_assoc (responseHead query question.questionEnd 0 0 0),
            ← recordsBytes_append]
          exact ih hact (rs ++ [r']) (by rw [List.length_append, List.length_singleton]; omega)
    · -- the record alone does not fit
      have hcode := (head_append hq rcodeServfail 0 0 []).1
      rw [List.append_nil] at hcode
      have hfail : appendRewrites query question policy (action :: actions)
          (responseHead query question.questionEnd 0 0 0 ++ recordsBytes question.qclass rs)
          (.ofNat rs.length) = servfail query question := by
        rw [appendRewrites]
        simp only [hpart, servfail, hcode, Option.getD_some]
        exact if_pos (by decide)
      exact .inr ⟨hfail, Nat.lt_of_lt_of_le hlong (length_noerrorWith_mono hq _ _ _)⟩

end

/-- What a query gets from the actions `actions`: their records, or a failure if
    they do not fit. -/
def AnsweredWith (query : Packet) (question : Question) (actions : List DnsRewriteAction)
    (p : Packet) : Prop :=
  let rs := recordsFor question.qtype actions
  p = noerrorWith query question rs ∧ rs.length ≤ 65535 ∨
    p = servfail query question ∧ maxDnsPacketSize < (noerrorWith query question rs).length

/-- **Rewrite rules answer with exactly their records.**  An action of a rule
    for an address or a record, or several of them merged: every action stands
    for a record, and the answer has those the query asks for, in their order,
    unless they do not fit.  An alias answers any query, a code answers with no
    record, and the strings of a TXT record are the text of its rule. -/
theorem rewrite_exact {query : Packet} {q : ParsedQuery} (h : parseQuery query = .ok q)
    (policy : BlockingPolicy) :
    (∀ action, (∀ a ∈ mergedActions action, RecordAction a) →
      (∀ a ∈ mergedActions action, (actionRecord a).isSome) ∧
      AnsweredWith query q.question (mergedActions action)
        (buildDnsrewriteResponse query q.question policy action)) ∧
    (∀ raw target, parseDnsrewrite raw = some (.cname target) → ∃ encoded,
      encodeDnsName target = some encoded ∧
      buildDnsrewriteResponse query q.question policy (.cname target) =
        noerrorWith query q.question [(typeCname, encoded)]) ∧
    (∀ raw rcode, parseDnsrewrite raw = some (.rcode rcode) →
      (buildDnsrewriteResponse query q.question policy (.rcode rcode))[3]? =
        some (0x80 ||| (rcode &&& 0x0f)) ∧
      readU16 (buildDnsrewriteResponse query q.question policy (.rcode rcode)) 6 = some 0) ∧
    ∀ value rdata, encodeRewriteRdata typeTxt value typeTxt = some rdata →
      ∃ chunks : List (List UInt8), chunks.flatten = value.asBytes ∧
        (∀ c ∈ chunks, c.length ≤ 255) ∧
        rdata = chunks.flatMap fun chunk => .ofNat chunk.length :: chunk := by
  obtain ⟨ls, hq⟩ := exists_hasQuestion (parseQuery_question h)
  refine ⟨fun action hact => ?_, fun raw target hraw => ?_, fun raw rcode _ => ?_,
    fun value rdata hrdata => ?_⟩
  · have hsome : ∀ a ∈ mergedActions action, ∃ r, actionRecord a = some r :=
      fun a ha => (hact a ha).exists_record
    refine ⟨fun a ha => Option.isSome_iff_exists.2 (hsome a ha), ?_⟩
    by_cases hmultiple : ∃ actions, action = .multiple actions
    · obtain ⟨actions, rfl⟩ := hmultiple
      have := appendRewrites_eq hq policy actions hsome [] (by simp)
      rw [recordsBytes_nil, List.append_nil, List.nil_append] at this
      rw [buildDnsrewriteResponse, buildIpResponse_none_eq]
      exact this
    · have hself : mergedActions action = [action] := by
        cases action with
        | multiple actions => exact absurd ⟨actions, rfl⟩ hmultiple
        | rcode | cname | address | record => rfl
      rw [hself] at hsome ⊢
      obtain ⟨r, hr⟩ := hsome action (List.mem_singleton_self _)
      refine (buildDnsrewriteResponse_record hq policy hr).imp_left fun hp => ⟨hp, ?_⟩
      rcases recordsFor_singleton q.question.qtype action with hnone | ⟨r', hone⟩
      · rw [hnone]; simp
      · rw [hone]; simp
  · rcases parseDnsrewrite_cases hraw with ⟨_, he⟩ | ⟨_, he⟩ | ⟨_, encoded, he, hencoded⟩ |
      ⟨_, _, _, he, -⟩
    · cases he
    · cases he
    · cases he
      refine ⟨encoded, hencoded, ?_⟩
      rw [buildDnsrewriteResponse, buildCnameResponse, hencoded, noerrorWith,
        recordsBytes_singleton]
      rfl
    · cases he
  · rw [buildDnsrewriteResponse]
    split_ifs with hnx
    · subst hnx
      exact ⟨(head_append hq _ _ _ _).1, (head_append hq _ _ _ _).2.1⟩
    · rw [buildIpResponse_none_eq]
      have := head_append hq rcode 0 0 []
      rw [List.append_nil] at this
      exact ⟨this.1, this.2.1⟩
  · unfold encodeRewriteRdata at hrdata
    rw [if_neg fun h => h.1 rfl, if_pos rfl] at hrdata
    exact encodeTxt_eq_some hrdata

/-- Rules for an address and for a text. -/
def addressRule : DnsRewriteAction := .address (.v4 ⟨192, 0, 2, 1⟩)

def textRule : DnsRewriteAction := .record typeTxt "hello".toList

/-- The answer to `optQuery`, which asks for addresses. -/
theorem addressRule_answered : recordsFor typeA [addressRule, textRule] =
      [(typeA, [192, 0, 2, 1])] ∧
    AnsweredWith optQuery ⟨['a'], 1, 1, 19⟩ [addressRule, textRule]
      (buildDnsrewriteResponse optQuery ⟨['a'], 1, 1, 19⟩ {} (.multiple [addressRule, textRule])) := by
  have hparsed : parseQuery optQuery =
      .ok ⟨⟨['a'], 1, 1, 19⟩, true, false, false, true, some 4096, true⟩ := by decide
  have hrules : ∀ a ∈ [addressRule, textRule], RecordAction a := by
    refine List.forall_mem_cons.2 ⟨⟨⟨"192.0.2.1".toList, by decide +kernel⟩, ?_, ?_⟩,
      List.forall_mem_singleton.2 ⟨⟨"NOERROR;TXT;hello".toList, by decide +kernel⟩, ?_, ?_⟩⟩
    all_goals
      intro _ he
      cases he
  exact ⟨by decide, ((rewrite_exact hparsed {}).1 (.multiple [addressRule, textRule]) hrules).2⟩

/-- A rule for a code does not answer with NOERROR, and a rule for an alias
    answers a query for addresses with a record of another type. -/
theorem refusedRule_answered : parseDnsrewrite "REFUSED".toList = some (.rcode 5) ∧
    (∃ q, parseQuery optQuery = .ok q ∧ q.question = ⟨['a'], 1, 1, 19⟩) ∧
    (buildDnsrewriteResponse optQuery ⟨['a'], 1, 1, 19⟩ {} (.rcode 5))[3]? = some 0x85 ∧
    parseDnsrewrite "b".toList = some (.cname "b".toList) ∧
    (buildDnsrewriteResponse optQuery ⟨['a'], 1, 1, 19⟩ {} (.cname "b".toList)).drop 19 =
      recordBytes typeCname 1 300 [1, 98, 0] :=
  ⟨by decide +kernel, ⟨_, rfl, rfl⟩, by decide, by decide +kernel, by decide +kernel⟩

end DnsBlackhole.Protocol
