/-
  Clients that have asked without EDNS.

  A query without an OPT record is to be answered without one.  What is built here
  has none, the cache appends one only for a query that had one, and queries of one
  key agree on it (`congruent_plainFor`).  A response of an upstream server is
  passed on as it is; with DNSSEC the server is asked with an OPT record that the
  client has not sent, and what it answers with comes to the client.

  * `plainClients_withoutOpt`: the runs in which no client gets an OPT record that it
    has not asked for;
  * `signedRun_hands_opt`: a run in which one does.
-/
import DnsBlackhole.Worker.Protected
import DnsBlackhole.Worker.Serving

namespace DnsBlackhole

namespace Upstream
open Protocol

/-- What arrives answers the query, and has an OPT record only if the message had one. -/
structure Network.Honest (network : Network) (query : Packet) : Prop where
  datagrams : ∀ index, ∀ datagram ∈ (network.exchange index).datagrams, hasOpt query = false →
    hasOpt datagram = false
  stream : ∀ index response, forwardTcp query (network.exchange index) = .ok response →
    hasOpt query = false → hasOpt response = false
  doh : ∀ message response, network.doh message = .ok response → hasOpt message = false →
    hasOpt response = false
  library : ∀ message response, network.library message = .ok response →
    hasOpt message = false → hasOpt response = false
  /-- Without DNSSEC the library sends the records of the query. -/
  unsigned : ∀ message, network.message false query = .ok message → hasOpt query = false →
    hasOpt message = false

/-- With DNSSEC the server does not answer with an OPT record. -/
def AnswersPlainly (upstream : RuntimeUpstream) (network : Network) (query : Packet) : Prop :=
  upstream.dnssecEnabled = true → ∀ message response,
    network.message true query = .ok message → network.library message = .ok response →
    hasOpt response = false

section
variable {query : Packet} {upstream : RuntimeUpstream} {network : Network} {reply : Reply}

theorem hasOpt_withIdentifier {packet : Packet} (hopt : hasOpt packet = false) :
    hasOpt (if 2 ≤ packet.length then copyAt packet 0 (query.take 2) else packet) = false := by
  split_ifs with hlen
  · exact hasOpt_copyIdentifier (by rw [List.length_take]; omega) hlen hopt
  · exact hopt

theorem forwardHickory_withoutOpt (hhonest : network.Honest query)
    (hplain : AnswersPlainly upstream network query) (hopt : hasOpt query = false)
    (h : forwardHickory query upstream network = .ok reply) : hasOpt reply.packet = false := by
  unfold forwardHickory at h
  split_ifs at h with hshort
  split at h
  · cases h
  · rename_i message hmessage
    cases hlibrary : network.library message with
    | error error =>
      rw [hlibrary] at h
      cases h
    | ok response =>
      rw [hlibrary] at h
      cases h
      refine hasOpt_withIdentifier ?_
      cases hdnssec : upstream.dnssecEnabled with
      | true =>
        rw [hdnssec] at hmessage
        exact hplain hdnssec message response hmessage hlibrary
      | false =>
        rw [hdnssec] at hmessage
        exact hhonest.library message response hlibrary (hhonest.unsigned message hmessage hopt)

theorem forwardDoh_withoutOpt {response : Packet} (hhonest : network.Honest query)
    (hopt : hasOpt query = false) (h : forwardDoh query network = .ok response) :
    hasOpt response = false := by
  unfold forwardDoh at h
  dsimp only at h
  have hbody : hasOpt (if 2 ≤ query.length then copyAt query 0 [0, 0] else query) = false := by
    split_ifs with hlen
    · exact hasOpt_copyIdentifier (by simp) hlen hopt
    · exact hopt
  cases hdoh : network.doh (if 2 ≤ query.length then copyAt query 0 [0, 0] else query) with
  | error error =>
    rw [hdoh] at h
    cases h
  | ok answer =>
    rw [hdoh] at h
    cases h
    have hanswer := hhonest.doh _ answer hdoh hbody
    dsimp only
    split_ifs with hlen
    · exact hasOpt_copyIdentifier (by rw [List.length_take]; omega) hlen.1 hanswer
    · exact hanswer

theorem forwardUdp_withoutOpt {index : ℕ} (hhonest : network.Honest query)
    (hopt : hasOpt query = false) (h : forwardUdp query (network.exchange index) = .ok reply) :
    hasOpt reply.packet = false := by
  unfold forwardUdp at h
  split at h
  · cases h
  · split at h
    · cases h
    · rename_i response hresponse
      split_ifs at h with htruncated
      · cases htcp : forwardTcp query (network.exchange index) with
        | error error =>
          rw [htcp] at h
          cases h
        | ok streamed =>
          rw [htcp] at h
          cases h
          exact hhonest.stream index streamed htcp hopt
      · cases h
        unfold udpExchange at hresponse
        split at hresponse
        · cases hresponse
        · split at hresponse
          · rename_i datagram hfound
            cases hresponse
            exact hhonest.datagrams index response (List.mem_of_find?_eq_some hfound) hopt
          · cases hresponse

/-- **The reply to a query without an OPT record** has none, unless it is one to the
    message of the library. -/
theorem forwardToUpstream_withoutOpt (hhonest : network.Honest query)
    (hplain : AnswersPlainly upstream network query) (hopt : hasOpt query = false)
    (h : (forwardToUpstream query upstream network).result = .ok reply) :
    hasOpt reply.packet = false := by
  obtain ⟨-, hexchange, -⟩ := forwardToUpstream_eq_ok h
  unfold exchangeWith at hexchange
  split_ifs at hexchange with hlibrary
  · exact forwardHickory_withoutOpt hhonest hplain hopt hexchange
  · have hudp : ∀ addresses, forwardUdpAddresses query addresses network = .ok reply →
        hasOpt reply.packet = false := by
      intro addresses haddresses
      obtain ⟨entry, -, hentry⟩ := tryAddresses_eq_ok haddresses
      exact forwardUdp_withoutOpt hhonest hopt hentry
    split at hexchange
    · split at hexchange
      · cases hexchange
      · exact hudp _ hexchange
    · split at hexchange
      · cases hexchange
      · exact hudp _ hexchange
    · cases hdoh : forwardDoh query network with
      | error error =>
        rw [hdoh] at hexchange
        cases hexchange
      | ok response =>
        rw [hdoh] at hexchange
        cases hexchange
        exact forwardDoh_withoutOpt hhonest hopt hdoh

end

end Upstream

namespace Worker
open Lib Cache DnsBlackhole.Filter Protocol Upstream

/-! ## Queries without an OPT record -/

/-- The response has no OPT record, if the query has none. -/
def PlainFor (work : WorkItem) (response : Packet) : Prop :=
  hasOpt work.query = false → hasOpt response = false

/-- The network is honest, and the server answers a query without an OPT record plainly
    whenever it is asked for it, for a client or for the cache. -/
def AsksPlainly (s : ServingState) : ServingEvent → Prop
  | .forward n (.ok call) _ _ => ∀ item, s.workers.items[n]? = some item →
      call.network.Honest item.work.query ∧ (hasOpt item.work.query = false →
        AnswersPlainly call.upstream call.network item.work.query)
  | .insert n call _ _ => ∀ item, s.workers.items[n]? = some item →
      call.network.Honest item.work.query ∧ (hasOpt item.work.query = false →
        AnswersPlainly call.upstream call.network item.work.query)
  | _ => True

section
variable {context : WorkerContext} {work : WorkItem} {io : Surroundings} {response : Packet}

theorem hasOpt_of_queryCacheKey {snapshot : Snapshot} {key : QueryCacheKey}
    (h : queryCacheKey context snapshot work = some key) : hasOpt work.query = key.edns := by
  obtain ⟨key', hkey', rfl⟩ := Option.map_eq_some_iff.1 h
  unfold QueryCacheKey.fromQuery at hkey'
  split_ifs at hkey' with hsafe
  cases hkey'
  exact hasOpt_of_cacheSafe work.parses hsafe

/-- **Queries of one key agree on the OPT record.** -/
theorem congruent_plainFor (context : WorkerContext) : Congruent context PlainFor := by
  intro work snapshot work' snapshot' key response hkey hkey' h hopt
  refine h ?_
  rw [hasOpt_of_queryCacheKey hkey, ← hasOpt_of_queryCacheKey hkey', hopt]

theorem truncateResponseForUdp_withoutOpt {query sent : Packet} {maxSize : ℕ}
    (hopt : hasOpt response = false)
    (h : truncateResponseForUdp query response maxSize = some sent) : hasOpt sent = false := by
  unfold truncateResponseForUdp at h
  split_ifs at h
  · cases h
    exact hopt
  · split at h
    · cases h
    · rename_i question hquestion
      split at h
      · rename_i id questionBytes hid _
        dsimp only at h
        split_ifs at h
        cases h
        have hlen : id.length = 2 := by
          unfold slice? at hid
          split_ifs at hid with hle
          cases hid
          rw [List.length_take, List.length_drop]
          omega
        obtain ⟨a, b, rfl⟩ := List.length_eq_two.1 hlen
        -- the counts are those of a question without records
        have hzero : announcedRecords ([a, b] ++ [response[2]?.getD 0 ||| 0x02,
            response[3]?.getD 0] ++ u16ToBytes 1 ++ u16ToBytes 0 ++ u16ToBytes 0 ++ u16ToBytes 0 ++
            questionBytes) = 0 := rfl
        rw [hasOpt, hzero]
        split
        · rfl
        · rfl
      · cases h

theorem sentBytes_withoutOpt {sent : Packet} (hopt : hasOpt response = false)
    (h : (sentBytes work io response).toOption = some sent) : hasOpt sent = false := by
  rcases sentBytes_eq_some h with rfl | ⟨-, htruncated⟩
  · exact hopt
  · exact truncateResponseForUdp_withoutOpt hopt htruncated

theorem prepareForwardedResponse_withoutOpt {query : Packet} (hopt : hasOpt response = false) :
    hasOpt (prepareForwardedResponse response query) = false := by
  unfold prepareForwardedResponse
  split
  · rename_i prepared hprepared
    exact hasOpt_prepare hprepared hopt
  · split_ifs with hlen
    · exact hasOpt_copyIdentifier (by rw [List.length_take]; omega) hlen.1 hopt
    · exact hopt

theorem HandedAs.withoutOpt {config : DnsCacheConfig} {outcome : Outcome} {h : Handed}
    (hhanded : HandedAs work outcome h)
    (hgood : outcome.IsGood config PlainFor PlainFor work) (hopt : hasOpt work.query = false)
    {origin : ResponseOrigin} {sent : Option Packet} (heq : h = .response origin response sent) :
    hasOpt response = false ∧ ∀ bytes, sent = some bytes → hasOpt bytes = false := by
  suffices hresponse : hasOpt response = false by
    refine ⟨hresponse, fun bytes hbytes => ?_⟩
    cases hhanded with
    | nothing _ => cases heq
    | made _ _ => cases heq; exact sentBytes_withoutOpt hresponse hbytes
    | cached => cases heq; exact sentBytes_withoutOpt hresponse hbytes
    | upstream _ => cases heq; exact sentBytes_withoutOpt hresponse hbytes
  cases hhanded with
  | nothing _ => cases heq
  | made _ hmakes =>
    cases heq
    obtain ⟨rcode, an, ns, rs, hbuilt, hrs⟩ := hmakes
    obtain ⟨ls, hq⟩ := exists_hasQuestion (parseQuery_question work.parses)
    exact hbuilt.not_hasOpt hq hrs
  | cached =>
    cases heq
    obtain ⟨answer, ttl, stored, ttl', hanswer, -, hstored, hhit⟩ := hgood
    obtain rfl := not_hasOpt_normalize hstored (hanswer hopt)
    have hsize : work.parsed.ednsUdpSize = none := by
      rw [← Option.not_isSome_iff_eq_none]
      intro hsome
      rw [hasOpt_of_ednsUdpSize work.parses hsome] at hopt
      cases hopt
    exact not_hasOpt_prepareCached work.parses hsize hhit (hanswer hopt)
  | upstream hresponse =>
    cases heq
    rcases hresponse with rfl | rfl
    · exact hgood hopt
    · exact prepareForwardedResponse_withoutOpt (hgood hopt)

theorem bringsGood_of_asksPlainly (context : WorkerContext) (cacheHash : QueryCacheKey → ℕ)
    (config : DnsCacheConfig) {s : ServingState} {e : ServingEvent} (h : AsksPlainly s e) :
    BringsGood context cacheHash config PlainFor PlainFor s e := by
  cases e with
  | forward n attempt upstreamTraffic io =>
    cases attempt with
    | error error => exact trivial
    | ok call =>
      intro item hn reply hreply hopt
      obtain ⟨hhonest, hplain⟩ := h item hn
      exact forwardToUpstream_withoutOpt hhonest (hplain hopt) hopt hreply
  | insert n call order now =>
    intro item hn reply hreply key store _ _ _ hopt
    obtain ⟨hhonest, hplain⟩ := h item hn
    exact forwardToUpstream_withoutOpt hhonest (hplain hopt) hopt hreply
  | _ => exact trivial

/-- **No client gets an OPT record that it has not asked for**, as long as every server
    that is asked for a query without one answers plainly: whatever the query is
    answered with, and when it is refused. -/
theorem plainClients_withoutOpt {hash cacheHash : QueryCacheKey → ℕ} {config : DnsCacheConfig}
    {shardCount cacheShardCount : ℕ} {es : List ServingEvent} {s : ServingState}
    (hguard : (servingMachine context hash cacheHash config shardCount cacheShardCount).Guarded
      AsksPlainly (servingMachine context hash cacheHash config shardCount cacheShardCount).init es)
    (hrun : (servingMachine context hash cacheHash config shardCount cacheShardCount).run
      (servingMachine context hash cacheHash config shardCount cacheShardCount).init es = some s) :
    (∀ n h, (n, h) ∈ s.workers.server.handed → ∃ item, s.workers.items[n]? = some item ∧
      (hasOpt item.work.query = false → ∀ origin response sent,
        h = .response origin response sent → hasOpt response = false ∧
          ∀ bytes, sent = some bytes → hasOpt bytes = false)) ∧
    ∀ query rcode response, buildErrorResponse query rcode = some response →
      hasOpt response = false := by
  constructor
  · intro n h hmem
    have hgood := Machine.Guarded.mono (P := fun _ => True) (fun _ _ _ _ _ _ => trivial)
      (fun _ _ _ => bringsGood_of_asksPlainly context cacheHash config) es trivial hguard
    obtain ⟨item, outcome, hn, hhanded, hisGood⟩ := served (congruent_plainFor context)
      (congruent_plainFor context) hgood hrun n h hmem
    exact ⟨item, hn, fun hopt origin response sent heq => hhanded.withoutOpt hisGood hopt heq⟩
  · intro query rcode response hresponse
    unfold buildErrorResponse at hresponse
    split at hresponse
    · cases hresponse
    · rename_i question hquestion
      cases hresponse
      obtain ⟨ls, hq⟩ := exists_hasQuestion hquestion
      exact (built_head query question.questionEnd rcode).not_hasOpt hq withoutOpt_nil

end

/-! ## Small runs -/

/-- A server over TLS. -/
def resolver (dnssecEnabled : Bool) : RuntimeUpstream := ⟨.tls ['d'] 853, [], dnssecEnabled⟩

/-- The query with an OPT record that asks for signatures. -/
def signingQuery : Packet :=
  [0, 7, 1, 32, 0, 1, 0, 0, 0, 0, 0, 1, 1, 97, 0, 0, 1, 0, 1, 0, 0, 41, 4, 208, 0, 0, 128, 0, 0, 0]

/-- The response to it, with an OPT record. -/
def signedResponse : Packet :=
  [0, 7, 129, 160, 0, 1, 0, 1, 0, 0, 0, 1, 1, 97, 0, 0, 1, 0, 1,
    192, 12, 0, 1, 0, 1, 0, 0, 0, 60, 0, 4, 8, 0, 0, 1, 0, 0, 41, 4, 208, 0, 0, 128, 0, 0, 0]

/-- A server that answers with an OPT record if the message has one. -/
def resolverNetwork : Network where
  message dnssec query := .ok (if dnssec then signingQuery else query)
  library message := .ok (if hasOpt message then signedResponse else publicResponse)

theorem resolverNetwork_honest (query : Packet) : resolverNetwork.Honest query where
  datagrams _ _ hmem := by cases hmem
  stream index response h := by
    unfold forwardTcp at h
    split_ifs at h
    cases h
  doh _ _ h := by cases h
  library message response h hopt := by
    simp only [resolverNetwork, hopt, Bool.false_eq_true, if_false] at h
    cases h
    decide
  unsigned message h hopt := by
    cases h
    exact hopt

/-- A query without an OPT record is forwarded, stored and answered. -/
def resolvedRun (dnssecEnabled : Bool) : List ServingEvent :=
  [.worker (.accept plainWork ⟨rebindingOnly, false, ⟨0, 0⟩⟩ {}), .lookup 0 10 {}, .worker (.begin 0),
    .forward 0 (.ok ⟨resolver dnssecEnabled, resolverNetwork, 5⟩) {} {}, .worker (.take 0),
    .insert 0 ⟨resolver dnssecEnabled, resolverNetwork, 5⟩ storedOrder 10,
    .worker (.answer 0 {} {})]

/-- Without DNSSEC its client gets the address. -/
theorem resolvedRun_withoutOpt : ∃ s h,
    (servingMachine {} (fun _ => 0) (fun _ => 0) freshConfig 4 1).run
      (servingMachine {} (fun _ => 0) (fun _ => 0) freshConfig 4 1).init (resolvedRun false) =
        some s ∧
    (0, h) ∈ s.workers.server.handed ∧ h.foreign = some publicResponse ∧
    ∀ response, h = .response (.upstream publicResponse) response (some response) →
      hasOpt response = false := by
  have hrun : (servingMachine {} (fun _ => 0) (fun _ => 0) freshConfig 4 1).run
      (servingMachine {} (fun _ => 0) (fun _ => 0) freshConfig 4 1).init (resolvedRun false) =
        some _ := rfl
  have hguard := @Machine.Guarded.of_run _ _
    (servingMachine {} (fun _ => 0) (fun _ => 0) freshConfig 4 1) AsksPlainly (resolvedRun false) _ _
    (fun e he s => by
      simp only [resolvedRun, List.mem_cons, List.not_mem_nil, or_false] at he
      rcases he with rfl | rfl | rfl | rfl | rfl | rfl | rfl
      · exact trivial
      · exact trivial
      · exact trivial
      · exact fun item _ => ⟨resolverNetwork_honest _, fun _ h => by cases h⟩
      · exact trivial
      · exact fun item _ => ⟨resolverNetwork_honest _, fun _ h => by cases h⟩
      · exact trivial) hrun
  refine ⟨_, _, hrun, List.mem_singleton.2 rfl, rfl, fun response hresponse => ?_⟩
  obtain ⟨item, hn, hplain⟩ := (plainClients_withoutOpt hguard hrun).1 0 _ (List.mem_singleton.2 rfl)
  cases hn
  exact (hplain (by decide) _ _ _ hresponse).1

/-- **With DNSSEC a client gets an OPT record that it has not asked for.** -/
theorem signedRun_hands_opt : (∀ query, resolverNetwork.Honest query) ∧
    hasOpt plainWork.query = false ∧ hasOpt signedResponse = true ∧
    ((servingMachine {} (fun _ => 0) (fun _ => 0) freshConfig 4 1).run
      (servingMachine {} (fun _ => 0) (fun _ => 0) freshConfig 4 1).init (resolvedRun true)).map
        (fun s => s.workers.server.handed) =
      some [(0, .response (.upstream signedResponse) signedResponse (some signedResponse))] :=
  ⟨resolverNetwork_honest, by decide, by decide, rfl⟩

end Worker

end DnsBlackhole
