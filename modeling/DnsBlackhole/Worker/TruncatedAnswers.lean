/-
  Truncated answers of upstream servers.

  A plain server whose datagram is truncated is asked again over TCP.  The client
  library, which takes over when DNSSEC is switched on, has no such retry, and
  neither `response_cache_ttl` nor `insert_cached_response` looks at the truncation
  flag.

  * `reply_truncated_iff`: when a truncated datagram becomes a reply;
  * `insertion_truncated_iff`: when a truncated message is stored;
  * `truncated_answers`: both, and the runs in which a client over TCP never gets
    one of these;
  * `truncatedRun_hands`: a run in which one does.
-/
import DnsBlackhole.Cache.Admitted
import DnsBlackhole.Protocol.Flags
import DnsBlackhole.Worker.PlainClients

namespace DnsBlackhole

namespace Upstream
open Protocol

/-- The packet with the identifier of the query. -/
def withIdentifier (query packet : Packet) : Packet :=
  if 2 ≤ packet.length then copyAt packet 0 (query.take 2) else packet

/-- With DNSSEC, the library hands over a truncated datagram of a plain server that
    passes the checks. -/
def TakesTruncated (query : Packet) (upstream : RuntimeUpstream) (network : Network) : Prop :=
  upstream.dnssecEnabled = true ∧ libraryCarrier upstream.server = .udp ∧ network.late = false ∧
  2 ≤ query.length ∧ ∃ message datagram, network.message true query = .ok message ∧
    network.library message = .ok datagram ∧ responseIsTruncated datagram = true ∧
    validateResponseForQuery query (withIdentifier query datagram) = .ok () ∧
    ((withIdentifier query datagram)[3]?.any fun flags => flags &&& 0x0f = 2) = false

section
variable {query packet p p' : Packet} {upstream : RuntimeUpstream} {network : Network}
  {reply : Reply}

theorem responseIsTruncated_congr (h : p'[2]? = p[2]?) :
    responseIsTruncated p' = responseIsTruncated p := by
  rw [responseIsTruncated, h, responseIsTruncated]

theorem flags_copyIdentifier (hlen : 2 ≤ packet.length) :
    (copyAt packet 0 (query.take 2))[2]? = packet[2]? := by
  have hcopy : 0 + (query.take 2).length ≤ packet.length := by
    rw [List.length_take]
    omega
  rw [getElem?_copyAt hcopy, if_neg]
  rw [List.length_take]
  omega

theorem flags_withIdentifier (query packet : Packet) :
    (withIdentifier query packet)[2]? = packet[2]? := by
  unfold withIdentifier
  split_ifs with hlen
  · exact flags_copyIdentifier hlen
  · rfl

theorem forwardHickory_eq_ok (h : forwardHickory query upstream network = .ok reply) :
    2 ≤ query.length ∧ ∃ message datagram,
      network.message upstream.dnssecEnabled query = .ok message ∧
      network.library message = .ok datagram ∧
      reply = ⟨libraryCarrier upstream.server, withIdentifier query datagram⟩ := by
  unfold forwardHickory at h
  split_ifs at h with hshort
  split at h
  · cases h
  · rename_i message hmessage
    cases hlibrary : network.library message with
    | error error =>
      rw [hlibrary] at h
      cases h
    | ok datagram =>
      rw [hlibrary] at h
      cases h
      exact ⟨Nat.le_of_not_lt hshort, message, datagram, hmessage, hlibrary, rfl⟩

theorem dnssecEnabled_of_usesLibrary (h : usesLibrary upstream = true)
    (hplain : libraryCarrier upstream.server = .udp) : upstream.dnssecEnabled = true := by
  unfold usesLibrary at h
  cases hserver : upstream.server with
  | udp address => simpa [hserver] using h
  | udpHostname hostname port => simpa [hserver] using h
  | doh url => rw [hserver] at hplain; cases hplain
  | tls hostname port => rw [hserver] at hplain; cases hplain
  | quic hostname port => rw [hserver] at hplain; cases hplain

theorem not_truncated_of_exchange (hlibrary : usesLibrary upstream = false)
    (h : exchangeWith query upstream network = .ok reply) (hudp : reply.carrier = .udp) :
    responseIsTruncated reply.packet = false := by
  unfold exchangeWith at h
  rw [hlibrary] at h
  have haddresses : ∀ addresses, forwardUdpAddresses query addresses network = .ok reply →
      responseIsTruncated reply.packet = false := by
    intro addresses hforward
    obtain ⟨entry, -, hentry⟩ := tryAddresses_eq_ok hforward
    rcases forwardUdp_not_truncated hentry with htcp | ⟨-, hcomplete⟩
    · rw [htcp] at hudp
      cases hudp
    · exact hcomplete
  simp only [Bool.false_eq_true, if_false] at h
  split at h
  · split at h
    · cases h
    · exact haddresses _ h
  · split at h
    · cases h
    · exact haddresses _ h
  · cases hdoh : forwardDoh query network with
    | error error =>
      rw [hdoh] at h
      cases h
    | ok response =>
      rw [hdoh] at h
      cases h
      cases hudp

/-- **A truncated datagram becomes a reply** exactly when the library takes it. -/
theorem reply_truncated_iff (query : Packet) (upstream : RuntimeUpstream) (network : Network) :
    (∀ reply, (forwardToUpstream query upstream network).result = .ok reply →
      reply.carrier = .udp → responseIsTruncated reply.packet = false) ↔
      ¬ TakesTruncated query upstream network := by
  constructor
  · rintro h ⟨hdnssec, hplain, hlate, hlen, message, datagram, hmessage, hlibrary, htruncated,
      hvalid, hservfail⟩
    have huses : usesLibrary upstream = true := by rw [usesLibrary, hdnssec, Bool.true_or]
    have hforward : forwardHickory query upstream network =
        .ok ⟨.udp, withIdentifier query datagram⟩ := by
      rw [forwardHickory, if_neg (by omega), hdnssec, hmessage]
      simp only [hlibrary, hplain]
      rfl
    have hresult : (forwardToUpstream query upstream network).result =
        .ok ⟨.udp, withIdentifier query datagram⟩ := by
      rw [forwardToUpstream, hlate, if_neg Bool.false_ne_true, exchangeWith, if_pos huses,
        hforward]
      simp only [judge, hvalid]
      rw [if_neg]
      rintro ⟨-, hcode⟩
      rw [hservfail] at hcode
      cases hcode
    have hcomplete := h _ hresult rfl
    rw [responseIsTruncated_congr (flags_withIdentifier query datagram), htruncated] at hcomplete
    cases hcomplete
  · intro h reply hreply hudp
    obtain ⟨hlate, hexchange, hvalid, hservfail⟩ := forwardToUpstream_eq_ok hreply
    cases hlibrary : usesLibrary upstream with
    | false => exact not_truncated_of_exchange hlibrary hexchange hudp
    | true =>
      rw [exchangeWith, if_pos hlibrary] at hexchange
      obtain ⟨hlen, message, datagram, hmessage, hdatagram, rfl⟩ := forwardHickory_eq_ok hexchange
      have hdnssec := dnssecEnabled_of_usesLibrary hlibrary hudp
      rw [responseIsTruncated_congr (flags_withIdentifier query datagram), Bool.eq_false_iff]
      intro htruncated
      refine h ⟨hdnssec, hudp, hlate, hlen, message, datagram, ?_, hdatagram, htruncated, hvalid,
        ?_⟩
      · rwa [hdnssec] at hmessage
      · rw [Bool.eq_false_iff]
        exact fun hcode => hservfail ⟨hdnssec, hcode⟩

end

end Upstream

namespace Cache
open Protocol

/-- The message is stored: it has a time to live, can be stripped of its OPT record, and
    is not too large for the shard of its key. -/
def Stores (hash : QueryCacheKey → ℕ) (s : DnsCacheStore) (config : DnsCacheConfig)
    (key : QueryCacheKey) (response : Packet) : Prop :=
  ∃ ttl stored shard, cacheTtlSeconds response config = some ttl ∧
    normalizeCachedResponse response = some stored ∧
    s.shards[s.shardIndex hash key]? = some shard ∧ ttl ≠ 0 ∧
    DnsCache.entrySize key stored ≤ shard.config.maxSizeBytes

section
variable {hash : QueryCacheKey → ℕ} {order : CacheOrder} {s : DnsCacheStore}
  {config : DnsCacheConfig} {key : QueryCacheKey} {response : Packet} {now : ℕ}

theorem insertCachedResponse_iff :
    (insertCachedResponse hash order s config key response now).1 = true ↔
      Stores hash s config key response := by
  unfold insertCachedResponse Stores
  cases httl : cacheTtlSeconds response config with
  | none => simp
  | some ttl =>
    cases hstored : normalizeCachedResponse response with
    | none => simp
    | some stored =>
      unfold DnsCacheStore.insertWithTtl
      dsimp only
      cases hshard : s.shards[s.shardIndex hash key]? with
      | none => simp
      | some shard =>
        unfold DnsCache.insertWithTtl
        dsimp only
        split_ifs with hzero hsize
        · simp [hzero]
        · simp [Nat.not_le.2 hsize]
        · simpa [hzero] using hsize

/-- **A truncated message is stored** exactly when it would be without the flag. -/
theorem insertion_truncated_iff (hash : QueryCacheKey → ℕ) (order : CacheOrder) (s : DnsCacheStore)
    (config : DnsCacheConfig) (key : QueryCacheKey) (response : Packet) (now : ℕ) :
    ((insertCachedResponse hash order s config key response now).1 = true →
      ∀ stored, normalizeCachedResponse response = some stored →
        responseIsTruncated stored = false) ↔
      (responseIsTruncated response = false ∨ ¬ Stores hash s config key response) := by
  rw [insertCachedResponse_iff]
  constructor
  · intro h
    by_cases hstores : Stores hash s config key response
    · obtain ⟨ttl, stored, shard, -, hstored, -⟩ := id hstores
      have := h hstores stored hstored
      rw [Upstream.responseIsTruncated_congr (flags_normalizeCachedResponse hstored)] at this
      exact .inl this
    · exact .inr hstores
  · rintro (hcomplete | hno) hstores stored hstored
    · rw [Upstream.responseIsTruncated_congr (flags_normalizeCachedResponse hstored), hcomplete]
    · exact absurd hstores hno

end

end Cache

namespace Worker
open Lib Cache DnsBlackhole.Filter Protocol Upstream

/-! ## Clients over TCP -/

/-- No truncated datagram is taken by the library, and no truncated message is stored. -/
def AvoidsTruncated (context : WorkerContext) (cacheHash : QueryCacheKey → ℕ)
    (config : DnsCacheConfig) (s : ServingState) : ServingEvent → Prop
  | .forward n (.ok call) _ _ => ∀ item, s.workers.items[n]? = some item →
      ¬ TakesTruncated item.work.query call.upstream call.network
  | .insert n call _ _ => ∀ item, s.workers.items[n]? = some item → ∀ reply,
      call.reply item.work.query = .ok reply → ∀ key store,
      queryCacheKey context item.snapshot item.work = some key → s.cache = some store →
      responseIsTruncated reply.packet = false ∨ ¬ Stores cacheHash store config key reply.packet
  | _ => True

/-- The response is complete, or a call of the run has got it over another carrier
    than UDP. -/
def CompleteOrStreamed (es : List ServingEvent) (s : ServingState) (response : Packet) : Prop :=
  responseIsTruncated response = true → ∃ n call upstreamTraffic io item reply,
    .forward n (.ok call) upstreamTraffic io ∈ es ∧ s.workers.items[n]? = some item ∧
      call.reply item.work.query = .ok reply ∧ reply.carrier ≠ .udp ∧ reply.packet = response

section
variable {context : WorkerContext} {hash cacheHash : QueryCacheKey → ℕ} {config : DnsCacheConfig}
  {work : WorkItem} {response : Packet}

theorem not_truncated_of_makes (h : work.Makes response) :
    responseIsTruncated response = false := by
  have hbits : ∀ n : Fin 256, (0x80 ||| (UInt8.ofNat n.val &&& 0x01)) &&& 0x02 = 0 := by
    decide +kernel
  obtain ⟨rcode, an, ns, rs, hbuilt, -⟩ := h
  obtain ⟨ls, hq⟩ := exists_hasQuestion (parseQuery_question work.parses)
  have hbyte := hbits ⟨(work.query[2]?.getD 0).toNat, (work.query[2]?.getD 0).toNat_lt⟩
  rw [UInt8.ofNat_toNat] at hbyte
  rw [responseIsTruncated, hbuilt.flags hq, Option.any_some, hbyte]
  rfl

theorem flags_prepareForwardedResponse (response query : Packet) :
    (prepareForwardedResponse response query)[2]? = response[2]? := by
  unfold prepareForwardedResponse
  split
  · rename_i prepared hprepared
    exact flags_prepareResponseForQuery hprepared
  · split_ifs with hlen
    · exact flags_copyIdentifier hlen.1
    · rfl

theorem items_of_servingStep {s s' : ServingState} {e : ServingEvent}
    (h : servingStep context hash cacheHash config s e = some s') {n : ℕ} {item : Item}
    (hn : s.workers.items[n]? = some item) :
    ∃ item', s'.workers.items[n]? = some item' ∧ item'.work = item.work := by
  have hworker : ∀ e' workers, workerStep context hash s.workers e' = some workers →
      ∃ item', workers.items[n]? = some item' ∧ item'.work = item.work := by
    intro e' workers hstep
    obtain ⟨item', hn', hwork, -⟩ := (workerStep_move hstep).items n item hn
    exact ⟨item', hn', hwork⟩
  cases e with
  | worker e =>
    simp only [servingStep] at h
    split_ifs at h
    obtain ⟨workers, hworkers, rfl⟩ := Option.map_eq_some_iff.1 h
    exact hworker _ _ hworkers
  | lookup k now io =>
    simp only [servingStep] at h
    split at h
    · obtain ⟨workers, hworkers, rfl⟩ := Option.map_eq_some_iff.1 h
      exact hworker _ _ hworkers
    · cases h
  | forward k attempt upstreamTraffic io =>
    simp only [servingStep] at h
    split at h
    · obtain ⟨workers, hworkers, rfl⟩ := Option.map_eq_some_iff.1 h
      exact hworker _ _ hworkers
    · cases h
  | insert k call order now =>
    simp only [servingStep] at h
    split at h
    · split at h
      · cases h
        exact ⟨item, hn, rfl⟩
      · cases h
    · cases h
  | finishRefresh key =>
    cases h
    exact ⟨item, hn, rfl⟩
  | clear =>
    cases h
    exact ⟨item, hn, rfl⟩

theorem items_of_run {shardCount cacheShardCount : ℕ} {s s' : ServingState}
    {es : List ServingEvent}
    (h : (servingMachine context hash cacheHash config shardCount cacheShardCount).run s es =
      some s') {n : ℕ} {item : Item} (hn : s.workers.items[n]? = some item) :
    ∃ item', s'.workers.items[n]? = some item' ∧ item'.work = item.work := by
  refine Machine.run_inv (P := fun s => ∃ item', s.workers.items[n]? = some item' ∧
    item'.work = item.work) ?_ es ⟨item, hn, rfl⟩ h
  rintro s e s' ⟨item', hn', hwork⟩ hstep
  obtain ⟨item'', hn'', hwork'⟩ := items_of_servingStep hstep hn'
  exact ⟨item'', hn'', hwork'.trans hwork⟩

/-- What a target over TCP is handed for an outcome that carries no truncated answer. -/
theorem HandedAs.complete {es : List ServingEvent} {s : ServingState} {outcome : Outcome}
    {h : Handed} (hhanded : HandedAs work outcome h)
    (hgood : outcome.IsGood config (fun _ => CompleteOrStreamed es s)
      (fun _ response => responseIsTruncated response = false) work)
    (htarget : work.responseTarget = .tcp) {origin : ResponseOrigin} {sent : Option Packet}
    (heq : h = .response origin response sent) :
    (∀ bytes, sent = some bytes → bytes = response) ∧
    (responseIsTruncated response = true → ∃ forwarded, origin = .upstream forwarded ∧
      responseIsTruncated forwarded = true ∧ CompleteOrStreamed es s forwarded) := by
  have hsent : ∀ {io bytes}, (sentBytes work io response).toOption = some bytes →
      bytes = response := by
    intro io bytes hbytes
    rcases sentBytes_eq_some hbytes with rfl | ⟨hudp, -⟩
    · rfl
    · rw [htarget] at hudp
      cases hudp
  cases hhanded with
  | nothing _ => cases heq
  | made _ hmakes =>
    cases heq
    refine ⟨fun bytes => hsent, fun htruncated => ?_⟩
    rw [not_truncated_of_makes hmakes] at htruncated
    cases htruncated
  | cached =>
    cases heq
    refine ⟨fun bytes => hsent, fun htruncated => ?_⟩
    obtain ⟨answer, ttl, stored, ttl', hanswer, -, hstored, hhit⟩ := hgood
    have hflags := (flags_prepareCachedResponse hhit).trans (flags_normalizeCachedResponse hstored)
    rw [responseIsTruncated_congr hflags, hanswer] at htruncated
    cases htruncated
  | @upstream forwarded _ io hresponse =>
    cases heq
    refine ⟨fun bytes => hsent, fun htruncated => ⟨forwarded.response, rfl, ?_, hgood⟩⟩
    rcases hresponse with rfl | rfl
    · exact htruncated
    · rwa [responseIsTruncated_congr (flags_prepareForwardedResponse _ _)] at htruncated

/-- What a client over TCP has been handed in a run: no truncated answer from the cache, and
    none that has come over UDP. -/
def Untruncated (es : List ServingEvent) (s : ServingState) : Prop :=
  ∀ n h, (n, h) ∈ s.workers.server.handed → ∃ item, s.workers.items[n]? = some item ∧
    (item.work.responseTarget = .tcp → ∀ origin response sent,
      h = .response origin response sent → (∀ bytes, sent = some bytes → bytes = response) ∧
        (responseIsTruncated response = true → ∃ forwarded, origin = .upstream forwarded ∧
          responseIsTruncated forwarded = true ∧ CompleteOrStreamed es s forwarded))

/-- **Clients over TCP** get no truncated answer of a datagram or of the cache, in the runs
    without such answers. -/
theorem untruncated_of_guarded {shardCount cacheShardCount : ℕ} {es : List ServingEvent}
    {s : ServingState}
    (hguard : (servingMachine context hash cacheHash config shardCount cacheShardCount).Guarded
      (AvoidsTruncated context cacheHash config)
      (servingMachine context hash cacheHash config shardCount cacheShardCount).init es)
    (hrun : (servingMachine context hash cacheHash config shardCount cacheShardCount).run
      (servingMachine context hash cacheHash config shardCount cacheShardCount).init es = some s) :
    Untruncated es s := by
  have hbrings : (servingMachine context hash cacheHash config shardCount cacheShardCount).Guarded
      (BringsGood context cacheHash config (fun _ => CompleteOrStreamed es s)
        (fun _ response => responseIsTruncated response = false))
      (servingMachine context hash cacheHash config shardCount cacheShardCount).init es := by
    refine Machine.Guarded.mono (P := fun _ => True) (fun _ _ _ _ _ _ => trivial) ?_ es trivial
      (hguard.reaches es hrun)
    rintro s₀ e - ⟨hok, hmem, fs, hrest⟩
    cases e with
    | forward n attempt upstreamTraffic io =>
      cases attempt with
      | error error => exact trivial
      | ok call =>
        intro item hn reply hreply htruncated
        obtain ⟨item', hn', hwork⟩ := items_of_run hrest hn
        refine ⟨n, call, upstreamTraffic, io, item', reply, hmem, hn', by rwa [hwork],
          fun hudp => ?_, rfl⟩
        have hcomplete := (reply_truncated_iff item.work.query call.upstream call.network).2
          (hok item hn) reply hreply hudp
        rw [hcomplete] at htruncated
        cases htruncated
    | insert n call order now =>
      intro item hn reply hreply key store hkey hstore hinserted
      rcases hok item hn reply hreply key store hkey hstore with hcomplete | hno
      · exact hcomplete
      · exact absurd (insertCachedResponse_iff.1 hinserted) hno
    | _ => exact trivial
  intro n h hmem
  obtain ⟨item, outcome, hn, hhanded, hgood⟩ := served (fun _ _ _ _ _ _ _ _ h => h)
    (fun _ _ _ _ _ _ _ _ h => h) hbrings hrun n h hmem
  exact ⟨item, hn, fun htarget origin response sent heq => hhanded.complete hgood htarget heq⟩

/-- **Truncated answers**: a truncated datagram becomes a reply when the library takes it
    and not otherwise, a truncated message is stored when it would be without the flag, and
    clients over TCP get neither in the runs without them. -/
theorem truncated_answers (context : WorkerContext) (hash cacheHash : QueryCacheKey → ℕ)
    (config : DnsCacheConfig) (shardCount cacheShardCount : ℕ) :
    (∀ query upstream network,
      (∀ reply, (forwardToUpstream query upstream network).result = .ok reply →
        reply.carrier = .udp → responseIsTruncated reply.packet = false) ↔
        ¬ TakesTruncated query upstream network) ∧
    (∀ order store key response now,
      ((insertCachedResponse cacheHash order store config key response now).1 = true →
        ∀ stored, normalizeCachedResponse response = some stored →
          responseIsTruncated stored = false) ↔
        (responseIsTruncated response = false ∨ ¬ Stores cacheHash store config key response)) ∧
    ∀ es s, (servingMachine context hash cacheHash config shardCount cacheShardCount).Guarded
        (AvoidsTruncated context cacheHash config)
        (servingMachine context hash cacheHash config shardCount cacheShardCount).init es →
      (servingMachine context hash cacheHash config shardCount cacheShardCount).run
        (servingMachine context hash cacheHash config shardCount cacheShardCount).init es = some s →
      Untruncated es s :=
  ⟨reply_truncated_iff, fun order store key response now =>
    insertion_truncated_iff cacheHash order store config key response now,
    fun _ _ hguard hrun => untruncated_of_guarded hguard hrun⟩

end

/-! ## Small runs -/

theorem resolver_untruncated {query : Packet} {reply : Reply}
    (h : (forwardToUpstream query (resolver false) resolverNetwork).result = .ok reply) :
    responseIsTruncated reply.packet = false := by
  obtain ⟨-, hexchange, -⟩ := forwardToUpstream_eq_ok h
  have hforward : forwardHickory query (resolver false) resolverNetwork = .ok reply := hexchange
  obtain ⟨-, message, response, -, hresponse, rfl⟩ := forwardHickory_eq_ok hforward
  rw [responseIsTruncated_congr (flags_withIdentifier query response)]
  simp only [resolverNetwork] at hresponse
  split_ifs at hresponse
  · cases hresponse
    rfl
  · cases hresponse
    rfl

/-- Without DNSSEC the client over TCP gets the address. -/
theorem resolvedRun_untruncated : plainWork.responseTarget = .tcp ∧ ∃ s,
    (servingMachine {} (fun _ => 0) (fun _ => 0) freshConfig 4 1).run
      (servingMachine {} (fun _ => 0) (fun _ => 0) freshConfig 4 1).init (resolvedRun false) =
        some s ∧
    s.workers.server.handed =
      [(0, .response (.upstream publicResponse) publicResponse (some publicResponse))] ∧
    Untruncated (resolvedRun false) s := by
  have hrun : (servingMachine {} (fun _ => 0) (fun _ => 0) freshConfig 4 1).run
      (servingMachine {} (fun _ => 0) (fun _ => 0) freshConfig 4 1).init (resolvedRun false) =
        some _ := rfl
  have hplain : ∀ query, ¬ TakesTruncated query (resolver false) resolverNetwork := by
    rintro query ⟨hdnssec, -⟩
    cases hdnssec
  have hguard := @Machine.Guarded.of_run _ _
    (servingMachine {} (fun _ => 0) (fun _ => 0) freshConfig 4 1)
    (AvoidsTruncated {} (fun _ => 0) freshConfig) (resolvedRun false) _ _
    (fun e he s => by
      simp only [resolvedRun, List.mem_cons, List.not_mem_nil, or_false] at he
      rcases he with rfl | rfl | rfl | rfl | rfl | rfl | rfl
      · exact trivial
      · exact trivial
      · exact trivial
      · exact fun item _ => hplain _
      · exact trivial
      · exact fun item _ reply hreply key store _ _ => .inl (resolver_untruncated hreply)
      · exact trivial) hrun
  exact ⟨rfl, _, hrun, rfl,
    (truncated_answers {} (fun _ => 0) (fun _ => 0) freshConfig 4 1).2.2 _ _ hguard hrun⟩

/-- A plain server that is asked with the library. -/
def signingUpstream : RuntimeUpstream := ⟨.udp ⟨.v4 ⟨192, 0, 2, 53⟩, 53, 0⟩, [], true⟩

/-- An answer with the first of its addresses, and the truncation flag. -/
def truncatedAnswer : Packet :=
  [0, 7, 131, 128, 0, 1, 0, 1, 0, 0, 0, 0, 1, 97, 0, 0, 1, 0, 1,
    192, 12, 0, 1, 0, 1, 0, 0, 0, 60, 0, 4, 8, 0, 0, 1]

def truncatingNetwork : Network where library _ := .ok truncatedAnswer

/-- A query is forwarded and its answer stored; another one is answered from the cache. -/
def truncatedRun : List ServingEvent :=
  [.worker (.accept plainWork ⟨rebindingOnly, false, ⟨0, 0⟩⟩ {}), .lookup 0 10 {}, .worker (.begin 0),
    .forward 0 (.ok ⟨signingUpstream, truncatingNetwork, 5⟩) {} {}, .worker (.take 0),
    .insert 0 ⟨signingUpstream, truncatingNetwork, 5⟩ storedOrder 10, .worker (.answer 0 {} {}),
    .worker (.accept plainWork ⟨rebindingOnly, false, ⟨0, 0⟩⟩ {}), .lookup 1 10 {}]

/-- **A truncated datagram is passed off as complete**: it is a reply, it is stored, and
    clients over TCP get it from the server and from the cache. -/
theorem truncatedRun_hands : responseIsTruncated truncatedAnswer = true ∧
    (forwardToUpstream plainWork.query signingUpstream truncatingNetwork).result =
      .ok ⟨.udp, truncatedAnswer⟩ ∧
    plainWork.responseTarget = .tcp ∧
    ((servingMachine {} (fun _ => 0) (fun _ => 0) freshConfig 4 1).run
      (servingMachine {} (fun _ => 0) (fun _ => 0) freshConfig 4 1).init truncatedRun).map
        (fun s => s.workers.server.handed) =
      some [(0, .response (.upstream truncatedAnswer) truncatedAnswer (some truncatedAnswer)),
        (1, .response .cached truncatedAnswer (some truncatedAnswer))] :=
  ⟨by decide, by decide +kernel, rfl, rfl⟩

end Worker

end DnsBlackhole
