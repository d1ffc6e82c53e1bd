/-
  The workers with the cache and the upstream servers.

  The workers of `workerMachine` get hits and results from outside.  Here the hit
  is that of the store at the moment of the lookup, a result is that of a call of
  `forward_to_upstream`, and a response goes into the store under the key of the
  query it has been asked for, by `handle_dns_query` or by a refresh of a hit.

  If every response that is forwarded is good for its query, and every one that is
  stored, and queries of one key do not differ in what is good for them, then every
  target is handed what is good for its query (`served`).
-/
import DnsBlackhole.Cache.Timed
import DnsBlackhole.Upstream.Transports
import DnsBlackhole.Worker.Accounted
import DnsBlackhole.Worker.Handed

namespace DnsBlackhole.Worker
open Lib Cache DnsBlackhole.Filter Protocol Rules Upstream

/-! ## Calls of upstream servers -/

/-- A call of `forward_to_upstream`: which server is asked, and what the outside does. -/
structure ForwardCall where
  upstream : RuntimeUpstream
  network : Network
  durationMs : ℕ := 0

def ForwardCall.reply (call : ForwardCall) (query : Packet) : Except Text Reply :=
  (forwardToUpstream query call.upstream call.network).result

/-- The result of a query: that of the call which has succeeded, or the error of
    those that have not. -/
def attemptResult (query : Packet) : Except Text ForwardCall → ForwardResult
  | .error error => .error error
  | .ok call => (call.reply query).map fun reply =>
      ⟨reply.packet, call.upstream.label, call.durationMs⟩

/-! ## The machine -/

structure ServingState where
  workers : WorkerState
  cache : Option DnsCacheStore

inductive ServingEvent
  | worker (e : WorkerEvent)
  | lookup (n : ℕ) (now : ℕ) (io : Surroundings)
  | forward (n : ℕ) (attempt : Except Text ForwardCall) (upstreamTraffic : UpstreamTraffic)
      (io : Surroundings)
  /-- The response of a call for the query `n` goes into the cache. -/
  | insert (n : ℕ) (call : ForwardCall) (order : CacheOrder) (now : ℕ)
  | finishRefresh (key : QueryCacheKey)
  | clear

/-- The events with a hit or a result. -/
def WorkerEvent.fromOutside : WorkerEvent → Bool
  | .lookup _ _ _ => true
  | .forward _ _ _ _ => true
  | _ => false

section
variable (context : WorkerContext) (hash cacheHash : QueryCacheKey → ℕ) (config : DnsCacheConfig)

/-- The hit for the query, and the cache behind the lookup. -/
def ServingState.hit (s : ServingState) (key : Option QueryCacheKey) (query : Packet) (now : ℕ) :
    Option Packet × Option DnsCacheStore :=
  match key, s.cache with
  | some key, some store =>
    let r := lookupCachedResponse cacheHash store key query now
    (r.1.map CacheHit.response, some r.2)
  | _, _ => (none, s.cache)

def servingStep (s : ServingState) : ServingEvent → Option ServingState
  | .worker e =>
    if e.fromOutside then none
    else (workerStep context hash s.workers e).map fun workers => { s with workers }
  | .lookup n now io =>
    match s.workers.items[n]? with
    | some ⟨work, snapshot, _⟩ =>
      let r := s.hit cacheHash (queryCacheKey context snapshot work) work.query now
      (workerStep context hash s.workers (.lookup n r.1 io)).map fun workers => ⟨workers, r.2⟩
    | none => none
  | .forward n attempt upstreamTraffic io =>
    match s.workers.items[n]? with
    | some ⟨work, _, _⟩ =>
      let result := attemptResult work.query attempt
      (workerStep context hash s.workers (.forward n result upstreamTraffic io)).map
        fun workers => { s with workers }
    | none => none
  | .insert n call order now =>
    match s.workers.items[n]?, s.cache with
    | some ⟨work, snapshot, _⟩, some store =>
      match queryCacheKey context snapshot work, call.reply work.query with
      | some key, .ok reply =>
        some { s with
          cache := some (storeStep cacheHash config store (.insert order key reply.packet now)).1 }
      | _, _ => none
    | _, _ => none
  | .finishRefresh key =>
    some { s with
      cache := s.cache.map fun store => (storeStep cacheHash config store (.finishRefresh key)).1 }
  | .clear =>
    some { s with
      cache := s.cache.map fun store => (storeStep cacheHash config store .clear).1 }

/-- The workers of a server, with the pending queries in `shardCount` shards and the
    cache in `cacheShardCount`. -/
def servingMachine (shardCount cacheShardCount : ℕ) : Machine ServingState ServingEvent where
  init := ⟨(workerMachine context hash shardCount).init,
    DnsCacheStore.fromConfig config cacheShardCount⟩
  step := servingStep context hash cacheHash config

end

/-! ## What is good for a query -/

section
variable (context : WorkerContext) (cacheHash : QueryCacheKey → ℕ) (config : DnsCacheConfig)
  (good kept : WorkItem → Packet → Prop)

/-- The responses that come to a client or into the cache by the event are good. -/
def BringsGood (s : ServingState) : ServingEvent → Prop
  | .forward n (.ok call) _ _ => ∀ item, s.workers.items[n]? = some item → ∀ reply,
      call.reply item.work.query = .ok reply → good item.work reply.packet
  | .insert n call order now => ∀ item, s.workers.items[n]? = some item → ∀ reply,
      call.reply item.work.query = .ok reply → ∀ key store,
      queryCacheKey context item.snapshot item.work = some key → s.cache = some store →
      (insertCachedResponse cacheHash order store config key reply.packet now).1 = true →
      kept item.work reply.packet
  | _ => True

/-- Queries of one key do not differ in what is good for them. -/
def Congruent (good : WorkItem → Packet → Prop) : Prop :=
  ∀ work snapshot work' snapshot' key response,
    queryCacheKey context snapshot work = some key →
    queryCacheKey context snapshot' work' = some key → good work response → good work' response

/-- The response stands in the cache for the key. -/
def StoredFor (key : QueryCacheKey) (stored : Packet) : Prop :=
  ∃ work snapshot response ttl, queryCacheKey context snapshot work = some key ∧
    kept work response ∧ cacheTtlSeconds response config = some ttl ∧
    normalizeCachedResponse response = some stored

/-- The hit has been made for the query from a stored response. -/
def Hits (work : WorkItem) (hit : Packet) : Prop :=
  ∃ response ttl stored ttl', kept work response ∧ cacheTtlSeconds response config = some ttl ∧
    normalizeCachedResponse response = some stored ∧
    prepareCachedResponse stored work.query ttl' = some hit

/-- What the outcome carries of other servers is good. -/
def Outcome.IsGood (work : WorkItem) : Outcome → Prop
  | .cached hit => Hits config kept work hit
  | .forwarded (.ok answer) => good work answer.response
  | _ => True

end

/-! ## Keys -/

/-- The queries that have looked into the cache are under way with their keys. -/
structure Keyed (context : WorkerContext) (s : WorkerState) : Prop where
  missed : ∀ (n : ℕ) work snapshot key, s.items[n]? = some ⟨work, snapshot, .missed key⟩ →
    queryCacheKey context snapshot work = some key
  pending : ∀ (q : ℕ) query, s.pending.queries[q]? = some query → ∃ n item,
    s.owners[q]? = some n ∧ s.items[n]? = some item ∧
      queryCacheKey context item.snapshot item.work = some query.cacheKey

section
variable {context : WorkerContext} {hash : QueryCacheKey → ℕ} {s s' : WorkerState}
  {e : WorkerEvent}

theorem missed_of_lookup {n : ℕ} {hit : Option Packet} {io : Surroundings}
    (h : workerStep context hash s (.lookup n hit io) = some s') {k : ℕ} {work : WorkItem}
    {snapshot : Snapshot} {key : QueryCacheKey}
    (hk : s'.items[k]? = some ⟨work, snapshot, .missed key⟩) :
    s.items[k]? = some ⟨work, snapshot, .missed key⟩ ∨
      queryCacheKey context snapshot work = some key := by
  simp only [workerStep] at h
  split at h
  · rename_i work' snapshot' hn
    have hput : ∀ stage, (∀ key', stage = Stage.missed key' →
        queryCacheKey context snapshot' work' = some key') →
        (s.put n ⟨work', snapshot', stage⟩).items[k]? = some ⟨work, snapshot, .missed key⟩ →
        s.items[k]? = some ⟨work, snapshot, .missed key⟩ ∨
          queryCacheKey context snapshot work = some key := by
      intro stage hstage hitem
      rw [WorkerState.getElem?_put hn] at hitem
      split_ifs at hitem
      · cases hitem
        exact .inr (hstage key rfl)
      · exact .inl hitem
    split at h
    · cases h
      exact hput _ (fun key' hstage => by cases hstage) hk
    · rename_i key' hkey'
      cases hit with
      | none =>
        cases h
        refine hput (.missed key') (fun key'' hstage => ?_) hk
        cases hstage
        exact hkey'
      | some response =>
        dsimp only at h
        split at h
        · cases h
          exact hput _ (fun key'' hstage => by cases hstage) hk
        · cases h
          exact hput _ (fun key'' hstage => by cases hstage) hk
  · cases h

theorem WorkerMove.missed (hm : WorkerMove context hash s e s')
    (hlookup : ∀ n hit io, e ≠ .lookup n hit io) {k : ℕ} {work : WorkItem} {snapshot : Snapshot}
    {key : QueryCacheKey} (hk : s'.items[k]? = some ⟨work, snapshot, .missed key⟩) :
    s.items[k]? = some ⟨work, snapshot, .missed key⟩ := by
  have hput : ∀ {n : ℕ} {item : Item}, s.items[n]? = some item → ∀ w sn stage,
      (∀ key', stage ≠ Stage.missed key') →
      (s.put n ⟨w, sn, stage⟩).items[k]? = some ⟨work, snapshot, .missed key⟩ →
      s.items[k]? = some ⟨work, snapshot, .missed key⟩ := by
    intro n item hn w sn stage hstage hitem
    rw [WorkerState.getElem?_put hn] at hitem
    split_ifs at hitem
    · cases hitem
      exact absurd rfl (hstage key)
    · exact hitem
  have hconcat : ∀ w sn stage, (∀ key', stage ≠ Stage.missed key') →
      (s.items ++ [⟨w, sn, stage⟩])[k]? = some ⟨work, snapshot, .missed key⟩ →
      s.items[k]? = some ⟨work, snapshot, .missed key⟩ := by
    intro w sn stage hstage hitem
    rw [PendingState.getElem?_concat] at hitem
    split_ifs at hitem
    · cases hitem
      exact absurd rfl (hstage key)
    · exact hitem
  cases hm with
  | routed _ => exact hconcat _ _ .routed (fun _ hs => by cases hs) hk
  | @decided _ _ _ decision _ _ =>
    exact hconcat _ _ (.done _ (.decided decision)) (fun _ hs => by cases hs) hk
  | pass _ _ => exact absurd rfl (hlookup _ _ _)
  | begin hn _ => exact hput hn _ _ (.pending _) (fun _ hs => by cases hs) hk
  | accepted _ _ _ _ => exact hk
  | refused hn _ _ => exact hput hn _ _ .alone (fun _ hs => by cases hs) hk
  | finish _ _ => exact hk
  | take _ _ => exact hk
  | @deliver n _ _ _ _ _ _ outcome _ _ _ _ _ _ _ _ _ hitem =>
    exact hput hitem _ _ (.done n outcome.outcome) (fun _ hs => by cases hs) hk
  | @own _ n _ _ _ outcome _ _ hn _ _ =>
    exact hput hn _ _ (.done n outcome) (fun _ hs => by cases hs) hk

theorem WorkerMove.cacheKey (hm : WorkerMove context hash s e s') (hinv : WorkerInv hash s)
    {q : ℕ} {query : Query ForwardOutcome} (hq : s'.pending.queries[q]? = some query) :
    (∃ query', s.pending.queries[q]? = some query' ∧ query'.cacheKey = query.cacheKey) ∨
    ∃ n work snapshot, s.items[n]? = some ⟨work, snapshot, .missed query.cacheKey⟩ ∧
      s'.owners[q]? = some n := by
  have hput : ∀ {x : ℕ} {a b : Query ForwardOutcome}, s.pending.queries[x]? = some a →
      b.cacheKey = a.cacheKey → (s.pending.put x b).queries[q]? = some query →
      ∃ query', s.pending.queries[q]? = some query' ∧ query'.cacheKey = query.cacheKey := by
    intro x a b hx hab hget
    rw [PendingState.getElem?_put hx] at hget
    split_ifs at hget with hqx
    · cases hget
      exact ⟨a, hqx ▸ hx, hab.symm⟩
    · exact ⟨query, hget, rfl⟩
  cases hm with
  | routed _ => exact .inl ⟨query, hq, rfl⟩
  | decided _ _ => exact .inl ⟨query, hq, rfl⟩
  | pass _ _ => exact .inl ⟨query, hq, rfl⟩
  | own _ _ _ _ => exact .inl ⟨query, hq, rfl⟩
  | @begin n work snapshot key pending hn hpending =>
    have hnew : ∀ new : Query ForwardOutcome, new.cacheKey = key →
        (s.pending.queries ++ [new])[q]? = some query →
        (∃ query', s.pending.queries[q]? = some query' ∧ query'.cacheKey = query.cacheKey) ∨
        ∃ m work snapshot, s.items[m]? = some ⟨work, snapshot, .missed query.cacheKey⟩ ∧
          (s.owners ++ [n])[q]? = some m := by
      intro new hkey hget
      rw [PendingState.getElem?_concat] at hget
      split_ifs at hget with hlen
      · cases hget
        refine .inr ⟨n, work, snapshot, hkey ▸ hn, ?_⟩
        rw [hlen, ← hinv.owners, List.getElem?_concat_length]
      · exact .inl ⟨query, hget, rfl⟩
    cases pendingStep_cases hpending with
    | lead _ _ _ => exact hnew _ rfl hq
    | join _ => exact hnew _ rfl hq
  | @accepted _ _ _ x key p key' followers stage _ hx hp _ =>
    dsimp only at hq
    rw [PendingState.getElem?_accept hx hp] at hq
    split_ifs at hq with hqx hqp
    · cases hq
      exact .inl ⟨⟨key, .joining p⟩, hqx ▸ hx, rfl⟩
    · cases hq
      exact .inl ⟨⟨key', .leader (some followers) stage⟩, hqp ▸ hp, rfl⟩
    · exact .inl ⟨query, hq, rfl⟩
  | @refused _ _ _ x key p _ hx _ => exact .inl (hput (b := ⟨key, .alone⟩) hx rfl hq)
  | finish _ hpending =>
    cases pendingStep_cases hpending with
    | @finish _ _ key followers hx =>
      exact .inl (hput (b := ⟨key, .leader followers (.finished _)⟩) hx rfl hq)
  | take _ hpending =>
    cases pendingStep_cases hpending with
    | @take _ key followers result hx =>
      exact .inl (hput (b := ⟨key, .leader none (.delivering result _)⟩) hx rfl hq)
  | @deliver _ _ _ _ x key followers outcome follower rest _ _ _ _ _ hx _ _ =>
    exact .inl (hput (b := ⟨key, .leader followers (.delivering outcome rest)⟩) hx rfl hq)

theorem Keyed.step (h : Keyed context s) (hinv : WorkerInv hash s)
    (hstep : workerStep context hash s e = some s') : Keyed context s' := by
  have hm := workerStep_move hstep
  have hmissed : ∀ (n : ℕ) work snapshot key, s'.items[n]? = some ⟨work, snapshot, .missed key⟩ →
      queryCacheKey context snapshot work = some key := by
    intro n work snapshot key hn
    by_cases hlookup : ∃ k hit io, e = .lookup k hit io
    · obtain ⟨k, hit, io, rfl⟩ := hlookup
      exact (missed_of_lookup hstep hn).elim (h.missed n work snapshot key) id
    · exact h.missed n work snapshot key
        (hm.missed (fun k hit io he => hlookup ⟨k, hit, io, he⟩) hn)
  refine ⟨hmissed, fun q query hq => ?_⟩
  rcases hm.cacheKey hinv hq with ⟨query', hq', hkey⟩ | ⟨n, work, snapshot, hn, howner⟩
  · obtain ⟨n, item, howner, hn, hitem⟩ := h.pending q query' hq'
    obtain ⟨item', hn', hwork, hsnapshot⟩ := hm.items n item hn
    exact ⟨n, item', hm.owners howner, hn', by rw [hwork, hsnapshot, hitem, hkey]⟩
  · obtain ⟨item', hn', hwork, hsnapshot⟩ := hm.items n _ hn
    exact ⟨n, item', howner, hn', by rw [hwork, hsnapshot, h.missed n work snapshot _ hn]⟩

theorem WorkerMove.result (hm : WorkerMove context hash s e s') {p : ℕ} {key : QueryCacheKey}
    {followers : Option (List PendingFollower)} {stage : LeaderStage ForwardOutcome}
    {outcome : ForwardOutcome} (hp : s'.pending.queries[p]? = some ⟨key, .leader followers stage⟩)
    (hstage : stage.result = some outcome) :
    (∃ followers' stage', s.pending.queries[p]? = some ⟨key, .leader followers' stage'⟩ ∧
      stage'.result = some outcome) ∨
    ∃ n work snapshot result upstreamTraffic io followers',
      e = .forward n result upstreamTraffic io ∧
      s.items[n]? = some ⟨work, snapshot, .pending p⟩ ∧
      s.pending.queries[p]? = some ⟨key, .leader followers' .forwarding⟩ ∧
      outcome = forwardOutcome context snapshot work result := by
  have hconcat : ∀ new : Query ForwardOutcome, (∀ followers' stage',
      new.role = .leader followers' stage' → stage'.result = none) →
      (s.pending.queries ++ [new])[p]? = some ⟨key, .leader followers stage⟩ →
      ∃ followers' stage', s.pending.queries[p]? = some ⟨key, .leader followers' stage'⟩ ∧
        stage'.result = some outcome := by
    intro new hnew hget
    rw [PendingState.getElem?_concat] at hget
    split_ifs at hget
    · cases hget
      rw [hnew followers stage rfl] at hstage
      cases hstage
    · exact ⟨followers, stage, hget, hstage⟩
  cases hm with
  | routed _ => exact .inl ⟨followers, stage, hp, hstage⟩
  | decided _ _ => exact .inl ⟨followers, stage, hp, hstage⟩
  | pass _ _ => exact .inl ⟨followers, stage, hp, hstage⟩
  | own _ _ _ _ => exact .inl ⟨followers, stage, hp, hstage⟩
  | begin _ hpending =>
    cases pendingStep_cases hpending with
    | lead _ _ _ =>
      refine .inl (hconcat _ (fun followers' stage' hrole => ?_) hp)
      cases hrole
      rfl
    | join _ => exact .inl (hconcat _ (fun _ _ hrole => by cases hrole) hp)
  | accepted _ hx hy _ =>
    obtain ⟨followers', hp', -⟩ := PendingState.getElem?_leader_of_accept hx hy hp
    exact .inl ⟨followers', stage, hp', hstage⟩
  | refused _ hx _ =>
    rw [PendingState.getElem?_put hx] at hp
    split_ifs at hp
    · cases hp
    · exact .inl ⟨followers, stage, hp, hstage⟩
  | @finish n work snapshot q result upstreamTraffic io _ hn hpending =>
    cases pendingStep_cases hpending with
    | @finish _ _ key' followers' hx =>
      have hp' := (PendingState.getElem?_put hx _ p).symm.trans hp
      split_ifs at hp' with hpq
      · cases hp'
        cases hstage
        exact .inr ⟨n, work, snapshot, result, upstreamTraffic, io, followers, rfl, hpq ▸ hn,
          hpq ▸ hx, rfl⟩
      · exact .inl ⟨followers, stage, hp', hstage⟩
  | take _ hpending =>
    cases pendingStep_cases hpending with
    | @take q key' followers' result hx =>
      rw [PendingState.getElem?_put hx] at hp
      split_ifs at hp with hpq
      · cases hp
        cases hstage
        exact .inl ⟨followers', _, hpq ▸ hx, rfl⟩
      · exact .inl ⟨followers, stage, hp, hstage⟩
  | @deliver _ _ _ _ q key' followers' _ _ _ _ _ _ _ _ hx _ _ =>
    have hp' := (PendingState.getElem?_put hx _ p).symm.trans hp
    split_ifs at hp' with hpq
    · cases hp'
      cases hstage
      exact .inl ⟨followers, _, hpq ▸ hx, rfl⟩
    · exact .inl ⟨followers, stage, hp', hstage⟩

end

/-! ## What is served -/

section
variable (context : WorkerContext) (hash cacheHash : QueryCacheKey → ℕ) (config : DnsCacheConfig)
  (good kept : WorkItem → Packet → Prop)

structure ServingInv (s : ServingState) : Prop where
  workers : WorkerInv hash s.workers
  keyed : Keyed context s.workers
  /-- The result of a leader is good for every query of its key. -/
  results : ∀ (p : ℕ) key followers stage outcome,
    s.workers.pending.queries[p]? = some ⟨key, .leader followers stage⟩ →
    stage.result = some outcome → ∀ work snapshot,
    queryCacheKey context snapshot work = some key →
    outcome.outcome.IsGood config good kept work
  stored : ∀ store, s.cache = some store → ∃ g, StoreBacked cacheHash config store g ∧
    ∀ key grant, g key = some grant → StoredFor context config kept key grant.response
  handed : ∀ n h, (n, h) ∈ s.workers.server.handed → ∃ item outcome,
    s.workers.items[n]? = some item ∧ HandedAs item.work outcome h ∧
      outcome.IsGood config good kept item.work

end

section
variable {context : WorkerContext} {hash cacheHash : QueryCacheKey → ℕ} {config : DnsCacheConfig}
  {good kept : WorkItem → Packet → Prop}

theorem isGood_forwardOutcome {snapshot : Snapshot} {work work' : WorkItem} {result : ForwardResult}
    (h : ∀ answer, result = .ok answer → good work answer.response) :
    (forwardOutcome context snapshot work' result).outcome.IsGood config good kept work := by
  cases result with
  | error error => exact trivial
  | ok answer =>
    unfold forwardOutcome
    dsimp only
    split
    · exact trivial
    · exact h answer rfl

theorem exists_reply_of_attemptResult {query : Packet} {attempt : Except Text ForwardCall}
    {answer : UpstreamForwardResponse} (h : attemptResult query attempt = .ok answer) :
    ∃ call reply, attempt = .ok call ∧ call.reply query = .ok reply ∧
      answer.response = reply.packet := by
  cases attempt with
  | error error => cases h
  | ok call =>
    unfold attemptResult at h
    dsimp only at h
    cases hreply : call.reply query with
    | error error =>
      rw [hreply] at h
      cases h
    | ok reply =>
      rw [hreply] at h
      cases h
      exact ⟨call, reply, rfl, hreply, rfl⟩

theorem grants_lookup {g g' : Grants} {key : QueryCacheKey} {query : Packet} {now : ℕ}
    {out : StoreOut} (h : TimedStep config g (.lookup key query now, out) g') : g' = g := by
  cases h with
  | hit _ _ => rfl
  | miss => rfl

namespace ServingInv
variable {s : ServingState}

theorem hits (h : ServingInv context hash cacheHash config good kept s)
    (hkept : Congruent context kept) {work : WorkItem} {snapshot : Snapshot} {now : ℕ} {hit : Packet}
    (hhit : (s.hit cacheHash (queryCacheKey context snapshot work) work.query now).1 = some hit) :
    Hits config kept work hit := by
  unfold ServingState.hit at hhit
  split at hhit
  · rename_i key store hkey hstore
    obtain ⟨found, hfound, rfl⟩ := Option.map_eq_some_iff.1 hhit
    obtain ⟨g, hbacked, hstored⟩ := h.stored store hstore
    obtain ⟨g', htimed, -⟩ := store_refines cacheHash config store (.lookup key work.query now) g
      hbacked
    simp only [storeStep, hfound] at htimed
    cases htimed with
    | hit hgrant hserves =>
      obtain ⟨ttl, hprepared, -⟩ := hserves
      obtain ⟨work', snapshot', response, ttl', hkey', hgood, httl, hnormalized⟩ :=
        hstored key _ hgrant
      exact ⟨response, ttl', _, ttl, hkept work' snapshot' work snapshot key response hkey' hkey
        hgood, httl, hnormalized, hprepared⟩
  · cases hhit

theorem stored_hit (h : ServingInv context hash cacheHash config good kept s)
    (key : Option QueryCacheKey) (query : Packet) (now : ℕ) (store : DnsCacheStore)
    (hstore : (s.hit cacheHash key query now).2 = some store) :
    ∃ g, StoreBacked cacheHash config store g ∧
      ∀ key grant, g key = some grant → StoredFor context config kept key grant.response := by
  unfold ServingState.hit at hstore
  split at hstore
  · rename_i key store' hcache
    cases hstore
    obtain ⟨g, hbacked, hstored⟩ := h.stored store' hcache
    obtain ⟨g', htimed, hbacked'⟩ := store_refines cacheHash config store' (.lookup key query now)
      g hbacked
    exact ⟨g', hbacked', (grants_lookup htimed).symm ▸ hstored⟩
  · exact h.stored store hstore

theorem workerStep {e : WorkerEvent} {workers : WorkerState}
    (h : ServingInv context hash cacheHash config good kept s) (hgood : Congruent context good)
    (hstep : workerStep context hash s.workers e = some workers)
    (hlookup : ∀ n hit io, e = .lookup n (some hit) io → ∀ item, s.workers.items[n]? = some item →
      Hits config kept item.work hit)
    (hforward : ∀ n answer upstreamTraffic io, e = .forward n (.ok answer) upstreamTraffic io →
      ∀ item, s.workers.items[n]? = some item → good item.work answer.response) :
    ServingInv context hash cacheHash config good kept { s with workers } := by
  have hm := workerStep_move hstep
  refine ⟨h.workers.move hm, h.keyed.step h.workers hstep, ?_, h.stored, fun n handed hmem => ?_⟩
  · intro p key followers stage outcome hp hstage work snapshot hkey
    rcases hm.result hp hstage with ⟨followers', stage', hp', hstage'⟩ |
      ⟨n, work', snapshot', result, upstreamTraffic, io, followers', rfl, hn, hp', rfl⟩
    · exact h.results p key followers' stage' outcome hp' hstage' work snapshot hkey
    · refine isGood_forwardOutcome fun answer hanswer => ?_
      subst hanswer
      have hgood' := hforward n answer upstreamTraffic io rfl _ hn
      obtain ⟨x, item, howner, hx, hitem⟩ := h.keyed.pending p _ hp'
      obtain rfl : x = n := Option.some.inj
        (howner.symm.trans (h.workers.owned n work' snapshot' p hn))
      rw [hn] at hx
      cases hx
      exact hgood work' snapshot' work snapshot key answer.response hitem hkey hgood'
  · have hold : ∀ n handed, (n, handed) ∈ s.workers.server.handed → ∃ item outcome,
        workers.items[n]? = some item ∧ HandedAs item.work outcome handed ∧
          outcome.IsGood config good kept item.work := by
      intro n handed hmem
      obtain ⟨item, outcome, hn, hhanded, hisGood⟩ := h.handed n handed hmem
      obtain ⟨item', hn', hwork, -⟩ := hm.items n item hn
      exact ⟨item', outcome, hn', hwork ▸ hhanded, hwork ▸ hisGood⟩
    rcases workerStep_hands h.workers hstep with hsame | ⟨k, item, outcome, new, hk, hfrom, hnew, heq⟩
    · exact hold n handed (hsame ▸ hmem)
    · rw [heq] at hmem
      rcases List.mem_append.1 hmem with hmem | hmem
      · exact hold n handed hmem
      · cases List.mem_singleton.1 hmem
        refine ⟨item, outcome, hk, hnew, ?_⟩
        cases hfrom with
        | decided => exact trivial
        | blocked => exact trivial
        | cached hitem => exact hlookup _ _ _ rfl ⟨item.work, item.snapshot, .routed⟩ hitem
        | @forwarded _ _ _ result _ _ hitem =>
          cases result with
          | error error => exact trivial
          | ok answer => exact hforward _ answer _ _ rfl ⟨item.work, item.snapshot, .alone⟩ hitem
        | @delivered _ _ _ _ q p key key' role followers stage result hitem howner hq hrole hp
            hstage =>
          -- the follower has registered under the key of its leader
          obtain rfl : key' = key := by
            rcases hrole with rfl | rfl
            · rw [hq] at hp
              cases hp
              rfl
            · obtain ⟨followers', stage', hleader⟩ := h.workers.pending.joined q key p (.inr hq)
              rw [hp] at hleader
              cases hleader
              rfl
          obtain ⟨x, item', howner', hx, hkey⟩ := h.keyed.pending q _ hq
          cases howner.symm.trans howner'
          cases hitem.symm.trans hx
          exact h.results p key' followers stage result hp hstage _ _ hkey

theorem init (shardCount cacheShardCount : ℕ) :
    ServingInv context hash cacheHash config good kept
      (servingMachine context hash cacheHash config shardCount cacheShardCount).init where
  workers := .init hash shardCount
  keyed := by
    refine ⟨fun n work snapshot key hn => ?_, fun q query hq => ?_⟩
    · cases hn
    · cases hq
  results p key followers stage outcome hp := by cases hp
  stored store hstore :=
    ⟨_, storeBacked_fromConfig hstore, fun key grant hgrant => by cases hgrant⟩
  handed n h hmem := by cases hmem

theorem withCache (h : ServingInv context hash cacheHash config good kept s)
    {cache : Option DnsCacheStore} (hcache : ∀ store, cache = some store →
      ∃ g, StoreBacked cacheHash config store g ∧
        ∀ key grant, g key = some grant → StoredFor context config kept key grant.response) :
    ServingInv context hash cacheHash config good kept { s with cache } :=
  ⟨h.workers, h.keyed, h.results, hcache, h.handed⟩

theorem withStoreStep (h : ServingInv context hash cacheHash config good kept s) (op : StoreOp)
    (hop : ∀ store out g g', s.cache = some store → (storeStep cacheHash config store op).2 = out →
      TimedStep config g (op, out) g' → ∀ key grant, g' key = some grant →
      g key = some grant ∨ StoredFor context config kept key grant.response) :
    ServingInv context hash cacheHash config good kept { s with
      cache := s.cache.map fun store => (storeStep cacheHash config store op).1 } := by
  refine h.withCache fun store hstore => ?_
  obtain ⟨store', hstore', rfl⟩ := Option.map_eq_some_iff.1 hstore
  obtain ⟨g, hbacked, hstored⟩ := h.stored store' hstore'
  obtain ⟨g', htimed, hbacked'⟩ := store_refines cacheHash config store' op g hbacked
  exact ⟨g', hbacked', fun key grant hgrant =>
    (hop store' _ g g' hstore' rfl htimed key grant hgrant).elim (hstored key grant) id⟩

/-- **Every step keeps what is served good**, if it brings what is good. -/
theorem step {e : ServingEvent} {s' : ServingState}
    (h : ServingInv context hash cacheHash config good kept s) (hgood : Congruent context good)
    (hkept : Congruent context kept) 
    (hok : BringsGood context cacheHash config good kept s e)
    (hstep : servingStep context hash cacheHash config s e = some s') :
    ServingInv context hash cacheHash config good kept s' := by
  cases e with
  | worker e =>
    simp only [servingStep] at hstep
    split_ifs at hstep with houtside
    obtain ⟨workers, hworkers, rfl⟩ := Option.map_eq_some_iff.1 hstep
    refine h.workerStep hgood hworkers ?_ ?_
    · rintro n hit io rfl
      exact absurd rfl houtside
    · rintro n answer upstreamTraffic io rfl
      exact absurd rfl houtside
  | lookup n now io =>
    simp only [servingStep] at hstep
    split at hstep
    · rename_i work snapshot stage hn
      obtain ⟨workers, hworkers, rfl⟩ := Option.map_eq_some_iff.1 hstep
      refine (h.workerStep hgood hworkers ?_ ?_).withCache (h.stored_hit _ work.query now)
      · intro k hit io' he item hk
        injection he with hkn hhit _
        subst hkn
        cases hn.symm.trans hk
        exact h.hits hkept hhit
      · intro k answer upstreamTraffic io' he
        cases he
    · cases hstep
  | forward n attempt upstreamTraffic io =>
    simp only [servingStep] at hstep
    split at hstep
    · rename_i work snapshot stage hn
      obtain ⟨workers, hworkers, rfl⟩ := Option.map_eq_some_iff.1 hstep
      refine h.workerStep hgood hworkers (fun k hit io' he => by cases he) ?_
      intro k answer upstreamTraffic' io' he item hk
      injection he with hkn hresult _ _
      subst hkn
      cases hn.symm.trans hk
      obtain ⟨call, reply, rfl, hreply, hresponse⟩ := exists_reply_of_attemptResult hresult
      rw [hresponse]
      exact hok _ hn reply hreply
    · cases hstep
  | insert n call order now =>
    simp only [servingStep] at hstep
    split at hstep
    · rename_i work snapshot stage store hn hstore
      split at hstep
      · rename_i key reply hkey hreply
        cases hstep
        have hcache : some (storeStep cacheHash config store (.insert order key reply.packet now)).1 =
            s.cache.map fun store =>
              (storeStep cacheHash config store (.insert order key reply.packet now)).1 := by
          rw [hstore, Option.map_some]
        rw [hcache]
        refine h.withStoreStep (.insert order key reply.packet now) ?_
        intro store' out g g' hstore' hout htimed k grant hgrant
        cases htimed with
        | @inserted _ _ _ _ ttl stored httl hstored =>
          cases hstore.symm.trans hstore'
          injection hout with hinserted
          by_cases hk : k = key
          · subst hk
            rw [Function.update_self] at hgrant
            cases hgrant
            exact .inr ⟨work, snapshot, reply.packet, ttl, hkey,
              hok _ hn reply hreply k store hkey hstore hinserted, httl, hstored⟩
          · rw [Function.update_of_ne hk] at hgrant
            exact .inl hgrant
        | refused => exact .inl hgrant
      · cases hstep
    · cases hstep
  | finishRefresh key =>
    cases hstep
    refine h.withStoreStep (.finishRefresh key) ?_
    intro store' out g g' _ _ htimed k grant hgrant
    cases htimed with
    | finished => exact .inl hgrant
  | clear =>
    cases hstep
    refine h.withStoreStep .clear ?_
    intro store' out g g' _ _ htimed k grant hgrant
    cases htimed with
    | cleared => cases hgrant

end ServingInv

/-- **What is served is good**: in every run whose forwarded and stored responses are
    good for their queries, every target is handed what is good for its query. -/
theorem served {shardCount cacheShardCount : ℕ} {es : List ServingEvent} {s : ServingState}
    (hgood : Congruent context good) (hkept : Congruent context kept)
    (hguard : (servingMachine context hash cacheHash config shardCount cacheShardCount).Guarded
      (BringsGood context cacheHash config good kept)
      (servingMachine context hash cacheHash config shardCount cacheShardCount).init es)
    (hrun : (servingMachine context hash cacheHash config shardCount cacheShardCount).run
      (servingMachine context hash cacheHash config shardCount cacheShardCount).init es = some s) :
    ∀ n h, (n, h) ∈ s.workers.server.handed → ∃ item outcome,
      s.workers.items[n]? = some item ∧ HandedAs item.work outcome h ∧
        outcome.IsGood config good kept item.work := by
  have hinv : ServingInv context hash cacheHash config good kept s :=
    Machine.Guarded.inv (fun s e s' hs hok hstep => hs.step hgood hkept hok hstep) es
      (.init shardCount cacheShardCount) hguard hrun
  exact hinv.handed

end

end DnsBlackhole.Worker
