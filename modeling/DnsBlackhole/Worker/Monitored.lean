/-
  What the monitoring interface shows of a running server.

  The statistics of a running server are written by the recorders of `dns/stats.rs` alone.
  The metrics of the cache and the bytes of the statistics tables are filled in by
  `status_with_log_stats_window`, for another reader: the interface prints a copy of the
  statistics as they are.

  * `monitoredMachine`: the calls of the recorders, the operations on the cache, and the
    entries for the database, in any order;
  * `read_run`, `cache_run`, `unwritten_run`: what a run does to each of the three;
  * `monitoring_reports_iff`: when all that is printed is that of the server;
  * `miss_unreported`: a server that says nothing of a miss.
-/
import DnsBlackhole.Admin.Monitoring
import DnsBlackhole.Worker.Answered

namespace DnsBlackhole.Worker
open Lib Cache DnsBlackhole.Filter Protocol
open Admin (Counter DnsStats Printed StatsEvent SecurityEvent TrafficTotals Unwritten
  applyCacheStats apiStatus metricValues prometheusMetrics prometheusMetrics_eq_iff)
open Database (QueryLogEntry QueryPersistenceEntry SecurityEventIdentity appendSecurityEvent)

/-! ## Entries for the database -/

/-- The entries that the queue has taken. -/
def accepted (offers : List Offer) : List QueryPersistenceEntry :=
  (offers.filter fun offer => offer.outcome = .accepted).map Offer.entry

/-- `QueryLogEntry::background_traffic` -/
def backgroundTraffic (traffic : TrafficTotals) : QueryLogEntry where
  domain := []
  queryType := 0
  queryClass := 0
  transport := []
  responseSource := "cache_refresh".toList
  clientIp := none
  blocked := false
  forwarded := false
  failed := false
  upstreamServer := none
  upstreamDurationMs := none
  error := none
  matchedRule := none
  ruleSource := none
  ruleType := none
  importantOverrode := false
  allowlistRule := none
  traffic := traffic

/-- The refreshes have a sender only where the statistics are kept. -/
def reportBackgroundTraffic (context : WorkerContext) (upstreamTraffic : UpstreamTraffic)
    (queue : QueueOutcome) : List QueryPersistenceEntry :=
  if !(context.statisticsEnabled && context.hasPersistenceSender) then []
  else if upstreamTraffic.bytesOut = 0 ∧ upstreamTraffic.bytesIn = 0 then []
  else if queue = .accepted then
    [{ entry := backgroundTraffic
        { upstreamBytesOut := upstreamTraffic.bytesOut, upstreamBytesIn := upstreamTraffic.bytesIn }
       anonymizeClientIp := false
       persistLog := false
       persistStatistics := true
       trafficOnly := true }]
  else []

/-! ## The machine -/

structure MonitoredServer where
  stats : DnsStats
  cache : Option MeteredStore
  persisted : List QueryPersistenceEntry := []

inductive MonitoredEvent
  | record (event : StatsEvent)
  /-- The web administration adds an event of its own. -/
  | webEvent (now : UInt64) (identity : SecurityEventIdentity)
  | pruneSecurityEvents (since : UInt64)
  | clearSecurityEvents
  | cache (op : MeteredOp)
  | queueQueryLog (filter : FilterRuntime) (n : ℕ) (work : WorkItem) (queue : QueueOutcome)
    (report : QueryReport)
  | refreshed (upstreamTraffic : UpstreamTraffic) (queue : QueueOutcome)

section
variable (context : WorkerContext) (hash : QueryCacheKey → ℕ) (config : DnsCacheConfig)

def monitoredStep (s : MonitoredServer) : MonitoredEvent → Option MonitoredServer
  | .record event => some { s with stats := s.stats.record context.detailedRuntimeStats event }
  | .webEvent now identity => some { s with
      stats := { s.stats with
        securityEvents := (appendSecurityEvent now identity s.stats.securityEvents).1 } }
  | .pruneSecurityEvents since => some { s with
      stats := { s.stats with
        securityEvents := s.stats.securityEvents.filter fun event => since ≤ event.lastSeenAt } }
  | .clearSecurityEvents => some { s with stats := { s.stats with securityEvents := [] } }
  | .cache op => s.cache.map fun store =>
      { s with cache := some (meteredStep hash config store op) }
  | .queueQueryLog filter n work queue report => some { s with
      persisted := s.persisted ++ accepted (offers context filter n work queue report) }
  | .refreshed upstreamTraffic queue => some { s with
      persisted := s.persisted ++ reportBackgroundTraffic context upstreamTraffic queue }

/-- A server behind `reset_stats` and `restore_security_events`. -/
def monitoredMachine (shardCount : ℕ) (startedAt : Option UInt64)
    (securityEvents : List SecurityEvent) : Machine MonitoredServer MonitoredEvent where
  init :=
    { stats := { startedAt, securityEvents }
      cache := MeteredStore.fromConfig config shardCount }
  step := monitoredStep context hash config

end

/-- The calls of recorders in a run. -/
def recorded (events : List MonitoredEvent) : List StatsEvent :=
  events.filterMap fun
    | .record event => some event
    | _ => none

/-- The operations on the cache in a run. -/
def cacheOps (events : List MonitoredEvent) : List MeteredOp :=
  events.filterMap fun
    | .cache op => some op
    | _ => none

/-! ## The quantities of a server -/

section
variable (startedAt : Option UInt64) (events : List MonitoredEvent) (s : MonitoredServer)

/-- `DnsServer::cache_stats` -/
def MonitoredServer.cacheStats : DnsCacheStatsSnapshot :=
  (s.cache.map MeteredStore.statsSnapshot).getD {}

/-- The bytes that the statistics of the database are given. -/
def MonitoredServer.traffic : TrafficTotals :=
  ((s.persisted.filter (·.persistStatistics)).map (·.entry.traffic)).sum

/-- The statistics with the quantities of the server in a run `events`. -/
def runningStats : DnsStats :=
  let count (counter : Counter) := (recorded events).countP counter.counts
  applyCacheStats
    { startedAt
      queries := count .queries
      blocked := count .blocked
      forwarded := count .forwarded
      failed := count .failed
      accessDeniedTotal := count .accessDenied
      rateLimitedTotal := count .rateLimited
      invalidQueryTotal := count .invalidQuery
      trafficTotals := s.traffic } s.cacheStats

/-- `/metrics` and `/api/v1/status` print the quantities of the server. -/
structure Shows : Prop where
  metrics : prometheusMetrics s.stats = prometheusMetrics (runningStats startedAt events s)
  status : ∀ protectionPausedUntil now, apiStatus s.stats protectionPausedUntil now =
    apiStatus (runningStats startedAt events s) protectionPausedUntil now

/-- There is nothing that the statistics do not know: where the statistics are in the database,
    no response was blocked; nothing was looked up in the cache since it was cleared, and
    nothing is stored; and no entry was given to the statistics of the database. -/
structure NothingUnknown (context : WorkerContext) : Prop where
  unblocked : context.detailedRuntimeStats = false →
    ∀ event ∈ recorded events, event.isResponseBlocked = false
  unused : s.cache.isSome → ∀ op ∈ sinceClear (cacheOps events), op.isLookup = false
  empty : ∀ store, s.cache = some store → store.IsEmpty
  unlogged : ∀ persisted ∈ s.persisted, persisted.persistStatistics = false

end

/-! ## Runs -/

section
variable {context : WorkerContext} {hash : QueryCacheKey → ℕ} {config : DnsCacheConfig}
  {shardCount : ℕ} {startedAt : Option UInt64} {securityEvents : List SecurityEvent}
  {s t : MonitoredServer}

/-- **A run counts** the calls of recorders, but for those that a counter misses. -/
theorem read_run (counter : Counter) : ∀ {events : List MonitoredEvent} {s t : MonitoredServer},
    (monitoredMachine context hash config shardCount startedAt securityEvents).run s events =
      some t →
    counter.read t.stats +
        (recorded events).countP (counter.misses context.detailedRuntimeStats) =
      counter.read s.stats + (recorded events).countP counter.counts
  | [], s, t, h => by
    cases h
    rfl
  | e :: events, s, t, h => by
    obtain ⟨s', hstep, hrun⟩ := Machine.run_cons_eq_some _ |>.1 h
    have hrest := read_run counter hrun
    cases e with
    | record event =>
      cases hstep
      have hevent : counter.read (s.stats.record context.detailedRuntimeStats event) +
          (counter.misses context.detailedRuntimeStats event).toNat =
        counter.read s.stats + (counter.counts event).toNat := Admin.read_record s.stats event
      have hcons (p : StatsEvent → Bool) : (event :: recorded events).countP p =
          (recorded events).countP p + (p event).toNat := by
        rw [List.countP_cons]
        cases p event <;> rfl
      change _ + (event :: recorded events).countP _ = _ + (event :: recorded events).countP _
      rw [hcons, hcons]
      dsimp only at hrest
      omega
    | webEvent now identity =>
      cases hstep
      cases counter <;> exact hrest
    | pruneSecurityEvents since =>
      cases hstep
      cases counter <;> exact hrest
    | clearSecurityEvents =>
      cases hstep
      cases counter <;> exact hrest
    | cache op =>
      obtain ⟨store, -, rfl⟩ := Option.map_eq_some_iff.1 hstep
      exact hrest
    | queueQueryLog filter n work queue report =>
      cases hstep
      exact hrest
    | refreshed upstreamTraffic queue =>
      cases hstep
      exact hrest

/-- **The cache is run on**; it is there from the beginning or never. -/
theorem cache_run : ∀ {events : List MonitoredEvent} {s t : MonitoredServer},
    (monitoredMachine context hash config shardCount startedAt securityEvents).run s events =
      some t →
    t.cache = s.cache.map fun store => meteredRun hash config store (cacheOps events)
  | [], s, t, h => by
    cases h
    cases s.cache <;> rfl
  | e :: events, s, t, h => by
    obtain ⟨s', hstep, hrun⟩ := Machine.run_cons_eq_some _ |>.1 h
    have hrest := cache_run hrun
    cases e with
    | cache op =>
      obtain ⟨store, hstore, rfl⟩ := Option.map_eq_some_iff.1 hstep
      rw [hrest, hstore]
      rfl
    | _ =>
      cases hstep
      exact hrest

/-- **Nothing is written** of what is known to the cache and to the database. -/
theorem unwritten_run {events : List MonitoredEvent}
    (h : (monitoredMachine context hash config shardCount startedAt securityEvents).run s events =
      some t) : Unwritten s.stats t.stats := by
  refine Machine.run_inv (P := fun t => Unwritten s.stats t.stats) ?_ events (.refl _) h
  intro s₁ e s₂ hs hstep
  cases e with
  | record event =>
    cases hstep
    exact hs.trans (Admin.unwritten_record _ event)
  | cache op =>
    obtain ⟨store, -, rfl⟩ := Option.map_eq_some_iff.1 hstep
    exact hs
  | queueQueryLog filter n work queue report =>
    cases hstep
    exact hs
  | refreshed upstreamTraffic queue =>
    cases hstep
    exact hs
  | _ =>
    cases hstep
    exact hs.trans ⟨rfl, rfl, rfl, rfl, rfl, rfl⟩

/-! ## Bytes -/

/-- All bytes together. -/
def bytesOf (traffic : TrafficTotals) : ℕ :=
  traffic.clientBytesIn + traffic.clientBytesOut + traffic.upstreamBytesOut +
    traffic.upstreamBytesIn + traffic.cacheSavedBytes

theorem bytesOf_sum (l : List TrafficTotals) : bytesOf l.sum = (l.map bytesOf).sum := by
  induction l with
  | nil => rfl
  | cons traffic l ih =>
    have hadd : bytesOf (traffic + l.sum) = bytesOf traffic + bytesOf l.sum := by
      change _ + _ + (_ + _) + (_ + _) + (_ + _) + (_ + _) = _
      unfold bytesOf
      omega
    rw [List.sum_cons, List.map_cons, List.sum_cons, hadd, ih]

/-- **No entry is empty**: a query has come from a client, and an idle refresh is not
    reported. -/
theorem bytesOf_persisted {events : List MonitoredEvent}
    (h : (monitoredMachine context hash config shardCount startedAt securityEvents).run s events =
      some t) (hs : ∀ persisted ∈ s.persisted, bytesOf persisted.entry.traffic ≠ 0) :
    ∀ persisted ∈ t.persisted, bytesOf persisted.entry.traffic ≠ 0 := by
  refine Machine.run_inv (P := fun t => ∀ persisted ∈ MonitoredServer.persisted t,
    bytesOf persisted.entry.traffic ≠ 0) ?_ events hs h
  intro s₁ e s₂ hs₁ hstep
  cases e with
  | cache op =>
    obtain ⟨store, -, rfl⟩ := Option.map_eq_some_iff.1 hstep
    exact hs₁
  | queueQueryLog filter n work queue report =>
    cases hstep
    refine List.forall_mem_append.2 ⟨hs₁, fun persisted hpersisted => ?_⟩
    obtain ⟨offer, hoffer, rfl⟩ := List.mem_map.1 hpersisted
    have hmem := (List.mem_filter.1 hoffer).1
    unfold offers at hmem
    split_ifs at hmem
    · have hpos := work.length_query_pos
      rw [List.mem_singleton] at hmem
      rw [hmem]
      change work.query.length + _ + _ + _ + _ ≠ 0
      omega
    · cases hmem
  | refreshed upstreamTraffic queue =>
    cases hstep
    refine List.forall_mem_append.2 ⟨hs₁, fun persisted hpersisted => ?_⟩
    unfold reportBackgroundTraffic at hpersisted
    split_ifs at hpersisted with hsender hidle htaken
    · cases hpersisted
    · cases hpersisted
    · rw [List.mem_singleton] at hpersisted
      rw [hpersisted]
      change 0 + 0 + upstreamTraffic.bytesOut + upstreamTraffic.bytesIn + 0 ≠ 0
      omega
    · cases hpersisted
  | _ =>
    cases hstep
    exact hs₁

/-! ## What is printed -/

section
variable {events : List MonitoredEvent}

theorem read_eq_iff (counter : Counter)
    (h : (monitoredMachine context hash config shardCount startedAt securityEvents).run
      (monitoredMachine context hash config shardCount startedAt securityEvents).init events =
        some s) :
    counter.read s.stats = (recorded events).countP counter.counts ↔
      ∀ event ∈ recorded events, counter.misses context.detailedRuntimeStats event = false := by
  have hrun := read_run counter h
  have hinit : counter.read (monitoredMachine context hash config shardCount startedAt
      securityEvents).init.stats = 0 := by cases counter <;> rfl
  rw [hinit, Nat.zero_add] at hrun
  have hzero : (recorded events).countP (counter.misses context.detailedRuntimeStats) = 0 ↔
      ∀ event ∈ recorded events, counter.misses context.detailedRuntimeStats event = false := by
    rw [List.countP_eq_zero]
    simp only [Bool.not_eq_true]
  rw [← hzero]
  omega

theorem blocked_eq_iff (detailed : Bool) (events : List StatsEvent) :
    (∀ event ∈ events, Counter.misses detailed .blocked event = false) ↔
      (detailed = false → ∀ event ∈ events, event.isResponseBlocked = false) := by
  cases detailed with
  | false => simp [Counter.misses]
  | true => simp [Counter.misses]

/-- **The metrics of a cache** are zero if it was not used and nothing is stored. -/
theorem cacheStats_eq_zero_iff (hvalid : config.maxSizeBytes ≤ maxDnsCacheSize)
    (h : (monitoredMachine context hash config shardCount startedAt securityEvents).run
      (monitoredMachine context hash config shardCount startedAt securityEvents).init events =
        some s) :
    (s.cacheStats.hits = 0 ∧ s.cacheStats.misses = 0 ∧ s.cacheStats.entries = 0 ∧
        s.cacheStats.bytes = 0) ↔
      (s.cache.isSome → ∀ op ∈ sinceClear (cacheOps events), op.isLookup = false) ∧
        ∀ store, s.cache = some store → store.IsEmpty := by
  have hcache := cache_run h
  change s.cache = (MeteredStore.fromConfig config shardCount).map _ at hcache
  cases hnew : MeteredStore.fromConfig config shardCount with
  | none =>
    rw [hnew] at hcache
    unfold MonitoredServer.cacheStats
    rw [hcache]
    refine iff_of_true ⟨rfl, rfl, rfl, rfl⟩ ⟨fun hsome => ?_, fun store hstore => ?_⟩
    · cases hsome
    · cases hstore
  | some store =>
    obtain ⟨shards, hshards, rfl⟩ := Option.map_eq_some_iff.1 hnew
    rw [hnew, Option.map_some] at hcache
    have hlookups : (meteredRun hash config { store := shards } (cacheOps events)).metrics.lookups =
        _ := lookups_meteredRun rfl (cacheOps events)
    have hcounted : ∀ shard ∈ (meteredRun hash config { store := shards }
        (cacheOps events)).store.shards, shard.Counted := by
      obtain ⟨size, -, hle, hsize⟩ := shards_fromConfig hshards
      have haccounted : ∀ shard ∈ (meteredRun hash config { store := shards }
          (cacheOps events)).store.shards, Accounted { config with maxSizeBytes := size } shard :=
        meteredRun_forall (fun c op hc => hc.apply op)
          (fun shard hshard => accounted_fromConfig (hsize shard hshard) (hle.trans hvalid))
          (cacheOps events)
      exact fun shard hshard => (haccounted shard hshard).counted
    generalize meteredRun hash config { store := shards } (cacheOps events) = last at *
    have hunused : last.metrics.hits = 0 ∧ last.metrics.misses = 0 ↔
        ∀ op ∈ sinceClear (cacheOps events), op.isLookup = false := by
      rw [← Nat.add_eq_zero_iff, ← CacheMetrics.lookups, hlookups, List.countP_eq_zero]
      simp only [Bool.not_eq_true]
    unfold MonitoredServer.cacheStats
    rw [hcache, Option.map_some, Option.getD_some]
    constructor
    · rintro ⟨hhits, hmisses, hentries, -⟩
      refine ⟨fun _ => hunused.1 ⟨hhits, hmisses⟩, fun store hstore => ?_⟩
      cases hstore
      exact entries_statsSnapshot_eq_zero.1 hentries
    · rintro ⟨hops, hempty⟩
      obtain ⟨hhits, hmisses⟩ := hunused.2 (hops rfl)
      exact ⟨hhits, hmisses, entries_statsSnapshot_eq_zero.2 (hempty last rfl),
        bytes_statsSnapshot_eq_zero hcounted (hempty last rfl)⟩

/-- **The bytes of the statistics** are zero if no entry was given to them. -/
theorem traffic_eq_zero_iff
    (h : (monitoredMachine context hash config shardCount startedAt securityEvents).run
      (monitoredMachine context hash config shardCount startedAt securityEvents).init events =
        some s) :
    bytesOf s.traffic = 0 ↔ ∀ persisted ∈ s.persisted, persisted.persistStatistics = false := by
  have hbytes := bytesOf_persisted h fun persisted hpersisted => absurd hpersisted List.not_mem_nil
  unfold MonitoredServer.traffic
  rw [bytesOf_sum, List.map_map, List.sum_eq_zero_iff_forall_eq_nat]
  constructor
  · intro hzero persisted hpersisted
    by_contra hkept
    rw [Bool.not_eq_false] at hkept
    refine hbytes persisted hpersisted (hzero _ (List.mem_map.2 ⟨persisted, ?_, rfl⟩))
    exact List.mem_filter.2 ⟨hpersisted, hkept⟩
  · intro hnone n hn
    obtain ⟨persisted, hpersisted, -⟩ := List.mem_map.1 hn
    obtain ⟨hmem, hkept⟩ := List.mem_filter.1 hpersisted
    rw [hnone persisted hmem] at hkept
    cases hkept

/-- **The interface prints the quantities of the server** exactly if there is nothing that the
    statistics do not know. -/
theorem monitoring_reports_iff (hvalid : config.maxSizeBytes ≤ maxDnsCacheSize)
    (h : (monitoredMachine context hash config shardCount startedAt securityEvents).run
      (monitoredMachine context hash config shardCount startedAt securityEvents).init events =
        some s) :
    Shows startedAt events s ↔ NothingUnknown events s context := by
  obtain ⟨hstarted, hhits, hmisses, hentries, hbytes, htraffic⟩ := unwritten_run h
  have hread := fun counter => read_eq_iff counter h
  have hcache := cacheStats_eq_zero_iff hvalid h
  have hlogged := traffic_eq_zero_iff h
  have hreports : Shows startedAt events s ↔
      metricValues s.stats = metricValues (runningStats startedAt events s) := by
    constructor
    · exact fun hsame => prometheusMetrics_eq_iff.1 hsame.metrics
    · intro hvalues
      have hprinted : Printed s.stats (runningStats startedAt events s) := ⟨hstarted, hvalues⟩
      exact ⟨prometheusMetrics_eq_iff.2 hvalues, fun _ _ => hprinted.apiStatus⟩
  rw [hreports]
  unfold metricValues
  rw [hhits, hmisses, hentries, hbytes, htraffic]
  simp only [List.cons.injEq, and_true]
  constructor
  · rintro ⟨-, hblocked, -, -, hhit, hmiss, -, -, -, hentry, hbyte, hin, hout, hsent, hheard,
      hsaved⟩
    obtain ⟨hunused, hempty⟩ := hcache.1 ⟨hhit.symm, hmiss.symm, hentry.symm, hbyte.symm⟩
    have hzero : bytesOf s.traffic = 0 := by
      change 0 = s.traffic.clientBytesIn at hin
      change 0 = s.traffic.clientBytesOut at hout
      change 0 = s.traffic.upstreamBytesOut at hsent
      change 0 = s.traffic.upstreamBytesIn at hheard
      change 0 = s.traffic.cacheSavedBytes at hsaved
      unfold bytesOf
      omega
    exact ⟨(blocked_eq_iff _ _).1 ((hread .blocked).1 hblocked), hunused, hempty,
      hlogged.1 hzero⟩
  · rintro ⟨hunblocked, hunused, hempty, hunlogged⟩
    obtain ⟨hhit, hmiss, hentry, hbyte⟩ := hcache.2 ⟨hunused, hempty⟩
    have hzero := hlogged.2 hunlogged
    unfold bytesOf at hzero
    have hexact (counter : Counter) (hcounter : counter ≠ .blocked) :
        counter.read s.stats = (recorded events).countP counter.counts := by
      refine (hread counter).2 fun event _ => ?_
      cases counter with
      | blocked => exact absurd rfl hcounter
      | _ => rfl
    refine ⟨hexact .queries (by decide), (hread .blocked).2 ((blocked_eq_iff _ _).2 hunblocked),
      hexact .forwarded (by decide), hexact .failed (by decide), hhit.symm, hmiss.symm,
      hexact .accessDenied (by decide), hexact .rateLimited (by decide),
      hexact .invalidQuery (by decide), hentry.symm, hbyte.symm, ?_, ?_, ?_, ?_, ?_⟩
    · change 0 = s.traffic.clientBytesIn
      omega
    · change 0 = s.traffic.clientBytesOut
      omega
    · change 0 = s.traffic.upstreamBytesOut
      omega
    · change 0 = s.traffic.upstreamBytesIn
      omega
    · change 0 = s.traffic.cacheSavedBytes
      omega

end

end

/-! ## A miss -/

/-- A query that is counted, by a server without entries for the database. -/
def countedQuery : MonitoredEvent := .record (.query ['a'] "192.0.2.1".toList 0)

/-- A lookup in an empty cache. -/
def missedLookup : MonitoredEvent := .cache (.store (.lookup (smallKey 'a') [] 0))

/-- The query is printed. -/
theorem countedQuery_reported : ∃ s,
    (monitoredMachine {} (fun _ => 0) smallConfig 1 none []).run
      (monitoredMachine {} (fun _ => 0) smallConfig 1 none []).init [countedQuery] = some s ∧
    s.stats.queries = 1 ∧ Shows none [countedQuery] s := by
  refine ⟨_, rfl, rfl, (@monitoring_reports_iff {} (fun _ => 0) smallConfig 1 none [] _
    [countedQuery] (by decide) rfl).2 ?_⟩
  constructor
  case unblocked => exact fun hdetails => by cases hdetails
  case unused => exact fun _ op hop => by cases hop
  case empty =>
    intro store hstore shard hshard
    cases hstore
    cases List.mem_singleton.1 hshard
    rfl
  case unlogged => exact fun persisted hpersisted => by cases hpersisted

/-- **The miss is not printed.** -/
theorem miss_unreported : ¬ ∀ (context : WorkerContext) (hash : QueryCacheKey → ℕ)
    (config : DnsCacheConfig) (shardCount : ℕ) (startedAt : Option UInt64)
    (securityEvents : List SecurityEvent) (events : List MonitoredEvent) (s : MonitoredServer),
    config.maxSizeBytes ≤ maxDnsCacheSize →
      (monitoredMachine context hash config shardCount startedAt securityEvents).run
        (monitoredMachine context hash config shardCount startedAt securityEvents).init events =
          some s →
      Shows startedAt events s := by
  intro hall
  have hreports := hall {} (fun _ => 0) smallConfig 1 none [] [countedQuery, missedLookup] _
    (by decide) rfl
  have hmisses := congrArg (·[5]?) (prometheusMetrics_eq_iff.1 hreports.metrics)
  exact absurd hmisses (by decide)

end DnsBlackhole.Worker
