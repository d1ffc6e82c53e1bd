/-
  The metrics of the response cache (`CacheMetrics` and `stats_snapshot` of
  `dns/cache.rs`).

  * `MeteredStore`: a store whose operations are counted;
  * `store_meteredStep`: the metrics leave the store as it is;
  * `lookups_meteredRun`: the hits and the misses are the lookups since the last `clear`;
  * `entries_statsSnapshot_eq_zero`, `bytes_statsSnapshot_eq_zero`: the gauges of an empty
    store, and of no other.
-/
import DnsBlackhole.Cache.Accounting

namespace DnsBlackhole.Cache
open Lib Protocol

structure CacheMetrics where
  hits : ℕ := 0
  misses : ℕ := 0
  staleHits : ℕ := 0
  refreshStarted : ℕ := 0
  refreshCompleted : ℕ := 0
  refreshFailed : ℕ := 0
  prefetchStarted : ℕ := 0
  prefetchCompleted : ℕ := 0
  prefetchFailed : ℕ := 0
  insertions : ℕ := 0
  evictions : ℕ := 0
  deriving DecidableEq

structure DnsCacheStatsSnapshot extends CacheMetrics where
  entries : ℕ := 0
  bytes : ℕ := 0
  deriving DecidableEq

structure MeteredStore where
  store : DnsCacheStore
  metrics : CacheMetrics := {}
  deriving DecidableEq

namespace CacheMetrics
variable (m : CacheMetrics)

def countLookup : Option RawCacheHit → CacheMetrics
  | some hit => { m with
      hits := m.hits + 1
      staleHits := if hit.stale then m.staleHits + 1 else m.staleHits }
  | none => { m with misses := m.misses + 1 }

def countInsert (outcome : DnsCache.CacheInsertOutcome) : CacheMetrics := { m with
  insertions := if outcome.inserted then m.insertions + 1 else m.insertions
  evictions := m.evictions + outcome.evicted }

def recordRefreshStarted (reason : CacheRefreshReason) : CacheMetrics := { m with
  refreshStarted := m.refreshStarted + 1
  prefetchStarted := if reason = .prefetch then m.prefetchStarted + 1 else m.prefetchStarted }

def recordRefreshCompleted (reason : CacheRefreshReason) : CacheMetrics := { m with
  refreshCompleted := m.refreshCompleted + 1
  prefetchCompleted :=
    if reason = .prefetch then m.prefetchCompleted + 1 else m.prefetchCompleted }

def recordRefreshFailed (reason : CacheRefreshReason) : CacheMetrics := { m with
  refreshFailed := m.refreshFailed + 1
  prefetchFailed := if reason = .prefetch then m.prefetchFailed + 1 else m.prefetchFailed }

end CacheMetrics

/-! ## Operations -/

namespace MeteredStore

def fromConfig (config : DnsCacheConfig) (shardCount : ℕ) : Option MeteredStore :=
  (DnsCacheStore.fromConfig config shardCount).map fun store => { store }

section
variable (hash : QueryCacheKey → ℕ) (s : MeteredStore)

def lookup (key : QueryCacheKey) (now : ℕ) : Option RawCacheHit × MeteredStore :=
  let r := s.store.lookup hash key now
  (r.1, ⟨r.2, s.metrics.countLookup r.1⟩)

def insertWithTtl (order : CacheOrder) (key : QueryCacheKey) (response : Packet) (now : ℕ)
    (ttl : UInt32) : Bool × MeteredStore :=
  let i := s.store.shardIndex hash key
  match s.store.shards[i]? with
  | none => (false, s)
  | some shard =>
    let r := shard.insertWithTtl order key response now ttl
    (r.1.inserted, ⟨⟨s.store.shards.set i r.2⟩, s.metrics.countInsert r.1⟩)

def finishRefresh (key : QueryCacheKey) : MeteredStore :=
  { s with store := s.store.finishRefresh hash key }

def clear : MeteredStore := ⟨s.store.clear, {}⟩

def statsSnapshot : DnsCacheStatsSnapshot :=
  { s.metrics with
    entries := s.store.shards.foldl
      (fun n shard => saturatingAdd64 n shard.entries.entries.length) 0
    bytes := s.store.shards.foldl (fun n shard => saturatingAdd64 n shard.totalSize) 0 }

end

end MeteredStore

/-- An operation on the store, or a note about a refresh. -/
inductive MeteredOp
  | store (op : StoreOp)
  | refreshStarted (reason : CacheRefreshReason)
  | refreshCompleted (reason : CacheRefreshReason)
  | refreshFailed (reason : CacheRefreshReason)

def MeteredOp.isLookup : MeteredOp → Bool
  | .store (.lookup _ _ _) => true
  | _ => false

def MeteredOp.isClear : MeteredOp → Bool
  | .store .clear => true
  | _ => false

section
variable (hash : QueryCacheKey → ℕ) (config : DnsCacheConfig) (s : MeteredStore)

/-- The lookups are those of `lookup_cached_response`, and the insertions those of
    `insert_cached_response`. -/
def meteredStep : MeteredOp → MeteredStore
  | .store (.lookup key _ now) => (s.lookup hash key now).2
  | .store (.insert order key response now) =>
    match cacheTtlSeconds response config, normalizeCachedResponse response with
    | some ttl, some stored => (s.insertWithTtl hash order key stored now ttl).2
    | _, _ => s
  | .store (.finishRefresh key) => s.finishRefresh hash key
  | .store .clear => s.clear
  | .refreshStarted reason => { s with metrics := s.metrics.recordRefreshStarted reason }
  | .refreshCompleted reason => { s with metrics := s.metrics.recordRefreshCompleted reason }
  | .refreshFailed reason => { s with metrics := s.metrics.recordRefreshFailed reason }

def meteredRun (ops : List MeteredOp) : MeteredStore := ops.foldl (meteredStep hash config) s

/-- The operations behind the last `clear`. -/
def sinceClear (ops : List MeteredOp) : List MeteredOp := ops.rtakeWhile (!·.isClear)

end

/-! ## The store -/

section
variable {hash : QueryCacheKey → ℕ} {config : DnsCacheConfig} {s : MeteredStore}

theorem store_insertWithTtl (order : CacheOrder) (key : QueryCacheKey) (response : Packet)
    (now : ℕ) (ttl : UInt32) : (s.insertWithTtl hash order key response now ttl).2.store =
      (s.store.insertWithTtl hash order key response now ttl).2 := by
  unfold MeteredStore.insertWithTtl DnsCacheStore.insertWithTtl
  dsimp only
  cases s.store.shards[s.store.shardIndex hash key]? with
  | none => rfl
  | some shard => rfl

/-- **The metrics leave the store as it is.** -/
theorem store_meteredStep (op : StoreOp) : (meteredStep hash config s (.store op)).store =
    (storeStep hash config s.store op).1 := by
  cases op with
  | lookup key query now => rfl
  | insert order key response now =>
    unfold meteredStep storeStep insertCachedResponse
    dsimp only
    cases cacheTtlSeconds response config with
    | none => rfl
    | some ttl =>
      cases normalizeCachedResponse response with
      | none => rfl
      | some stored => exact store_insertWithTtl order key stored now ttl
  | finishRefresh key => rfl
  | clear => rfl

theorem meteredStep_forall {P : DnsCache → Prop} (hP : ∀ c op, P c → P (c.apply op))
    (h : ∀ c ∈ s.store.shards, P c) (op : MeteredOp) :
    ∀ c ∈ (meteredStep hash config s op).store.shards, P c := by
  cases op with
  | store op =>
    rw [store_meteredStep]
    exact storeStep_forall hP hash config h op
  | refreshStarted reason => exact h
  | refreshCompleted reason => exact h
  | refreshFailed reason => exact h

theorem meteredRun_forall {P : DnsCache → Prop} (hP : ∀ c op, P c → P (c.apply op))
    (h : ∀ c ∈ s.store.shards, P c) (ops : List MeteredOp) :
    ∀ c ∈ (meteredRun hash config s ops).store.shards, P c := by
  induction ops generalizing s with
  | nil => exact h
  | cons op ops ih => exact ih (meteredStep_forall hP h op)

/-! ## Lookups -/

/-- Hits and misses together. -/
def CacheMetrics.lookups (m : CacheMetrics) : ℕ := m.hits + m.misses

theorem lookups_countLookup (m : CacheMetrics) (hit : Option RawCacheHit) :
    (m.countLookup hit).lookups = m.lookups + 1 := by
  unfold CacheMetrics.lookups CacheMetrics.countLookup
  cases hit with
  | none => exact (Nat.add_assoc _ _ 1).symm
  | some hit => exact Nat.succ_add m.hits m.misses

theorem lookups_meteredStep (op : MeteredOp) : (meteredStep hash config s op).metrics.lookups =
    if op.isClear then 0 else s.metrics.lookups + op.isLookup.toNat := by
  cases op with
  | store op =>
    cases op with
    | lookup key query now => exact lookups_countLookup _ _
    | insert order key response now =>
      unfold meteredStep
      dsimp only
      split
      · unfold MeteredStore.insertWithTtl
        dsimp only
        split <;> rfl
      · rfl
    | finishRefresh key => rfl
    | clear => rfl
  | refreshStarted reason => rfl
  | refreshCompleted reason => rfl
  | refreshFailed reason => rfl

/-- **What is counted as hits and misses** of a new store is what was looked up since the last
    `clear`. -/
theorem lookups_meteredRun (hnew : s.metrics = {}) (ops : List MeteredOp) :
    (meteredRun hash config s ops).metrics.lookups =
      (sinceClear ops).countP (·.isLookup) := by
  induction ops using List.reverseRecOn with
  | nil =>
    change s.metrics.lookups = 0
    rw [hnew]
    rfl
  | append_singleton ops op ih =>
    have hsince : sinceClear (ops ++ [op]) = if !op.isClear then sinceClear ops ++ [op] else [] :=
      List.rtakeWhile_concat _ ops op
    rw [meteredRun, List.foldl_concat, ← meteredRun, lookups_meteredStep, ih, hsince]
    cases op.isClear with
    | true => rfl
    | false =>
      rw [if_neg Bool.false_ne_true, if_pos (by rfl), List.countP_append, List.countP_singleton]
      cases op.isLookup <;> rfl

/-! ## Gauges -/

theorem foldl_saturatingAdd64_eq_zero {α : Type} (f : α → ℕ) (l : List α) (a : ℕ) :
    l.foldl (fun n x => saturatingAdd64 n (f x)) a = 0 ↔ a = 0 ∧ ∀ x ∈ l, f x = 0 := by
  induction l generalizing a with
  | nil => simp
  | cons x l ih =>
    have hadd : saturatingAdd64 a (f x) = 0 ↔ a = 0 ∧ f x = 0 := by
      unfold saturatingAdd64 u64Max
      omega
    rw [List.foldl_cons, ih, hadd, and_assoc, List.forall_mem_cons]

/-- No entry is stored. -/
def MeteredStore.IsEmpty (s : MeteredStore) : Prop :=
  ∀ shard ∈ s.store.shards, shard.entries.entries = []

theorem entries_statsSnapshot_eq_zero : s.statsSnapshot.entries = 0 ↔ s.IsEmpty := by
  refine (foldl_saturatingAdd64_eq_zero _ _ 0).trans ?_
  simp [MeteredStore.IsEmpty]

theorem bytes_statsSnapshot_eq_zero (hcounted : ∀ shard ∈ s.store.shards, shard.Counted)
    (hempty : s.IsEmpty) : s.statsSnapshot.bytes = 0 := by
  refine (foldl_saturatingAdd64_eq_zero _ _ 0).2 ⟨rfl, fun shard hshard => ?_⟩
  rw [hcounted shard hshard, DnsCache.sizes, HashMap.sumBy, hempty shard hshard]
  rfl

end

end DnsBlackhole.Cache
