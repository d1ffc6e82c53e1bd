/-
  The response cache (`dns/cache.rs`).

  A `DnsCache` is one shard: the entries, their total size and the counter that
  dates accesses.  `DnsCacheStore` is a number of shards, among which a hash of
  the key chooses.

  * Times and sizes are natural numbers, with the saturating and wrapping
    operations of `u64` and `usize` written out.
  * The order in which a hash map is iterated over is an argument (`IterOrder`)
    of the operations that depend on it; the hash function is an argument of
    the operations on the store.
  * Fields behind atomics are plain fields; an operation on `&self` that stores
    into them returns the new cache.
-/
import Mathlib.Data.List.MinMax
import DnsBlackhole.Lib.HashMap
import DnsBlackhole.Cache.Key
import DnsBlackhole.Protocol.Cached

namespace DnsBlackhole.Cache
open Lib Protocol

def dnsCacheEntryOverheadBytes : ℕ := 96
def dnsCacheEvictSample : ℕ := 16
def dnsCacheExpiredScanIntervalSeconds : ℕ := 30

/-- `u64::MAX` and `usize::MAX`. -/
def u64Max : ℕ := 2 ^ 64 - 1

/-- `saturating_add` of `u64` and `usize`. -/
def saturatingAdd64 (a b : ℕ) : ℕ := min (a + b) u64Max

structure DnsCacheConfig where
  enabled : Bool
  maxSizeBytes : ℕ
  minTtl : UInt32
  maxTtl : UInt32
  optimistic : Bool
  optimisticMaxStaleSeconds : UInt32
  prefetchEnabled : Bool
  prefetchHitThreshold : UInt32
  deriving DecidableEq

structure CachedDnsResponse where
  response : Packet
  expiresAt : ℕ
  prefetchAt : ℕ
  size : ℕ
  lastUsed : ℕ
  refreshing : Bool
  hitCount : UInt32
  deriving DecidableEq

inductive CacheRefreshReason
  | expired
  | prefetch
  deriving DecidableEq

structure RawCacheHit where
  response : Packet
  ttl : UInt32
  stale : Bool
  refreshReason : Option CacheRefreshReason
  deriving DecidableEq

structure CacheHit where
  response : Packet
  refreshReason : Option CacheRefreshReason
  deriving DecidableEq

structure DnsCache where
  config : DnsCacheConfig
  entries : HashMap QueryCacheKey CachedDnsResponse
  totalSize : ℕ
  accessCounter : ℕ
  lastExpiredScanAt : ℕ
  deriving DecidableEq

abbrev CacheOrder := IterOrder ((_ : QueryCacheKey) × CachedDnsResponse)

/-- The iteration order in which the entries are stored. -/
def storedOrder : CacheOrder := ⟨id, fun _ => .refl _⟩

namespace DnsCache

def fromConfig (config : DnsCacheConfig) : Option DnsCache :=
  if !config.enabled ∨ config.maxSizeBytes = 0 then none else some ⟨config, ∅, 0, 0, 0⟩

/-- `access_counter.fetch_add(1) + 1`. -/
def nextAccess (c : DnsCache) : ℕ := (c.accessCounter + 1) % 2 ^ 64

/-- `refreshing.compare_exchange(false, true)`: the reason, if the flag was not
    set, and the entry with the flag. -/
def claimRefresh (entry : CachedDnsResponse) (reason : CacheRefreshReason) :
    Option CacheRefreshReason × CachedDnsResponse :=
  if entry.refreshing then (none, entry) else (some reason, { entry with refreshing := true })

/-- Whether an entry that has expired may still be handed out. -/
def usableStale (config : DnsCacheConfig) (entry : CachedDnsResponse) (now : ℕ) : Bool :=
  config.optimistic && decide (now - entry.expiresAt ≤ config.optimisticMaxStaleSeconds.toNat)

/-- The refresh a hit of `entry` starts, and the entry after it; the hit itself
    has been counted, and `previousHitCount` is the count before it. -/
def hitRefresh (config : DnsCacheConfig) (entry : CachedDnsResponse) (previousHitCount : UInt32)
    (now : ℕ) : Option CacheRefreshReason × CachedDnsResponse :=
  if ¬ now < entry.expiresAt then claimRefresh entry .expired
  else if config.prefetchEnabled ∧
      config.prefetchHitThreshold.toNat - 1 ≤ previousHitCount.toNat ∧ entry.prefetchAt ≤ now then
    claimRefresh entry .prefetch
  else (none, entry)

/-- The time to live of a hit of `entry`. -/
def hitTtl (entry : CachedDnsResponse) (now : ℕ) : UInt32 :=
  if now < entry.expiresAt then
    .ofNat (max (min (entry.expiresAt - now) 4294967295) 1)
  else 1

/-- The cache after one more access. -/
def countAccess (c : DnsCache) : DnsCache := { c with accessCounter := c.nextAccess }

/-- What a hit of `entry` makes of it: it is dated and counted, and its refresh
    may be claimed. -/
def hitEntry (c : DnsCache) (entry : CachedDnsResponse) (now : ℕ) :
    Option CacheRefreshReason × CachedDnsResponse :=
  hitRefresh c.config { entry with lastUsed := c.nextAccess, hitCount := entry.hitCount + 1 }
    entry.hitCount now

def lookup (c : DnsCache) (key : QueryCacheKey) (now : ℕ) : Option RawCacheHit × DnsCache :=
  match c.entries.lookup key with
  | none => (none, c.countAccess)
  | some entry =>
    let fresh := decide (now < entry.expiresAt)
    if !fresh && !usableStale c.config entry now then (none, c.countAccess)
    else
      let r := c.hitEntry entry now
      (some ⟨entry.response, hitTtl entry now, !fresh, r.1⟩,
        { c.countAccess with entries := c.entries.insert key r.2 })

/-! ## Eviction -/

/-- How the loop of `evict_over_limit` ends. -/
inductive EvictEnd
  | underLimit
  | nothingLeft
  | outOfFuel
  deriving DecidableEq

/-- The key of the least recently used of the first entries in the iteration
    order. -/
def sampledOldest (order : CacheOrder) (c : DnsCache) : Option QueryCacheKey :=
  (((order.order c.entries.entries).take dnsCacheEvictSample).argmin fun e => e.2.lastUsed).map
    Sigma.fst

/-- The loop of `evict_over_limit`, for `fuel` iterations at most. -/
def evictLoop (order : CacheOrder) : ℕ → DnsCache → ℕ → DnsCache × ℕ × EvictEnd
  | 0, c, evicted => (c, evicted, .outOfFuel)
  | fuel + 1, c, evicted =>
    if c.config.maxSizeBytes < c.totalSize then
      match sampledOldest order c with
      | none => ({ c with totalSize := 0 }, evicted, .nothingLeft)
      | some key =>
        match c.entries.lookup key with
        | some entry =>
          evictLoop order fuel
            { c with entries := c.entries.erase key, totalSize := c.totalSize - entry.size }
            (saturatingAdd64 evicted 1)
        | none => evictLoop order fuel c evicted
    else (c, evicted, .underLimit)

def shouldScanExpired (c : DnsCache) (now : ℕ) : Bool :=
  c.lastExpiredScanAt == 0 ||
    decide (dnsCacheExpiredScanIntervalSeconds ≤ now - c.lastExpiredScanAt)

/-- Whether the expired scan keeps an entry. -/
def keepsUnexpired (config : DnsCacheConfig) (now : ℕ) (e : (_ : QueryCacheKey) × CachedDnsResponse) :
    Bool :=
  decide (now < e.2.expiresAt) || usableStale config e.2 now

def evictExpired (c : DnsCache) (now : ℕ) : DnsCache × ℕ :=
  let removed := c.entries.entries.filter fun e => !keepsUnexpired c.config now e
  let removedSize := removed.foldl (fun n e => saturatingAdd64 n e.2.size) 0
  ({ c with
      entries := c.entries.retain (keepsUnexpired c.config now)
      totalSize := c.totalSize - removedSize },
    removed.foldl (fun n _ => saturatingAdd64 n 1) 0)

/-- The scan for expired entries at the beginning of `evict_over_limit`. -/
def scanExpired (c : DnsCache) (now : ℕ) : DnsCache × ℕ :=
  if c.shouldScanExpired now then
    let r := c.evictExpired now
    ({ r.1 with lastExpiredScanAt := now }, r.2)
  else (c, 0)

def evictOverLimit (order : CacheOrder) (c : DnsCache) (now : ℕ) : DnsCache × ℕ × EvictEnd :=
  let r := c.scanExpired now
  evictLoop order (r.1.entries.entries.length + 1) r.1 r.2

/-! ## Insertion -/

structure CacheInsertOutcome where
  inserted : Bool
  evicted : ℕ
  deriving DecidableEq

/-- The size of the entry for `response` under `key`. -/
def entrySize (key : QueryCacheKey) (response : Packet) : ℕ :=
  saturatingAdd64 (saturatingAdd64 response.length key.domain.len) dnsCacheEntryOverheadBytes

/-- The entry for `response`, inserted at `now`. -/
def newEntry (key : QueryCacheKey) (response : Packet) (now : ℕ) (ttl : UInt32) (access : ℕ) :
    CachedDnsResponse where
  response := response
  expiresAt := saturatingAdd64 now ttl.toNat
  prefetchAt := saturatingAdd64 now ttl.toNat - max (ttl.toNat / 10) 1
  size := entrySize key response
  lastUsed := access
  refreshing := false
  hitCount := 0

/-- The cache after the new entry has taken the place of the one under its key. -/
def putEntry (c : DnsCache) (key : QueryCacheKey) (entry : CachedDnsResponse) : DnsCache :=
  let totalSize := match c.entries.lookup key with
    | some previous => c.totalSize - previous.size
    | none => c.totalSize
  { c with
    entries := (c.entries.erase key).insert key entry
    totalSize := saturatingAdd64 totalSize entry.size }

/-- The cache with the new entry, before the eviction. -/
def withResponse (c : DnsCache) (key : QueryCacheKey) (response : Packet) (now : ℕ)
    (ttl : UInt32) : DnsCache :=
  c.countAccess.putEntry key (newEntry key response now ttl c.nextAccess)

def insertWithTtl (order : CacheOrder) (c : DnsCache) (key : QueryCacheKey) (response : Packet)
    (now : ℕ) (ttl : UInt32) : CacheInsertOutcome × DnsCache :=
  if ttl = 0 then (⟨false, 0⟩, c)
  else if c.config.maxSizeBytes < entrySize key response then (⟨false, 0⟩, c.countAccess)
  else
    let r := (c.withResponse key response now ttl).evictOverLimit order now
    (⟨true, r.2.1⟩, r.1)

def finishRefresh (c : DnsCache) (key : QueryCacheKey) : DnsCache :=
  match c.entries.lookup key with
  | some entry => { c with entries := c.entries.insert key { entry with refreshing := false } }
  | none => c

def clear (c : DnsCache) : DnsCache :=
  { c with entries := ∅, totalSize := 0, lastExpiredScanAt := 0 }

end DnsCache

/-! ## The store -/

structure DnsCacheStore where
  shards : List DnsCache
  deriving DecidableEq

namespace DnsCacheStore

/-- The number of shards of a store of `maxSizeBytes` for which `shardCount` are
    asked. -/
def effectiveShardCount (maxSizeBytes shardCount : ℕ) : ℕ :=
  min (max shardCount 1) (max (maxSizeBytes / 4096) 1)

def fromConfig (config : DnsCacheConfig) (shardCount : ℕ) : Option DnsCacheStore :=
  if !config.enabled ∨ config.maxSizeBytes = 0 then none
  else
    let shardCount := effectiveShardCount config.maxSizeBytes shardCount
    let shardSize := max (config.maxSizeBytes / shardCount) 1
    let shards := (List.replicate shardCount { config with maxSizeBytes := shardSize }).filterMap
      DnsCache.fromConfig
    if shards.isEmpty then none else some ⟨shards⟩

/-- `query_cache_key_shard_index`, for the hash `hash` of the key. -/
def shardIndex (hash : QueryCacheKey → ℕ) (s : DnsCacheStore) (key : QueryCacheKey) : ℕ :=
  hash key % max s.shards.length 1

variable (hash : QueryCacheKey → ℕ)

def lookup (s : DnsCacheStore) (key : QueryCacheKey) (now : ℕ) :
    Option RawCacheHit × DnsCacheStore :=
  let i := s.shardIndex hash key
  match s.shards[i]? with
  | none => (none, s)
  | some shard =>
    let r := shard.lookup key now
    (r.1, ⟨s.shards.set i r.2⟩)

def insertWithTtl (order : CacheOrder) (s : DnsCacheStore) (key : QueryCacheKey)
    (response : Packet) (now : ℕ) (ttl : UInt32) : Bool × DnsCacheStore :=
  let i := s.shardIndex hash key
  match s.shards[i]? with
  | none => (false, s)
  | some shard =>
    let r := shard.insertWithTtl order key response now ttl
    (r.1.inserted, ⟨s.shards.set i r.2⟩)

def finishRefresh (s : DnsCacheStore) (key : QueryCacheKey) : DnsCacheStore :=
  let i := s.shardIndex hash key
  match s.shards[i]? with
  | none => s
  | some shard => ⟨s.shards.set i (shard.finishRefresh key)⟩

def clear (s : DnsCacheStore) : DnsCacheStore := ⟨s.shards.map DnsCache.clear⟩

/-- The entry under a key. -/
def entryAt (s : DnsCacheStore) (key : QueryCacheKey) : Option CachedDnsResponse :=
  s.shards[s.shardIndex hash key]?.bind fun shard => shard.entries.lookup key

end DnsCacheStore

/-! ## Answers -/

def lookupCachedResponse (hash : QueryCacheKey → ℕ) (s : DnsCacheStore) (key : QueryCacheKey)
    (query : Packet) (now : ℕ) : Option CacheHit × DnsCacheStore :=
  let r := s.lookup hash key now
  (r.1.bind fun raw => (prepareCachedResponse raw.response query raw.ttl).map fun response =>
    ⟨response, raw.refreshReason⟩, r.2)

def cacheTtlSeconds (packet : Packet) (config : DnsCacheConfig) : Option UInt32 :=
  (responseCacheTtl packet).bind fun ttl =>
    if ttl = 0 then none
    else
      let ttl := if 0 < config.minTtl then max ttl config.minTtl else ttl
      some (if 0 < config.maxTtl then min ttl config.maxTtl else ttl)

def insertCachedResponse (hash : QueryCacheKey → ℕ) (order : CacheOrder) (s : DnsCacheStore)
    (config : DnsCacheConfig) (key : QueryCacheKey) (response : Packet) (now : ℕ) :
    Bool × DnsCacheStore :=
  match cacheTtlSeconds response config, normalizeCachedResponse response with
  | some ttl, some stored => s.insertWithTtl hash order key stored now ttl
  | _, _ => (false, s)

end DnsBlackhole.Cache
