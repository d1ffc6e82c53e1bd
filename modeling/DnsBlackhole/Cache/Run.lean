/-
  Runs of the cache.

  `CacheOp` are the operations on one shard and `StoreOp` those on the store; a
  run is a list of them, with the clock, the responses and the iteration orders
  of the hash maps as the operations come with them.  An operation on the store
  acts on its shards by operations on them (`storeStep_forall`).
-/
import DnsBlackhole.Lib.Machine
import DnsBlackhole.Cache.Evict

namespace DnsBlackhole.Cache
open Lib Protocol

/-! ## Operations on one shard -/

inductive CacheOp
  | lookup (key : QueryCacheKey) (now : ℕ)
  | insert (order : CacheOrder) (key : QueryCacheKey) (response : Packet) (now : ℕ) (ttl : UInt32)
  | finishRefresh (key : QueryCacheKey)
  | clear

namespace DnsCache

def apply (c : DnsCache) : CacheOp → DnsCache
  | .lookup key now => (c.lookup key now).2
  | .insert order key response now ttl => (c.insertWithTtl order key response now ttl).2
  | .finishRefresh key => c.finishRefresh key
  | .clear => c.clear

/-- The cache after the operations `ops`. -/
def applyAll (c : DnsCache) (ops : List CacheOp) : DnsCache := ops.foldl apply c

theorem hitEntry_snd (c : DnsCache) (entry : CachedDnsResponse) (now : ℕ) :
    ∃ b, (c.hitEntry entry now).2 =
      { entry with lastUsed := c.nextAccess, hitCount := entry.hitCount + 1, refreshing := b } := by
  have hclaim : ∀ e reason, ∃ b, (claimRefresh e reason).2 = { e with refreshing := b } := by
    intro e reason
    unfold claimRefresh
    split_ifs
    · exact ⟨e.refreshing, rfl⟩
    · exact ⟨true, rfl⟩
  unfold hitEntry hitRefresh
  split_ifs
  · exact hclaim _ .prefetch
  · exact ⟨entry.refreshing, rfl⟩
  · exact hclaim _ .expired

/-- **What a lookup does**: it counts an access, and a hit marks the entry. -/
theorem lookup_cases (c : DnsCache) (key : QueryCacheKey) (now : ℕ) :
    c.lookup key now = (none, c.countAccess) ∨
    ∃ entry, c.entries.lookup key = some entry ∧
      (now < entry.expiresAt ∨ usableStale c.config entry now) ∧
      c.lookup key now = (some ⟨entry.response, hitTtl entry now, !decide (now < entry.expiresAt),
          (c.hitEntry entry now).1⟩,
        { c.countAccess with entries := c.entries.insert key (c.hitEntry entry now).2 }) := by
  unfold lookup
  cases h : c.entries.lookup key with
  | none => exact .inl rfl
  | some entry =>
    dsimp only
    split_ifs with hmiss
    · exact .inl rfl
    · refine .inr ⟨entry, rfl, ?_, rfl⟩
      simpa [or_iff_not_imp_left] using hmiss

/-- **What an insertion does**: nothing, counting an access, or storing the new
    entry and evicting others. -/
theorem insertWithTtl_cases (order : CacheOrder) (c : DnsCache) (key : QueryCacheKey)
    (response : Packet) (now : ℕ) (ttl : UInt32) :
    (c.insertWithTtl order key response now ttl).1.inserted = false ∧
      ((c.insertWithTtl order key response now ttl).2 = c ∨
        (c.insertWithTtl order key response now ttl).2 = c.countAccess) ∨
    ttl ≠ 0 ∧ entrySize key response ≤ c.config.maxSizeBytes ∧
      (c.insertWithTtl order key response now ttl).1.inserted = true ∧
      (c.insertWithTtl order key response now ttl).2 =
        ((c.withResponse key response now ttl).evictOverLimit order now).1 := by
  unfold insertWithTtl
  split_ifs with h₀ h₁
  · exact .inl ⟨rfl, .inl rfl⟩
  · exact .inl ⟨rfl, .inr rfl⟩
  · exact .inr ⟨h₀, Nat.le_of_not_lt h₁, rfl, rfl⟩

theorem lookup_withResponse (c : DnsCache) (key k : QueryCacheKey) (response : Packet) (now : ℕ)
    (ttl : UInt32) : (c.withResponse key response now ttl).entries.lookup k =
      if k = key then some (newEntry key response now ttl c.nextAccess)
      else c.entries.lookup k := by
  simp only [withResponse, putEntry, countAccess, HashMap.lookup_insert_eq_ite,
    HashMap.lookup_erase_eq_ite]
  split_ifs <;> rfl

theorem finishRefresh_cases (c : DnsCache) (key : QueryCacheKey) : c.finishRefresh key = c ∨
    ∃ entry, c.entries.lookup key = some entry ∧ c.finishRefresh key =
      { c with entries := c.entries.insert key { entry with refreshing := false } } := by
  unfold finishRefresh
  cases h : c.entries.lookup key with
  | none => exact .inl rfl
  | some entry => exact .inr ⟨entry, rfl, rfl⟩

end DnsCache

/-! ## Operations on the store -/

inductive StoreOp
  | lookup (key : QueryCacheKey) (query : Packet) (now : ℕ)
  | insert (order : CacheOrder) (key : QueryCacheKey) (response : Packet) (now : ℕ)
  | finishRefresh (key : QueryCacheKey)
  | clear

/-- What an operation on the store returns. -/
inductive StoreOut
  | hit (hit : Option CacheHit)
  | inserted (inserted : Bool)
  | done

/-- One operation on the store, and what it returns. -/
def storeStep (hash : QueryCacheKey → ℕ) (config : DnsCacheConfig) (s : DnsCacheStore) :
    StoreOp → DnsCacheStore × StoreOut
  | .lookup key query now =>
    let r := lookupCachedResponse hash s key query now
    (r.2, .hit r.1)
  | .insert order key response now =>
    let r := insertCachedResponse hash order s config key response now
    (r.2, .inserted r.1)
  | .finishRefresh key => (s.finishRefresh hash key, .done)
  | .clear => (s.clear, .done)

/-- What the operations on a shard preserve, those on the store preserve of all
    shards. -/
theorem storeStep_forall {P : DnsCache → Prop} (hP : ∀ c op, P c → P (c.apply op))
    (hash : QueryCacheKey → ℕ) (config : DnsCacheConfig) {s : DnsCacheStore}
    (h : ∀ c ∈ s.shards, P c) (op : StoreOp) :
    ∀ c ∈ (storeStep hash config s op).1.shards, P c := by
  have hset : ∀ (i : ℕ) (op : CacheOp) (shard : DnsCache), s.shards[i]? = some shard →
      ∀ c ∈ s.shards.set i (shard.apply op), P c := by
    intro i op shard hs c hc
    rcases List.mem_or_eq_of_mem_set hc with hc | rfl
    · exact h c hc
    · exact hP shard op (h shard (List.mem_of_getElem? hs))
  intro c hc
  cases op with
  | lookup key query now =>
    simp only [storeStep, lookupCachedResponse, DnsCacheStore.lookup] at hc
    split at hc
    · exact h c hc
    · rename_i shard hs
      exact hset _ (.lookup key now) shard hs c hc
  | insert order key response now =>
    simp only [storeStep, insertCachedResponse] at hc
    split at hc
    · rename_i ttl stored _ _
      simp only [DnsCacheStore.insertWithTtl] at hc
      split at hc
      · exact h c hc
      · rename_i shard hs
        exact hset _ (.insert order key stored now ttl) shard hs c hc
    · exact h c hc
  | finishRefresh key =>
    simp only [storeStep, DnsCacheStore.finishRefresh] at hc
    split at hc
    · exact h c hc
    · rename_i shard hs
      exact hset _ (.finishRefresh key) shard hs c hc
  | clear =>
    obtain ⟨shard, hs, rfl⟩ := List.mem_map.1 hc
    exact hP shard .clear (h shard hs)

theorem storeStep_length (hash : QueryCacheKey → ℕ) (config : DnsCacheConfig) (s : DnsCacheStore)
    (op : StoreOp) : (storeStep hash config s op).1.shards.length = s.shards.length := by
  cases op with
  | lookup key query now =>
    simp only [storeStep, lookupCachedResponse, DnsCacheStore.lookup]
    split <;> simp
  | insert order key response now =>
    simp only [storeStep, insertCachedResponse]
    split
    · simp only [DnsCacheStore.insertWithTtl]
      split <;> simp
    · rfl
  | finishRefresh key =>
    simp only [storeStep, DnsCacheStore.finishRefresh]
    split <;> simp
  | clear => simp [storeStep, DnsCacheStore.clear]

/-! ## New stores -/

theorem shards_fromConfig {config : DnsCacheConfig} {shardCount : ℕ} {s : DnsCacheStore}
    (h : DnsCacheStore.fromConfig config shardCount = some s) :
    ∃ size, s.shards.length * size ≤ config.maxSizeBytes ∧ size ≤ config.maxSizeBytes ∧
      ∀ c ∈ s.shards, DnsCache.fromConfig { config with maxSizeBytes := size } = some c := by
  unfold DnsCacheStore.fromConfig at h
  dsimp only at h
  split_ifs at h with h₀ h₁
  cases h
  rw [not_or] at h₀
  have hpos : 0 < config.maxSizeBytes := Nat.pos_iff_ne_zero.2 h₀.2
  generalize hn : DnsCacheStore.effectiveShardCount config.maxSizeBytes shardCount = n
  have hn₁ : 1 ≤ n ∧ n ≤ config.maxSizeBytes := by
    rw [DnsCacheStore.effectiveShardCount] at hn
    omega
  have hsize : max (config.maxSizeBytes / n) 1 = config.maxSizeBytes / n :=
    Nat.max_eq_left (Nat.div_pos hn₁.2 hn₁.1)
  rw [hsize]
  refine ⟨config.maxSizeBytes / n, ?_, Nat.div_le_self _ _, fun c hc => ?_⟩
  · have hlen := List.length_filterMap_le DnsCache.fromConfig
      (List.replicate n { config with maxSizeBytes := config.maxSizeBytes / n })
    rw [List.length_replicate] at hlen
    exact (Nat.mul_le_mul_right _ hlen).trans (Nat.mul_div_le _ _)
  · obtain ⟨cfg, hcfg, hc⟩ := List.mem_filterMap.1 hc
    rwa [List.eq_of_mem_replicate hcfg] at hc

theorem config_fromConfig {config : DnsCacheConfig} {c : DnsCache}
    (h : DnsCache.fromConfig config = some c) : c.config = config ∧ c.entries = ∅ := by
  unfold DnsCache.fromConfig at h
  split_ifs at h
  cases h
  exact ⟨rfl, rfl⟩

end DnsBlackhole.Cache
