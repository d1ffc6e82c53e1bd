/-
  The size of the cache.

  In every run the total size of a shard is the sum of the sizes of its
  entries and stays below the limit, and the loop that evicts entries ends
  there.  The entry that has just been inserted is not evicted as long as the
  counter of accesses has not wrapped around: it then is the newest
  (`Dated`).
-/
import DnsBlackhole.Cache.Run

namespace DnsBlackhole.Cache
open Lib Protocol DnsCache

/-- The limit on `dns_cache_size` in a valid configuration. -/
def maxDnsCacheSize : ℕ := 512 * 1024 * 1024

/-! ## The total size -/

/-- The shard counts its entries and is below the limit of its configuration,
    which is a valid one. -/
structure Accounted (config : DnsCacheConfig) (c : DnsCache) : Prop where
  config_eq : c.config = config
  counted : c.Counted
  le : c.totalSize ≤ config.maxSizeBytes
  valid : config.maxSizeBytes ≤ maxDnsCacheSize

theorem accounted_fromConfig {config : DnsCacheConfig} {c : DnsCache}
    (h : DnsCache.fromConfig config = some c) (hmax : config.maxSizeBytes ≤ maxDnsCacheSize) :
    Accounted config c := by
  unfold DnsCache.fromConfig at h
  split_ifs at h
  cases h
  exact ⟨rfl, rfl, Nat.zero_le _, hmax⟩

theorem withResponse_counted {config : DnsCacheConfig} {c : DnsCache} (hc : Accounted config c)
    {key : QueryCacheKey} {response : Packet}
    (hsize : entrySize key response ≤ config.maxSizeBytes) (now : ℕ) (ttl : UInt32) :
    (c.withResponse key response now ttl).Counted ∧
      (c.withResponse key response now ttl).totalSize ≤ u64Max := by
  have hle := hc.le
  have hvalid := hc.valid
  have hcount := hc.counted
  simp only [Counted, sizes] at hcount
  simp only [Counted, sizes, withResponse, putEntry, HashMap.sumBy_insert, countAccess]
  have herase : (c.entries.erase key).erase key = c.entries.erase key :=
    AList.ext (List.kerase_of_notMem_keys (List.notMem_keys_kerase _ c.entries.nodupKeys))
  rw [herase]
  have hnew : (newEntry key response now ttl c.nextAccess).size = entrySize key response := rfl
  have hmax : maxDnsCacheSize + maxDnsCacheSize ≤ u64Max := by decide
  cases h : c.entries.lookup key with
  | none =>
    have := HashMap.sumBy_erase_of_lookup_none CachedDnsResponse.size h
    simp only [saturatingAdd64]
    omega
  | some previous =>
    have := HashMap.sumBy_erase CachedDnsResponse.size h
    simp only [saturatingAdd64]
    omega

theorem Accounted.evict {config : DnsCacheConfig} {c : DnsCache} (hc : Accounted config c)
    (order : CacheOrder) {key : QueryCacheKey} {response : Packet}
    (hsize : entrySize key response ≤ config.maxSizeBytes) (now : ℕ) (ttl : UInt32) :
    let r := (c.withResponse key response now ttl).evictOverLimit order now
    r.2.2 = .underLimit ∧ Accounted config r.1 := by
  obtain ⟨hcount, hmax⟩ := withResponse_counted hc hsize now ttl
  obtain ⟨hend, hcount', hle, -⟩ := @evictOverLimit_spec order _ now hcount hmax
  have hconfig : (c.withResponse key response now ttl).config = config := hc.config_eq
  rw [hconfig] at hle
  exact ⟨hend, (evictOverLimit_shrinks order _ now).config.trans hconfig, hcount', hle, hc.valid⟩

/-- **Every operation keeps the accounts.** -/
theorem Accounted.apply {config : DnsCacheConfig} {c : DnsCache} (hc : Accounted config c)
    (op : CacheOp) : Accounted config (c.apply op) := by
  have hset : ∀ {d : DnsCache} {key : QueryCacheKey} {e e' : CachedDnsResponse},
      d.totalSize = c.totalSize → d.config = c.config →
      c.entries.lookup key = some e → e'.size = e.size →
      Accounted config { d with entries := c.entries.insert key e' } := by
    intro d key e e' htotal hconfig he hsize
    refine ⟨hconfig.trans hc.config_eq, ?_, by dsimp only; rw [htotal]; exact hc.le, hc.valid⟩
    have := hc.counted
    simp only [Counted, sizes] at this ⊢
    rw [HashMap.sumBy_insert_of_eq he hsize, htotal, this]
  have hcountAccess : Accounted config c.countAccess :=
    ⟨hc.config_eq, hc.counted, hc.le, hc.valid⟩
  cases op with
  | lookup key now =>
    rcases c.lookup_cases key now with h | ⟨entry, he, -, h⟩
    · rw [DnsCache.apply, h]; exact hcountAccess
    · obtain ⟨b, hb⟩ := c.hitEntry_snd entry now
      rw [DnsCache.apply, h]
      exact hset rfl rfl he (by rw [hb])
  | insert order key response now ttl =>
    rcases c.insertWithTtl_cases order key response now ttl with
      ⟨-, h | h⟩ | ⟨-, hsize, -, h⟩
    · rw [DnsCache.apply, h]; exact hc
    · rw [DnsCache.apply, h]; exact hcountAccess
    · rw [hc.config_eq] at hsize
      rw [DnsCache.apply, h]
      exact (hc.evict order hsize now ttl).2
  | finishRefresh key =>
    rcases c.finishRefresh_cases key with h | ⟨entry, he, h⟩
    · rw [DnsCache.apply, h]; exact hc
    · rw [DnsCache.apply, h]; exact hset rfl rfl he rfl
  | clear => exact ⟨hc.config_eq, rfl, Nat.zero_le _, hc.valid⟩

/-! ## The dates of the entries -/

/-- The number of accesses an operation may count. -/
def CacheOp.accesses : CacheOp → ℕ
  | .lookup _ _ | .insert _ _ _ _ _ => 1
  | .finishRefresh _ | .clear => 0

/-- The number of accesses the operations may count. -/
def accesses (ops : List CacheOp) : ℕ := (ops.map CacheOp.accesses).sum

/-- After `n` accesses, none of the entries is dated later than the counter. -/
structure Dated (c : DnsCache) (n : ℕ) : Prop where
  counter : c.accessCounter ≤ n
  lastUsed : ∀ k e, c.entries.lookup k = some e → e.lastUsed ≤ c.accessCounter

theorem nextAccess_eq {c : DnsCache} {n : ℕ} (h : Dated c n) (hn : n + 1 < 2 ^ 64) :
    c.nextAccess = c.accessCounter + 1 :=
  Nat.mod_eq_of_lt (by have := h.counter; omega)

theorem Dated.countAccess {c : DnsCache} {n : ℕ} (h : Dated c n) (hn : n + 1 < 2 ^ 64) :
    Dated c.countAccess (n + 1) where
  counter := by
    have := h.counter
    rw [DnsCache.countAccess, nextAccess_eq h hn]
    dsimp only; omega
  lastUsed k e he := by
    have := h.lastUsed k e he
    rw [DnsCache.countAccess, nextAccess_eq h hn]
    dsimp only; omega

theorem Dated.of_shrinks {c c' : DnsCache} {n : ℕ} (h : Dated c n) (hs : Shrinks c c') :
    Dated c' n where
  counter := by rw [hs.accessCounter]; exact h.counter
  lastUsed k e he := by rw [hs.accessCounter]; exact h.lastUsed k e (hs.lookup k e he)

theorem Dated.insert {c d : DnsCache} {n : ℕ} (h : Dated c n) {key : QueryCacheKey}
    {e : CachedDnsResponse} (hd : d.accessCounter = c.accessCounter)
    (hl : ∀ k, d.entries.lookup k = if k = key then some e else c.entries.lookup k)
    (he : e.lastUsed ≤ c.accessCounter) : Dated d n where
  counter := by rw [hd]; exact h.counter
  lastUsed k e' he' := by
    rw [hl] at he'
    rw [hd]
    split_ifs at he' with hk
    · cases he'; exact he
    · exact h.lastUsed k e' he'

theorem Dated.withResponse {c : DnsCache} {n : ℕ} (h : Dated c n) (hn : n + 1 < 2 ^ 64)
    (key : QueryCacheKey) (response : Packet) (now : ℕ) (ttl : UInt32) :
    Dated (c.withResponse key response now ttl) (n + 1) :=
  (h.countAccess hn).insert rfl (fun k => c.lookup_withResponse key k response now ttl)
    (Nat.le_refl _)

theorem Dated.newest {c : DnsCache} {n : ℕ} (h : Dated c n) (hn : n + 1 < 2 ^ 64)
    (key : QueryCacheKey) (response : Packet) (now : ℕ) (ttl : UInt32) :
    Newest (c.withResponse key response now ttl) key
      (newEntry key response now ttl c.nextAccess) := by
  refine ⟨by rw [c.lookup_withResponse, if_pos rfl], fun k e hne he => ?_⟩
  rw [c.lookup_withResponse, if_neg hne] at he
  have := h.lastUsed k e he
  change e.lastUsed < c.nextAccess
  rw [nextAccess_eq h hn]; omega

theorem Dated.apply {c : DnsCache} {n : ℕ} (h : Dated c n) (op : CacheOp)
    (hn : n + op.accesses < 2 ^ 64) : Dated (c.apply op) (n + op.accesses) := by
  cases op with
  | lookup key now =>
    rcases c.lookup_cases key now with hl | ⟨entry, he, -, hl⟩
    · rw [DnsCache.apply, hl]; exact h.countAccess hn
    · obtain ⟨b, hb⟩ := c.hitEntry_snd entry now
      rw [DnsCache.apply, hl]
      exact (h.countAccess hn).insert rfl (fun k => HashMap.lookup_insert_eq_ite _ key k _)
        (by rw [hb]; exact Nat.le_refl _)
  | insert order key response now ttl =>
    rcases c.insertWithTtl_cases order key response now ttl with
      ⟨-, hi | hi⟩ | ⟨-, hsize, -, hi⟩
    · rw [DnsCache.apply, hi]
      exact ⟨by have := h.counter; omega, h.lastUsed⟩
    · rw [DnsCache.apply, hi]; exact h.countAccess hn
    · rw [DnsCache.apply, hi]
      exact (h.withResponse hn key response now ttl).of_shrinks (evictOverLimit_shrinks order _ now)
  | finishRefresh key =>
    rcases c.finishRefresh_cases key with hf | ⟨entry, he, hf⟩
    · rw [DnsCache.apply, hf]; exact h
    · rw [DnsCache.apply, hf]
      exact h.insert rfl (fun k => HashMap.lookup_insert_eq_ite _ key k _) (h.lastUsed key entry he)
  | clear => exact ⟨h.counter, fun k e he => by cases he⟩

/-! ## Runs -/

theorem Accounted.applyAll {config : DnsCacheConfig} {c : DnsCache} (hc : Accounted config c)
    (ops : List CacheOp) : Accounted config (c.applyAll ops) := by
  induction ops generalizing c with
  | nil => exact hc
  | cons op ops ih => exact ih (hc.apply op)

theorem Dated.applyAll {c : DnsCache} {n : ℕ} (h : Dated c n) (ops : List CacheOp)
    (hn : n + accesses ops < 2 ^ 64) : Dated (c.applyAll ops) (n + accesses ops) := by
  induction ops generalizing c n with
  | nil => exact h
  | cons op ops ih =>
    rw [accesses, List.map_cons, List.sum_cons] at hn ⊢
    rw [← Nat.add_assoc] at hn ⊢
    exact ih (h.apply op (by omega)) hn

theorem lookup_insertWithTtl {config : DnsCacheConfig} {c : DnsCache} {n : ℕ}
    (hc : Accounted config c) (h : Dated c n) (hn : n + 1 < 2 ^ 64) {order : CacheOrder}
    {key : QueryCacheKey} {response : Packet} {now : ℕ} {ttl : UInt32} (hnow : now < u64Max)
    (hins : (c.insertWithTtl order key response now ttl).1.inserted) :
    (c.insertWithTtl order key response now ttl).2.entries.lookup key =
      some (newEntry key response now ttl c.nextAccess) := by
  rcases c.insertWithTtl_cases order key response now ttl with
    ⟨hno, -⟩ | ⟨httl, hsize, -, hi⟩
  · rw [hno] at hins; cases hins
  · rw [hi]
    rw [hc.config_eq] at hsize
    obtain ⟨hcount, hmax⟩ := withResponse_counted hc hsize now ttl
    obtain ⟨-, -, -, hnew⟩ := @evictOverLimit_spec order _ now hcount hmax
    refine hnew key _ (h.newest hn key response now ttl) ?_ ?_
    · change entrySize key response ≤ c.config.maxSizeBytes
      rw [hc.config_eq]; exact hsize
    · have hpos : 0 < ttl.toNat := Nat.pos_iff_ne_zero.2 fun h => httl (UInt32.toNat_inj.1 h)
      change now < min (now + ttl.toNat) u64Max
      omega

/-! ## The shards of a store -/

/-- The store after the operations `ops`. -/
def storeRun (hash : QueryCacheKey → ℕ) (config : DnsCacheConfig) (s : DnsCacheStore)
    (ops : List StoreOp) : DnsCacheStore :=
  ops.foldl (fun s op => (storeStep hash config s op).1) s

theorem storeRun_shards {config cacheConfig : DnsCacheConfig} {shardCount : ℕ} {s : DnsCacheStore}
    (h : DnsCacheStore.fromConfig config shardCount = some s)
    (hmax : config.maxSizeBytes ≤ maxDnsCacheSize) (hash : QueryCacheKey → ℕ)
    (ops : List StoreOp) :
    ((storeRun hash cacheConfig s ops).shards.map DnsCache.totalSize).sum ≤ config.maxSizeBytes := by
  obtain ⟨size, hlen, hle, hshards⟩ := shards_fromConfig h
  have hrun : ∀ (ops : List StoreOp) (s : DnsCacheStore),
      (∀ c ∈ s.shards, Accounted { config with maxSizeBytes := size } c) →
      (∀ c ∈ (storeRun hash cacheConfig s ops).shards,
        Accounted { config with maxSizeBytes := size } c) ∧
      (storeRun hash cacheConfig s ops).shards.length = s.shards.length := by
    intro ops
    induction ops with
    | nil => exact fun s hs => ⟨hs, rfl⟩
    | cons op ops ih =>
      intro s hs
      have := ih _ (storeStep_forall (fun c op hc => hc.apply op) hash cacheConfig hs op)
      exact ⟨this.1, this.2.trans (storeStep_length hash cacheConfig s op)⟩
  obtain ⟨hacc, hlen'⟩ := hrun ops s fun c hc => accounted_fromConfig (hshards c hc)
    (hle.trans hmax)
  have hsum : ∀ l : List DnsCache, (∀ c ∈ l, c.totalSize ≤ size) →
      (l.map DnsCache.totalSize).sum ≤ l.length * size := by
    intro l hl
    induction l with
    | nil => exact Nat.zero_le _
    | cons c l ih =>
      have h₁ := hl c List.mem_cons_self
      have h₂ := ih fun c hc => hl c (List.mem_cons_of_mem _ hc)
      rw [List.map_cons, List.sum_cons, List.length_cons, Nat.succ_mul]
      omega
  have := hsum _ fun c hc => (hacc c hc).le
  rw [hlen'] at this
  exact this.trans hlen

/-! ## The accounts -/

/-- **Accounting and eviction.** In every run of the operations on a shard of a
    valid configuration the total size is the sum of the sizes of the entries
    and within the limit; the loop that evicts entries ends there; and an entry
    just inserted is present, as long as fewer than `2 ^ 64` accesses have been
    counted.  The shards of a store together stay within its limit. -/
theorem cache_accounting (config : DnsCacheConfig) :
    (∀ c₀ ops, DnsCache.fromConfig config = some c₀ →
      config.maxSizeBytes ≤ maxDnsCacheSize →
      let c := c₀.applyAll ops
      c.totalSize = c.sizes ∧ c.totalSize ≤ config.maxSizeBytes ∧
      ∀ order key response now ttl,
        (entrySize key response ≤ config.maxSizeBytes →
          ((c.withResponse key response now ttl).evictOverLimit order now).2.2 = .underLimit) ∧
        (now < u64Max → accesses ops + 1 < 2 ^ 64 →
          (c.insertWithTtl order key response now ttl).1.inserted →
          (c.insertWithTtl order key response now ttl).2.entries.lookup key =
            some (newEntry key response now ttl c.nextAccess))) ∧
    ∀ shardCount s, DnsCacheStore.fromConfig config shardCount = some s →
      (s.shards.map fun c => c.config.maxSizeBytes).sum ≤ config.maxSizeBytes ∧
      (config.maxSizeBytes ≤ maxDnsCacheSize → ∀ hash cacheConfig ops,
        ((storeRun hash cacheConfig s ops).shards.map DnsCache.totalSize).sum ≤
          config.maxSizeBytes) := by
  refine ⟨fun c₀ ops h hmax => ?_, fun shardCount s h => ⟨?_, fun hmax hash cfg ops =>
    storeRun_shards h hmax hash ops⟩⟩
  · have hacc₀ := accounted_fromConfig h hmax
    have hacc := hacc₀.applyAll ops
    refine ⟨hacc.counted, hacc.le, fun order key response now ttl =>
      ⟨fun hsize => (hacc.evict order hsize now ttl).1, fun hnow hn hins => ?_⟩⟩
    have hdated₀ : Dated c₀ 0 := by
      unfold DnsCache.fromConfig at h
      split_ifs at h
      cases h
      exact ⟨Nat.le_refl _, fun k e he => by cases he⟩
    have hdated := hdated₀.applyAll ops (by omega)
    exact lookup_insertWithTtl hacc hdated (by omega) hnow hins
  · obtain ⟨size, hlen, -, hshards⟩ := shards_fromConfig h
    have hconfig : ∀ c ∈ s.shards, c.config.maxSizeBytes = size := fun c hc => by
      have := hshards c hc
      unfold DnsCache.fromConfig at this
      split_ifs at this
      cases this
      rfl
    rw [List.map_congr_left hconfig, List.map_const', List.sum_replicate]
    exact hlen

/-! ## A small cache -/

/-- A cache in which only one of two entries fits. -/
def smallConfig : DnsCacheConfig := ⟨true, 150, 0, 0, false, 0, false, 0⟩

def smallCache : DnsCache := ⟨smallConfig, ∅, 0, 0, 0⟩

/-- The key of the question for the addresses of the one-letter domain `name`. -/
def smallKey (name : Char) : QueryCacheKey := ⟨[name], 1, 1, true, false, false, false, false, none⟩

/-- The accounts after two insertions into the small cache, and in a store of
    one. -/
theorem smallCache_accounting :
    let c := smallCache.applyAll [.insert storedOrder (smallKey 'a') [] 1 60]
    (c.totalSize = c.sizes ∧ c.totalSize ≤ 150) ∧
    ((c.withResponse (smallKey 'b') [] 1 60).evictOverLimit storedOrder 1).2.2 = .underLimit ∧
    (c.insertWithTtl storedOrder (smallKey 'b') [] 1 60).2.entries.lookup (smallKey 'b') =
      some (newEntry (smallKey 'b') [] 1 60 c.nextAccess) ∧
    ((storeRun (fun _ => 0) smallConfig ⟨[smallCache]⟩ [.clear]).shards.map
      DnsCache.totalSize).sum ≤ 150 := by
  obtain ⟨hsizes, hle, hinsert⟩ := (cache_accounting smallConfig).1 smallCache
    [.insert storedOrder (smallKey 'a') [] 1 60] rfl (by decide)
  obtain ⟨hend, hpresent⟩ := hinsert storedOrder (smallKey 'b') [] 1 60
  obtain ⟨-, hstore⟩ := (cache_accounting smallConfig).2 1 ⟨[smallCache]⟩ rfl
  exact ⟨⟨hsizes, hle⟩, hend (by decide), hpresent (by decide) (by decide) (by decide),
    hstore (by decide) _ _ _⟩

theorem applyAll_replicate_lookup {c : DnsCache} {key : QueryCacheKey} (now : ℕ)
    (h : c.entries.lookup key = none) {k : ℕ} (hk : c.accessCounter + k < 2 ^ 64) :
    c.applyAll (List.replicate k (.lookup key now)) =
      { c with accessCounter := c.accessCounter + k } := by
  induction k generalizing c with
  | zero => rfl
  | succ k ih =>
    have hlookup : c.apply (.lookup key now) = { c with accessCounter := c.accessCounter + 1 } := by
      simp only [DnsCache.apply, DnsCache.lookup, h, DnsCache.countAccess, DnsCache.nextAccess]
      rw [Nat.mod_eq_of_lt (by omega)]
    rw [List.replicate_succ, DnsCache.applyAll, List.foldl_cons, hlookup]
    refine (ih (c := { c with accessCounter := c.accessCounter + 1 }) h ?_).trans ?_
    · dsimp only; omega
    · dsimp only
      rw [Nat.add_right_comm, Nat.add_assoc]

/-- Once the counter of accesses has wrapped around, the entry just inserted is
    the oldest, and the insertion that reports it evicts it. -/
theorem newest_evicted_after_wrap : ∃ ops,
    let r := (smallCache.applyAll ops).insertWithTtl storedOrder (smallKey 'b') [] 1 60
    r.1.inserted = true ∧ r.2.entries.lookup (smallKey 'b') = none := by
  refine ⟨.insert storedOrder (smallKey 'a') [] 1 60 ::
    List.replicate (2 ^ 64 - 2) (.lookup (smallKey 'c') 1), ?_⟩
  generalize hc : smallCache.apply (.insert storedOrder (smallKey 'a') [] 1 60) = c
  have hcounter : c.accessCounter = 1 := by rw [← hc]; decide
  have hmiss : c.entries.lookup (smallKey 'c') = none := by rw [← hc]; decide
  have hrun : smallCache.applyAll (.insert storedOrder (smallKey 'a') [] 1 60 ::
      List.replicate (2 ^ 64 - 2) (.lookup (smallKey 'c') 1)) =
      { c with accessCounter := 18446744073709551615 } := by
    rw [DnsCache.applyAll, List.foldl_cons, hc]
    refine (applyAll_replicate_lookup 1 hmiss (by rw [hcounter]; decide)).trans ?_
    rw [hcounter, show 1 + (2 ^ 64 - 2) = 18446744073709551615 by decide]
  rw [hrun, ← hc]
  decide

end DnsBlackhole.Cache
