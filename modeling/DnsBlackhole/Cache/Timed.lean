/-
  The cache as a timed map.

  What the cache is for: a map from keys to responses, each granted for a time
  from its insertion on (`Grant`).  An insertion that succeeds replaces the
  grant of its key, a lookup hands out at most what is left of a grant
  (`Serves`), and clearing takes all grants back (`TimedStep`).

  The store refines this map (`store_refines`): it may forget entries earlier,
  by eviction or when it scans for expired ones, but whatever it still has
  comes from the grant of its key (`Backed`).
-/
import DnsBlackhole.Cache.Run
import DnsBlackhole.Protocol.Walks

namespace DnsBlackhole.Cache
open Lib Protocol DnsCache

/-! ## The timed map -/

/-- A response granted for `ttl` seconds from the time `at_` on. -/
structure Grant where
  at_ : ℕ
  ttl : ℕ
  response : Packet

/-- The end of a grant. -/
def Grant.expiry (g : Grant) : ℕ := g.at_ + g.ttl

/-- `answer` may be served from the grant `g` at the time `now`: with a time to
    live within the grant, or after it with the least one, if stale answers are
    allowed for that long. -/
def Serves (config : DnsCacheConfig) (g : Grant) (query : Packet) (now : ℕ) (answer : Packet) :
    Prop :=
  ∃ ttl, prepareCachedResponse g.response query ttl = some answer ∧
    ((now < g.expiry ∧ 1 ≤ ttl.toNat ∧ now + ttl.toNat ≤ g.expiry) ∨
      (g.expiry ≤ now ∧ config.optimistic ∧
        now - g.expiry ≤ config.optimisticMaxStaleSeconds.toNat ∧ ttl = 1))

/-- The grants in force, by key. -/
abbrev Grants := QueryCacheKey → Option Grant

/-- The steps of the timed map, with the operations and what they return. -/
inductive TimedStep (config : DnsCacheConfig) : Grants → StoreOp × StoreOut → Grants → Prop
  | hit {g order_key query now grant hit} : g order_key = some grant →
      Serves config grant query now hit.response →
      TimedStep config g (.lookup order_key query now, .hit (some hit)) g
  | miss {g key query now} : TimedStep config g (.lookup key query now, .hit none) g
  | inserted {g order key response now ttl stored} :
      cacheTtlSeconds response config = some ttl → normalizeCachedResponse response = some stored →
      TimedStep config g (.insert order key response now, .inserted true)
        (Function.update g key (some ⟨now, ttl.toNat, stored⟩))
  | refused {g order key response now} :
      TimedStep config g (.insert order key response now, .inserted false) g
  | finished {g key} : TimedStep config g (.finishRefresh key, .done) g
  | cleared {g} : TimedStep config g (.clear, .done) fun _ => none

/-! ## The store refines the map -/

/-- The entry comes from the grant. -/
def FromGrant (entry : CachedDnsResponse) (grant : Grant) : Prop :=
  entry.response = grant.response ∧ entry.expiresAt = min grant.expiry u64Max

/-- The entries of the shard under its own keys come from the grants, and it
    allows stale answers as `config` does. -/
structure Backed (config : DnsCacheConfig) (own : QueryCacheKey → Prop) (g : Grants)
    (c : DnsCache) : Prop where
  optimistic : c.config.optimistic = config.optimistic
  maxStale : c.config.optimisticMaxStaleSeconds = config.optimisticMaxStaleSeconds
  entries : ∀ k e, own k → c.entries.lookup k = some e →
    ∃ grant, g k = some grant ∧ FromGrant e grant

section
variable {config : DnsCacheConfig} {own : QueryCacheKey → Prop} {g : Grants} {c : DnsCache}

theorem Backed.insert (h : Backed config own g c) {d : DnsCache} {key : QueryCacheKey}
    {e e' : CachedDnsResponse} (hd : d.config = c.config)
    (hl : ∀ k, d.entries.lookup k = if k = key then some e' else c.entries.lookup k)
    (he : c.entries.lookup key = some e) (hr : e'.response = e.response)
    (hx : e'.expiresAt = e.expiresAt) : Backed config own g d where
  optimistic := by rw [hd]; exact h.optimistic
  maxStale := by rw [hd]; exact h.maxStale
  entries k e₁ hk' he₁ := by
    rw [hl] at he₁
    split_ifs at he₁ with hk
    · cases he₁
      subst hk
      obtain ⟨grant, hg, h₁, h₂⟩ := h.entries k e hk' he
      exact ⟨grant, hg, hr.trans h₁, hx.trans h₂⟩
    · exact h.entries k e₁ hk' he₁

theorem Backed.of_shrinks (h : Backed config own g c) {c' : DnsCache} (hs : Shrinks c c') :
    Backed config own g c' where
  optimistic := by rw [hs.config]; exact h.optimistic
  maxStale := by rw [hs.config]; exact h.maxStale
  entries k e hk he := h.entries k e hk (hs.lookup k e he)

/-- **A hit serves the grant** of its key. -/
theorem Backed.lookup_serves (h : Backed config own g c) {key : QueryCacheKey} {query answer : Packet}
    {now : ℕ} {raw : RawCacheHit} (hown : own key) (hraw : (c.lookup key now).1 = some raw)
    (hanswer : prepareCachedResponse raw.response query raw.ttl = some answer) :
    ∃ grant, g key = some grant ∧ Serves config grant query now answer := by
  rcases c.lookup_cases key now with hl | ⟨entry, he, husable, hl⟩
  · rw [hl] at hraw; cases hraw
  rw [hl] at hraw
  cases hraw
  obtain ⟨grant, hg, hresponse, hexpires⟩ := h.entries key entry hown he
  dsimp only at hanswer
  rw [hresponse] at hanswer
  refine ⟨grant, hg, _, hanswer, ?_⟩
  by_cases hfresh : now < entry.expiresAt
  · have htoNat : (hitTtl entry now).toNat = max (min (entry.expiresAt - now) 4294967295) 1 := by
      rw [hitTtl, if_pos hfresh, UInt32.toNat_ofNat']
      omega
    left
    rw [htoNat]
    omega
  · have hone : hitTtl entry now = 1 := by rw [hitTtl, if_neg hfresh]
    rw [hone]
    by_cases hexp : now < grant.expiry
    · -- only at the end of the range of the clock
      left
      have : (1 : UInt32).toNat = 1 := rfl
      omega
    · right
      have hstale := husable.resolve_left hfresh
      rw [usableStale, Bool.and_eq_true, decide_eq_true_eq, h.optimistic, h.maxStale] at hstale
      exact ⟨Nat.le_of_not_lt hexp, hstale.1, by omega, rfl⟩

theorem Backed.lookup (h : Backed config own g c) (key : QueryCacheKey) (now : ℕ) :
    Backed config own g (c.lookup key now).2 := by
  rcases c.lookup_cases key now with hl | ⟨entry, he, -, hl⟩
  · rw [hl]; exact ⟨h.optimistic, h.maxStale, h.entries⟩
  · obtain ⟨b, hb⟩ := c.hitEntry_snd entry now
    rw [hl]
    exact h.insert rfl (fun k => HashMap.lookup_insert_eq_ite _ key k _) he (by rw [hb])
      (by rw [hb])

theorem Backed.finishRefresh (h : Backed config own g c) (key : QueryCacheKey) :
    Backed config own g (c.finishRefresh key) := by
  rcases c.finishRefresh_cases key with hf | ⟨entry, he, hf⟩
  · rw [hf]; exact h
  · rw [hf]
    exact h.insert rfl (fun k => HashMap.lookup_insert_eq_ite _ key k _) he rfl rfl

theorem Backed.clear (h : Backed config own g c) (g' : Grants) : Backed config own g' c.clear :=
  ⟨h.optimistic, h.maxStale, fun k e _ he => by cases he⟩

/-- An insertion that succeeds replaces the grant of its key; another one leaves
    the entries as they are. -/
theorem Backed.insertWithTtl (h : Backed config own g c) (order : CacheOrder) (key : QueryCacheKey)
    (response : Packet) (now : ℕ) (ttl : UInt32) :
    let r := c.insertWithTtl order key response now ttl
    Backed config own (if r.1.inserted then
      Function.update g key (some ⟨now, ttl.toNat, response⟩) else g) r.2 := by
  intro r
  rcases c.insertWithTtl_cases order key response now ttl with
    ⟨hno, hi | hi⟩ | ⟨-, -, hyes, hi⟩
  · simp only [r, hno, hi]; exact h
  · simp only [r, hno, hi]; exact ⟨h.optimistic, h.maxStale, h.entries⟩
  · simp only [r, hyes, hi, if_true]
    refine Backed.of_shrinks (c := c.withResponse key response now ttl)
      ⟨h.optimistic, h.maxStale, fun k e hk' he => ?_⟩ (evictOverLimit_shrinks order _ now)
    rw [c.lookup_withResponse] at he
    by_cases hk : k = key
    · rw [if_pos hk] at he
      cases he
      exact ⟨⟨now, ttl.toNat, response⟩, by rw [hk, Function.update_self], rfl, rfl⟩
    · rw [if_neg hk] at he
      rw [Function.update_of_ne hk]
      exact h.entries k e hk' he

theorem Backed.update (h : Backed config own g c) {key : QueryCacheKey} (hkey : ¬ own key)
    (grant : Option Grant) : Backed config own (Function.update g key grant) c where
  optimistic := h.optimistic
  maxStale := h.maxStale
  entries k e hk he := by
    have hne : k ≠ key := fun hkk => hkey (hkk ▸ hk)
    rw [Function.update_of_ne hne]
    exact h.entries k e hk he

end

/-- Every shard is backed, for the keys whose shard it is. -/
def StoreBacked (hash : QueryCacheKey → ℕ) (config : DnsCacheConfig) (s : DnsCacheStore)
    (g : Grants) : Prop :=
  ∀ i c, s.shards[i]? = some c → Backed config (fun k => s.shardIndex hash k = i) g c

section
variable {hash : QueryCacheKey → ℕ} {config : DnsCacheConfig} {s : DnsCacheStore} {g : Grants}

theorem shardIndex_set (hash : QueryCacheKey → ℕ) (s : DnsCacheStore) (i : ℕ) (c : DnsCache)
    (k : QueryCacheKey) :
    DnsCacheStore.shardIndex hash ⟨s.shards.set i c⟩ k = s.shardIndex hash k := by
  simp [DnsCacheStore.shardIndex]

theorem StoreBacked.set {g' : Grants} {i : ℕ} {c' : DnsCache}
    (hc' : Backed config (fun k => s.shardIndex hash k = i) g' c')
    (hothers : ∀ j c, j ≠ i → s.shards[j]? = some c →
      Backed config (fun k => s.shardIndex hash k = j) g' c) :
    StoreBacked hash config ⟨s.shards.set i c'⟩ g' := by
  intro j c hc
  simp only [shardIndex_set]
  by_cases hij : i = j
  · subst hij
    rw [List.getElem?_set_self'] at hc
    obtain ⟨c₀, hc₀, rfl⟩ := Option.map_eq_some_iff.1 hc
    exact hc'
  · rw [List.getElem?_set_ne hij] at hc
    exact hothers j c (Ne.symm hij) hc

/-- **The store refines the timed map**: every operation on it is a step of the
    map that returns the same. -/
theorem store_refines (hash : QueryCacheKey → ℕ) (config : DnsCacheConfig) :
    Refines (storeStep hash config) (TimedStep config) (StoreBacked hash config) := by
  intro s op g h
  cases op with
  | lookup key query now =>
    refine ⟨g, ?_, ?_⟩
    · simp only [storeStep, lookupCachedResponse, DnsCacheStore.lookup]
      split
      · exact .miss
      · rename_i shard hshard
        dsimp only
        cases hraw : (shard.lookup key now).1 with
        | none => exact .miss
        | some raw =>
          rw [Option.bind_some]
          cases hanswer : prepareCachedResponse raw.response query raw.ttl with
          | none => exact .miss
          | some answer =>
            obtain ⟨grant, hg, hserves⟩ := (h _ _ hshard).lookup_serves rfl hraw hanswer
            exact .hit hg hserves
    · simp only [storeStep, lookupCachedResponse, DnsCacheStore.lookup]
      split
      · exact h
      · rename_i shard hshard
        exact StoreBacked.set ((h _ _ hshard).lookup key now) fun j c _ hc => h j c hc
  | insert order key response now =>
    simp only [storeStep, insertCachedResponse]
    split
    · rename_i ttl stored httl hstored
      simp only [DnsCacheStore.insertWithTtl]
      split
      · exact ⟨g, .refused, h⟩
      · rename_i shard hshard
        have hb := (h _ _ hshard).insertWithTtl order key stored now ttl
        dsimp only at hb ⊢
        cases hins : (shard.insertWithTtl order key stored now ttl).1.inserted with
        | false =>
          rw [hins] at hb
          exact ⟨g, .refused, StoreBacked.set hb fun j c _ hc => h j c hc⟩
        | true =>
          rw [hins] at hb
          exact ⟨_, .inserted httl hstored, StoreBacked.set hb fun j c hj hc =>
            (h j c hc).update (fun hk => hj hk.symm) _⟩
    · exact ⟨g, .refused, h⟩
  | finishRefresh key =>
    refine ⟨g, .finished, ?_⟩
    simp only [storeStep, DnsCacheStore.finishRefresh]
    split
    · exact h
    · rename_i shard hshard
      exact StoreBacked.set ((h _ _ hshard).finishRefresh key) fun j c _ hc => h j c hc
  | clear =>
    refine ⟨fun _ => none, .cleared, fun i c hc => ?_⟩
    simp only [storeStep, DnsCacheStore.clear, List.getElem?_map] at hc
    obtain ⟨c₀, hc₀, rfl⟩ := Option.map_eq_some_iff.1 hc
    have := (h i c₀ hc₀).clear (fun _ => none)
    simpa [storeStep, DnsCacheStore.clear, DnsCacheStore.shardIndex] using this

theorem storeBacked_fromConfig {shardCount : ℕ}
    (h : DnsCacheStore.fromConfig config shardCount = some s) :
    StoreBacked hash config s fun _ => none := by
  intro i c hc
  obtain ⟨size, -, -, hshards⟩ := shards_fromConfig h
  obtain ⟨hconfig, hempty⟩ := config_fromConfig (hshards c (List.mem_of_getElem? hc))
  refine ⟨by rw [hconfig], by rw [hconfig], fun k e _ he => ?_⟩
  rw [hempty] at he
  cases he

/-- **The cache never serves more than it was granted.** In every run of a store,
    for every hash function, number of shards and iteration order, the
    operations and what they return are a run of the timed map. -/
theorem cache_timed {shardCount : ℕ} (h : DnsCacheStore.fromConfig config shardCount = some s)
    (hash : QueryCacheKey → ℕ) (ops : List StoreOp) :
    ∃ g, Runs (TimedStep config) (fun _ => none) (trace (storeStep hash config) s ops).2 g := by
  obtain ⟨g, hrun, -⟩ := (store_refines hash config).run ops (storeBacked_fromConfig h)
  exact ⟨g, hrun⟩

end

/-- A store of one shard that does not serve stale answers. -/
def freshConfig : DnsCacheConfig := ⟨true, 4096, 0, 0, false, 0, false, 0⟩

def freshStore : DnsCacheStore := ⟨[⟨freshConfig, ∅, 0, 0, 0⟩]⟩

/-- The key of `optQuery`. -/
def optKey : QueryCacheKey := ⟨['a'], 1, 1, true, false, false, true, true, none⟩

/-- A run in which a response is inserted and handed out. -/
theorem addressResponse_timed : ∃ g, Runs (TimedStep freshConfig) (fun _ => none)
    (trace (storeStep (fun _ => 0) freshConfig) freshStore
      [.insert storedOrder optKey addressResponse 10, .lookup optKey optQuery 20]).2 g :=
  have h : DnsCacheStore.fromConfig freshConfig 1 = some freshStore := rfl
  cache_timed h _ _

end DnsBlackhole.Cache
