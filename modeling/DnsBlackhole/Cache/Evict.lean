/-
  What the eviction of the cache removes.

  `Shrinks c c'`: the cache `c'` has come out of `c` by removing entries.  The
  expired scan and the loop of `evict_over_limit` only do this
  (`evictOverLimit_spec`); the loop ends below the limit, and it leaves the
  entry that has been used last, if it fits by itself.
-/
import DnsBlackhole.Cache.Store

namespace DnsBlackhole.Cache
open Lib Protocol

/-- The sum of the sizes of the entries. -/
def DnsCache.sizes (c : DnsCache) : ℕ := c.entries.sumBy CachedDnsResponse.size

/-- The total size is the sum of the sizes of the entries. -/
def DnsCache.Counted (c : DnsCache) : Prop := c.totalSize = c.sizes

/-- `c'` is `c` with some entries removed. -/
structure Shrinks (c c' : DnsCache) : Prop where
  config : c'.config = c.config
  accessCounter : c'.accessCounter = c.accessCounter
  lookup : ∀ k e, c'.entries.lookup k = some e → c.entries.lookup k = some e

theorem Shrinks.refl (c : DnsCache) : Shrinks c c := ⟨rfl, rfl, fun _ _ h => h⟩

theorem Shrinks.trans {c c' c'' : DnsCache} (h : Shrinks c c') (h' : Shrinks c' c'') :
    Shrinks c c'' :=
  ⟨h'.config.trans h.config, h'.accessCounter.trans h.accessCounter,
    fun k e he => h.lookup k e (h'.lookup k e he)⟩

/-! ## The expired scan -/

theorem foldl_saturatingAdd64 {α : Type} (f : α → ℕ) (l : List α) {a : ℕ}
    (h : a + (l.map f).sum ≤ u64Max) :
    l.foldl (fun n x => saturatingAdd64 n (f x)) a = a + (l.map f).sum := by
  induction l generalizing a with
  | nil => rfl
  | cons x l ih =>
    rw [List.map_cons, List.sum_cons] at h ⊢
    have hx : saturatingAdd64 a (f x) = a + f x := Nat.min_eq_left (by omega)
    rw [List.foldl_cons, hx, ih (by omega)]
    omega

theorem evictExpired_counted {c : DnsCache} {now : ℕ} (h : c.Counted)
    (hmax : c.totalSize ≤ u64Max) : (c.evictExpired now).1.Counted := by
  have hsum := HashMap.sumBy_retain CachedDnsResponse.size
    (DnsCache.keepsUnexpired c.config now) c.entries
  rw [DnsCache.Counted, DnsCache.sizes] at h ⊢
  simp only [DnsCache.evictExpired]
  rw [foldl_saturatingAdd64 _ _ (by omega)]
  omega

theorem evictExpired_shrinks (c : DnsCache) (now : ℕ) : Shrinks c (c.evictExpired now).1 :=
  ⟨rfl, rfl, fun _ _ he => (HashMap.lookup_retain.1 he).1⟩

theorem scanExpired_shrinks (c : DnsCache) (now : ℕ) : Shrinks c (c.scanExpired now).1 := by
  unfold DnsCache.scanExpired
  split_ifs
  · have h := evictExpired_shrinks c now
    exact ⟨h.config, h.accessCounter, h.lookup⟩
  · exact Shrinks.refl c

theorem scanExpired_counted {c : DnsCache} {now : ℕ} (h : c.Counted)
    (hmax : c.totalSize ≤ u64Max) : (c.scanExpired now).1.Counted := by
  unfold DnsCache.scanExpired
  split_ifs
  · exact evictExpired_counted h hmax
  · exact h

theorem scanExpired_lookup {c : DnsCache} {now : ℕ} {k : QueryCacheKey} {e : CachedDnsResponse}
    (h : c.entries.lookup k = some e) (he : now < e.expiresAt) :
    (c.scanExpired now).1.entries.lookup k = some e := by
  unfold DnsCache.scanExpired
  split_ifs
  · exact HashMap.lookup_retain.2 ⟨h, by simp [DnsCache.keepsUnexpired, he]⟩
  · exact h

/-! ## The loop -/

theorem sampledOldest_eq_some {order : CacheOrder} {c : DnsCache} {key : QueryCacheKey}
    (h : c.sampledOldest order = some key) : ∃ e, c.entries.lookup key = some e ∧
      ∀ x ∈ (order.order c.entries.entries).take dnsCacheEvictSample, e.lastUsed ≤ x.2.lastUsed := by
  obtain ⟨⟨k, e⟩, he, rfl⟩ := Option.map_eq_some_iff.1 h
  have hmem := List.mem_of_mem_take (List.argmin_mem he)
  exact ⟨e, HashMap.lookup_eq_some_iff.2 (order.mem_order.1 hmem),
    fun x hx => List.le_of_mem_argmin (f := fun e => e.2.lastUsed) hx he⟩

theorem sampledOldest_eq_none {order : CacheOrder} {c : DnsCache} :
    c.sampledOldest order = none ↔ c.entries.entries = [] := by
  rw [DnsCache.sampledOldest, Option.map_eq_none_iff, List.argmin_eq_none, List.take_eq_nil_iff]
  have hperm := order.perm c.entries.entries
  constructor
  · rintro (h | h)
    · exact absurd h (by decide)
    · rw [h] at hperm
      exact hperm.nil_eq.symm
  · intro h
    exact .inr (List.Perm.eq_nil (h ▸ hperm))

/-- The entry `e` of `key` has been used after all the others. -/
def Newest (c : DnsCache) (key : QueryCacheKey) (e : CachedDnsResponse) : Prop :=
  c.entries.lookup key = some e ∧
    ∀ k e', k ≠ key → c.entries.lookup k = some e' → e'.lastUsed < e.lastUsed

theorem Newest.of_shrinks {c c' : DnsCache} {key : QueryCacheKey} {e : CachedDnsResponse}
    (h : Newest c key e) (hs : Shrinks c c') (hk : c'.entries.lookup key = some e) :
    Newest c' key e :=
  ⟨hk, fun k e' hne he => h.2 k e' hne (hs.lookup k e' he)⟩

theorem Newest.sampledOldest_ne {order : CacheOrder} {c : DnsCache} {key : QueryCacheKey}
    {e : CachedDnsResponse} (h : Newest c key e) (hc : c.Counted)
    (hfit : e.size ≤ c.config.maxSizeBytes) (hover : c.config.maxSizeBytes < c.totalSize) :
    c.sampledOldest order ≠ some key := by
  intro hs
  obtain ⟨e₁, he₁, hmin⟩ := sampledOldest_eq_some hs
  cases h.1.symm.trans he₁
  -- the sample holds no other entry, so the map does not either
  have hsample : ∀ x ∈ (order.order c.entries.entries).take dnsCacheEvictSample, x.1 = key := by
    intro x hx
    by_contra hne
    have hx' := HashMap.lookup_eq_some_iff.2 (order.mem_order.1 (List.mem_of_mem_take hx))
    exact absurd (hmin x hx) (Nat.not_le.2 (h.2 x.1 x.2 hne hx'))
  have hnodup : ((order.order c.entries.entries).map Sigma.fst).Nodup :=
    ((order.perm _).map Sigma.fst).nodup_iff.2 c.entries.nodupKeys
  have hlen : (order.order c.entries.entries).length ≤ 1 := by
    generalize order.order c.entries.entries = l at hsample hnodup
    match l, hsample, hnodup with
    | [], _, _ => simp
    | [_], _, _ => simp
    | x :: y :: l, hsample, hnodup =>
      have hx := hsample x (by simp [dnsCacheEvictSample])
      have hy := hsample y (by simp [dnsCacheEvictSample])
      rw [List.map_cons, List.map_cons, hx, hy] at hnodup
      exact absurd List.mem_cons_self (List.nodup_cons.1 hnodup).1
  rw [(order.perm _).length_eq] at hlen
  have hsum := HashMap.sumBy_erase CachedDnsResponse.size h.1
  have hempty : (c.entries.erase key).entries = [] := by
    have := (HashMap.entries_perm_erase h.1).length_eq
    rw [List.length_cons] at this
    exact List.length_eq_zero_iff.1 (by omega)
  rw [HashMap.sumBy, hempty] at hsum
  rw [DnsCache.Counted, DnsCache.sizes] at hc
  simp only [List.map_nil, List.sum_nil] at hsum
  omega

theorem erase_shrinks (c : DnsCache) (key : QueryCacheKey) (size : ℕ) :
    Shrinks c { c with entries := c.entries.erase key, totalSize := size } :=
  ⟨rfl, rfl, fun k e he => by
    dsimp only at he
    rw [HashMap.lookup_erase_eq_ite] at he
    split_ifs at he
    exact he⟩

theorem evictLoop_shrinks (order : CacheOrder) (fuel : ℕ) (c : DnsCache) (n : ℕ) :
    Shrinks c (c.evictLoop order fuel n).1 := by
  induction fuel generalizing c n with
  | zero => exact Shrinks.refl c
  | succ fuel ih =>
    unfold DnsCache.evictLoop
    split_ifs
    · split
      · exact ⟨rfl, rfl, fun _ _ he => he⟩
      · split
        · exact (erase_shrinks c _ _).trans (ih _ _)
        · exact ih c n
    · exact Shrinks.refl c

/-- **The loop of `evict_over_limit`** ends below the limit, and does not remove
    the newest entry. -/
theorem evictLoop_spec (order : CacheOrder) {fuel : ℕ} {c : DnsCache} (n : ℕ) (hc : c.Counted)
    (hfuel : c.entries.entries.length < fuel) :
    let r := c.evictLoop order fuel n
    r.2.2 = .underLimit ∧ r.1.Counted ∧ r.1.totalSize ≤ c.config.maxSizeBytes ∧
      ∀ key e, Newest c key e → e.size ≤ c.config.maxSizeBytes →
        r.1.entries.lookup key = some e := by
  induction fuel generalizing c n with
  | zero => omega
  | succ fuel ih =>
    intro r
    by_cases hover : c.config.maxSizeBytes < c.totalSize
    · cases hs : c.sampledOldest order with
      | none =>
        -- an empty map has the size zero
        have hempty := sampledOldest_eq_none.1 hs
        rw [DnsCache.Counted, DnsCache.sizes, HashMap.sumBy, hempty] at hc
        simp only [List.map_nil, List.sum_nil] at hc
        omega
      | some key =>
        obtain ⟨e, he, -⟩ := sampledOldest_eq_some hs
        have hr : r = DnsCache.evictLoop order fuel
            { c with entries := c.entries.erase key, totalSize := c.totalSize - e.size }
            (saturatingAdd64 n 1) := by
          simp only [r, DnsCache.evictLoop, if_pos hover, hs, he]
        have hsum := HashMap.sumBy_erase CachedDnsResponse.size he
        have hlen := (HashMap.entries_perm_erase he).length_eq
        rw [List.length_cons] at hlen
        have hshrink := erase_shrinks c key (c.totalSize - e.size)
        rw [hr]
        obtain ⟨hend, hcount, hle, hnew⟩ := ih (saturatingAdd64 n 1) (c :=
          { c with entries := c.entries.erase key, totalSize := c.totalSize - e.size })
          (by rw [DnsCache.Counted, DnsCache.sizes] at hc ⊢; dsimp only; omega)
          (by dsimp only; omega)
        refine ⟨hend, hcount, hle, fun k e' hn hfit => ?_⟩
        have hne : k ≠ key := by
          rintro rfl
          exact hn.sampledOldest_ne hc hfit hover hs
        exact hnew k e' (hn.of_shrinks hshrink (by
          dsimp only
          rw [HashMap.lookup_erase_eq_ite, if_neg hne]
          exact hn.1)) hfit
    · have hr : r = (c, n, .underLimit) := by simp only [r, DnsCache.evictLoop, if_neg hover]
      rw [hr]
      exact ⟨rfl, hc, Nat.le_of_not_lt hover, fun key e hn _ => hn.1⟩

theorem evictOverLimit_shrinks (order : CacheOrder) (c : DnsCache) (now : ℕ) :
    Shrinks c (c.evictOverLimit order now).1 :=
  (scanExpired_shrinks c now).trans (evictLoop_shrinks order _ _ _)

/-- **Eviction**: the scan and the loop. -/
theorem evictOverLimit_spec (order : CacheOrder) {c : DnsCache} {now : ℕ} (hc : c.Counted)
    (hmax : c.totalSize ≤ u64Max) :
    let r := c.evictOverLimit order now
    r.2.2 = .underLimit ∧ r.1.Counted ∧ r.1.totalSize ≤ c.config.maxSizeBytes ∧
      ∀ key e, Newest c key e → e.size ≤ c.config.maxSizeBytes → now < e.expiresAt →
        r.1.entries.lookup key = some e := by
  have hscan := scanExpired_shrinks c now
  obtain ⟨hend, hcount, hle, hnew⟩ := evictLoop_spec order (c.scanExpired now).2
    (scanExpired_counted hc hmax) (Nat.lt_succ_self _)
  rw [hscan.config] at hle hnew
  exact ⟨hend, hcount, hle, fun key e hn hfit he =>
    hnew key e (hn.of_shrinks hscan (scanExpired_lookup hn.1 he)) hfit⟩

end DnsBlackhole.Cache
