/-
  Claims of refreshes that are not given back.

  `DnsCache::lookup` sets the flag of an entry before its response is framed for
  the query, and `lookup_cached_response` drops the hit, with the claim in it,
  when the framing fails.  So a lookup that returns nothing leaves the flags
  alone exactly when it claims nothing, or what it claims can be framed
  (`lookupFramed_iff`).

  * `refreshing_owned`: in every run of such lookups an entry that is flagged
    has a ticket (`Owned`), whose holder resets the flag or replaces the entry;
  * `longResponse_leaks`: an upstream's response that leaves no room for an OPT
    record is flagged for good once it has expired.
-/
import DnsBlackhole.Cache.Refresh
import DnsBlackhole.Protocol.Reframed
import DnsBlackhole.Protocol.Cacheable

namespace DnsBlackhole.Cache
open Lib Protocol DnsCache

/-- Whether a hit of `entry` at `now` sets its flag. -/
def claimsRefresh (config : DnsCacheConfig) (entry : CachedDnsResponse) (now : ℕ) : Bool :=
  !entry.refreshing &&
    if now < entry.expiresAt then
      config.prefetchEnabled &&
        decide (config.prefetchHitThreshold.toNat - 1 ≤ entry.hitCount.toNat) &&
        decide (entry.prefetchAt ≤ now)
    else usableStale config entry now

/-! ## Lookups in a shard -/

theorem hitEntry_claims (c : DnsCache) (entry : CachedDnsResponse) (now : ℕ)
    (husable : now < entry.expiresAt ∨ usableStale c.config entry now) :
    (c.hitEntry entry now).2.refreshing =
        (entry.refreshing || claimsRefresh c.config entry now) ∧
      (c.hitEntry entry now).1.isSome = claimsRefresh c.config entry now := by
  have hclaim : ∀ (e : CachedDnsResponse) reason, e.refreshing = entry.refreshing →
      (claimRefresh e reason).2.refreshing = true ∧
        (claimRefresh e reason).1.isSome = !entry.refreshing := by
    intro e reason he
    unfold claimRefresh
    cases hr : entry.refreshing <;> simp [he, hr]
  unfold hitEntry hitRefresh claimsRefresh
  by_cases hfresh : now < entry.expiresAt
  · simp only [hfresh, not_true_eq_false, if_false, if_true]
    split_ifs with hdue
    · obtain ⟨h₂, h₁⟩ := hclaim
        { entry with lastUsed := c.nextAccess, hitCount := entry.hitCount + 1 } .prefetch rfl
      rw [h₂, h₁]
      simp [hdue.1, hdue.2.1, hdue.2.2]
    · have hno : (c.config.prefetchEnabled &&
          decide (c.config.prefetchHitThreshold.toNat - 1 ≤ entry.hitCount.toNat) &&
          decide (entry.prefetchAt ≤ now)) = false := by
        rw [Bool.eq_false_iff]
        simpa [and_assoc] using hdue
      rw [hno]
      simp
  · simp only [hfresh, not_false_eq_true, if_true, if_false]
    obtain ⟨h₂, h₁⟩ := hclaim
      { entry with lastUsed := c.nextAccess, hitCount := entry.hitCount + 1 } .expired rfl
    rw [h₂, h₁, husable.resolve_left hfresh]
    simp

/-- The flag of the entry under `k`, if there is one. -/
def DnsCache.flagAt (c : DnsCache) (k : QueryCacheKey) : Option Bool :=
  (c.entries.lookup k).map CachedDnsResponse.refreshing

/-- Whether a lookup of `key` claims a refresh. -/
def DnsCache.claimsAt (c : DnsCache) (key : QueryCacheKey) (now : ℕ) : Bool :=
  (c.entries.lookup key).any fun entry => claimsRefresh c.config entry now

theorem lookup_unclaimed {c : DnsCache} {key : QueryCacheKey} {now : ℕ}
    (h : c.claimsAt key now = false) :
    (∀ k, (c.lookup key now).2.flagAt k = c.flagAt k) ∧
      ∀ raw, (c.lookup key now).1 = some raw → raw.refreshReason = none := by
  rcases c.lookup_cases key now with hl | ⟨entry, he, husable, hl⟩
  · rw [hl]
    exact ⟨fun _ => rfl, fun raw hraw => by cases hraw⟩
  · have hno : claimsRefresh c.config entry now = false := by
      rw [DnsCache.claimsAt, he] at h; exact h
    obtain ⟨hflag, hreason⟩ := hitEntry_claims c entry now husable
    rw [hno] at hflag hreason
    rw [hl]
    refine ⟨fun k => ?_, fun raw hraw => ?_⟩
    · simp only [DnsCache.flagAt, HashMap.lookup_insert_eq_ite]
      split_ifs with hk
      · rw [hk, he, Option.map_some, Option.map_some, hflag, Bool.or_false]
      · rfl
    · cases hraw
      exact Option.not_isSome_iff_eq_none.1 (by rw [hreason]; exact Bool.false_ne_true)

theorem lookup_claimed {c : DnsCache} {key : QueryCacheKey} {now : ℕ}
    (h : c.claimsAt key now = true) : ∃ entry raw, c.entries.lookup key = some entry ∧
      (c.lookup key now).1 = some raw ∧ raw.response = entry.response ∧
      raw.refreshReason.isSome ∧ c.flagAt key = some false ∧
      (c.lookup key now).2.flagAt key = some true ∧
      ∀ k, k ≠ key → (c.lookup key now).2.flagAt k = c.flagAt k := by
  obtain ⟨entry, he, hclaims⟩ : ∃ entry, c.entries.lookup key = some entry ∧
      claimsRefresh c.config entry now = true := by
    unfold DnsCache.claimsAt at h
    cases he : c.entries.lookup key with
    | none => rw [he] at h; cases h
    | some entry => rw [he] at h; exact ⟨entry, rfl, h⟩
  have hflag₀ : entry.refreshing = false := by
    unfold claimsRefresh at hclaims
    revert hclaims
    cases entry.refreshing <;> simp
  have husable : now < entry.expiresAt ∨ usableStale c.config entry now = true := by
    by_cases hf : now < entry.expiresAt
    · exact .inl hf
    · right
      simp only [claimsRefresh, hf, if_false, Bool.and_eq_true] at hclaims
      exact hclaims.2
  rcases c.lookup_cases key now with hl | ⟨entry', he', -, hl⟩
  · -- the entry is usable, so this is no miss
    exfalso
    have hmiss := congrArg Prod.fst hl
    rw [DnsCache.lookup, he] at hmiss
    dsimp only at hmiss
    split_ifs at hmiss with hm
    simp only [Bool.and_eq_true, Bool.not_eq_true', decide_eq_false_iff_not] at hm
    rcases husable with hf | hs
    · exact hm.1 hf
    · rw [hm.2] at hs; cases hs
  · cases he.symm.trans he'
    obtain ⟨hflag, hreason⟩ := hitEntry_claims c entry now husable
    rw [hclaims] at hflag hreason
    rw [hl]
    refine ⟨entry, _, he, rfl, rfl, hreason, ?_, ?_, fun k hk => ?_⟩
    · rw [DnsCache.flagAt, he, Option.map_some, hflag₀]
    · rw [DnsCache.flagAt, AList.lookup_insert, Option.map_some, hflag, Bool.or_true]
    · simp only [DnsCache.flagAt, AList.lookup_insert_ne hk]

/-! ## Lookups in the store -/

section
variable (hash : QueryCacheKey → ℕ)

/-- The flag of the entry under `k` in the shard `i`. -/
def DnsCacheStore.flagAt (s : DnsCacheStore) (i : ℕ) (k : QueryCacheKey) : Option Bool :=
  s.shards[i]?.bind fun c => c.flagAt k

/-- **What the lookup claims can be framed**: the query can be parsed, and the
    response of the entry can be framed for it. -/
def LookupFramed (s : DnsCacheStore) (key : QueryCacheKey) (query : Packet) (now : ℕ) : Prop :=
  ∀ c entry, s.shards[s.shardIndex hash key]? = some c → c.entries.lookup key = some entry →
    claimsRefresh c.config entry now → ∃ q, parseQuery query = .ok q ∧ FramesFor entry.response q

end

section
variable {hash : QueryCacheKey → ℕ}

theorem isSome_prepareCachedResponse_iff {cached query : Packet} (ttl : UInt32) :
    (prepareCachedResponse cached query ttl).isSome ↔
      ∃ q, parseQuery query = .ok q ∧ FramesFor cached q := by
  cases hq : parseQuery query with
  | error e =>
    have hnone : prepareCachedResponse cached query ttl = none := by
      simp only [prepareCachedResponse, hq]
    rw [hnone]
    constructor
    · intro h
      exact absurd h Bool.false_ne_true
    · rintro ⟨q, h, -⟩
      cases h
  | ok q =>
    rw [isSome_prepareCachedResponse hq]
    constructor
    · intro h
      exact ⟨q, rfl, h⟩
    · rintro ⟨q', h, hf⟩
      cases h
      exact hf

theorem flagAt_set {s : DnsCacheStore} {i : ℕ} {c : DnsCache} (hc : s.shards[i]? = some c)
    (c' : DnsCache) (j : ℕ) (k : QueryCacheKey) :
    DnsCacheStore.flagAt ⟨s.shards.set i c'⟩ j k = if j = i then c'.flagAt k else s.flagAt j k := by
  rw [DnsCacheStore.flagAt]
  split_ifs with hj
  · rw [hj, List.getElem?_set_self (List.getElem?_eq_some_iff.1 hc).1, Option.bind_some]
  · rw [List.getElem?_set_ne (Ne.symm hj), DnsCacheStore.flagAt]

theorem lookupCachedResponse_eq {s : DnsCacheStore} {key : QueryCacheKey} {c : DnsCache}
    (hc : s.shards[s.shardIndex hash key]? = some c) (query : Packet) (now : ℕ) :
    lookupCachedResponse hash s key query now =
      ((c.lookup key now).1.bind fun raw =>
          (prepareCachedResponse raw.response query raw.ttl).map fun response =>
            ⟨response, raw.refreshReason⟩,
        ⟨s.shards.set (s.shardIndex hash key) (c.lookup key now).2⟩) := by
  simp only [lookupCachedResponse, DnsCacheStore.lookup, hc]

theorem refreshStep_lookup_none {config : DnsCacheConfig} {s : RefreshState} {key : QueryCacheKey}
    {query : Packet} {now : ℕ} (h : (lookupCachedResponse hash s.store key query now).1 = none) :
    refreshStep hash config s (.lookup key query now) =
      some ⟨(lookupCachedResponse hash s.store key query now).2, s.tickets⟩ := by
  simp only [refreshStep, h, Option.bind_none]

theorem lookupCachedResponse_unclaimed {s : DnsCacheStore} {key : QueryCacheKey} (query : Packet)
    {now : ℕ} (h : ∀ c, s.shards[s.shardIndex hash key]? = some c → c.claimsAt key now = false) :
    (∀ j k, (lookupCachedResponse hash s key query now).2.flagAt j k = s.flagAt j k) ∧
      (lookupCachedResponse hash s key query now).1.bind CacheHit.refreshReason = none := by
  cases hc : s.shards[s.shardIndex hash key]? with
  | none =>
    have hmiss : lookupCachedResponse hash s key query now = (none, s) := by
      simp only [lookupCachedResponse, DnsCacheStore.lookup, hc, Option.bind_none]
    rw [hmiss]
    exact ⟨fun _ _ => rfl, rfl⟩
  | some c =>
    obtain ⟨hflags, hreason⟩ := lookup_unclaimed (h c hc)
    rw [lookupCachedResponse_eq hc]
    dsimp only
    refine ⟨fun j k => ?_, ?_⟩
    · rw [flagAt_set hc, hflags]
      split_ifs with hj
      · rw [DnsCacheStore.flagAt, hj, hc, Option.bind_some]
      · rfl
    · cases hraw : (c.lookup key now).1 with
      | none => rfl
      | some raw =>
        rw [Option.bind_some]
        cases prepareCachedResponse raw.response query raw.ttl with
        | none => rfl
        | some response => exact hreason raw hraw

/-- A lookup that claims a refresh sets one flag, and returns the claim if the
    response can be framed. -/
theorem lookupCachedResponse_claimed {s : DnsCacheStore} {key : QueryCacheKey} (query : Packet)
    {now : ℕ} {c : DnsCache} (hc : s.shards[s.shardIndex hash key]? = some c)
    (h : c.claimsAt key now = true) : ∃ entry, c.entries.lookup key = some entry ∧
      claimsRefresh c.config entry now ∧
      s.flagAt (s.shardIndex hash key) key = some false ∧
      (∀ j k, (lookupCachedResponse hash s key query now).2.flagAt j k =
        if j = s.shardIndex hash key ∧ k = key then some true else s.flagAt j k) ∧
      ((∃ q, parseQuery query = .ok q ∧ FramesFor entry.response q) →
        ((lookupCachedResponse hash s key query now).1.bind CacheHit.refreshReason).isSome) ∧
      ((lookupCachedResponse hash s key query now).1 = none ↔
        ¬ ∃ q, parseQuery query = .ok q ∧ FramesFor entry.response q) := by
  obtain ⟨entry, raw, he, hraw, hresponse, hreason, hbefore, hafter, hother⟩ := lookup_claimed h
  have hclaims : claimsRefresh c.config entry now = true := by
    rw [DnsCache.claimsAt, he] at h; exact h
  rw [lookupCachedResponse_eq hc]
  dsimp only
  rw [hraw, Option.bind_some, hresponse]
  refine ⟨entry, he, hclaims, ?_, fun j k => ?_, fun hf => ?_, ?_⟩
  · rw [DnsCacheStore.flagAt, hc, Option.bind_some, hbefore]
  · rw [flagAt_set hc]
    by_cases hj : j = s.shardIndex hash key
    · by_cases hk : k = key
      · rw [if_pos hj, if_pos ⟨hj, hk⟩, hk, hafter]
      · rw [if_pos hj, if_neg fun h => hk h.2, hother k hk, DnsCacheStore.flagAt, hj, hc,
          Option.bind_some]
    · rw [if_neg hj, if_neg fun h => hj h.1]
  · obtain ⟨response, hresp⟩ := Option.isSome_iff_exists.1
      ((isSome_prepareCachedResponse_iff raw.ttl).2 hf)
    rw [hresp]
    exact hreason
  · rw [← isSome_prepareCachedResponse_iff raw.ttl, Option.map_eq_none_iff,
      Option.not_isSome_iff_eq_none]

/-- **A lookup that returns nothing changes no flag** exactly when what it claims
    can be framed. -/
theorem lookupFramed_iff (s : DnsCacheStore) (key : QueryCacheKey) (query : Packet) (now : ℕ) :
    ((lookupCachedResponse hash s key query now).1 = none →
      ∀ j k, (lookupCachedResponse hash s key query now).2.flagAt j k = s.flagAt j k) ↔
    LookupFramed hash s key query now := by
  by_cases hclaim : ∃ c, s.shards[s.shardIndex hash key]? = some c ∧ c.claimsAt key now = true
  · obtain ⟨c, hc, hclaims⟩ := hclaim
    obtain ⟨entry, he, hr, hbefore, hflags, -, hnone⟩ :=
      lookupCachedResponse_claimed query hc hclaims
    rw [hnone]
    constructor
    · intro h c' entry' hc' he' _
      cases hc.symm.trans hc'
      cases he.symm.trans he'
      by_contra hno
      -- the flag of the entry has been set
      have := h hno (s.shardIndex hash key) key
      rw [hflags, if_pos ⟨rfl, rfl⟩, hbefore] at this
      cases this
    · exact fun h hno => absurd (h c entry hc he hr) hno
  · have hno : ∀ c, s.shards[s.shardIndex hash key]? = some c → c.claimsAt key now = false :=
      fun c hc => by
        by_contra h
        exact hclaim ⟨c, hc, Bool.not_eq_false _ ▸ h⟩
    refine iff_of_true (fun _ => (lookupCachedResponse_unclaimed query hno).1) ?_
    intro c entry hc he hr
    have := hno c hc
    rw [DnsCache.claimsAt, he, Option.any_some, hr] at this
    cases this

/-! ## The holders of the flags -/

/-- An entry that is flagged has a ticket. -/
def Owned (hash : QueryCacheKey → ℕ) (s : RefreshState) : Prop :=
  ∀ k, s.store.flagAt (s.store.shardIndex hash k) k = some true → ∃ t ∈ s.tickets, t.key = k

/-- What a lookup claims can be framed. -/
def ClaimFramed (hash : QueryCacheKey → ℕ) (s : RefreshState) : RefreshEvent → Prop
  | .lookup key query now => LookupFramed hash s.store key query now
  | _ => True

theorem flagged_of_set {s : DnsCacheStore} {i : ℕ} {c c' : DnsCache} {k : QueryCacheKey}
    (hc : s.shards[i]? = some c) (h : c'.flagAt k = some true → c.flagAt k = some true)
    (hf : DnsCacheStore.flagAt ⟨s.shards.set i c'⟩
      (DnsCacheStore.shardIndex hash ⟨s.shards.set i c'⟩ k) k = some true) :
    s.flagAt (s.shardIndex hash k) k = some true := by
  rw [shardIndex_set, flagAt_set hc] at hf
  split_ifs at hf with hi
  · rw [DnsCacheStore.flagAt, hi, hc, Option.bind_some]
    exact h hf
  · exact hf

theorem flagged_finishRefresh {s : DnsCacheStore} {key k : QueryCacheKey}
    (h : (s.finishRefresh hash key).flagAt ((s.finishRefresh hash key).shardIndex hash k) k =
      some true) : s.flagAt (s.shardIndex hash k) k = some true ∧ k ≠ key := by
  unfold DnsCacheStore.finishRefresh at h
  dsimp only at h
  cases hc : s.shards[s.shardIndex hash key]? with
  | none =>
    rw [hc] at h
    refine ⟨h, ?_⟩
    rintro rfl
    rw [DnsCacheStore.flagAt, hc] at h
    cases h
  | some c =>
    rw [hc] at h
    have hflag : (c.finishRefresh key).flagAt key ≠ some true ∧
        ∀ k, k ≠ key → (c.finishRefresh key).flagAt k = c.flagAt k := by
      rcases c.finishRefresh_cases key with he | ⟨entry, -, he⟩
      · refine ⟨fun hf => ?_, fun k _ => by rw [he]⟩
        unfold DnsCache.finishRefresh DnsCache.flagAt at hf
        cases hl : c.entries.lookup key with
        | none => rw [hl] at hf; dsimp only at hf; rw [hl] at hf; cases hf
        | some entry => rw [hl] at hf; dsimp only at hf; rw [AList.lookup_insert] at hf; cases hf
      · rw [he]
        refine ⟨fun hf => ?_, fun k hk => ?_⟩
        · rw [DnsCache.flagAt, AList.lookup_insert] at hf; cases hf
        · rw [DnsCache.flagAt, AList.lookup_insert_ne hk]; rfl
    have hne : k ≠ key := by
      rintro rfl
      rw [shardIndex_set, flagAt_set hc, if_pos rfl] at h
      exact hflag.1 h
    exact ⟨flagged_of_set hc (fun hf => hflag.2 k hne ▸ hf) h, hne⟩

theorem flagged_insertCachedResponse {config : DnsCacheConfig} {order : CacheOrder}
    {s : DnsCacheStore} {key k : QueryCacheKey} {response : Packet} {now : ℕ}
    (h : (insertCachedResponse hash order s config key response now).2.flagAt
      ((insertCachedResponse hash order s config key response now).2.shardIndex hash k) k =
        some true) :
    s.flagAt (s.shardIndex hash k) k = some true ∧
      ((insertCachedResponse hash order s config key response now).1 = true → k ≠ key) := by
  revert h
  unfold insertCachedResponse
  split
  · rename_i ttl stored _ _
    unfold DnsCacheStore.insertWithTtl
    dsimp only
    cases hc : s.shards[s.shardIndex hash key]? with
    | none => exact fun h => ⟨h, fun h => by cases h⟩
    | some c =>
      dsimp only
      intro h
      rcases c.insertWithTtl_cases order key stored now ttl with
        ⟨hno, he | he⟩ | ⟨-, -, -, he⟩
      · rw [he] at h
        exact ⟨flagged_of_set hc id h, fun hin => by rw [hno] at hin; cases hin⟩
      · rw [he] at h
        have hcount : c.countAccess.flagAt k = some true → c.flagAt k = some true := id
        exact ⟨flagged_of_set hc hcount h, fun hin => by rw [hno] at hin; cases hin⟩
      · -- what is left of the entries is flagged as before, and the new one is not
        have hflag : ∀ k, (c.insertWithTtl order key stored now ttl).2.flagAt k = some true →
            c.flagAt k = some true ∧ k ≠ key := by
          intro k hf
          rw [he] at hf
          obtain ⟨e, hl, hr⟩ := Option.map_eq_some_iff.1 hf
          have hw := (evictOverLimit_shrinks order _ now).lookup k e hl
          rw [c.lookup_withResponse] at hw
          split_ifs at hw with hk
          · cases hw; cases hr
          · exact ⟨by rw [DnsCache.flagAt, hw, Option.map_some, hr], hk⟩
        refine ⟨flagged_of_set hc (fun hf => (hflag k hf).1) h, fun _ => ?_⟩
        rintro rfl
        rw [shardIndex_set, flagAt_set hc, if_pos rfl] at h
        exact (hflag k h).2 rfl
  · exact fun h => ⟨h, fun h => by cases h⟩

theorem mem_eraseIdx_of_key_ne {tickets : List Ticket} {i : ℕ} {t t' : Ticket}
    (ht : tickets[i]? = some t) (h : t' ∈ tickets) (hne : t'.key ≠ t.key) :
    t' ∈ tickets.eraseIdx i := by
  obtain ⟨j, hj⟩ := List.mem_iff_getElem?.1 h
  refine List.mem_eraseIdx_iff_getElem?.2 ⟨j, ?_, hj⟩
  rintro rfl
  cases ht.symm.trans hj
  exact hne rfl

theorem Owned.giveUp {s : RefreshState} (h : Owned hash s) {i : ℕ} {t : Ticket}
    (ht : s.tickets[i]? = some t) : Owned hash (s.giveUp hash i t) := by
  intro k hk
  obtain ⟨hf, hne⟩ := flagged_finishRefresh hk
  obtain ⟨t', ht', rfl⟩ := h k hf
  exact ⟨t', mem_eraseIdx_of_key_ne ht ht' hne, rfl⟩

theorem Owned.of_keys {s s' : RefreshState} (h : Owned hash s)
    (hf : ∀ k, s'.store.flagAt (s'.store.shardIndex hash k) k = some true →
      s.store.flagAt (s.store.shardIndex hash k) k = some true)
    (hkeys : s'.tickets.map Ticket.key = s.tickets.map Ticket.key) : Owned hash s' := by
  intro k hk
  obtain ⟨t, ht, rfl⟩ := h k (hf k hk)
  have := List.mem_map_of_mem (f := Ticket.key) ht
  rw [← hkeys] at this
  obtain ⟨t', ht', hkey⟩ := List.mem_map.1 this
  exact ⟨t', ht', hkey⟩

/-- **Every step that gives its claims back keeps the flags owned.** -/
theorem Owned.step {config : DnsCacheConfig} {s s' : RefreshState} (h : Owned hash s)
    {e : RefreshEvent} (hok : ClaimFramed hash s e)
    (hs : refreshStep hash config s e = some s') : Owned hash s' := by
  cases e with
  | lookup key query now =>
    cases hs
    intro k hk
    have hindex : (lookupCachedResponse hash s.store key query now).2.shardIndex hash k =
        s.store.shardIndex hash k := by
      unfold lookupCachedResponse DnsCacheStore.lookup
      dsimp only
      split
      · rfl
      · exact shardIndex_set _ _ _ _ _
    dsimp only at hk ⊢
    rw [hindex] at hk
    by_cases hclaim : ∃ c, s.store.shards[s.store.shardIndex hash key]? = some c ∧
        c.claimsAt key now = true
    · obtain ⟨c, hc, hclaims⟩ := hclaim
      obtain ⟨entry, he, hr, -, hflags, hreason, -⟩ :=
        lookupCachedResponse_claimed query hc hclaims
      -- the hit carries the reason, so there is a ticket for it
      obtain ⟨reason, hr⟩ := Option.isSome_iff_exists.1 (hreason (hok c entry hc he hr))
      rw [hr]
      dsimp only
      rw [hflags] at hk
      split_ifs at hk with hkey
      · exact ⟨_, List.mem_append_right _ (List.mem_singleton_self _), hkey.2.symm⟩
      · obtain ⟨t, ht, rfl⟩ := h k hk
        exact ⟨t, List.mem_append_left _ ht, rfl⟩
    · have hno : ∀ c, s.store.shards[s.store.shardIndex hash key]? = some c →
          c.claimsAt key now = false := fun c hc => by
        by_contra h
        exact hclaim ⟨c, hc, Bool.not_eq_false _ ▸ h⟩
      obtain ⟨hflags, hreason⟩ := lookupCachedResponse_unclaimed query hno
      rw [hreason]
      rw [hflags] at hk
      exact h k hk
  | start i =>
    simp only [refreshStep] at hs
    split at hs
    · rename_i key reason ht
      cases hs
      exact h.of_keys (fun _ hf => hf) (key_set ht _)
    · cases hs
  | drop i =>
    simp only [refreshStep] at hs
    split at hs
    · rename_i t ht
      split_ifs at hs
      cases hs
      exact h.giveUp ht
    · cases hs
  | refreshed i order response now =>
    simp only [refreshStep] at hs
    split at hs
    · rename_i key reason ht
      cases hs
      intro k hk
      obtain ⟨hf, hne⟩ := flagged_insertCachedResponse hk
      obtain ⟨t, hmem, rfl⟩ := h k hf
      dsimp only
      split_ifs with hins
      · exact ⟨t, mem_eraseIdx_of_key_ne ht hmem (hne hins), rfl⟩
      · have := List.mem_map_of_mem (f := Ticket.key) hmem
        rw [← key_set ht .finishing] at this
        obtain ⟨t', ht', hkey⟩ := List.mem_map.1 this
        exact ⟨t', ht', hkey⟩
    · cases hs
  | finish i =>
    simp only [refreshStep] at hs
    split at hs
    · rename_i t ht
      split_ifs at hs
      cases hs
      exact h.giveUp ht
    · cases hs
  | insert order key response now =>
    cases hs
    exact h.of_keys (fun k hk => (flagged_insertCachedResponse hk).1) rfl
  | clear =>
    cases hs
    intro k hk
    simp only [DnsCacheStore.flagAt, DnsCacheStore.clear, List.getElem?_map] at hk
    obtain ⟨c, hc, hk⟩ := Option.bind_eq_some_iff.1 hk
    obtain ⟨c₀, -, rfl⟩ := Option.map_eq_some_iff.1 hc
    cases hk

end

/-- **Claims are given back**: a lookup that returns nothing leaves the flags as
    they were exactly when what it claims can be framed for its query; and in
    every run of such lookups, from a store without flags, an entry that is
    flagged has a refresh. -/
theorem refreshing_owned (hash : QueryCacheKey → ℕ) :
    (∀ (s : DnsCacheStore) (key : QueryCacheKey) (query : Packet) (now : ℕ),
      ((lookupCachedResponse hash s key query now).1 = none →
        ∀ j k, (lookupCachedResponse hash s key query now).2.flagAt j k = s.flagAt j k) ↔
      LookupFramed hash s key query now) ∧
    ∀ (config : DnsCacheConfig) (store : DnsCacheStore) (es : List RefreshEvent)
      (s : RefreshState), (∀ j k, store.flagAt j k ≠ some true) →
      (refreshMachine hash config store).Guarded (ClaimFramed hash) ⟨store, []⟩ es →
      (refreshMachine hash config store).run ⟨store, []⟩ es = some s → Owned hash s := by
  refine ⟨fun s key query now => lookupFramed_iff s key query now, ?_⟩
  intro config store es s hnone hg hrun
  have h₀ : Owned hash ⟨store, []⟩ := fun k hk => absurd hk (hnone _ k)
  exact Machine.Guarded.inv (M := refreshMachine hash config store)
    (fun s e s' h hok hs => Owned.step h hok hs) es h₀ hg hrun

/-- The hit of `staleHit` is handed out, and the flag it sets is owned. -/
theorem staleHit_owned : ∃ s : RefreshState,
    (refreshMachine (fun _ => 0) staleConfig staleStore).run ⟨staleStore, []⟩ staleHit = some s ∧
    s.store.flagAt 0 optKey = some true ∧ Owned (fun _ => 0) s := by
  have hg : (refreshMachine (fun _ => 0) staleConfig staleStore).Guarded (ClaimFramed fun _ => 0)
      ⟨staleStore, []⟩ staleHit := by
    refine ⟨trivial, _, rfl, (lookupFramed_iff _ _ _ _).1 fun hnone => ?_, _, rfl, trivial, _, rfl,
      trivial⟩
    exact absurd hnone (by decide)
  have hnone : ∀ j k, staleStore.flagAt j k ≠ some true := by
    intro j k h
    obtain ⟨c, hc, hk⟩ := Option.bind_eq_some_iff.1 h
    obtain rfl : c = ⟨staleConfig, ∅, 0, 0, 0⟩ := List.mem_singleton.1 (List.mem_of_getElem? hc)
    cases hk
  exact ⟨_, rfl, by decide, (refreshing_owned fun _ => 0).2 _ _ _ _ hnone hg rfl⟩

/-! ## A response without room for an OPT record -/

/-- A query for the texts of `a`, with an OPT record. -/
def txtQuery : Packet :=
  [0, 7, 1, 0, 0, 1, 0, 0, 0, 0, 0, 1, 1, 97, 0, 0, 16, 0, 1,
    0, 0, 41, 16, 0, 0, 0, 128, 0, 0, 0]

def txtKey : QueryCacheKey := ⟨['a'], 16, 1, true, false, false, true, true, none⟩

/-- The header, the question and the first bytes of the record of a response to
    that query. -/
def longHead : Packet :=
  [0, 7, 129, 128, 0, 1, 0, 1, 0, 0, 0, 0, 1, 97, 0, 0, 16, 0, 1,
    192, 12, 0, 16, 0, 1, 0, 0, 0, 60, 255, 220]

/-- The response: one TXT record of 65500 empty strings, and no OPT record. -/
def longResponse : Packet := longHead ++ List.replicate 65500 0

theorem length_longResponse : longResponse.length = 65531 := by
  rw [longResponse, List.length_append, List.length_replicate]
  rfl

theorem agree_longHead : Agree 0 31 longHead longResponse := fun i _ hi =>
  (List.getElem?_append_left (show i < longHead.length from hi)).symm

theorem walks_longResponse :
    Walks longResponse 15 1 0 0 [⟨16, 1, 60, 31, 65500, 65531⟩] 65531 := by
  have hlen := length_longResponse
  have hname : ∀ o e, skipDnsName longHead o = some e → e ≤ 31 →
      skipDnsName longResponse o = some e := fun o e h he =>
    (skipDnsName_eq_some h).2.2 _ (agree_longHead.mono (Nat.zero_le _) he)
  have h16 : ∀ o, o + 2 ≤ 31 → readU16 longResponse o = readU16 longHead o := fun o ho =>
    (agree_longHead.readU16 (Nat.zero_le _) ho).symm
  have h32 : readU32 longResponse 25 = readU32 longHead 25 :=
    (agree_longHead.readU32 (Nat.zero_le _) (by omega)).symm
  refine ⟨hname _ _ (by decide) (by omega), (h16 _ (by omega)).trans (by decide), by omega,
    (h16 _ (by omega)).trans (by decide), (h16 _ (by omega)).trans (by decide),
    (h16 _ (by omega)).trans (by decide), by decide, ?_, rfl⟩
  refine readDnsRecord_eq_some.2 ⟨21, 65500, hname _ _ (by decide) (by omega),
    (h16 _ (by omega)).trans (by decide), (h16 _ (by omega)).trans (by decide),
    h32.trans (by decide), (h16 _ (by omega)).trans (by decide), rfl, rfl, rfl, ?_⟩
  rw [hlen]

theorem parseQuestion_longResponse : parseQuestion longResponse = .ok ⟨['a'], 16, 1, 19⟩ := by
  refine parseQuestion_eq_ok.2 ⟨by rw [length_longResponse]; decide, walks_longResponse.question,
    [⟨[97], by decide, by decide, by decide⟩], ?_, rfl, rfl, ?_, ?_⟩
  · exact ⟨longResponse.drop 15, rfl⟩
  · exact (agree_longHead.readU16 (Nat.zero_le _) (by decide)).symm
  · exact (agree_longHead.readU16 (Nat.zero_le _) (by decide)).symm

theorem longResponse_valid : validateResponseForQuery txtQuery longResponse = .ok () := by
  have hquery : parseQuestion txtQuery = .ok ⟨['a'], 16, 1, 19⟩ := by decide
  have hid : txtQuery.take 2 = longResponse.take 2 := rfl
  have hcode : longResponse[2]? = some 129 := rfl
  unfold validateResponseForQuery
  rw [if_neg (by rw [length_longResponse]; decide), if_neg (not_not.2 hid), hcode,
    if_neg (by decide), hquery, parseQuestion_longResponse]
  rfl

theorem normalizeCachedResponse_of_no_additional {response : Packet} {question : Question}
    {answers authorities : UInt16} (hquestion : parseQuestion response = .ok question)
    (hanswers : readU16 response 6 = some answers)
    (hauthorities : readU16 response 8 = some authorities)
    (hadditional : readU16 response 10 = some 0) :
    normalizeCachedResponse response = some response := by
  unfold normalizeCachedResponse
  rw [hquestion, hanswers, hauthorities, hadditional]
  exact if_pos rfl

theorem longResponse_cached : responseCacheTtl longResponse = some 60 ∧
    normalizeCachedResponse longResponse = some longResponse := by
  have hw := walks_longResponse
  have hcode : longResponse[3]? = some 128 := rfl
  constructor
  · refine hw.responseCacheTtl_eq_some.2 ⟨⟨16, ?_, .inl ⟨?_, ⟨_, List.mem_singleton_self _, ?_⟩,
      fun h => ?_⟩⟩, ⟨_, List.mem_singleton_self _, ?_, rfl⟩, ?_⟩
    · exact (agree_longHead.readU16 (Nat.zero_le _) (by omega)).symm
    · rw [hcode]; decide
    · decide
    · exact absurd h (by decide)
    · decide
    · intro r hr _
      rw [List.mem_singleton.1 hr]
      exact UInt32.le_refl _
  · exact normalizeCachedResponse_of_no_additional parseQuestion_longResponse hw.answer hw.authority
      hw.additional

/-- A cache of 128 KiB that serves stale answers. -/
def longConfig : DnsCacheConfig := ⟨true, 131072, 0, 0, true, 3600, false, 0⟩

def longCache : DnsCache := ⟨longConfig, ∅, 0, 0, 0⟩

/-- The entry for the response, which expires at 70, and the cache with it. -/
def longEntry : CachedDnsResponse := ⟨longResponse, 70, 64, 65628, 1, false, 0⟩

def longCached : DnsCache := ⟨longConfig, (∅ : HashMap _ _).insert txtKey longEntry, 65628, 1, 10⟩

theorem longCache_insert : longCache.insertWithTtl storedOrder txtKey longResponse 10 60 =
    (⟨true, 0⟩, longCached) := by
  have hsize : entrySize txtKey longResponse = 65628 := by
    rw [entrySize, length_longResponse]
    decide
  have hentry : newEntry txtKey longResponse 10 60 1 = longEntry := by
    rw [newEntry, hsize]
    rfl
  have hwith : longCache.withResponse txtKey longResponse 10 60 =
      { longCached with lastExpiredScanAt := 0 } := by
    have hacc : longCache.nextAccess = 1 := by decide
    have hnew : longCache.entries.lookup txtKey = none := rfl
    have htotal : saturatingAdd64 0 65628 = 65628 := by decide
    unfold withResponse countAccess putEntry
    rw [hacc, hentry]
    dsimp only
    rw [hnew]
    dsimp only [longEntry]
    rw [show longCache.totalSize = 0 from rfl, htotal]
    rfl
  unfold DnsCache.insertWithTtl
  rw [if_neg (by decide), hsize, if_neg (by decide), hwith]
  rfl

theorem insertCachedResponse_single {order : CacheOrder} {shard shard' : DnsCache}
    {config : DnsCacheConfig} {key : QueryCacheKey} {response stored : Packet} {now : ℕ}
    {ttl : UInt32} {outcome : CacheInsertOutcome}
    (httl : cacheTtlSeconds response config = some ttl)
    (hstored : normalizeCachedResponse response = some stored)
    (hinsert : shard.insertWithTtl order key stored now ttl = (outcome, shard')) :
    insertCachedResponse (fun _ => 0) order ⟨[shard]⟩ config key response now =
      (outcome.inserted, ⟨[shard']⟩) := by
  have hindex : (⟨[shard]⟩ : DnsCacheStore).shardIndex (fun _ => 0) key = 0 := Nat.zero_mod _
  unfold insertCachedResponse
  rw [httl, hstored]
  dsimp only
  unfold DnsCacheStore.insertWithTtl
  rw [hindex]
  dsimp only
  rw [List.getElem?_cons_zero]
  dsimp only
  rw [hinsert, List.set_cons_zero]

theorem longResponse_inserted : insertCachedResponse (fun _ => 0) storedOrder ⟨[longCache]⟩
    longConfig txtKey longResponse 10 = (true, ⟨[longCached]⟩) := by
  have httl : cacheTtlSeconds longResponse longConfig = some 60 := by
    rw [cacheTtlSeconds, longResponse_cached.1]
    rfl
  exact insertCachedResponse_single httl longResponse_cached.2 longCache_insert

/-- An upstream's response to a query is cached; after its minute the same query
    finds nothing, because there is no room for its OPT record, and leaves the
    entry flagged without a refresh. -/
theorem longResponse_leaks : cacheKey txtQuery none = some txtKey ∧
    validateResponseForQuery txtQuery longResponse = .ok () ∧ ∃ s s' : RefreshState,
      (refreshMachine (fun _ => 0) longConfig ⟨[longCache]⟩).run ⟨⟨[longCache]⟩, []⟩
        [.insert storedOrder txtKey longResponse 10] = some s ∧
      (refreshMachine (fun _ => 0) longConfig ⟨[longCache]⟩).step s
        (.lookup txtKey txtQuery 100) = some s' ∧
      (lookupCachedResponse (fun _ => 0) s.store txtKey txtQuery 100).1 = none ∧
      s.store.flagAt 0 txtKey = some false ∧ s'.store.flagAt 0 txtKey = some true ∧
      ¬ Owned (fun _ => 0) s' := by
  have hinsert : (refreshMachine (fun _ => 0) longConfig ⟨[longCache]⟩).run ⟨⟨[longCache]⟩, []⟩
      [.insert storedOrder txtKey longResponse 10] = some ⟨⟨[longCached]⟩, []⟩ := by
    show some (RefreshState.mk (insertCachedResponse (fun _ => 0) storedOrder ⟨[longCache]⟩
      longConfig txtKey longResponse 10).2 []) = _
    rw [longResponse_inserted]
  have hshard : (⟨[longCached]⟩ : DnsCacheStore).shards[(⟨[longCached]⟩ : DnsCacheStore).shardIndex
      (fun _ => 0) txtKey]? = some longCached := rfl
  have hclaims : longCached.claimsAt txtKey 100 = true := by decide
  obtain ⟨entry, he, -, hbefore, hflags, -, hnone⟩ :=
    lookupCachedResponse_claimed txtQuery hshard hclaims
  obtain rfl : longEntry = entry := Option.some.inj he
  have hno : ¬ ∃ q, parseQuery txtQuery = .ok q ∧ FramesFor longEntry.response q := by
    rintro ⟨q, hq, hf⟩
    have hq' : parseQuery txtQuery =
        .ok ⟨⟨['a'], 16, 1, 19⟩, true, false, false, true, some 4096, true⟩ := by decide
    cases hq'.symm.trans hq
    have hroom := (hf.room rfl).1
    rw [show longEntry.response = longResponse from rfl, length_longResponse] at hroom
    exact absurd hroom (by decide)
  have hmiss := hnone.2 hno
  have hafter := hflags 0 txtKey
  rw [if_pos ⟨rfl, rfl⟩] at hafter
  have hstep : refreshStep (fun _ => 0) longConfig ⟨⟨[longCached]⟩, []⟩
      (.lookup txtKey txtQuery 100) = some
        ⟨(lookupCachedResponse (fun _ => 0) ⟨[longCached]⟩ txtKey txtQuery 100).2, []⟩ :=
    refreshStep_lookup_none hmiss
  refine ⟨by decide, longResponse_valid, _, _, hinsert, hstep, hmiss, hbefore, hafter, ?_⟩
  intro howned
  have hindex : ∀ s : DnsCacheStore, s.shardIndex (fun _ => 0) txtKey = 0 := fun s => Nat.zero_mod _
  have hflag := howned txtKey
  rw [hindex] at hflag
  obtain ⟨t, ht, -⟩ := hflag hafter
  cases ht

end DnsBlackhole.Cache
