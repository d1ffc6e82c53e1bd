/-
  Background refreshes (`refresh_cache_async` of `dns/worker.rs`).

  A hit may carry a reason to refresh its entry.  The worker that got it either
  starts a task, or gives the refresh up; the task inserts a new response, or
  gives up.  Giving up resets the flag of the entry (`finish_refresh`); an
  insertion replaces the entry, and with it the flag.

  A refresh in flight is a `Ticket`.  The flag keeps a second one away as long
  as nobody else replaces the entry of its key: in every run without such an
  insertion there is at most one ticket for a key (`refresh_single`).  One
  insertion from outside is enough for a second task (`second_refresh`).
-/
import DnsBlackhole.Cache.Timed

namespace DnsBlackhole.Cache
open Lib Protocol DnsCache

/-- Where a refresh is: with the worker that got the hit, with its task, or with
    its task after the insertion has been refused. -/
inductive TicketPhase
  | claimed
  | running
  | finishing
  deriving DecidableEq

structure Ticket where
  key : QueryCacheKey
  reason : CacheRefreshReason
  phase : TicketPhase
  deriving DecidableEq

structure RefreshState where
  store : DnsCacheStore
  tickets : List Ticket
  deriving DecidableEq

/-- What can happen; `i` is the place of a ticket. -/
inductive RefreshEvent
  /-- A worker looks up a key, and holds a ticket if the hit carries a reason. -/
  | lookup (key : QueryCacheKey) (query : Packet) (now : ℕ)
  /-- The worker starts the task of its ticket. -/
  | start (i : ℕ)
  /-- The worker gives its ticket up: the hit is blocked or cannot be sent, or
      the task is not accepted. -/
  | drop (i : ℕ)
  /-- The task inserts the response it has got. -/
  | refreshed (i : ℕ) (order : CacheOrder) (response : Packet) (now : ℕ)
  /-- The task gives up. -/
  | finish (i : ℕ)
  /-- A worker inserts the response to a query of a client. -/
  | insert (order : CacheOrder) (key : QueryCacheKey) (response : Packet) (now : ℕ)
  | clear

section
variable (hash : QueryCacheKey → ℕ) (config : DnsCacheConfig)

/-- A ticket that is given up: the flag of its entry is reset. -/
def RefreshState.giveUp (s : RefreshState) (i : ℕ) (t : Ticket) : RefreshState :=
  ⟨s.store.finishRefresh hash t.key, s.tickets.eraseIdx i⟩

def refreshStep (s : RefreshState) : RefreshEvent → Option RefreshState
  | .lookup key query now =>
    let r := lookupCachedResponse hash s.store key query now
    some ⟨r.2, match r.1.bind CacheHit.refreshReason with
      | some reason => s.tickets ++ [⟨key, reason, .claimed⟩]
      | none => s.tickets⟩
  | .start i =>
    match s.tickets[i]? with
    | some ⟨key, reason, .claimed⟩ =>
      some { s with tickets := s.tickets.set i ⟨key, reason, .running⟩ }
    | _ => none
  | .drop i =>
    match s.tickets[i]? with
    | some t => if t.phase = .claimed then some (s.giveUp hash i t) else none
    | none => none
  | .refreshed i order response now =>
    match s.tickets[i]? with
    | some ⟨key, reason, .running⟩ =>
      let r := insertCachedResponse hash order s.store config key response now
      some ⟨r.2, if r.1 then s.tickets.eraseIdx i else s.tickets.set i ⟨key, reason, .finishing⟩⟩
    | _ => none
  | .finish i =>
    match s.tickets[i]? with
    | some t => if t.phase ≠ .claimed then some (s.giveUp hash i t) else none
    | none => none
  | .insert order key response now =>
    some { s with store := (insertCachedResponse hash order s.store config key response now).2 }
  | .clear => some { s with store := s.store.clear }

/-- The store with its refreshes. -/
def refreshMachine (store : DnsCacheStore) : Machine RefreshState RefreshEvent where
  init := ⟨store, []⟩
  step := refreshStep hash config

/-- A response that is admitted under a key: it has a time to live, it may be
    stored, and it fits into the shard of the key. -/
def Admits (s : DnsCacheStore) (key : QueryCacheKey) (response : Packet) : Prop :=
  ∃ ttl stored shard, cacheTtlSeconds response config = some ttl ∧
    normalizeCachedResponse response = some stored ∧
    s.shards[s.shardIndex hash key]? = some shard ∧
    entrySize key stored ≤ shard.config.maxSizeBytes

/-- No worker inserts a response that is admitted under a key while there is a
    ticket for it. -/
def NoForeignInsert (s : RefreshState) : RefreshEvent → Prop
  | .insert _ key response _ =>
    key ∈ s.tickets.map Ticket.key → ¬ Admits hash config s.store key response
  | _ => True

end

/-! ## The flags -/

/-- An entry that was flagged still is, or is gone; none has come up. -/
def FlagKept (o o' : Option CachedDnsResponse) : Prop :=
  ∀ e', o' = some e' → ∃ e, o = some e ∧ (e.refreshing → e'.refreshing)

theorem FlagKept.refl (o : Option CachedDnsResponse) : FlagKept o o := fun e he => ⟨e, he, id⟩

theorem flagKept_lookup (c : DnsCache) (key k : QueryCacheKey) (now : ℕ) :
    FlagKept (c.entries.lookup k) ((c.lookup key now).2.entries.lookup k) := by
  rcases c.lookup_cases key now with h | ⟨entry, he, -, h⟩
  · rw [h]; exact FlagKept.refl _
  · rw [h, HashMap.lookup_insert_eq_ite]
    split_ifs with hk
    · intro e' he'
      cases he'
      refine ⟨entry, hk ▸ he, fun hf => ?_⟩
      unfold hitEntry hitRefresh claimRefresh
      split_ifs <;> simp_all
    · exact FlagKept.refl _

theorem claimed_lookup {c : DnsCache} {key : QueryCacheKey} {now : ℕ} {raw : RawCacheHit}
    (h : (c.lookup key now).1 = some raw) (hr : raw.refreshReason.isSome) :
    (∃ e, c.entries.lookup key = some e ∧ e.refreshing = false) ∧
      ∀ e', (c.lookup key now).2.entries.lookup key = some e' → e'.refreshing = true := by
  rcases c.lookup_cases key now with hl | ⟨entry, he, -, hl⟩
  · rw [hl] at h; cases h
  · rw [hl] at h ⊢
    cases h
    dsimp only at hr ⊢
    have hclaim : entry.refreshing = false ∧ (c.hitEntry entry now).2.refreshing = true := by
      revert hr
      unfold hitEntry hitRefresh claimRefresh
      split_ifs <;> simp_all
    refine ⟨⟨entry, he, hclaim.1⟩, fun e' he' => ?_⟩
    rw [AList.lookup_insert] at he'
    cases he'
    exact hclaim.2

theorem flagKept_finishRefresh (c : DnsCache) {key k : QueryCacheKey} (hk : k ≠ key) :
    FlagKept (c.entries.lookup k) ((c.finishRefresh key).entries.lookup k) := by
  rcases c.finishRefresh_cases key with h | ⟨entry, -, h⟩
  · rw [h]; exact FlagKept.refl _
  · rw [h, AList.lookup_insert_ne hk]; exact FlagKept.refl _

theorem flagKept_insertWithTtl (order : CacheOrder) (c : DnsCache) {key k : QueryCacheKey}
    (response : Packet) (now : ℕ) (ttl : UInt32)
    (hk : k ≠ key ∨ (c.insertWithTtl order key response now ttl).1.inserted = false) :
    FlagKept (c.entries.lookup k)
      ((c.insertWithTtl order key response now ttl).2.entries.lookup k) := by
  rcases c.insertWithTtl_cases order key response now ttl with
    ⟨-, h | h⟩ | ⟨-, -, hins, h⟩
  · rw [h]; exact FlagKept.refl _
  · rw [h]; exact FlagKept.refl _
  · rw [hins] at hk
    have hne := hk.resolve_right (by simp)
    rw [h]
    intro e he
    have := (evictOverLimit_shrinks order _ now).lookup k e he
    rw [c.lookup_withResponse, if_neg hne] at this
    exact ⟨e, this, id⟩

section
variable {hash : QueryCacheKey → ℕ} {config : DnsCacheConfig}

theorem entryAt_set {s : DnsCacheStore} {i : ℕ} {c : DnsCache} (hc : s.shards[i]? = some c)
    (c' : DnsCache) (k : QueryCacheKey) :
    DnsCacheStore.entryAt hash ⟨s.shards.set i c'⟩ k =
      if s.shardIndex hash k = i then c'.entries.lookup k else s.entryAt hash k := by
  rw [DnsCacheStore.entryAt, shardIndex_set]
  split_ifs with hk
  · rw [hk, List.getElem?_set_self (List.getElem?_eq_some_iff.1 hc).1, Option.bind_some]
  · rw [List.getElem?_set_ne (Ne.symm hk), DnsCacheStore.entryAt]

theorem flagKept_set {s : DnsCacheStore} {i : ℕ} {c c' : DnsCache} {k : QueryCacheKey}
    (hc : s.shards[i]? = some c) (h : FlagKept (c.entries.lookup k) (c'.entries.lookup k)) :
    FlagKept (s.entryAt hash k) (DnsCacheStore.entryAt hash ⟨s.shards.set i c'⟩ k) := by
  rw [entryAt_set hc]
  split_ifs with hk
  · rw [DnsCacheStore.entryAt, hk, hc, Option.bind_some]
    exact h
  · exact FlagKept.refl _

theorem store_flagKept_lookup (s : DnsCacheStore) (key k : QueryCacheKey) (now : ℕ) :
    FlagKept (s.entryAt hash k) ((s.lookup hash key now).2.entryAt hash k) := by
  unfold DnsCacheStore.lookup
  dsimp only
  split
  · exact FlagKept.refl _
  · rename_i shard hshard
    exact flagKept_set hshard (flagKept_lookup shard key k now)

theorem store_flagKept_finishRefresh (s : DnsCacheStore) {key k : QueryCacheKey} (hk : k ≠ key) :
    FlagKept (s.entryAt hash k) ((s.finishRefresh hash key).entryAt hash k) := by
  unfold DnsCacheStore.finishRefresh
  dsimp only
  split
  · exact FlagKept.refl _
  · rename_i shard hshard
    exact flagKept_set hshard (flagKept_finishRefresh shard hk)

theorem store_flagKept_insert (order : CacheOrder) (s : DnsCacheStore) {key k : QueryCacheKey}
    (response : Packet) (now : ℕ)
    (hk : k ≠ key ∨ (insertCachedResponse hash order s config key response now).1 = false) :
    FlagKept (s.entryAt hash k)
      ((insertCachedResponse hash order s config key response now).2.entryAt hash k) := by
  revert hk
  unfold insertCachedResponse
  split
  · unfold DnsCacheStore.insertWithTtl
    dsimp only
    split
    · exact fun _ => FlagKept.refl _
    · rename_i shard hshard
      exact fun hk => flagKept_set hshard (flagKept_insertWithTtl order shard _ now _ hk)
  · exact fun _ => FlagKept.refl _

theorem claimed_lookupCachedResponse {s : DnsCacheStore} {key : QueryCacheKey} {query : Packet}
    {now : ℕ} {reason : CacheRefreshReason}
    (h : (lookupCachedResponse hash s key query now).1.bind CacheHit.refreshReason = some reason) :
    (∃ e, s.entryAt hash key = some e ∧ e.refreshing = false) ∧
      ∀ e', (lookupCachedResponse hash s key query now).2.entryAt hash key = some e' →
        e'.refreshing = true := by
  obtain ⟨hit, hhit, hreason⟩ := Option.bind_eq_some_iff.1 h
  obtain ⟨raw, hraw, hmap⟩ := Option.bind_eq_some_iff.1 hhit
  obtain ⟨response, -, rfl⟩ := Option.map_eq_some_iff.1 hmap
  dsimp only at hreason
  simp only [lookupCachedResponse]
  revert hraw
  unfold DnsCacheStore.lookup
  dsimp only
  split
  · intro hraw; cases hraw
  · rename_i shard hshard
    intro hraw
    obtain ⟨⟨e, he, hflag⟩, hafter⟩ := claimed_lookup hraw (by rw [hreason]; rfl)
    refine ⟨⟨e, by rw [DnsCacheStore.entryAt, hshard]; exact he, hflag⟩, fun e' he' => ?_⟩
    rw [entryAt_set hshard, if_pos rfl] at he'
    exact hafter e' he'

theorem admits_of_inserted {order : CacheOrder} {s : DnsCacheStore} {key : QueryCacheKey}
    {response : Packet} {now : ℕ}
    (h : (insertCachedResponse hash order s config key response now).1 = true) :
    Admits hash config s key response := by
  unfold insertCachedResponse at h
  split at h
  · rename_i ttl stored httl hstored
    unfold DnsCacheStore.insertWithTtl at h
    dsimp only at h
    split at h
    · cases h
    · rename_i shard hshard
      rcases shard.insertWithTtl_cases order key stored now ttl with ⟨hno, -⟩ | ⟨-, hsize, -⟩
      · rw [hno] at h; cases h
      · exact ⟨ttl, stored, shard, httl, hstored, hshard, hsize⟩
  · cases h

/-! ## At most one refresh -/

/-- There is at most one ticket for a key, and the entry of a ticket, if it is
    still there, is flagged. -/
structure Single (hash : QueryCacheKey → ℕ) (s : RefreshState) : Prop where
  nodup : (s.tickets.map Ticket.key).Nodup
  flagged : ∀ k ∈ s.tickets.map Ticket.key, ∀ e, s.store.entryAt hash k = some e →
    e.refreshing = true

theorem Single.of_flagKept {s s' : RefreshState} (h : Single hash s)
    (hsub : (s'.tickets.map Ticket.key).Sublist (s.tickets.map Ticket.key))
    (hkept : ∀ k ∈ s'.tickets.map Ticket.key,
      FlagKept (s.store.entryAt hash k) (s'.store.entryAt hash k)) : Single hash s' where
  nodup := h.nodup.sublist hsub
  flagged k hk e' he' := by
    obtain ⟨e, he, hf⟩ := hkept k hk e' he'
    exact hf (h.flagged k (hsub.subset hk) e he)

theorem key_set {tickets : List Ticket} {i : ℕ} {t : Ticket} (h : tickets[i]? = some t)
    (phase : TicketPhase) : (tickets.set i ⟨t.key, t.reason, phase⟩).map Ticket.key =
      tickets.map Ticket.key := by
  rw [List.map_set]
  refine List.ext_getElem? fun j => ?_
  rw [List.getElem?_set]
  split_ifs with hij hlt
  · rw [← hij, List.getElem?_map, h]; rfl
  · rw [List.length_map] at hlt
    exact absurd (List.getElem?_eq_some_iff.1 h).1 hlt
  · rfl

theorem Single.ne_of_mem_eraseIdx {s : RefreshState} (h : Single hash s) {i : ℕ} {t : Ticket}
    (ht : s.tickets[i]? = some t) {k : QueryCacheKey}
    (hk : k ∈ (s.tickets.eraseIdx i).map Ticket.key) : k ≠ t.key := by
  rintro rfl
  obtain ⟨t', ht', hkey⟩ := List.mem_map.1 hk
  obtain ⟨j, hj, hjt⟩ := List.mem_eraseIdx_iff_getElem?.1 ht'
  have hlt : j < (s.tickets.map Ticket.key).length := by
    rw [List.length_map]
    exact (List.getElem?_eq_some_iff.1 hjt).1
  refine hj ((List.getElem?_inj hlt h.nodup).1 ?_)
  rw [List.getElem?_map, List.getElem?_map, hjt, ht, Option.map_some, Option.map_some, hkey]

theorem Single.giveUp {s : RefreshState} (h : Single hash s) {i : ℕ} {t : Ticket}
    (ht : s.tickets[i]? = some t) : Single hash (s.giveUp hash i t) :=
  h.of_flagKept ((List.eraseIdx_sublist _ _).map _) fun _ hk =>
    store_flagKept_finishRefresh s.store (h.ne_of_mem_eraseIdx ht hk)

/-- **Every step without a foreign insertion keeps the refreshes single.** -/
theorem Single.step {s s' : RefreshState} (h : Single hash s) {e : RefreshEvent}
    (hok : NoForeignInsert hash config s e) (hs : refreshStep hash config s e = some s') :
    Single hash s' := by
  cases e with
  | lookup key query now =>
    cases hs
    have hkept : ∀ k, FlagKept (s.store.entryAt hash k)
        ((lookupCachedResponse hash s.store key query now).2.entryAt hash k) := fun k =>
      store_flagKept_lookup s.store key k now
    split
    · rename_i reason hreason
      obtain ⟨⟨e, he, hflag⟩, hafter⟩ := claimed_lookupCachedResponse hreason
      -- the entry was not flagged, so there was no ticket for its key
      have hnew : key ∉ s.tickets.map Ticket.key := fun hk => by
        have := h.flagged key hk e he
        rw [hflag] at this; cases this
      refine ⟨?_, fun k hk e' he' => ?_⟩
      · rw [List.map_append, List.nodup_append]
        refine ⟨h.nodup, by simp, fun a ha b hb hab => hnew ?_⟩
        rw [List.map_singleton, List.mem_singleton] at hb
        exact (hab.trans hb : a = key) ▸ ha
      · rw [List.map_append, List.mem_append, List.map_singleton, List.mem_singleton] at hk
        rcases hk with hk | rfl
        · obtain ⟨e₁, he₁, hf⟩ := hkept k e' he'
          exact hf (h.flagged k hk e₁ he₁)
        · exact hafter e' he'
    · exact h.of_flagKept (List.Sublist.refl _) fun k _ => hkept k
  | start i =>
    simp only [refreshStep] at hs
    split at hs
    · rename_i key reason ht
      cases hs
      exact h.of_flagKept (by rw [key_set ht]) fun _ _ => FlagKept.refl _
    · cases hs
  | drop i =>
    simp only [refreshStep] at hs
    split at hs
    · rename_i t ht
      split_ifs at hs
      cases hs
      exact h.giveUp ht
    · cases hs
  | refreshed i order response now =>
    simp only [refreshStep] at hs
    split at hs
    · rename_i key reason ht
      cases hs
      cases hins : (insertCachedResponse hash order s.store config key response now).1 with
      | true =>
        refine h.of_flagKept ((List.eraseIdx_sublist _ i).map _) fun k hk => ?_
        exact store_flagKept_insert order s.store response now
          (.inl (h.ne_of_mem_eraseIdx ht hk))
      | false =>
        refine h.of_flagKept ?_ fun k _ => ?_
        · simp only [Bool.false_eq_true, if_false]
          rw [key_set ht]
        · exact store_flagKept_insert order s.store response now (.inr hins)
    · cases hs
  | finish i =>
    simp only [refreshStep] at hs
    split at hs
    · rename_i t ht
      split_ifs at hs
      cases hs
      exact h.giveUp ht
    · cases hs
  | insert order key response now =>
    cases hs
    refine h.of_flagKept (List.Sublist.refl _) fun k hk => ?_
    refine store_flagKept_insert order s.store response now ?_
    by_cases hkey : k = key
    · -- a response for the key of a ticket is not admitted
      right
      subst hkey
      by_contra hins
      exact hok hk (admits_of_inserted (Bool.not_eq_false _ ▸ hins))
    · exact .inl hkey
  | clear =>
    cases hs
    refine h.of_flagKept (List.Sublist.refl _) fun k _ e' he' => ?_
    simp only [DnsCacheStore.entryAt, DnsCacheStore.clear, List.getElem?_map] at he'
    obtain ⟨c, hc, he'⟩ := Option.bind_eq_some_iff.1 he'
    obtain ⟨c₀, -, rfl⟩ := Option.map_eq_some_iff.1 hc
    cases he'

/-- **A single background refresh per key**: in every run in which no worker
    inserts a response under the key of a refresh in flight, there is at most
    one refresh in flight for any key. -/
theorem refresh_single (hash : QueryCacheKey → ℕ) (config : DnsCacheConfig)
    (store : DnsCacheStore) (es : List RefreshEvent) (s : RefreshState)
    (hg : (refreshMachine hash config store).Guarded (NoForeignInsert hash config)
      ⟨store, []⟩ es)
    (hrun : (refreshMachine hash config store).run ⟨store, []⟩ es = some s) (key : QueryCacheKey) :
    (s.tickets.filter fun t => t.key = key).length ≤ 1 := by
  have h₀ : Single hash ⟨store, []⟩ := ⟨List.nodup_nil, fun k hk => by cases hk⟩
  have hsingle : Single hash s := Machine.Guarded.inv (M := refreshMachine hash config store)
    (fun s e s' h hok hs => Single.step h hok hs) es h₀ hg hrun
  have hcount : (s.tickets.filter fun t => t.key = key).length =
      (s.tickets.map Ticket.key).count key := by
    rw [List.count, List.countP_map, List.countP_eq_length_filter]
    rfl
  rw [hcount]
  exact List.nodup_iff_count_le_one.1 hsingle.nodup key

end

/-! ## A second refresh -/

/-- A store of one shard that serves stale answers. -/
def staleConfig : DnsCacheConfig := ⟨true, 4096, 0, 0, true, 3600, false, 0⟩

def staleStore : DnsCacheStore := ⟨[⟨staleConfig, ∅, 0, 0, 0⟩]⟩

/-- A response is inserted, and handed out after its minute; the task of that
    hit is started. -/
def staleHit : List RefreshEvent :=
  [.insert storedOrder optKey addressResponse 10, .lookup optKey optQuery 100, .start 0]

/-- While that refresh is in flight, another hit does not start a second one. -/
theorem staleHit_single : ∃ s : RefreshState,
    (refreshMachine (fun _ => 0) staleConfig staleStore).run ⟨staleStore, []⟩
      (staleHit ++ [.lookup optKey optQuery 101]) = some s ∧ s.tickets ≠ [] ∧
    (s.tickets.filter fun t => t.key = optKey).length ≤ 1 := by
  have hg : (refreshMachine (fun _ => 0) staleConfig staleStore).Guarded
      (NoForeignInsert (fun _ => 0) staleConfig) ⟨staleStore, []⟩
      (staleHit ++ [.lookup optKey optQuery 101]) :=
    ⟨fun hk => (by cases hk), _, rfl, trivial, _, rfl, trivial, _, rfl, trivial, _, rfl, trivial⟩
  exact ⟨_, rfl, by decide, refresh_single _ _ _ _ _ hg rfl _⟩

/-- While that refresh runs, somebody else inserts a response, which is handed
    out after its minute: now two refreshes run for the same key. -/
theorem second_refresh : ∃ s : RefreshState,
    (refreshMachine (fun _ => 0) staleConfig staleStore).Reachable s ∧
    s.tickets = [⟨optKey, .expired, .running⟩, ⟨optKey, .expired, .running⟩] :=
  ⟨_, ⟨staleHit ++ [.insert storedOrder optKey addressResponse 110,
    .lookup optKey optQuery 200, .start 1], rfl⟩, by decide⟩

end DnsBlackhole.Cache
