/-
  The lines of the pending queries.

  The `line` of a leader are its followers in the order in which they have
  registered: those it has delivered its result to, and behind them those that
  still wait.  Only a registration changes a line, and a query stands in one line
  at most.  With what the entries are, this is the invariant of the steps
  (`PendingInv.step`).
-/
import DnsBlackhole.Worker.Pending

namespace DnsBlackhole.Worker
open Lib Cache

/-! ## Entries -/

namespace PendingQueries
variable {hash : QueryCacheKey → ℕ} {s : PendingQueries} {key : QueryCacheKey}

/-- The entries of a shard are those of its keys. -/
def Home (hash : QueryCacheKey → ℕ) (s : PendingQueries) : Prop :=
  ∀ i k p, (s.shards[i]?).bind (·.lookup k) = some p → i = s.shardIndex hash k

theorem getElem?_shardIndex (hash : QueryCacheKey → ℕ) (s : PendingQueries) (key : QueryCacheKey) :
    ∃ shard, s.shards[s.shardIndex hash key]? = some shard := by
  have hpos := s.nonempty
  have hlt : s.shardIndex hash key < s.shards.length := by
    rw [shardIndex, Nat.max_eq_left hpos]
    exact Nat.mod_lt _ hpos
  exact ⟨_, List.getElem?_eq_getElem hlt⟩

theorem bind_setShard {i j : ℕ} {shard : HashMap QueryCacheKey PendingQuery}
    (h : s.shards[i]? = some shard) (shard' : HashMap QueryCacheKey PendingQuery)
    (k : QueryCacheKey) : ((s.setShard i shard').shards[j]?).bind (·.lookup k) =
      if j = i then shard'.lookup k else (s.shards[j]?).bind (·.lookup k) := by
  simp only [setShard]
  split_ifs with hj
  · rw [hj, List.getElem?_set_self (List.getElem?_eq_some_iff.1 h).1, Option.bind_some]
  · rw [List.getElem?_set_ne (Ne.symm hj)]

theorem shardIndex_setShard (i : ℕ) (shard' : HashMap QueryCacheKey PendingQuery)
    (k : QueryCacheKey) : (s.setShard i shard').shardIndex hash k = s.shardIndex hash k := by
  simp [shardIndex, setShard]

theorem entry_setShard {shard shard' : HashMap QueryCacheKey PendingQuery} {o : Option PendingQuery}
    (h : s.shards[s.shardIndex hash key]? = some shard)
    (hl : ∀ k, shard'.lookup k = if k = key then o else shard.lookup k) (k : QueryCacheKey) :
    (s.setShard (s.shardIndex hash key) shard').entry hash k =
      if k = key then o else s.entry hash k := by
  rw [entry, shardIndex_setShard, bind_setShard h, hl, entry]
  by_cases hk : k = key
  · rw [hk, if_pos rfl, if_pos rfl, if_pos rfl]
  · rw [if_neg hk, if_neg hk]
    split_ifs with hi
    · rw [hi, h, Option.bind_some]
    · rfl

theorem Home.setShard (hs : s.Home hash) {shard shard' : HashMap QueryCacheKey PendingQuery}
    {o : Option PendingQuery} (h : s.shards[s.shardIndex hash key]? = some shard)
    (hl : ∀ k, shard'.lookup k = if k = key then o else shard.lookup k) :
    (s.setShard (s.shardIndex hash key) shard').Home hash := by
  intro i k p hp
  rw [shardIndex_setShard]
  rw [bind_setShard h] at hp
  split_ifs at hp with hi
  · rw [hl] at hp
    split_ifs at hp with hk
    · rw [hi, hk]
    · exact hs i k p (by rw [hi, h, Option.bind_some, hp])
  · exact hs i k p hp

theorem home_new (hash : QueryCacheKey → ℕ) (shardCount : ℕ) : (new shardCount).Home hash := by
  intro i k p hp
  obtain ⟨shard, hshard, hp⟩ := Option.bind_eq_some_iff.1 hp
  rw [List.eq_of_mem_replicate (List.mem_of_getElem? hshard)] at hp
  cases hp

theorem entry_new (hash : QueryCacheKey → ℕ) (shardCount : ℕ) (k : QueryCacheKey) :
    (new shardCount).entry hash k = none := by
  obtain ⟨shard, hshard⟩ := getElem?_shardIndex hash (new shardCount) k
  rw [entry, hshard, List.eq_of_mem_replicate (List.mem_of_getElem? hshard)]
  rfl

/-- **What `begin` does**: it finds the entry of its key, or makes one. -/
theorem begin_cases (hash : QueryCacheKey → ℕ) (s : PendingQueries) (key : QueryCacheKey)
    (n : PendingQuery) :
    (∃ p, s.entry hash key = some p ∧ s.begin hash key n = (.follower p, s)) ∨
    ∃ s', s.entry hash key = none ∧ s.begin hash key n = (.leader n, s') ∧
      (s.Home hash → s'.Home hash) ∧
      ∀ k, s'.entry hash k = if k = key then some n else s.entry hash k := by
  obtain ⟨shard, hshard⟩ := getElem?_shardIndex hash s key
  have hentry : s.entry hash key = shard.lookup key := by rw [entry, hshard, Option.bind_some]
  rw [hentry]
  simp only [begin, hshard]
  cases hl : shard.lookup key with
  | some p => exact .inl ⟨p, rfl, rfl⟩
  | none =>
    have hins := fun k => HashMap.lookup_insert_eq_ite shard key k n
    exact .inr ⟨_, rfl, rfl, fun hs => hs.setShard hshard hins, entry_setShard hshard hins⟩

/-- **What `finish` does**: it takes the entry of its key away if that is its
    own. -/
theorem entry_finish (hash : QueryCacheKey → ℕ) (s : PendingQueries) (key : QueryCacheKey)
    (p : PendingQuery) (k : QueryCacheKey) : (s.finish hash key p).entry hash k =
      if k = key ∧ s.entry hash key = some p then none else s.entry hash k := by
  obtain ⟨shard, hshard⟩ := getElem?_shardIndex hash s key
  have hentry : s.entry hash key = shard.lookup key := by rw [entry, hshard, Option.bind_some]
  simp only [finish, hshard, hentry]
  cases hl : shard.lookup key with
  | none => simp
  | some p' =>
    by_cases hp : p' = p
    · simp only [hp, Option.any_some, decide_true, if_true, and_true]
      exact entry_setShard hshard (fun k => HashMap.lookup_erase_eq_ite shard key k) k
    · simp [hp]

theorem Home.finish (hs : s.Home hash) (key : QueryCacheKey) (p : PendingQuery) :
    (s.finish hash key p).Home hash := by
  obtain ⟨shard, hshard⟩ := getElem?_shardIndex hash s key
  simp only [PendingQueries.finish, hshard]
  split_ifs
  · exact hs.setShard hshard fun k => HashMap.lookup_erase_eq_ite shard key k
  · exact hs

end PendingQueries

/-! ## Lines -/

section
variable {ρ : Type*}

/-- The followers that wait for a leader. -/
def QueryRole.waiting : QueryRole ρ → List PendingFollower
  | .leader _ (.delivering _ followers) => followers
  | .leader followers _ => followers.getD []
  | _ => []

namespace PendingState

def waiting (s : PendingState ρ) (p : PendingQuery) : List PendingFollower :=
  (s.queries[p]?).elim [] fun query => query.role.waiting

/-- The followers a leader has delivered its result to. -/
def answered (s : PendingState ρ) (p : PendingQuery) : List PendingFollower :=
  (s.delivered.filter fun d => d.leader = p).map Delivery.follower

def line (s : PendingState ρ) (p : PendingQuery) : List PendingFollower :=
  s.answered p ++ s.waiting p

theorem getElem?_put {s : PendingState ρ} {q : ℕ} {a : Query ρ} (h : s.queries[q]? = some a)
    (b : Query ρ) (x : ℕ) :
    (s.put q b).queries[x]? = if x = q then some b else s.queries[x]? := by
  simp only [put]
  split_ifs with hx
  · rw [hx, List.getElem?_set_self (List.getElem?_eq_some_iff.1 h).1]
  · rw [List.getElem?_set_ne (Ne.symm hx)]

theorem getElem?_concat {α : Type*} (l : List α) (a : α) (x : ℕ) :
    (l ++ [a])[x]? = if x = l.length then some a else l[x]? := by
  split_ifs with hx
  · rw [hx, List.getElem?_concat_length]
  · rw [List.getElem?_append]
    split_ifs with hlt
    · rfl
    · rw [List.getElem?_eq_none (by simp; omega), List.getElem?_eq_none (by omega)]

theorem waiting_put {s : PendingState ρ} {q : ℕ} {a : Query ρ} (h : s.queries[q]? = some a)
    (b : Query ρ) (x : ℕ) :
    (s.put q b).waiting x = if x = q then b.role.waiting else s.waiting x := by
  rw [waiting, getElem?_put h]
  split_ifs
  · rfl
  · rfl

theorem waiting_of_getElem? {s : PendingState ρ} {q : ℕ} {a : Query ρ}
    (h : s.queries[q]? = some a) : s.waiting q = a.role.waiting := by
  rw [waiting, h]; rfl

theorem waiting_put_of_eq {s : PendingState ρ} {q : ℕ} {a b : Query ρ}
    (h : s.queries[q]? = some a) (hw : b.role.waiting = a.role.waiting) (x : ℕ) :
    (s.put q b).waiting x = s.waiting x := by
  rw [waiting_put h]
  split_ifs with hx
  · rw [hx, waiting_of_getElem? h, hw]
  · rfl

theorem waiting_concat {s : PendingState ρ} {pending : PendingQueries} {query : Query ρ}
    (hw : query.role.waiting = []) (x : ℕ) :
    waiting ⟨pending, s.queries ++ [query], s.delivered⟩ x = s.waiting x := by
  simp only [waiting, getElem?_concat]
  split_ifs with hx
  · rw [hx, List.getElem?_eq_none (Nat.le_refl _)]
    exact hw
  · rfl

theorem line_put_of_eq {s : PendingState ρ} {q : ℕ} {a b : Query ρ}
    (h : s.queries[q]? = some a) (hw : b.role.waiting = a.role.waiting)
    (pending : PendingQueries) (x : ℕ) :
    line ⟨pending, (s.put q b).queries, s.delivered⟩ x = s.line x := by
  have hwaiting := waiting_put_of_eq h hw x
  rw [line, line, ← hwaiting]
  rfl

theorem line_deliver {s : PendingState ρ} {q follower : ℕ} {key : QueryCacheKey}
    {followers : Option (List PendingFollower)} {result : ρ} {rest : List PendingFollower}
    (h : s.queries[q]? = some ⟨key, .leader followers (.delivering result (follower :: rest))⟩)
    (x : ℕ) : line ⟨s.pending, (s.put q ⟨key, .leader followers (.delivering result rest)⟩).queries,
      s.delivered ++ [⟨q, follower, result⟩]⟩ x = s.line x := by
  have hwaiting := waiting_put h ⟨key, .leader followers (.delivering result rest)⟩ x
  have hw : waiting ⟨s.pending, (s.put q ⟨key, .leader followers (.delivering result rest)⟩).queries,
      s.delivered ++ [⟨q, follower, result⟩]⟩ x = if x = q then rest else s.waiting x := hwaiting
  rw [line, line, hw, answered, answered, List.filter_append, List.map_append]
  by_cases hx : x = q
  · rw [hx, waiting_of_getElem? h]
    simp [QueryRole.waiting]
  · simp [hx, Ne.symm hx]

/-- The query `q` has registered with `p`. -/
def Follows (s : PendingState ρ) (q p : ℕ) : Prop :=
  ∃ key, s.queries[q]? = some ⟨key, .follower p⟩

/-- The query `p` leads for the key. -/
def Leads (s : PendingState ρ) (p : ℕ) (key : QueryCacheKey) : Prop :=
  ∃ followers stage, s.queries[p]? = some ⟨key, .leader followers stage⟩

end PendingState

/-! ## Registration -/

namespace PendingState

/-- The query `q` registers with `p`. -/
def accept (s : PendingState ρ) (q p : ℕ) (key key' : QueryCacheKey)
    (followers : List PendingFollower) (stage : LeaderStage ρ) : PendingState ρ :=
  (s.put p ⟨key', .leader (some (followers ++ [q])) stage⟩).put q ⟨key, .follower p⟩

section
variable {s : PendingState ρ} {q p : ℕ} {key key' : QueryCacheKey}
  {followers : List PendingFollower} {stage : LeaderStage ρ}
  (hq : s.queries[q]? = some ⟨key, .joining p⟩)
  (hp : s.queries[p]? = some ⟨key', .leader (some followers) stage⟩)
include hq hp

theorem getElem?_put_joining : (s.put p ⟨key', .leader (some (followers ++ [q])) stage⟩).queries[q]?
    = some ⟨key, .joining p⟩ := by
  have hqp : q ≠ p := by
    rintro rfl
    rw [hq] at hp
    cases hp
  rw [getElem?_put hp, if_neg hqp, hq]

theorem getElem?_accept (x : ℕ) : (s.accept q p key key' followers stage).queries[x]? =
    if x = q then some ⟨key, .follower p⟩
    else if x = p then some ⟨key', .leader (some (followers ++ [q])) stage⟩
    else s.queries[x]? := by
  rw [accept, getElem?_put (getElem?_put_joining hq hp), getElem?_put hp]

theorem follows_accept (x y : ℕ) : (s.accept q p key key' followers stage).Follows x y ↔
    x = q ∧ y = p ∨ s.Follows x y := by
  simp only [Follows, getElem?_accept hq hp]
  by_cases hxq : x = q
  · rw [if_pos hxq, hxq, hq]
    simp [eq_comm]
  · rw [if_neg hxq]
    split_ifs with hxp
    · rw [hxp, hp]
      simp [← hxp, hxq]
    · simp [hxq]

theorem getElem?_accept_leader {x : ℕ} {k : QueryCacheKey} {fs : Option (List PendingFollower)}
    {st : LeaderStage ρ} (hx : s.queries[x]? = some ⟨k, .leader fs st⟩) :
    ∃ fs', (s.accept q p key key' followers stage).queries[x]? = some ⟨k, .leader fs' st⟩ ∧
      (x ≠ p → fs' = fs) := by
  have hxq : x ≠ q := by
    rintro rfl
    rw [hq] at hx
    cases hx
  rw [getElem?_accept hq hp, if_neg hxq]
  split_ifs with hxp
  · rw [hxp, hp] at hx
    cases hx
    exact ⟨_, rfl, fun hne => absurd hxp hne⟩
  · exact ⟨fs, hx, fun _ => rfl⟩

theorem getElem?_leader_of_accept {x : ℕ} {k : QueryCacheKey} {fs : Option (List PendingFollower)}
    {st : LeaderStage ρ}
    (hx : (s.accept q p key key' followers stage).queries[x]? = some ⟨k, .leader fs st⟩) :
    ∃ fs', s.queries[x]? = some ⟨k, .leader fs' st⟩ ∧ (x ≠ p → fs' = fs) := by
  rw [getElem?_accept hq hp] at hx
  split_ifs at hx with hxq hxp
  · cases hx
  · cases hx
    exact ⟨_, hxp ▸ hp, fun hne => absurd hxp hne⟩
  · exact ⟨fs, hx, fun _ => rfl⟩

theorem waiting_accept (hw : ∀ l, (QueryRole.leader (some l) stage).waiting = l) (x : ℕ) :
    (s.accept q p key key' followers stage).waiting x =
      if x = p then followers ++ [q] else s.waiting x := by
  rw [accept, waiting_put_of_eq (b := ⟨key, .follower p⟩) (getElem?_put_joining hq hp) rfl,
    waiting_put hp, hw]

theorem line_accept (hw : ∀ l, (QueryRole.leader (some l) stage).waiting = l) (x : ℕ) :
    (s.accept q p key key' followers stage).line x =
      if x = p then s.line p ++ [q] else s.line x := by
  rw [line, waiting_accept hq hp hw]
  split_ifs with hx
  · rw [hx, line, waiting_of_getElem? hp, hw, List.append_assoc]
    rfl
  · rfl

end

end PendingState

/-! ## Steps -/

/-- What a step can do, from the state `s`. -/
inductive PendingSteps (hash : QueryCacheKey → ℕ) (s : PendingState ρ) :
    PendingEvent ρ → PendingState ρ → Prop
  | lead {key pending} : s.pending.entry hash key = none →
      (s.pending.Home hash → pending.Home hash) →
      (∀ k, pending.entry hash k =
        if k = key then some s.queries.length else s.pending.entry hash k) →
      PendingSteps hash s (.begin key)
        ⟨pending, s.queries ++ [⟨key, .leader (some []) .forwarding⟩], s.delivered⟩
  | join {key p} : s.pending.entry hash key = some p →
      PendingSteps hash s (.begin key) ⟨s.pending, s.queries ++ [⟨key, .joining p⟩], s.delivered⟩
  | accepted {q key p key' followers stage} : s.queries[q]? = some ⟨key, .joining p⟩ →
      s.queries[p]? = some ⟨key', .leader (some followers) stage⟩ →
      followers.length < maxPendingFollowers →
      PendingSteps hash s (.register q) (s.accept q p key key' followers stage)
  | refused {q key p key' followers stage} : s.queries[q]? = some ⟨key, .joining p⟩ →
      s.queries[p]? = some ⟨key', .leader followers stage⟩ →
      (∀ l, followers = some l → maxPendingFollowers ≤ l.length) →
      PendingSteps hash s (.register q) (s.put q ⟨key, .alone⟩)
  | finish {q result key followers} :
      s.queries[q]? = some ⟨key, .leader followers .forwarding⟩ →
      PendingSteps hash s (.finish q result)
        { s.put q ⟨key, .leader followers (.finished result)⟩ with
          pending := s.pending.finish hash key q }
  | take {q key followers result} :
      s.queries[q]? = some ⟨key, .leader followers (.finished result)⟩ →
      PendingSteps hash s (.take q)
        (s.put q ⟨key, .leader none (.delivering result (followers.getD []))⟩)
  | deliver {q key followers result follower rest} :
      s.queries[q]? = some ⟨key, .leader followers (.delivering result (follower :: rest))⟩ →
      PendingSteps hash s (.deliver q)
        { s.put q ⟨key, .leader followers (.delivering result rest)⟩ with
          delivered := s.delivered ++ [⟨q, follower, result⟩] }

theorem PendingState.put_self {s : PendingState ρ} {q : ℕ} {a : Query ρ}
    (h : s.queries[q]? = some a) : s.put q a = s := by
  have hset : s.queries.set q a = s.queries := by
    refine List.ext_getElem? fun x => ?_
    have := getElem?_put h a x
    rw [put] at this
    rw [this]
    split_ifs with hx
    · rw [hx, h]
    · rfl
  rw [put, hset]

theorem pendingStep_cases {hash : QueryCacheKey → ℕ} {s s' : PendingState ρ} {e : PendingEvent ρ}
    (h : pendingStep hash s e = some s') : PendingSteps hash s e s' := by
  cases e with
  | begin key =>
    simp only [pendingStep] at h
    rcases s.pending.begin_cases hash key s.queries.length with
      ⟨p, hp, hb⟩ | ⟨pending, hno, hb, hhome, hentry⟩
    · rw [hb] at h; cases h
      exact .join hp
    · rw [hb] at h; cases h
      exact .lead hno hhome hentry
  | register q =>
    simp only [pendingStep] at h
    split at h
    · rename_i key p hq
      split at h
      · rename_i key' followers stage hp
        cases h
        cases followers with
        | none =>
          simp only [registerPendingFollower, Bool.false_eq_true, if_false]
          rw [PendingState.put_self hp]
          exact .refused hq hp fun l hl => by cases hl
        | some l =>
          by_cases hlt : l.length < maxPendingFollowers
          · simp only [registerPendingFollower, if_pos hlt, if_true]
            exact .accepted hq hp hlt
          · simp only [registerPendingFollower, if_neg hlt, Bool.false_eq_true, if_false]
            rw [PendingState.put_self hp]
            refine .refused hq hp fun l' hl => ?_
            cases hl
            exact Nat.le_of_not_lt hlt
      · cases h
    · cases h
  | finish q result =>
    simp only [pendingStep] at h
    split at h
    · rename_i hq; cases h; exact .finish hq
    · cases h
  | take q =>
    simp only [pendingStep] at h
    split at h
    · rename_i hq; cases h; exact .take hq
    · cases h
  | deliver q =>
    simp only [pendingStep] at h
    split at h
    · rename_i hq; cases h; exact .deliver hq
    · cases h

/-! ## The invariant -/

structure PendingInv (hash : QueryCacheKey → ℕ) (s : PendingState ρ) : Prop where
  home : s.pending.Home hash
  /-- The entries are those of the leaders that forward. -/
  entry : ∀ key p, s.pending.entry hash key = some p ↔
    ∃ followers, s.queries[p]? = some ⟨key, .leader followers .forwarding⟩
  /-- A leader that delivers has taken its followers. -/
  taken : ∀ (p : ℕ) key followers result rest,
    s.queries[p]? = some ⟨key, .leader followers (.delivering result rest)⟩ → followers = none
  /-- A pending query has a leader, for the same key. -/
  joined : ∀ (q : ℕ) key p, s.queries[q]? = some ⟨key, .joining p⟩ ∨
    s.queries[q]? = some ⟨key, .follower p⟩ → s.Leads p key
  line : ∀ p q, q ∈ s.line p ↔ s.Follows q p
  nodup : ∀ p, (s.line p).Nodup
  short : ∀ p, (s.waiting p).length ≤ maxPendingFollowers
  results : ∀ d ∈ s.delivered, ∃ key followers rest,
    s.queries[d.leader]? = some ⟨key, .leader followers (.delivering d.result rest)⟩

namespace PendingInv
variable {hash : QueryCacheKey → ℕ} {s : PendingState ρ}
open PendingState

theorem init (hash : QueryCacheKey → ℕ) (shardCount : ℕ) :
    PendingInv hash (⟨PendingQueries.new shardCount, [], []⟩ : PendingState ρ) where
  home := PendingQueries.home_new hash shardCount
  entry key p := by simp [PendingQueries.entry_new]
  taken p key followers result rest hp := by simp at hp
  joined q key p hq := by simp at hq
  line p q := by simp [PendingState.line, answered, waiting, Follows]
  nodup p := by simp [PendingState.line, answered, waiting]
  short p := by simp [waiting]
  results d hd := by cases hd

theorem entry_ne_length (h : PendingInv hash s) {key : QueryCacheKey} {p : ℕ}
    (hp : s.pending.entry hash key = some p) : p ≠ s.queries.length := by
  rintro rfl
  obtain ⟨followers, hf⟩ := (h.entry key _).1 hp
  rw [List.getElem?_eq_none (Nat.le_refl _)] at hf
  cases hf

theorem concat (h : PendingInv hash s) {pending : PendingQueries} {query : Query ρ}
    (hhome : pending.Home hash)
    (hentry : ∀ key p, pending.entry hash key = some p ↔
      if p = s.queries.length then ∃ followers, query = ⟨key, .leader followers .forwarding⟩
      else s.pending.entry hash key = some p)
    (htaken : ∀ followers result rest, query.role ≠ .leader followers (.delivering result rest))
    (hjoined : ∀ p, query.role = .joining p → s.Leads p query.cacheKey)
    (hfollower : ∀ p, query.role ≠ .follower p) (hwaiting : query.role.waiting = []) :
    PendingInv hash ⟨pending, s.queries ++ [query], s.delivered⟩ := by
  have hleads : ∀ {p key}, s.Leads p key →
      Leads ⟨pending, s.queries ++ [query], s.delivered⟩ p key := by
    rintro p key ⟨followers, stage, hp⟩
    exact ⟨followers, stage, (List.getElem?_append_left (List.getElem?_eq_some_iff.1 hp).1).trans hp⟩
  have hline : ∀ p, PendingState.line ⟨pending, s.queries ++ [query], s.delivered⟩ p =
      s.line p := fun p => by rw [PendingState.line, waiting_concat hwaiting]; rfl
  refine ⟨hhome, fun key p => ?_, fun p key followers result rest hp => ?_, fun q key p hq => ?_,
    fun p q => ?_, fun p => ?_, fun p => ?_, fun d hd => ?_⟩
  · rw [hentry]
    dsimp only
    rw [getElem?_concat]
    split_ifs with hp
    · simp only [Option.some.injEq]
    · exact h.entry key p
  · dsimp only at hp
    rw [getElem?_concat] at hp
    split_ifs at hp with hlen
    · cases hp
      exact absurd rfl (htaken followers result rest)
    · exact h.taken p key followers result rest hp
  · dsimp only at hq
    rw [getElem?_concat] at hq
    split_ifs at hq with hlen
    · rcases hq with hq | hq
      · cases hq
        exact hleads (hjoined p rfl)
      · cases hq
        exact absurd rfl (hfollower p)
    · exact hleads (h.joined q key p hq)
  · rw [hline, h.line]
    simp only [Follows, getElem?_concat]
    split_ifs with hlen
    · rw [hlen, List.getElem?_eq_none (Nat.le_refl _)]
      refine ⟨fun ⟨key, hk⟩ => (by cases hk), fun ⟨key, hk⟩ => ?_⟩
      cases hk
      exact absurd rfl (hfollower p)
    · rfl
  · rw [hline]; exact h.nodup p
  · rw [waiting_concat hwaiting]; exact h.short p
  · obtain ⟨key, followers, rest, hd⟩ := h.results d hd
    exact ⟨key, followers, rest,
      (List.getElem?_append_left (List.getElem?_eq_some_iff.1 hd).1).trans hd⟩

theorem entry_iff (h : PendingInv hash s) {q : ℕ} {key : QueryCacheKey}
    {followers : Option (List PendingFollower)} {stage : LeaderStage ρ}
    (hq : s.queries[q]? = some ⟨key, .leader followers stage⟩) (hstage : stage ≠ .forwarding)
    (k : QueryCacheKey) (p : ℕ) :
    s.pending.entry hash k = some p ↔ p ≠ q ∧ s.pending.entry hash k = some p := by
  refine ⟨fun hp => ⟨?_, hp⟩, And.right⟩
  rintro rfl
  obtain ⟨fs, hfs⟩ := (h.entry k p).1 hp
  rw [hq] at hfs
  cases hfs
  exact hstage rfl

theorem advance (h : PendingInv hash s) {q : ℕ} {key : QueryCacheKey}
    {followers followers' : Option (List PendingFollower)} {stage stage' : LeaderStage ρ}
    {pending : PendingQueries} {delivered : List (Delivery ρ)}
    (hq : s.queries[q]? = some ⟨key, .leader followers stage⟩)
    (hhome : pending.Home hash)
    (hentry : ∀ k p, pending.entry hash k = some p ↔ p ≠ q ∧ s.pending.entry hash k = some p)
    (hstage : stage' ≠ .forwarding)
    (htaken : ∀ result rest, stage' = .delivering result rest → followers' = none)
    (hline : ∀ p, PendingState.line
      ⟨pending, (s.put q ⟨key, .leader followers' stage'⟩).queries, delivered⟩ p = s.line p)
    (hshort : (QueryRole.leader followers' stage').waiting.length ≤ maxPendingFollowers)
    (hresults : ∀ d ∈ delivered, if d.leader = q then ∃ rest, stage' = .delivering d.result rest
      else d ∈ s.delivered) :
    PendingInv hash ⟨pending, (s.put q ⟨key, .leader followers' stage'⟩).queries, delivered⟩ := by
  have hget := getElem?_put hq ⟨key, .leader followers' stage'⟩
  have hleads : ∀ {p k}, s.Leads p k →
      Leads ⟨pending, (s.put q ⟨key, .leader followers' stage'⟩).queries, delivered⟩ p k := by
    rintro p k ⟨fs, st, hp⟩
    by_cases hpq : p = q
    · subst hpq
      rw [hq] at hp
      cases hp
      exact ⟨followers', stage', (hget p).trans (if_pos rfl)⟩
    · exact ⟨fs, st, ((hget p).trans (if_neg hpq)).trans hp⟩
  refine ⟨hhome, fun k p => ?_, fun p k fs result rest hp => ?_, fun x k p hx => ?_,
    fun p x => ?_, fun p => ?_, fun p => ?_, fun d hd => ?_⟩
  · rw [hentry, h.entry]
    dsimp only
    rw [hget]
    split_ifs with hp
    · refine ⟨fun ⟨hne, _⟩ => absurd hp hne, fun ⟨fs, hfs⟩ => ?_⟩
      cases hfs
      exact absurd rfl hstage
    · exact and_iff_right hp
  · dsimp only at hp
    rw [hget] at hp
    split_ifs at hp with hpq
    · cases hp
      exact htaken result rest rfl
    · exact h.taken p k fs result rest hp
  · dsimp only at hx
    rw [hget] at hx
    split_ifs at hx with hxq
    · rcases hx with hx | hx <;> cases hx
    · exact hleads (h.joined x k p hx)
  · rw [hline, h.line]
    simp only [Follows, hget]
    split_ifs with hxq
    · rw [hxq, hq]
      simp
    · rfl
  · rw [hline]; exact h.nodup p
  · have hw : PendingState.waiting
        ⟨pending, (s.put q ⟨key, .leader followers' stage'⟩).queries, delivered⟩ p =
        (s.put q ⟨key, .leader followers' stage'⟩).waiting p := rfl
    rw [hw, waiting_put hq]
    split_ifs
    · exact hshort
    · exact h.short p
  · have := hresults d hd
    dsimp only
    rw [hget]
    split_ifs at this ⊢ with hdq
    · obtain ⟨rest, rfl⟩ := this
      exact ⟨key, followers', rest, rfl⟩
    · exact h.results d this

theorem stage_of_mem (h : PendingInv hash s) {d : Delivery ρ} (hd : d ∈ s.delivered)
    {key : QueryCacheKey} {followers : Option (List PendingFollower)} {stage : LeaderStage ρ}
    (hq : s.queries[d.leader]? = some ⟨key, .leader followers stage⟩) :
    ∃ rest, stage = .delivering d.result rest := by
  obtain ⟨k, fs, rest, hx⟩ := h.results d hd
  rw [hq] at hx
  cases hx
  exact ⟨rest, rfl⟩

theorem refused (h : PendingInv hash s) {q p : ℕ} {key : QueryCacheKey}
    (hq : s.queries[q]? = some ⟨key, .joining p⟩) : PendingInv hash (s.put q ⟨key, .alone⟩) := by
  have hget := getElem?_put hq ⟨key, .alone⟩
  have hwaiting := fun x => waiting_put_of_eq (b := ⟨key, .alone⟩) hq rfl x
  have hline : ∀ x, (s.put q ⟨key, .alone⟩).line x = s.line x := fun x => by
    rw [PendingState.line, hwaiting]; rfl
  have hleader : ∀ (x : ℕ) k fs st, (s.put q ⟨key, .alone⟩).queries[x]? =
      some ⟨k, .leader fs st⟩ ↔ s.queries[x]? = some ⟨k, .leader fs st⟩ := by
    intro x k fs st
    rw [hget]
    split_ifs with hx
    · rw [hx, hq]; simp
    · rfl
  refine ⟨h.home, fun k x => ?_, fun x k fs result rest hx => ?_, fun x k y hx => ?_, fun y x => ?_,
    fun y => ?_, fun y => ?_, fun d hd => ?_⟩
  · simp only [hleader]; exact h.entry k x
  · exact h.taken x k fs result rest ((hleader x k fs _).1 hx)
  · rw [hget] at hx
    split_ifs at hx
    · rcases hx with hx | hx <;> cases hx
    · obtain ⟨fs, st, hy⟩ := h.joined x k y hx
      exact ⟨fs, st, (hleader y k fs st).2 hy⟩
  · rw [hline, h.line]
    simp only [Follows, hget]
    split_ifs with hx
    · rw [hx, hq]; simp
    · rfl
  · rw [hline]; exact h.nodup y
  · rw [hwaiting]; exact h.short y
  · obtain ⟨k, fs, rest, hx⟩ := h.results d hd
    exact ⟨k, fs, rest, (hleader _ k fs _).2 hx⟩

theorem accepted (h : PendingInv hash s) {q p : ℕ} {key key' : QueryCacheKey}
    {followers : List PendingFollower} {stage : LeaderStage ρ}
    (hq : s.queries[q]? = some ⟨key, .joining p⟩)
    (hp : s.queries[p]? = some ⟨key', .leader (some followers) stage⟩)
    (hlt : followers.length < maxPendingFollowers) :
    PendingInv hash (s.accept q p key key' followers stage) := by
  -- the leader has not taken its followers
  have hw : ∀ l, (QueryRole.leader (some l) stage).waiting = l := by
    cases stage with
    | forwarding => exact fun l => rfl
    | finished result => exact fun l => rfl
    | delivering result rest => cases h.taken p key' (some followers) result rest hp
  have hline := line_accept hq hp hw
  have hnew : ∀ x, q ∉ s.line x := by
    intro x hx
    obtain ⟨k, hk⟩ := (h.line x q).1 hx
    rw [hq] at hk
    cases hk
  have hleads : ∀ {x k}, s.Leads x k → (s.accept q p key key' followers stage).Leads x k := by
    rintro x k ⟨fs, st, hx⟩
    obtain ⟨fs', hx', -⟩ := getElem?_accept_leader hq hp hx
    exact ⟨fs', st, hx'⟩
  refine ⟨h.home, fun k x => ?_, fun x k fs result rest hx => ?_, fun x k y hx => ?_,
    fun y x => ?_, fun y => ?_, fun y => ?_, fun d hd => ?_⟩
  · refine (h.entry k x).trans ⟨fun ⟨fs, hx⟩ => ?_, fun ⟨fs, hx⟩ => ?_⟩
    · obtain ⟨fs', hx', -⟩ := getElem?_accept_leader hq hp hx
      exact ⟨fs', hx'⟩
    · obtain ⟨fs', hx', -⟩ := getElem?_leader_of_accept hq hp hx
      exact ⟨fs', hx'⟩
  · obtain ⟨fs', hx', hfs⟩ := getElem?_leader_of_accept hq hp hx
    have hxp : x ≠ p := by
      rintro rfl
      rw [hp] at hx'
      cases hx'
      cases h.taken _ _ _ _ _ hp
    exact hfs hxp ▸ h.taken x k fs' result rest hx'
  · rw [getElem?_accept hq hp] at hx
    split_ifs at hx
    · rcases hx with hx | hx
      · cases hx
      · cases hx
        exact hleads (h.joined _ _ _ (.inl hq))
    · rcases hx with hx | hx <;> cases hx
    · exact hleads (h.joined x k y hx)
  · rw [follows_accept hq hp, ← h.line, hline]
    by_cases hy : y = p
    · rw [if_pos hy, List.mem_append, List.mem_singleton, hy, or_comm, and_iff_left rfl]
    · simp [hy]
  · rw [hline]
    split_ifs with hy
    · exact List.nodup_append.2 ⟨h.nodup p, List.nodup_singleton q, fun a ha b hb hab =>
        hnew p (List.mem_singleton.1 hb ▸ hab ▸ ha)⟩
    · exact h.nodup y
  · rw [waiting_accept hq hp hw]
    split_ifs
    · rw [List.length_append, List.length_singleton]; omega
    · exact h.short y
  · obtain ⟨k, fs, rest, hx⟩ := h.results d hd
    obtain ⟨fs', hx', -⟩ := getElem?_accept_leader hq hp hx
    exact ⟨k, fs', rest, hx'⟩

/-- **Every step keeps the invariant.** -/
theorem step (h : PendingInv hash s) {e : PendingEvent ρ} {s' : PendingState ρ}
    (hs : PendingSteps hash s e s') : PendingInv hash s' := by
  cases hs with
  | lead hno hhome hentry =>
    refine h.concat (hhome h.home) (fun k p => ?_) (fun _ _ _ hr => by cases hr)
      (fun p hr => by cases hr) (fun p hr => by cases hr) rfl
    rw [hentry]
    by_cases hp : p = s.queries.length
    · rw [if_pos hp]
      split_ifs with hk
      · simp [hp, hk]
      · refine ⟨fun hk' => absurd hp (h.entry_ne_length hk'), fun ⟨fs, hfs⟩ => ?_⟩
        cases hfs
        exact absurd rfl hk
    · rw [if_neg hp]
      split_ifs with hk
      · rw [hk, hno]
        simp [eq_comm, hp]
      · rfl
  | join hentry =>
    refine h.concat h.home (fun k p => ?_) (fun _ _ _ hr => by cases hr)
      (fun p hr => ?_) (fun p hr => by cases hr) rfl
    · split_ifs with hp
      · refine ⟨fun hk => absurd hp (h.entry_ne_length hk), fun ⟨fs, hfs⟩ => ?_⟩
        cases hfs
      · rfl
    · cases hr
      obtain ⟨fs, hfs⟩ := (h.entry _ _).1 hentry
      exact ⟨fs, _, hfs⟩
  | accepted hq hp hlt => exact h.accepted hq hp hlt
  | refused hq hp hfull => exact h.refused hq
  | @finish q result key followers hq =>
    have hown : s.pending.entry hash key = some q := (h.entry key q).2 ⟨followers, hq⟩
    refine h.advance hq (h.home.finish key q) (fun k p => ?_) (fun hs => by cases hs)
      (fun _ _ hs => by cases hs) (fun p => ?_) ?_ fun d hd => ?_
    · rw [PendingQueries.entry_finish]
      split_ifs with hk
      · refine ⟨fun hp => (by cases hp), fun ⟨hne, hp⟩ => ?_⟩
        rw [hk.1, hown] at hp
        cases hp
        exact absurd rfl hne
      · refine ⟨fun hp => ⟨?_, hp⟩, And.right⟩
        rintro rfl
        -- the own entry is that of the own key
        obtain ⟨fs, hfs⟩ := (h.entry k p).1 hp
        rw [hq] at hfs
        cases hfs
        exact hk ⟨rfl, hown⟩
    · exact line_put_of_eq (b := ⟨key, .leader followers (.finished result)⟩) hq rfl _ p
    · have := h.short q
      rwa [waiting_of_getElem? hq] at this
    · split_ifs with hdq
      · subst hdq
        obtain ⟨rest, hst⟩ := h.stage_of_mem hd hq
        cases hst
      · exact hd
  | @take q key followers result hq =>
    refine h.advance hq h.home (h.entry_iff hq fun hs => by cases hs) (fun hs => by cases hs)
      (fun _ _ _ => rfl) (fun p => ?_) ?_ fun d hd => ?_
    · exact line_put_of_eq (b := ⟨key, .leader none (.delivering result (followers.getD []))⟩)
        hq rfl _ p
    · have := h.short q
      rwa [waiting_of_getElem? hq] at this
    · split_ifs with hdq
      · subst hdq
        obtain ⟨rest, hst⟩ := h.stage_of_mem hd hq
        cases hst
      · exact hd
  | @deliver q key followers result follower rest hq =>
    have hw := waiting_of_getElem? hq
    refine h.advance hq h.home (h.entry_iff hq fun hs => by cases hs) (fun hs => by cases hs)
      (fun _ _ _ => h.taken q key followers _ _ hq) (fun p => ?_) ?_ fun d hd => ?_
    · exact line_deliver hq p
    · have := h.short q
      rw [hw] at this
      exact Nat.le_of_succ_le this
    · split_ifs with hdq
      · rcases List.mem_append.1 hd with hold | hnew
        · obtain ⟨rest', hst⟩ := h.stage_of_mem hold (hdq ▸ hq)
          cases hst
          exact ⟨rest, rfl⟩
        · rw [List.mem_singleton.1 hnew]
          exact ⟨rest, rfl⟩
      · rcases List.mem_append.1 hd with hold | hnew
        · exact hold
        · rw [List.mem_singleton.1 hnew] at hdq
          exact absurd rfl hdq

end PendingInv

end

end DnsBlackhole.Worker
