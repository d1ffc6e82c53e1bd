/-
  Pending queries (`PendingQueries` and the functions around it in
  `dns/worker.rs`).

  A query that finds no pending query of its key becomes a leader: it enters one
  and forwards itself.  A query that finds one registers as its follower, and
  leaves the answer to the leader; when the leader is done already, or has too
  many followers, it forwards itself.  A leader that has its result takes its
  entry away, then takes its followers, then delivers the result to each.

  The entries and the followers of each pending query stand under locks of their
  own, so that every one of these steps can meet any other (`PendingEvent`).  A
  pending query (an `Arc`) is known by the query that has made it, its leader,
  and queries are numbered as they begin.
-/
import DnsBlackhole.Lib.Machine
import DnsBlackhole.Cache.Key
import DnsBlackhole.Lib.HashMap

namespace DnsBlackhole.Worker
open Lib Cache

def maxPendingFollowers : ℕ := 512

/-- A pending query: the number of its leader. -/
abbrev PendingQuery := ℕ

/-- A follower: the number of its query. -/
abbrev PendingFollower := ℕ

inductive PendingQueryRole
  | leader (pending : PendingQuery)
  | follower (pending : PendingQuery)
  deriving DecidableEq

structure PendingQueries where
  shards : List (HashMap QueryCacheKey PendingQuery)
  nonempty : 0 < shards.length
  deriving DecidableEq

namespace PendingQueries

def new (shardCount : ℕ) : PendingQueries :=
  ⟨List.replicate (max shardCount 1) ∅, by rw [List.length_replicate]; omega⟩

section
variable (hash : QueryCacheKey → ℕ)

def shardIndex (s : PendingQueries) (cacheKey : QueryCacheKey) : ℕ :=
  hash cacheKey % max s.shards.length 1

def setShard (s : PendingQueries) (i : ℕ) (shard : HashMap QueryCacheKey PendingQuery) :
    PendingQueries :=
  ⟨s.shards.set i shard, by rw [List.length_set]; exact s.nonempty⟩

/-- `begin`, where `new` is the pending query it may make. -/
def begin (s : PendingQueries) (cacheKey : QueryCacheKey) (new : PendingQuery) :
    PendingQueryRole × PendingQueries :=
  let shardIndex := s.shardIndex hash cacheKey
  match s.shards[shardIndex]? with
  | some pendingQueries =>
    match pendingQueries.lookup cacheKey with
    | some pendingQuery => (.follower pendingQuery, s)
    | none => (.leader new, s.setShard shardIndex (pendingQueries.insert cacheKey new))
  | none => (.leader new, s)

def finish (s : PendingQueries) (cacheKey : QueryCacheKey) (pendingQuery : PendingQuery) :
    PendingQueries :=
  let shardIndex := s.shardIndex hash cacheKey
  match s.shards[shardIndex]? with
  | some pendingQueries =>
    if (pendingQueries.lookup cacheKey).any (· = pendingQuery) then
      s.setShard shardIndex (pendingQueries.erase cacheKey)
    else s
  | none => s

/-- The entry of a key. -/
def entry (s : PendingQueries) (cacheKey : QueryCacheKey) : Option PendingQuery :=
  (s.shards[s.shardIndex hash cacheKey]?).bind fun shard => shard.lookup cacheKey

end

end PendingQueries

/-- `register_pending_follower`, on what the lock of the followers guards. -/
def registerPendingFollower (followers : Option (List PendingFollower))
    (follower : PendingFollower) : Bool × Option (List PendingFollower) :=
  match followers with
  | some followers =>
    if followers.length < maxPendingFollowers then (true, some (followers ++ [follower]))
    else (false, some followers)
  | none => (false, none)

/-! ## Queries -/

section
variable (ρ : Type*)

/-- How far a leader has got; `ρ` are the results: a forwarded response, an
    error, or a block. -/
inductive LeaderStage
  /-- It forwards its query. -/
  | forwarding
  /-- It has taken its entry away. -/
  | finished (result : ρ)
  /-- It has taken its followers, and these are still to be answered. -/
  | delivering (result : ρ) (followers : List PendingFollower)
  deriving DecidableEq

inductive QueryRole
  /-- A leader, with the followers of its pending query. -/
  | leader (followers : Option (List PendingFollower)) (stage : LeaderStage ρ)
  /-- It has found a pending query, and is about to register. -/
  | joining (pending : PendingQuery)
  | follower (pending : PendingQuery)
  /-- It has been refused, and forwards itself. -/
  | alone
  deriving DecidableEq

structure Query where
  cacheKey : QueryCacheKey
  role : QueryRole ρ
  deriving DecidableEq

/-- A call of `deliver_pending_follower`, or of the delivery of a block. -/
structure Delivery where
  leader : PendingQuery
  follower : PendingFollower
  result : ρ
  deriving DecidableEq

structure PendingState where
  pending : PendingQueries
  queries : List (Query ρ)
  delivered : List (Delivery ρ)
  deriving DecidableEq

/-- The steps of a query, each under one lock; `q` is its number. -/
inductive PendingEvent
  | begin (cacheKey : QueryCacheKey)
  | register (q : ℕ)
  | finish (q : ℕ) (result : ρ)
  | take (q : ℕ)
  | deliver (q : ℕ)

end

section
variable {ρ : Type*} (hash : QueryCacheKey → ℕ)

/-- Replace a query. -/
def PendingState.put (s : PendingState ρ) (q : ℕ) (query : Query ρ) : PendingState ρ :=
  { s with queries := s.queries.set q query }

def pendingStep (s : PendingState ρ) : PendingEvent ρ → Option (PendingState ρ)
  | .begin cacheKey =>
    match s.pending.begin hash cacheKey s.queries.length with
    | (.leader _, pending) =>
      some ⟨pending, s.queries ++ [⟨cacheKey, .leader (some []) .forwarding⟩], s.delivered⟩
    | (.follower pendingQuery, pending) =>
      some ⟨pending, s.queries ++ [⟨cacheKey, .joining pendingQuery⟩], s.delivered⟩
  | .register q =>
    match s.queries[q]? with
    | some ⟨cacheKey, .joining p⟩ =>
      match s.queries[p]? with
      | some ⟨cacheKey', .leader followers stage⟩ =>
        let r := registerPendingFollower followers q
        some ((s.put p ⟨cacheKey', .leader r.2 stage⟩).put q
          ⟨cacheKey, if r.1 then .follower p else .alone⟩)
      | _ => none
    | _ => none
  | .finish q result =>
    match s.queries[q]? with
    | some ⟨cacheKey, .leader followers .forwarding⟩ =>
      some { s.put q ⟨cacheKey, .leader followers (.finished result)⟩ with
        pending := s.pending.finish hash cacheKey q }
    | _ => none
  | .take q =>
    match s.queries[q]? with
    | some ⟨cacheKey, .leader followers (.finished result)⟩ =>
      some (s.put q ⟨cacheKey, .leader none (.delivering result (followers.getD []))⟩)
    | _ => none
  | .deliver q =>
    match s.queries[q]? with
    | some ⟨cacheKey, .leader followers (.delivering result (follower :: rest))⟩ =>
      some { s.put q ⟨cacheKey, .leader followers (.delivering result rest)⟩ with
        delivered := s.delivered ++ [⟨q, follower, result⟩] }
    | _ => none

/-- Any number of queries over the pending queries in `shardCount` shards. -/
def pendingMachine (ρ : Type*) (hash : QueryCacheKey → ℕ) (shardCount : ℕ) :
    Machine (PendingState ρ) (PendingEvent ρ) where
  init := ⟨PendingQueries.new shardCount, [], []⟩
  step := pendingStep hash

end

end DnsBlackhole.Worker
