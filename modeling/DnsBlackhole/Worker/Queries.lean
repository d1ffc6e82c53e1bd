/-
  Any number of workers with any number of queries (`handle_dns_query` of
  `dns/worker.rs` as a whole).

  A query is accepted and decided with the snapshot of that moment; one that is
  forwarded looks into the cache, and then for a pending query of its key, as a
  leader, as a follower, or alone.  Every event is what one worker does between
  two points at which others can come in.  What comes from elsewhere is part of
  the event: the snapshot (whatever filter is installed, whether the protection is
  paused), the hit in the cache, the result of the upstream servers, and the
  failures of the surroundings.
-/
import DnsBlackhole.Worker.Answered
import DnsBlackhole.Worker.Pending

namespace DnsBlackhole.Worker
open Lib Cache DnsBlackhole.Filter Protocol Rules

/-! ## What a query is evaluated to -/

section
variable (context : WorkerContext) (snapshot : Snapshot) (work : WorkItem)

def WorkItem.routedUpstream : Option RouteUpstreamPool :=
  Worker.routedUpstream context work.client work.question

/-- The part of the key that keeps apart the answers of different routes, and those
    for clients without a filter. -/
def cacheScope : Option Text :=
  let routeKey := (work.routedUpstream context).map RouteUpstreamPool.key
  if clientFilteringEnabled snapshot work.client then routeKey
  else some (match routeKey with
    | some route => route ++ ":filter-bypass".toList
    | none => "filter-bypass".toList)

def queryCacheKey : Option QueryCacheKey :=
  (QueryCacheKey.fromQuery work.parsed).map (·.withRoute (cacheScope context snapshot work))

/-- The block that a query meets with a response, by its own snapshot. -/
def protectionBlock (response : Packet) : Option ResponseProtectionBlock :=
  if filteringActive snapshot work.client then
    responseProtectionBlock snapshot.filter work.question response
      (work.routedUpstream context).isSome
  else none

/-- What becomes of a query that is forwarded. -/
inductive ForwardOutcome
  | checked (result : ForwardResult)
  | blocked (block : ResponseProtectionBlock) (forwarded : UpstreamForwardResponse)

def forwardOutcome : ForwardResult → ForwardOutcome
  | .ok forwarded =>
    match protectionBlock context snapshot work forwarded.response with
    | some block => .blocked block forwarded
    | none => .checked (.ok forwarded)
  | .error error => .checked (.error error)

end

/-- How a query has been answered. -/
inductive Outcome
  | decided (decision : LocalDecision)
  | blocked (block : ResponseProtectionBlock)
  | cached (response : Packet)
  | forwarded (result : ForwardResult)

def ForwardOutcome.outcome : ForwardOutcome → Outcome
  | .checked result => .forwarded result
  | .blocked block _ => .blocked block

/-- The outcomes of a service block, a rule block and a protection block. -/
def Outcome.blocks : Outcome → Bool
  | .decided decision => decision.blocks
  | .blocked _ => true
  | .cached _ => false
  | .forwarded _ => false

/-- The upstream response or the cached response that has been sent. -/
def Outcome.foreign : Outcome → Option Packet
  | .decided _ => none
  | .blocked _ => none
  | .cached found => some found
  | .forwarded result => forwardedResponse result

section
variable (context : WorkerContext) (filter : FilterRuntime) (n : ℕ) (work : WorkItem)
  (io : Surroundings)

/-- The answer of a query that has been forwarded itself. -/
def deliverOutcome (upstreamTraffic : UpstreamTraffic) : ForwardOutcome → Handler Unit
  | .checked result => deliverForwarded context filter n work io upstreamTraffic result
  | .blocked block forwarded =>
    deliverResponseProtectionBlock context filter n work io block (some forwarded) upstreamTraffic

/-- `deliver_pending_follower`, or the step of `finish_pending_protection_block` for
    a follower; the query of a follower can be parsed. -/
def deliverToFollower : ForwardOutcome → Handler Unit
  | .checked result => deliverPendingFollower context filter n work io result
  | .blocked block forwarded =>
    deliverResponseProtectionBlock context filter n work io block (some forwarded) {}

end

/-! ## Queries under way -/

inductive Stage
  /-- It is to be forwarded, and has been counted. -/
  | routed
  /-- The cache has no answer. -/
  | missed (cacheKey : QueryCacheKey)
  /-- It is the query `q` of those that lead or follow. -/
  | pending (q : ℕ)
  /-- It forwards itself, without followers. -/
  | alone
  /-- The worker of the query `deliverer` has answered it. -/
  | done (deliverer : ℕ) (outcome : Outcome)

structure Item where
  work : WorkItem
  snapshot : Snapshot
  stage : Stage

structure WorkerState where
  server : Server
  items : List Item
  pending : PendingState ForwardOutcome
  /-- The items of the queries that lead or follow. -/
  owners : List ℕ

/-- What a worker does for the query `n`. -/
inductive WorkerEvent
  | accept (work : WorkItem) (snapshot : Snapshot) (io : Surroundings)
  | lookup (n : ℕ) (hit : Option Packet) (io : Surroundings)
  | begin (n : ℕ)
  | register (n : ℕ)
  | forward (n : ℕ) (result : ForwardResult) (upstreamTraffic : UpstreamTraffic)
      (io : Surroundings)
  | take (n : ℕ)
  | deliver (n : ℕ) (io : Surroundings)
  | answer (n : ℕ) (upstreamTraffic : UpstreamTraffic) (io : Surroundings)

def QueryRole.isAlone {ρ : Type*} : QueryRole ρ → Bool
  | .alone => true
  | _ => false

namespace WorkerState

/-- The query `n` comes to another stage. -/
def put (s : WorkerState) (n : ℕ) (item : Item) : WorkerState :=
  { s with items := s.items.set n item }

/-- The query `n` is answered by the program `m`. -/
def settle (s : WorkerState) (n : ℕ) (item : Item) (m : Handler Unit) : WorkerState :=
  { s.put n item with server := (m s.server).2 }

end WorkerState

section
variable (context : WorkerContext) (hash : QueryCacheKey → ℕ)

def workerStep (s : WorkerState) : WorkerEvent → Option WorkerState
  | .accept work snapshot io =>
    let n := s.items.length
    let decision := localDecision context snapshot work.client work.question
    some { s with
      server := (handleDecision context snapshot.filter n work io decision s.server).2
      items := s.items ++ [⟨work, snapshot,
        if decision.forwards then .routed else .done n (.decided decision)⟩] }
  | .lookup n hit io =>
    match s.items[n]? with
    | some ⟨work, snapshot, .routed⟩ =>
      match queryCacheKey context snapshot work with
      | none => some (s.put n ⟨work, snapshot, .alone⟩)
      | some cacheKey =>
        match hit with
        | none => some (s.put n ⟨work, snapshot, .missed cacheKey⟩)
        | some response =>
          match protectionBlock context snapshot work response with
          | some block =>
            some (s.settle n ⟨work, snapshot, .done n (.blocked block)⟩
              (deliverResponseProtectionBlock context snapshot.filter n work io block none {}))
          | none =>
            some (s.settle n ⟨work, snapshot, .done n (.cached response)⟩
              (deliverCached context snapshot.filter n work io response))
    | _ => none
  | .begin n =>
    match s.items[n]? with
    | some ⟨work, snapshot, .missed cacheKey⟩ =>
      (pendingStep hash s.pending (.begin cacheKey)).map fun pending =>
        { s.put n ⟨work, snapshot, .pending s.pending.queries.length⟩ with
          pending, owners := s.owners ++ [n] }
    | _ => none
  | .register n =>
    match s.items[n]? with
    | some ⟨work, snapshot, .pending q⟩ =>
      (pendingStep hash s.pending (.register q)).map fun pending =>
        { s.put n ⟨work, snapshot,
            if (pending.queries[q]?).any (·.role.isAlone) then .alone else .pending q⟩ with
          pending }
    | _ => none
  | .forward n result upstreamTraffic io =>
    match s.items[n]? with
    | some ⟨work, snapshot, .alone⟩ =>
      let outcome := forwardOutcome context snapshot work result
      some (s.settle n ⟨work, snapshot, .done n outcome.outcome⟩
        (deliverOutcome context snapshot.filter n work io upstreamTraffic outcome))
    | some ⟨work, snapshot, .pending q⟩ =>
      (pendingStep hash s.pending (.finish q (forwardOutcome context snapshot work result))).map
        fun pending => { s with pending }
    | _ => none
  | .take n =>
    match s.items[n]? with
    | some ⟨_, _, .pending q⟩ =>
      (pendingStep hash s.pending (.take q)).map fun pending => { s with pending }
    | _ => none
  | .deliver n io =>
    match s.items[n]? with
    | some ⟨_, snapshot, .pending q⟩ =>
      match s.pending.queries[q]? with
      | some ⟨_, .leader _ (.delivering outcome (follower :: _))⟩ =>
        match s.owners[follower]? with
        | some m =>
          match s.items[m]? with
          | some ⟨work, snapshot', _⟩ =>
            (pendingStep hash s.pending (.deliver q)).map fun pending =>
              { s.settle m ⟨work, snapshot', .done n outcome.outcome⟩
                  (deliverToFollower context snapshot.filter m work io outcome) with pending }
          | none => none
        | none => none
      | _ => none
    | _ => none
  | .answer n upstreamTraffic io =>
    match s.items[n]? with
    | some ⟨work, snapshot, .pending q⟩ =>
      match s.pending.queries[q]? with
      | some ⟨_, .leader _ (.delivering outcome [])⟩ =>
        some (s.settle n ⟨work, snapshot, .done n outcome.outcome⟩
          (deliverOutcome context snapshot.filter n work io upstreamTraffic outcome))
      | _ => none
    | _ => none

/-- The workers of a server, with the pending queries in `shardCount` shards. -/
def workerMachine (shardCount : ℕ) : Machine WorkerState WorkerEvent where
  init := ⟨{}, [], ⟨PendingQueries.new shardCount, [], []⟩, []⟩
  step := workerStep context hash

end

end DnsBlackhole.Worker
