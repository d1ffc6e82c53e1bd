/-
  Forwarding with fallback servers (`forward_query_with_fallback` of
  `dns/worker.rs`, with `forward_query` and `select_available_upstreams` of
  `dns/upstream.rs`).

  The primary servers are asked first, in the upstream mode; when they fail, the
  fallback servers are.  All this has one deadline, and is tried again while the
  network is unavailable and there is time left.

  A call is a machine: the clock runs on between two steps, and what comes from
  outside (the flags of the servers, the network, the pool of threads) is in the
  events.  In the parallel modes it contains the machine of a batch.  An attempt at a
  server has looked at the clock before it sends anything; `fallbackAsked` records
  that one at a fallback server has found time left.
-/
import DnsBlackhole.Admin.Config
import DnsBlackhole.Upstream.Collected

namespace DnsBlackhole

namespace Upstream

/-- What `select_available_upstreams` selects when it reads these flags, by the places of the
    servers; `probe` is the value of the cursor if it is granted a half-open probe. -/
def selectAvailableUpstreams (pool : List RuntimeUpstream) (start limit : ℕ)
    (unhealthy : ℕ → Bool) (probe : Option ℕ) : List RuntimeUpstream :=
  let healthy := (rotation pool.zipIdx start).filter fun server => !unhealthy server.2
  if healthy.take limit ≠ [] then (healthy.take limit).map Prod.fst
  else match probe with
    | some cursor => (pool[cursor % pool.length]?).toList
    | none => []

end Upstream

namespace Worker
open Lib Protocol Upstream
open Admin (UpstreamMode)

/-! ## Durations, in nanoseconds -/

def forwardQueryTotalTimeout : ℕ := 6 * 10 ^ 9
def networkUnavailableRetryDelays : List ℕ := [200, 400, 800, 1200, 1600].map (· * 10 ^ 6)
def parallelResultWait : ℕ := 6 * 10 ^ 9

/-! ## The state of a call -/

/-- The servers that are asked, with the error of those before. -/
inductive Pool
  | primaries
  | fallbacks (primaryError : Text)

def Pool.isFallback : Pool → Bool
  | .primaries => false
  | .fallbacks _ => true

/-- The arguments, and the clock when the call begins. -/
structure FallbackCall where
  query : Packet
  upstreamServers : List RuntimeUpstream
  fallbackUpstreamServers : List RuntimeUpstream
  upstreamMode : UpstreamMode
  start : ℕ

inductive CallStage
  /-- About to call `forward_query`. -/
  | calling (pool : Pool)
  /-- In the loop of `forward_load_balanced`, about to look at the clock. -/
  | turn (pool : Pool) (left : List RuntimeUpstream) (lastError : Option Text)
  /-- In `forward_to_upstream`, about to look at the clock. -/
  | entering (pool : Pool) (upstream : RuntimeUpstream) (left : List RuntimeUpstream)
  | asking (pool : Pool) (upstream : RuntimeUpstream) (left : List RuntimeUpstream)
  /-- In a batch; `checked` has the places whose attempt has looked at the clock, and
      whether there was time left. -/
  | inBatch (pool : Pool) (batch : Batch) (s : BatchState) (checked : List (ℕ × Bool))
  /-- Both pools have failed, and the call may be repeated. -/
  | failed (error : Text)
  | sleeping (wake : ℕ)
  | returned (result : Except Text Reply)

structure CallState where
  clock : ℕ
  stage : CallStage
  delays : List ℕ := networkUnavailableRetryDelays
  fallbackAsked : Bool := false

inductive CallEvent
  | tick (n : ℕ)
  /-- `forward_query` selects servers: `next` is the counter of the pool. -/
  | select (next : ℕ) (unhealthy : ℕ → Bool) (probe : Option ℕ)
  | readDeadline
  | readTimeout
  /-- The attempt ends. -/
  | forward (network : Network)
  | batch (e : BatchEvent)
  /-- The attempt at the server at `place` of a batch looks at the clock. -/
  | readBatchTimeout (place : ℕ)
  /-- The batch has returned. -/
  | collect
  | retry
  | wake

def isNetworkTemporarilyUnavailable (error : Text) : Bool :=
  decide ("(os error 10051)".toList <:+: error) || decide ("(os error 10065)".toList <:+: error) ||
    decide ("请求上游 DNS 失败".toList <:+: error) && decide ("(os error 10022)".toList <:+: error)

namespace FallbackCall
variable (call : FallbackCall)

def deadline : ℕ := call.start + forwardQueryTotalTimeout

def serversOf : Pool → List RuntimeUpstream
  | .primaries => call.upstreamServers
  | .fallbacks _ => call.fallbackUpstreamServers

/-! ## Steps -/

def init : CallState := { clock := call.start, stage := .calling .primaries }

/-- `forward_query` has failed on the pool. -/
def fail (pool : Pool) (error : Text) : CallStage :=
  match pool with
  | .primaries =>
    if call.fallbackUpstreamServers = [] then .failed error else .calling (.fallbacks error)
  | .fallbacks primaryError => .failed
    ("主上游失败：".toList ++ primaryError ++ "；fallback 上游也失败：".toList ++ error)

/-- The loop of `forward_load_balanced` is over. -/
def giveUp (pool : Pool) (lastError : Option Text) : CallStage :=
  call.fail pool (lastError.getD "所有上游 DNS 暂不可用".toList)

/-- An attempt in this loop has ended. -/
def afterAttempt (pool : Pool) (left : List RuntimeUpstream) : Except Text Reply → CallStage
  | .ok reply => .returned (.ok reply)
  | .error error => .turn pool left (some error)

/-- `forward_query` on the pool, up to its first wait. -/
def enter (pool : Pool) (clock next : ℕ) (unhealthy : ℕ → Bool) (probe : Option ℕ) : CallStage :=
  let servers := call.serversOf pool
  let select (start limit : ℕ) := selectAvailableUpstreams servers start limit unhealthy probe
  let batch (start : ℕ) (mode : BatchMode) :=
    let batch : Batch := ⟨call.query, select start maxParallelUpstreamsPerQuery,
      min (clock + parallelResultWait) call.deadline, mode⟩
    CallStage.inBatch pool batch { batch.init with clock } []
  if servers = [] then call.fail pool "没有可用的上游 DNS".toList
  else match call.upstreamMode with
    | .loadBalance => .turn pool (select (next % servers.length) servers.length) none
    | .parallelRequests => batch (next % servers.length) .parallelRequests
    | .fastestAddr => batch 0 .fastestAddr

/-- An attempt of a batch ends with the network that it has found, in time or late. -/
def Accords (s : BatchState) (checked : List (ℕ × Bool)) : BatchEvent → Prop
  | .attempt network => ∃ entry ∈ checked, s.stage = .asking entry.1 ∧ entry.2 = !network.late
  | .finish place network => (place, !network.late) ∈ checked
  | _ => True

instance (s : BatchState) (checked : List (ℕ × Bool)) : ∀ e, Decidable (Accords s checked e)
  | .attempt network =>
    inferInstanceAs (Decidable (∃ entry ∈ checked, s.stage = .asking entry.1 ∧
      entry.2 = !network.late))
  | .finish place network => inferInstanceAs (Decidable ((place, !network.late) ∈ checked))
  | .tick _ | .submit _ | .look | .readClock | .startWaiting | .checkExpiry | .cancel
  | .conclude _ | .readFlag _ | .readDeadline _ | .flag _ | .send _ => isTrue trivial

def step (s : CallState) : CallEvent → Option CallState
  | .tick n =>
    match s.stage with
    | .inBatch .. => none
    | _ => some { s with clock := s.clock + n }
  | .select next unhealthy probe =>
    match s.stage with
    | .calling pool => some { s with stage := call.enter pool s.clock next unhealthy probe }
    | _ => none
  | .readDeadline =>
    match s.stage with
    | .turn pool [] lastError => some { s with stage := call.giveUp pool lastError }
    | .turn pool (upstream :: left) lastError => some { s with
        stage := if call.deadline ≤ s.clock then call.giveUp pool lastError
          else .entering pool upstream left }
    | _ => none
  | .readTimeout =>
    match s.stage with
    | .entering pool upstream left =>
      if s.clock < call.deadline then
        some { s with
          stage := .asking pool upstream left
          fallbackAsked := s.fallbackAsked || pool.isFallback }
      else some { s with
        stage := afterAttempt pool left
          (forwardToUpstream call.query upstream { late := true }).result }
    | _ => none
  | .forward network =>
    match s.stage with
    | .asking pool upstream left =>
      if network.late then none
      else some { s with
        stage := afterAttempt pool left (forwardToUpstream call.query upstream network).result }
    | _ => none
  | .batch e =>
    match s.stage with
    | .inBatch pool batch t checked =>
      if Accords t checked e then
        (batch.step t e).map fun t' =>
          { s with clock := t'.clock, stage := .inBatch pool batch t' checked }
      else none
    | _ => none
  | .readBatchTimeout place =>
    match s.stage with
    | .inBatch pool batch t checked =>
      if place ∈ t.asked ∧ place ∉ checked.map Prod.fst then
        let inTime := decide (t.clock < batch.deadline)
        some { s with
          stage := .inBatch pool batch t ((place, inTime) :: checked)
          fallbackAsked := s.fallbackAsked || pool.isFallback && inTime }
      else none
    | _ => none
  | .collect =>
    match s.stage with
    | .inBatch pool _ t _ =>
      match t.stage with
      | .returned (.ok reply) => some { s with stage := .returned (.ok reply) }
      | .returned (.error error) => some { s with stage := call.fail pool error }
      | _ => none
    | _ => none
  | .retry =>
    match s.stage with
    | .failed error =>
      match s.delays with
      | [] => some { s with stage := .returned (.error error) }
      | delay :: delays =>
        if isNetworkTemporarilyUnavailable error = false ∨ call.deadline < s.clock ∨
            call.deadline - s.clock ≤ delay then
          some { s with stage := .returned (.error error) }
        else some { s with stage := .sleeping (s.clock + delay), delays }
    | _ => none
  | .wake =>
    match s.stage with
    | .sleeping wake =>
      if wake ≤ s.clock then some { s with stage := .calling .primaries } else none
    | _ => none

def machine : Machine CallState CallEvent := ⟨call.init, call.step⟩

end FallbackCall

end Worker

end DnsBlackhole
