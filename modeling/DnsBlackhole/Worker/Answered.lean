/-
  What the branches of `handle_dns_query` and the deliveries have in common.

  Each of them hands one response to the target of its query, or says once that
  there is none, and calls once for an entry of the query log (`Answered`); a
  query is counted with its decision, and not again when it is delivered.
-/
import DnsBlackhole.Protocol.Synthesized
import DnsBlackhole.Worker.Handlers

namespace DnsBlackhole.Worker
open DnsBlackhole.Filter Protocol Rules Database
open Admin (DnsStats)

theorem WorkItem.length_query_pos (work : WorkItem) : 0 < work.query.length := by
  obtain ⟨ls, hq⟩ := exists_hasQuestion (parseQuery_question work.parses)
  have hend := hq.questionEnd
  have hle := hq.le_length
  omega

/-- The upstream response or the cached response that a target is handed. -/
def Handed.foreign : Handed → Option Packet
  | .response .made _ _ => none
  | .response .cached found _ => some found
  | .response (.upstream forwarded) _ _ => some forwarded
  | .noResponse => none

/-- The entries that a report puts into the queue: one, unless nothing about the
    domain is kept. -/
def offers (context : WorkerContext) (filter : FilterRuntime) (n : ℕ) (work : WorkItem)
    (queue : QueueOutcome) (report : QueryReport) : List Offer :=
  if persists context filter work.question.domain then
    [{ query := n
       entry :=
        { entry := queryLogEntry (work.metadata report.upstreamTraffic) work.client report
          anonymizeClientIp := context.anonymizeClientIp
          persistLog := persistLog context filter work.question.domain
          persistStatistics := persistStatistics context filter work.question.domain
          trafficOnly := false }
       outcome := queue }]
  else []

/-- What has happened between `s` and `s'`: the query `n` has been counted `counted`
    times, its target has been handed one thing, `foreign` being what it carries of
    other servers, and one entry has been called for, `blocked` or not. -/
structure Answered (context : WorkerContext) (filter : FilterRuntime) (n : ℕ) (work : WorkItem)
    (counted : ℕ) (blocked : Bool) (foreign : Option Packet) (s s' : Server) : Prop where
  queries : s'.stats.queries = s.stats.queries + counted
  handed : ∃ h : Handed, h.foreign = foreign ∧ s'.handed = s.handed ++ [(n, h)]
  offered : ∃ queue report, report.blocked = blocked ∧
    s'.offered = s.offered ++ offers context filter n work queue report

/-! ## Steps -/

section
variable {context : WorkerContext} {filter : FilterRuntime} {n : ℕ} {work : WorkItem}
  {io : Surroundings} {s s₁ : Server}

theorem bind_apply {α β : Type} (m : Handler α) (f : α → Handler β) (s : Server) :
    (m >>= f) s = f (m s).1 (m s).2 := rfl

theorem record_apply (f : DnsStats → DnsStats) (s : Server) :
    record f s = ((), { s with stats := f s.stats }) := rfl

theorem sendDnsResponse_apply (origin : ResponseOrigin) (response : Packet) (s : Server) :
    sendDnsResponse n work io origin response s =
      ((sentBytes work io response).map fun _ => (),
        { s with handed := s.handed ++
          [(n, .response origin response (sentBytes work io response).toOption)] }) := rfl

theorem sendNoResponse_apply (s : Server) :
    sendNoResponse n s = ((), { s with handed := s.handed ++ [(n, .noResponse)] }) := rfl

theorem queueQueryLog_snd (context : WorkerContext) (filter : FilterRuntime) (n : ℕ)
    (work : WorkItem) (io : Surroundings) (report : QueryReport) (s : Server) :
    (queueQueryLog context filter n work io report s).2.stats.queries = s.stats.queries ∧
      (queueQueryLog context filter n work io report s).2.handed = s.handed ∧
      (queueQueryLog context filter n work io report s).2.offered =
        s.offered ++ offers context filter n work io.queue report := by
  unfold queueQueryLog offers
  by_cases h : persists context filter work.question.domain = true
  · simp only [if_pos h, bind_apply]
    cases io.queue with
    | accepted => exact ⟨rfl, rfl, rfl⟩
    | full => exact ⟨rfl, rfl, rfl⟩
    | disconnected => exact ⟨rfl, rfl, rfl⟩
  · simp only [if_neg h, List.append_nil]
    exact ⟨rfl, rfl, rfl⟩

theorem Answered.queue {counted : ℕ} {blocked : Bool} {foreign : Option Packet}
    {report : QueryReport} (h : Handed) (hqueries : s₁.stats.queries = s.stats.queries + counted)
    (hhanded : s₁.handed = s.handed ++ [(n, h)]) (hoffered : s₁.offered = s.offered)
    (hblocked : report.blocked = blocked) (hforeign : h.foreign = foreign) :
    Answered context filter n work counted blocked foreign s
      (queueQueryLog context filter n work io report s₁).2 := by
  obtain ⟨hq, hh, ho⟩ := queueQueryLog_snd context filter n work io report s₁
  exact ⟨hq.trans hqueries, ⟨h, hforeign, hh.trans hhanded⟩,
    ⟨io.queue, report, hblocked, by rw [ho, hoffered]⟩⟩

/-! ## Branches -/

theorem answerFixed_answered (failure : Text) (source : QueryResponseSource) (response : Packet)
    (s : Server) : Answered context filter n work 1 false none s
      (answerFixed context filter n work io failure source response s).2 := by
  unfold answerFixed
  simp only [bind_apply, recordQuery, record_apply, sendDnsResponse_apply]
  have hqueries := DnsStats.queries_recordQuery s.stats work.question.domain work.client.display
    io.minute context.detailedRuntimeStats
  cases sentBytes work io response with
  | error error => exact .queue (.response .made response none) hqueries rfl rfl rfl rfl
  | ok sent => exact .queue (.response .made response (some sent)) hqueries rfl rfl rfl rfl

theorem answerAny_answered (s : Server) : Answered context filter n work 1 false none s
    (answerAny context filter n work io s).2 := by
  unfold answerAny
  simp only [bind_apply, recordQuery, record_apply]
  have hqueries := DnsStats.queries_recordQuery s.stats work.question.domain work.client.display
    io.minute context.detailedRuntimeStats
  cases buildErrorResponse work.query rcodeRefused with
  | none => exact .queue .noResponse hqueries rfl rfl rfl rfl
  | some response =>
    simp only [bind_apply, sendDnsResponse_apply]
    cases sentBytes work io response with
    | error error => exact .queue (.response .made response none) hqueries rfl rfl rfl rfl
    | ok sent => exact .queue (.response .made response (some sent)) hqueries rfl rfl rfl rfl

theorem answerBlocked_answered (failure : Text) (ruleMatch : BlockMatch) (s : Server) :
    Answered context filter n work 1 true none s
      (answerBlocked context filter n work io failure ruleMatch s).2 := by
  unfold answerBlocked
  simp only [bind_apply, sendDnsResponse_apply]
  generalize buildBlockResponse work.query work.question filter.blocking = response
  cases sentBytes work io response with
  | error error =>
    have hqueries := DnsStats.queries_recordQuery s.stats work.question.domain
      work.client.display io.minute context.detailedRuntimeStats
    exact .queue (.response .made response none) hqueries rfl rfl rfl rfl
  | ok sent =>
    have hqueries := DnsStats.queries_recordBlockedQuery s.stats work.question.domain
      work.client.display ruleMatch.source io.minute context.detailedRuntimeStats
    exact .queue (.response .made response (some sent)) hqueries rfl rfl rfl rfl

theorem answerSafeSearch_answered (target : Text) (s : Server) :
    Answered context filter n work 1 false none s
      (answerSafeSearch context filter n work io target s).2 := by
  unfold answerSafeSearch
  simp only [bind_apply, recordQuery, record_apply, sendDnsResponse_apply]
  have hqueries := DnsStats.queries_recordQuery s.stats work.question.domain work.client.display
    io.minute context.detailedRuntimeStats
  generalize buildCnameResponse work.query work.question target = response
  cases sentBytes work io response with
  | error error => exact .queue (.response .made response none) hqueries rfl rfl rfl rfl
  | ok sent => exact .queue (.response .made response (some sent)) hqueries rfl rfl rfl rfl

theorem answerRuleRewrite_answered (action : DnsRewriteAction) (ruleMatch : BlockMatch)
    (s : Server) : Answered context filter n work 1 false none s
      (answerRuleRewrite context filter n work io action ruleMatch s).2 := by
  unfold answerRuleRewrite
  simp only [bind_apply, recordQuery, record_apply, sendDnsResponse_apply]
  have hqueries := DnsStats.queries_recordQuery s.stats work.question.domain work.client.display
    io.minute context.detailedRuntimeStats
  generalize buildDnsrewriteResponse work.query work.question filter.blocking action = response
  generalize sentBytes work io response = sent
  cases ruleRewriteError response (sent.map fun _ => ()) with
  | some message => exact .queue (.response .made response _) hqueries rfl rfl rfl rfl
  | none => exact .queue (.response .made response _) hqueries rfl rfl rfl rfl

/-! ## Deliveries -/

theorem deliverResponseProtectionBlock_answered (block : ResponseProtectionBlock)
    (upstream : Option UpstreamForwardResponse) (upstreamTraffic : UpstreamTraffic) (s : Server) :
    Answered context filter n work 0 true none s
      (deliverResponseProtectionBlock context filter n work io block upstream
        upstreamTraffic s).2 := by
  unfold deliverResponseProtectionBlock
  simp only [bind_apply, recordResponseBlocked, record_apply, sendDnsResponse_apply]
  have hqueries := DnsStats.queries_recordResponseBlocked s.stats work.question.domain
    work.client.display block.ruleMatch.source io.minute context.detailedRuntimeStats block.kind
  generalize buildBlockResponse work.query work.question filter.blocking = response
  cases sentBytes work io response with
  | error error => exact .queue (.response .made response none) hqueries rfl rfl rfl rfl
  | ok sent => exact .queue (.response .made response (some sent)) hqueries rfl rfl rfl rfl

theorem deliverCached_answered (response : Packet) (s : Server) :
    Answered context filter n work 0 false (some response) s
      (deliverCached context filter n work io response s).2 := by
  unfold deliverCached
  simp only [bind_apply, sendDnsResponse_apply]
  cases sentBytes work io response with
  | error error => exact .queue (.response .cached response none) rfl rfl rfl rfl rfl
  | ok sent => exact .queue (.response .cached response (some sent)) rfl rfl rfl rfl rfl

theorem deliverForwardError_answered (upstreamTraffic : UpstreamTraffic) (error : Text)
    (s : Server) : Answered context filter n work 0 false none s
      (deliverForwardError context filter n work io upstreamTraffic error s).2 := by
  unfold deliverForwardError
  simp only [bind_apply, recordError, record_apply, sendNoResponse_apply]
  exact .queue .noResponse rfl rfl rfl rfl rfl

/-- The response of a result. -/
def forwardedResponse : ForwardResult → Option Packet
  | .ok forwarded => some forwarded.response
  | .error _ => none

theorem deliverForwarded_answered (upstreamTraffic : UpstreamTraffic) (result : ForwardResult)
    (s : Server) : Answered context filter n work 0 false (forwardedResponse result) s
      (deliverForwarded context filter n work io upstreamTraffic result s).2 := by
  cases result with
  | error error => exact deliverForwardError_answered upstreamTraffic error s
  | ok forwarded =>
    simp only [deliverForwarded, bind_apply, sendDnsResponse_apply]
    cases sentBytes work io forwarded.response with
    | error error => exact .queue (.response (.upstream _) _ none) rfl rfl rfl rfl rfl
    | ok sent => exact .queue (.response (.upstream _) _ (some sent)) rfl rfl rfl rfl rfl

theorem deliverPendingFollower_answered (result : ForwardResult) (s : Server) :
    Answered context filter n work 0 false (forwardedResponse result) s
      (deliverPendingFollower context filter n work io result s).2 := by
  cases result with
  | error error => exact deliverForwardError_answered {} error s
  | ok forwarded =>
    simp only [deliverPendingFollower, bind_apply, sendDnsResponse_apply]
    cases sentBytes work io (prepareForwardedResponse forwarded.response work.query) with
    | error error => exact .queue (.response (.upstream _) _ none) rfl rfl rfl rfl rfl
    | ok sent => exact .queue (.response (.upstream _) _ (some sent)) rfl rfl rfl rfl rfl

end

/-! ## Decisions -/

/-- Whether the query is forwarded, or answered from the cache. -/
def LocalDecision.forwards : LocalDecision → Bool
  | .forward _ _ _ => true
  | _ => false

/-- The decisions with which the query is blocked. -/
def LocalDecision.blocks : LocalDecision → Bool
  | .blockService _ | .ruleBlock _ => true
  | _ => false

/-- **Every decision answers its query once**, unless the query is forwarded. -/
theorem handleDecision_answered (context : WorkerContext) (filter : FilterRuntime) (n : ℕ)
    (work : WorkItem) (io : Surroundings) {decision : LocalDecision}
    (h : decision.forwards = false) (s : Server) :
    Answered context filter n work 1 decision.blocks none s
      (handleDecision context filter n work io decision s).2 := by
  cases decision with
  | refuseAny => exact answerAny_answered s
  | rewrite target => exact answerFixed_answered _ _ _ s
  | blockService ruleMatch => exact answerBlocked_answered _ ruleMatch s
  | safeSearch target => exact answerSafeSearch_answered target s
  | ruleRewrite action ruleMatch => exact answerRuleRewrite_answered action ruleMatch s
  | ruleBlock ruleMatch => exact answerBlocked_answered _ ruleMatch s
  | localReverse => exact answerFixed_answered _ _ _ s
  | forward filteringActive clientFilteringEnabled routed => cases h

end DnsBlackhole.Worker
