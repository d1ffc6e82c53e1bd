/-
  What the targets of the queries are handed.

  Every branch of `handle_dns_query` and every delivery hands one thing to the
  target of its query: a response that is built here and has no OPT record, the
  response of the cache, that of an upstream server, as it is or prepared for the
  query, or nothing.  What leaves is the response, or what is left of it for a
  client over UDP (`HandedAs`).

  * `handleDecision_hands`, `deliverOutcome_hands`, `deliverToFollower_hands`: the
    branches and the deliveries;
  * `workerStep_hands`: a step hands at most one thing, to a query that it answers.
-/
import DnsBlackhole.Protocol.Opt
import DnsBlackhole.Worker.Moves

namespace DnsBlackhole.Worker
open Lib Cache DnsBlackhole.Filter Protocol Rules

/-- The packet is a response to the query that is built here. -/
def WorkItem.Makes (work : WorkItem) (response : Packet) : Prop :=
  ∃ rcode an ns rs, Built work.query work.question.questionEnd response rcode an ns rs ∧
    WithoutOpt rs

/-- What a response becomes on its way to the target of a query. -/
def handedResponse (work : WorkItem) (io : Surroundings) (origin : ResponseOrigin)
    (response : Packet) : Handed :=
  .response origin response (sentBytes work io response).toOption

/-- What the target of a query is handed for its outcome. -/
inductive HandedAs (work : WorkItem) : Outcome → Handed → Prop
  | nothing {outcome} : outcome.foreign = none → HandedAs work outcome .noResponse
  | made {outcome response io} : outcome.foreign = none → work.Makes response →
      HandedAs work outcome (handedResponse work io .made response)
  | cached {response io} :
      HandedAs work (.cached response) (handedResponse work io .cached response)
  | upstream {forwarded response io} :
      response = forwarded.response ∨
        response = prepareForwardedResponse forwarded.response work.query →
      HandedAs work (.forwarded (.ok forwarded))
        (handedResponse work io (.upstream forwarded.response) response)

/-- The program hands one thing to the target of the query `n`. -/
def Hands (n : ℕ) (m : Handler Unit) (P : Handed → Prop) : Prop :=
  ∀ server : Server, ∃ h, P h ∧ (m server).2.handed = server.handed ++ [(n, h)]

/-! ## Branches -/

section
variable {context : WorkerContext} {filter : FilterRuntime} {n : ℕ} {work : WorkItem}
  {io : Surroundings} {outcome : Outcome} {response : Packet}

theorem handedAs_made (io : Surroundings) (hforeign : outcome.foreign = none)
    (hmakes : work.Makes response) : HandedAs work outcome
      (.response .made response (sentBytes work io response).toOption) :=
  .made hforeign hmakes

theorem sentBytes_eq_some {sent : Packet}
    (h : (sentBytes work io response).toOption = some sent) : sent = response ∨
      work.responseTarget = .udp ∧
        truncateResponseForUdp work.query response (udpPayloadSize work.query) = some sent := by
  unfold sentBytes at h
  cases htarget : work.responseTarget with
  | tcp =>
    rw [htarget] at h
    dsimp only at h
    cases hsend : io.sendError with
    | some error =>
      rw [hsend] at h
      cases h
    | none =>
      rw [hsend] at h
      cases h
      exact .inl rfl
  | udp =>
    rw [htarget] at h
    dsimp only at h
    split at h
    · cases h
    · rename_i bytes hbytes
      cases hsend : io.sendError with
      | some error =>
        rw [hsend] at h
        cases h
      | none =>
        rw [hsend] at h
        cases h
        split_ifs at hbytes
        · cases hbytes
          exact .inl rfl
        · exact .inr ⟨rfl, hbytes⟩

theorem handed_queueQueryLog {P : Handed → Prop} {report : QueryReport} {s s₁ : Server}
    (h : Handed) (hP : P h) (hhanded : s₁.handed = s.handed ++ [(n, h)]) :
    ∃ h, P h ∧ (queueQueryLog context filter n work io report s₁).2.handed =
      s.handed ++ [(n, h)] :=
  ⟨h, hP, (queueQueryLog_snd context filter n work io report s₁).2.1.trans hhanded⟩

theorem answerFixed_hands (hforeign : outcome.foreign = none) (hmakes : work.Makes response)
    (failure : Text) (source : QueryResponseSource) :
    Hands n (answerFixed context filter n work io failure source response)
      (HandedAs work outcome) := by
  intro s
  have hP := handedAs_made io hforeign hmakes
  unfold answerFixed
  simp only [bind_apply, recordQuery, record_apply, sendDnsResponse_apply]
  cases hsent : sentBytes work io response with
  | error error => exact handed_queueQueryLog _ hP (by rw [hsent])
  | ok sent => exact handed_queueQueryLog _ hP (by rw [hsent])

theorem answerAny_hands (hforeign : outcome.foreign = none) :
    Hands n (answerAny context filter n work io) (HandedAs work outcome) := by
  intro s
  unfold answerAny
  simp only [bind_apply, recordQuery, record_apply]
  have hresponse : buildErrorResponse work.query rcodeRefused =
      some (responseHead work.query work.question.questionEnd rcodeRefused 0 0) := by
    rw [buildErrorResponse, parseQuery_question work.parses]
    rfl
  have hmakes : work.Makes (responseHead work.query work.question.questionEnd rcodeRefused 0 0) :=
    ⟨_, _, _, _, built_head work.query work.question.questionEnd rcodeRefused, withoutOpt_nil⟩
  have hP := handedAs_made io hforeign hmakes
  rw [hresponse]
  simp only [bind_apply, sendDnsResponse_apply]
  cases hsent : sentBytes work io
      (responseHead work.query work.question.questionEnd rcodeRefused 0 0) with
  | error error => exact handed_queueQueryLog _ hP (by rw [hsent])
  | ok sent => exact handed_queueQueryLog _ hP (by rw [hsent])

theorem answerBlocked_hands (hforeign : outcome.foreign = none) (failure : Text)
    (ruleMatch : BlockMatch) :
    Hands n (answerBlocked context filter n work io failure ruleMatch)
      (HandedAs work outcome) := by
  intro s
  have hmakes : work.Makes (buildBlockResponse work.query work.question filter.blocking) :=
    buildBlockResponse_built work.query work.question filter.blocking
  have hP := handedAs_made io hforeign hmakes
  unfold answerBlocked
  simp only [bind_apply, sendDnsResponse_apply]
  cases hsent : sentBytes work io
      (buildBlockResponse work.query work.question filter.blocking) with
  | error error => exact handed_queueQueryLog _ hP (by rw [hsent])
  | ok sent => exact handed_queueQueryLog _ hP (by rw [hsent])

theorem answerSafeSearch_hands (hforeign : outcome.foreign = none) (target : Text) :
    Hands n (answerSafeSearch context filter n work io target) (HandedAs work outcome) := by
  intro s
  have hmakes : work.Makes (buildCnameResponse work.query work.question target) := by
    obtain ⟨rcode, an, rs, hbuilt⟩ := buildCnameResponse_built work.query work.question target
    exact ⟨rcode, an, 0, rs, hbuilt⟩
  have hP := handedAs_made io hforeign hmakes
  unfold answerSafeSearch
  simp only [bind_apply, recordQuery, record_apply, sendDnsResponse_apply]
  cases hsent : sentBytes work io (buildCnameResponse work.query work.question target) with
  | error error => exact handed_queueQueryLog _ hP (by rw [hsent])
  | ok sent => exact handed_queueQueryLog _ hP (by rw [hsent])

theorem makes_dnsrewrite (work : WorkItem) (policy : BlockingPolicy) (action : DnsRewriteAction) :
    work.Makes (buildDnsrewriteResponse work.query work.question policy action) := by
  obtain ⟨ls, hq⟩ := exists_hasQuestion (parseQuery_question work.parses)
  exact buildDnsrewriteResponse_built policy hq action

theorem answerRuleRewrite_hands (hforeign : outcome.foreign = none) (action : DnsRewriteAction)
    (ruleMatch : BlockMatch) :
    Hands n (answerRuleRewrite context filter n work io action ruleMatch)
      (HandedAs work outcome) := by
  intro s
  have hP := handedAs_made io hforeign (makes_dnsrewrite work filter.blocking action)
  unfold answerRuleRewrite
  simp only [bind_apply, recordQuery, record_apply, sendDnsResponse_apply]
  cases ruleRewriteError (buildDnsrewriteResponse work.query work.question filter.blocking action)
      ((sentBytes work io (buildDnsrewriteResponse work.query work.question filter.blocking
        action)).map fun _ => ()) with
  | some message => exact handed_queueQueryLog _ hP rfl
  | none => exact handed_queueQueryLog _ hP rfl

/-- **Every decision hands** a response that is made here, unless the query is
    forwarded. -/
theorem handleDecision_hands {decision : LocalDecision} (h : decision.forwards = false) :
    Hands n (handleDecision context filter n work io decision)
      (HandedAs work (.decided decision)) := by
  cases decision with
  | refuseAny => exact answerAny_hands rfl
  | rewrite target =>
    refine answerFixed_hands rfl ?_ _ _
    obtain ⟨an, rs, hbuilt⟩ := buildIpResponse_built work.query work.question rcodeNoerror
      target.ipv4 target.ipv6 rewriteResponseTtl
    exact ⟨_, an, 0, rs, hbuilt⟩
  | blockService ruleMatch => exact answerBlocked_hands rfl _ ruleMatch
  | safeSearch target => exact answerSafeSearch_hands rfl target
  | ruleRewrite action ruleMatch => exact answerRuleRewrite_hands rfl action ruleMatch
  | ruleBlock ruleMatch => exact answerBlocked_hands rfl _ ruleMatch
  | localReverse => exact answerFixed_hands rfl (makes_dnsrewrite work filter.blocking _) _ _
  | forward filteringActive clientFilteringEnabled routed => cases h

/-! ## Deliveries -/

theorem deliverResponseProtectionBlock_hands (hforeign : outcome.foreign = none)
    (block : ResponseProtectionBlock) (upstream : Option UpstreamForwardResponse)
    (upstreamTraffic : UpstreamTraffic) :
    Hands n (deliverResponseProtectionBlock context filter n work io block upstream
      upstreamTraffic) (HandedAs work outcome) := by
  intro s
  have hmakes : work.Makes (buildBlockResponse work.query work.question filter.blocking) :=
    buildBlockResponse_built work.query work.question filter.blocking
  have hP := handedAs_made io hforeign hmakes
  unfold deliverResponseProtectionBlock
  simp only [bind_apply, recordResponseBlocked, record_apply, sendDnsResponse_apply]
  cases hsent : sentBytes work io
      (buildBlockResponse work.query work.question filter.blocking) with
  | error error => exact handed_queueQueryLog _ hP (by rw [hsent])
  | ok sent => exact handed_queueQueryLog _ hP (by rw [hsent])

theorem deliverCached_hands (response : Packet) :
    Hands n (deliverCached context filter n work io response)
      (HandedAs work (.cached response)) := by
  intro s
  have hP : HandedAs work (.cached response)
      (.response .cached response (sentBytes work io response).toOption) := .cached
  unfold deliverCached
  simp only [bind_apply, sendDnsResponse_apply]
  cases hsent : sentBytes work io response with
  | error error => exact handed_queueQueryLog _ hP (by rw [hsent])
  | ok sent => exact handed_queueQueryLog _ hP (by rw [hsent])

theorem deliverForwardError_hands (hforeign : outcome.foreign = none)
    (upstreamTraffic : UpstreamTraffic) (error : Text) :
    Hands n (deliverForwardError context filter n work io upstreamTraffic error)
      (HandedAs work outcome) := by
  intro s
  unfold deliverForwardError
  simp only [bind_apply, recordError, record_apply, sendNoResponse_apply]
  exact handed_queueQueryLog _ (.nothing hforeign) rfl

theorem deliverForwarded_hands (upstreamTraffic : UpstreamTraffic) (result : ForwardResult) :
    Hands n (deliverForwarded context filter n work io upstreamTraffic result)
      (HandedAs work (.forwarded result)) := by
  cases result with
  | error error => exact deliverForwardError_hands rfl upstreamTraffic error
  | ok forwarded =>
    intro s
    have hP : HandedAs work (.forwarded (.ok forwarded))
        (.response (.upstream forwarded.response) forwarded.response
          (sentBytes work io forwarded.response).toOption) := .upstream (.inl rfl)
    simp only [deliverForwarded, bind_apply, sendDnsResponse_apply]
    cases hsent : sentBytes work io forwarded.response with
    | error error => exact handed_queueQueryLog _ hP (by rw [hsent])
    | ok sent => exact handed_queueQueryLog _ hP (by rw [hsent])

theorem deliverPendingFollower_hands (result : ForwardResult) :
    Hands n (deliverPendingFollower context filter n work io result)
      (HandedAs work (.forwarded result)) := by
  cases result with
  | error error => exact deliverForwardError_hands rfl {} error
  | ok forwarded =>
    intro s
    have hP : HandedAs work (.forwarded (.ok forwarded))
        (.response (.upstream forwarded.response)
          (prepareForwardedResponse forwarded.response work.query)
          (sentBytes work io (prepareForwardedResponse forwarded.response work.query)).toOption) :=
      .upstream (.inr rfl)
    simp only [deliverPendingFollower, bind_apply, sendDnsResponse_apply]
    cases hsent : sentBytes work io (prepareForwardedResponse forwarded.response work.query) with
    | error error => exact handed_queueQueryLog _ hP (by rw [hsent])
    | ok sent => exact handed_queueQueryLog _ hP (by rw [hsent])

theorem deliverOutcome_hands (upstreamTraffic : UpstreamTraffic) (outcome : ForwardOutcome) :
    Hands n (deliverOutcome context filter n work io upstreamTraffic outcome)
      (HandedAs work outcome.outcome) := by
  cases outcome with
  | checked result => exact deliverForwarded_hands upstreamTraffic result
  | blocked block forwarded =>
    exact deliverResponseProtectionBlock_hands rfl block (some forwarded) upstreamTraffic

theorem deliverToFollower_hands (outcome : ForwardOutcome) :
    Hands n (deliverToFollower context filter n work io outcome)
      (HandedAs work outcome.outcome) := by
  cases outcome with
  | checked result => exact deliverPendingFollower_hands result
  | blocked block forwarded =>
    exact deliverResponseProtectionBlock_hands rfl block (some forwarded) {}

end

/-! ## Steps -/

/-- How a step comes to the outcome of the query `n`. -/
inductive ComesFrom (context : WorkerContext) (s : WorkerState) :
    WorkerEvent → ℕ → WorkItem → Snapshot → Outcome → Prop
  | decided {e n work snapshot decision} :
      ComesFrom context s e n work snapshot (.decided decision)
  | blocked {e n work snapshot block} : ComesFrom context s e n work snapshot (.blocked block)
  | cached {n work snapshot response io} : s.items[n]? = some ⟨work, snapshot, .routed⟩ →
      ComesFrom context s (.lookup n (some response) io) n work snapshot (.cached response)
  | forwarded {n work snapshot result upstreamTraffic io} :
      s.items[n]? = some ⟨work, snapshot, .alone⟩ →
      ComesFrom context s (.forward n result upstreamTraffic io) n work snapshot
        (.forwarded result)
  /-- The query `q` of those that lead or follow gets the result of its leader `p`. -/
  | delivered {e n work snapshot q p key key' role followers stage result} :
      s.items[n]? = some ⟨work, snapshot, .pending q⟩ → s.owners[q]? = some n →
      s.pending.queries[q]? = some ⟨key, role⟩ → (q = p ∨ role = .follower p) →
      s.pending.queries[p]? = some ⟨key', .leader followers stage⟩ → stage.result = some result →
      ComesFrom context s e n work snapshot result.outcome

section
variable {context : WorkerContext} {hash : QueryCacheKey → ℕ} {s s' : WorkerState}
  {e : WorkerEvent}

theorem settle_hands {n : ℕ} {work : WorkItem} {snapshot : Snapshot} {stage stage' : Stage}
    {outcome : Outcome} {m : Handler Unit} (hn : s.items[n]? = some ⟨work, snapshot, stage⟩)
    (hm : Hands n m (HandedAs work outcome))
    (hfrom : ComesFrom context s e n work snapshot outcome) :
    ∃ x item outcome h, (s.settle n ⟨work, snapshot, stage'⟩ m).items[x]? = some item ∧
      ComesFrom context s e x item.work item.snapshot outcome ∧ HandedAs item.work outcome h ∧
      (s.settle n ⟨work, snapshot, stage'⟩ m).server.handed = s.server.handed ++ [(x, h)] := by
  obtain ⟨h, hP, hhanded⟩ := hm s.server
  exact ⟨n, _, outcome, h, (WorkerState.getElem?_put hn _ n).trans (if_pos rfl), hfrom, hP,
    hhanded⟩

/-- **A step hands one thing at most**, to a query that it answers. -/
theorem workerStep_hands (hinv : WorkerInv hash s) (h : workerStep context hash s e = some s') :
    s'.server.handed = s.server.handed ∨
    ∃ n item outcome h, s'.items[n]? = some item ∧
      ComesFrom context s e n item.work item.snapshot outcome ∧ HandedAs item.work outcome h ∧
      s'.server.handed = s.server.handed ++ [(n, h)] := by
  cases e with
  | accept work snapshot io =>
    simp only [workerStep] at h
    cases hforwards : (localDecision context snapshot work.client work.question).forwards with
    | true =>
      left
      cases hdecision : localDecision context snapshot work.client work.question with
      | forward filteringActive clientFilteringEnabled routed =>
        rw [hdecision] at h
        cases h
        rfl
      | _ =>
        rw [hdecision] at hforwards
        cases hforwards
    | false =>
      right
      cases h
      have hhands : Hands s.items.length (handleDecision context snapshot.filter s.items.length work
          io (localDecision context snapshot work.client work.question)) _ :=
        handleDecision_hands hforwards
      obtain ⟨handed, hP, hhanded⟩ := hhands s.server
      exact ⟨s.items.length, _, _, handed, List.getElem?_concat_length, .decided, hP, hhanded⟩
  | lookup n hit io =>
    simp only [workerStep] at h
    split at h
    · rename_i work snapshot hn
      split at h
      · cases h
        exact .inl rfl
      · cases hit with
        | none =>
          cases h
          exact .inl rfl
        | some response =>
          dsimp only at h
          split at h
          · rename_i block hblock
            cases h
            have hfrom : ComesFrom context s (.lookup n (some response) io) n work snapshot
                (.blocked block) := .blocked
            exact .inr (settle_hands hn (deliverResponseProtectionBlock_hands rfl block none {})
              hfrom)
          · cases h
            exact .inr (settle_hands hn (deliverCached_hands response) (.cached hn))
    · cases h
  | begin n =>
    simp only [workerStep] at h
    split at h
    · obtain ⟨pending, -, rfl⟩ := Option.map_eq_some_iff.1 h
      exact .inl rfl
    · cases h
  | register n =>
    simp only [workerStep] at h
    split at h
    · obtain ⟨pending, -, rfl⟩ := Option.map_eq_some_iff.1 h
      exact .inl rfl
    · cases h
  | forward n result upstreamTraffic io =>
    simp only [workerStep] at h
    split at h
    · rename_i work snapshot hn
      cases h
      refine .inr (settle_hands hn (deliverOutcome_hands upstreamTraffic _) ?_)
      cases result with
      | error error => exact .forwarded hn
      | ok forwarded =>
        unfold forwardOutcome
        dsimp only
        split
        · exact .blocked
        · exact .forwarded hn
    · obtain ⟨pending, -, rfl⟩ := Option.map_eq_some_iff.1 h
      exact .inl rfl
    · cases h
  | take n =>
    simp only [workerStep] at h
    split at h
    · obtain ⟨pending, -, rfl⟩ := Option.map_eq_some_iff.1 h
      exact .inl rfl
    · cases h
  | deliver n io =>
    simp only [workerStep] at h
    split at h
    · rename_i work snapshot q hn
      split at h
      · rename_i key followers outcome follower rest hq
        split at h
        · rename_i m hm
          split at h
          · rename_i work' snapshot' stage hitem
            obtain ⟨pending, -, rfl⟩ := Option.map_eq_some_iff.1 h
            obtain ⟨rfl, -⟩ := hinv.deliver (n := n) hq hm hitem
            obtain ⟨key', hfollower⟩ : s.pending.Follows follower q := by
              refine (hinv.pending.line q follower).1 (List.mem_append_right _ ?_)
              rw [PendingState.waiting_of_getElem? hq]
              exact List.mem_cons_self
            exact .inr (settle_hands hitem (deliverToFollower_hands outcome)
              (.delivered hitem hm hfollower (.inr rfl) hq rfl))
          · cases h
        · cases h
      · cases h
    · cases h
  | answer n upstreamTraffic io =>
    simp only [workerStep] at h
    split at h
    · rename_i work snapshot q hn
      split at h
      · rename_i key followers outcome hq
        cases h
        exact .inr (settle_hands hn (deliverOutcome_hands upstreamTraffic outcome)
          (.delivered hn (hinv.owned n work snapshot q hn) hq (.inl rfl) hq rfl))
      · cases h
    · cases h

end

end DnsBlackhole.Worker
