/-
  The byte counts in the entries of the query log (`queue_query_log_with_match` of
  `dns/worker.rs`).

  The length of a response is logged as it is before `send_dns_response` shortens it, some
  branches log it when the send has failed, and a hit of the cache is logged as saved in
  either case.

  * `Names`: the response that the entry about an answer names;
  * `workerStep_tells`: a step hands one thing at most, and logs what it hands;
  * `trafficMachine`: the workers with the calls of their queries;
  * `logged_traffic_iff`: when an entry says what has crossed the wire;
  * `unsent_hit_saves`: an entry that does not.
-/
import DnsBlackhole.Worker.Handed
import DnsBlackhole.Worker.Protected
import DnsBlackhole.Worker.Traffic

namespace DnsBlackhole.Worker
open Lib Cache DnsBlackhole.Filter Protocol Rules Upstream

/-! ## What an entry says of an answer -/

/-- The entry names the response even if it could not be sent. -/
def Outcome.toldAnyway : Outcome → Bool
  | .decided (.safeSearch _) => true
  | .decided (.ruleRewrite _ _) => true
  | .blocked _ => true
  | _ => false

def Outcome.isCached : Outcome → Bool
  | .cached _ => true
  | _ => false

inductive Names (work : WorkItem) (outcome : Outcome) : Handed → Option Packet → Prop
  | nothing : outcome.isCached = false → Names work outcome .noResponse none
  | left {io origin response sent} : sentBytes work io response = .ok sent →
      (outcome.isCached = true → origin = .cached) →
      Names work outcome (.response origin response (some sent)) (some response)
  | failed {origin response} : outcome.toldAnyway = false →
      Names work outcome (.response origin response none) none
  | toldAnyway {origin response} : outcome.toldAnyway = true → response ≠ [] →
      Names work outcome (.response origin response none) (some response)

/-- The report about an answer. -/
structure Told (work : WorkItem) (outcome : Outcome) (upstreamTraffic : UpstreamTraffic)
    (h : Handed) (report : QueryReport) : Prop where
  names : Names work outcome h report.response
  source : report.source = .cache ↔ outcome.isCached = true
  upstreamTraffic : report.upstreamTraffic = upstreamTraffic

/-- Between `s` and `s'`, the target of the query `n` has been handed one thing, and one entry
    has been called for, which is about it. -/
def Tells (context : WorkerContext) (filter : FilterRuntime) (n : ℕ) (work : WorkItem)
    (outcome : Outcome) (upstreamTraffic : UpstreamTraffic) (s s' : Server) : Prop :=
  ∃ h queue report, Told work outcome upstreamTraffic h report ∧
    s'.handed = s.handed ++ [(n, h)] ∧
    s'.offered = s.offered ++ offers context filter n work queue report

section
variable {context : WorkerContext} {filter : FilterRuntime} {n : ℕ} {work : WorkItem}
  {io : Surroundings} {outcome : Outcome} {upstreamTraffic : UpstreamTraffic}
  {response : Packet}

theorem tells_queue {report : QueryReport} {s s₁ : Server} (h : Handed)
    (htold : Told work outcome upstreamTraffic h report)
    (hhanded : s₁.handed = s.handed ++ [(n, h)]) (hoffered : s₁.offered = s.offered) :
    Tells context filter n work outcome upstreamTraffic s
      (queueQueryLog context filter n work io report s₁).2 := by
  obtain ⟨-, hh, ho⟩ := queueQueryLog_snd context filter n work io report s₁
  exact ⟨h, io.queue, report, htold, hh.trans hhanded, ho.trans (by rw [hoffered])⟩

theorem names_anyway {origin : ResponseOrigin} (io : Surroundings)
    (hcached : outcome.isCached = false) (htold : outcome.toldAnyway = true)
    (hne : response ≠ []) :
    Names work outcome (.response origin response (sentBytes work io response).toOption)
      (some response) := by
  cases hsent : sentBytes work io response with
  | error error => exact .toldAnyway htold hne
  | ok sent =>
    refine .left hsent fun h => ?_
    rw [hcached] at h
    cases h

theorem WorkItem.Makes.ne_nil (h : work.Makes response) : response ≠ [] := by
  obtain ⟨rcode, an, ns, rs, hbuilt, -⟩ := h
  rw [hbuilt.eq, responseHead]
  simp

theorem not_cache {source : QueryResponseSource} (hsource : source ≠ .cache)
    (hcached : outcome.isCached = false) : source = .cache ↔ outcome.isCached = true := by
  rw [hcached]
  exact ⟨fun h => absurd h hsource, fun h => by cases h⟩

theorem not_cached (hcached : outcome.isCached = false) {origin : ResponseOrigin} :
    outcome.isCached = true → origin = .cached := by
  intro h
  rw [hcached] at h
  cases h

/-! ## Branches -/

theorem answerFixed_tells (hcached : outcome.isCached = false)
    (htold : outcome.toldAnyway = false) (failure : Text) {source : QueryResponseSource}
    (hsource : source ≠ .cache) (response : Packet) (s : Server) :
    Tells context filter n work outcome {} s
      (answerFixed context filter n work io failure source response s).2 := by
  unfold answerFixed
  simp only [bind_apply, recordQuery, record_apply, sendDnsResponse_apply]
  cases hsent : sentBytes work io response with
  | error error =>
    exact tells_queue (.response .made response none)
      ⟨.failed htold, not_cache hsource hcached, rfl⟩ rfl rfl
  | ok sent =>
    exact tells_queue (.response .made response (some sent))
      ⟨.left hsent (not_cached hcached), not_cache hsource hcached, rfl⟩ rfl rfl

theorem answerAny_tells (hcached : outcome.isCached = false)
    (htold : outcome.toldAnyway = false) (s : Server) :
    Tells context filter n work outcome {} s (answerAny context filter n work io s).2 := by
  unfold answerAny
  simp only [bind_apply, recordQuery, record_apply]
  have hsource : QueryResponseSource.refused ≠ .cache := by decide
  cases buildErrorResponse work.query rcodeRefused with
  | none =>
    exact tells_queue .noResponse ⟨.nothing hcached, not_cache hsource hcached, rfl⟩ rfl rfl
  | some response =>
    simp only [bind_apply, sendDnsResponse_apply]
    cases hsent : sentBytes work io response with
    | error error =>
      exact tells_queue (.response .made response none)
        ⟨.failed htold, not_cache hsource hcached, rfl⟩ rfl rfl
    | ok sent =>
      exact tells_queue (.response .made response (some sent))
        ⟨.left hsent (not_cached hcached), not_cache hsource hcached, rfl⟩ rfl rfl

theorem answerBlocked_tells (hcached : outcome.isCached = false)
    (htold : outcome.toldAnyway = false) (failure : Text) (ruleMatch : BlockMatch)
    (s : Server) : Tells context filter n work outcome {} s
      (answerBlocked context filter n work io failure ruleMatch s).2 := by
  unfold answerBlocked
  simp only [bind_apply, sendDnsResponse_apply]
  generalize buildBlockResponse work.query work.question filter.blocking = response
  have hsource : QueryResponseSource.blocked ≠ .cache := by decide
  cases hsent : sentBytes work io response with
  | error error =>
    exact tells_queue (.response .made response none)
      ⟨.failed htold, not_cache hsource hcached, rfl⟩ rfl rfl
  | ok sent =>
    exact tells_queue (.response .made response (some sent))
      ⟨.left hsent (not_cached hcached), not_cache hsource hcached, rfl⟩ rfl rfl

theorem answerSafeSearch_tells (hcached : outcome.isCached = false)
    (htold : outcome.toldAnyway = true) (target : Text) (s : Server) :
    Tells context filter n work outcome {} s
      (answerSafeSearch context filter n work io target s).2 := by
  have hmakes : work.Makes (buildCnameResponse work.query work.question target) := by
    obtain ⟨rcode, an, rs, hbuilt⟩ := buildCnameResponse_built work.query work.question target
    exact ⟨rcode, an, 0, rs, hbuilt⟩
  have hnames : Names work outcome (.response .made _ _) _ :=
    names_anyway io hcached htold hmakes.ne_nil
  have hsource : QueryResponseSource.rewrite ≠ .cache := by decide
  unfold answerSafeSearch
  simp only [bind_apply, recordQuery, record_apply, sendDnsResponse_apply]
  cases hsent : sentBytes work io (buildCnameResponse work.query work.question target) with
  | error error =>
    rw [hsent] at hnames
    exact tells_queue _ ⟨hnames, not_cache hsource hcached, rfl⟩ rfl rfl
  | ok sent =>
    rw [hsent] at hnames
    exact tells_queue _ ⟨hnames, not_cache hsource hcached, rfl⟩ rfl rfl

theorem answerRuleRewrite_tells (hcached : outcome.isCached = false)
    (htold : outcome.toldAnyway = true) (action : DnsRewriteAction) (ruleMatch : BlockMatch)
    (s : Server) : Tells context filter n work outcome {} s
      (answerRuleRewrite context filter n work io action ruleMatch s).2 := by
  have hnames : Names work outcome (.response .made _ _) _ :=
    names_anyway io hcached htold (makes_dnsrewrite work filter.blocking action).ne_nil
  have hsource : QueryResponseSource.rewrite ≠ .cache := by decide
  unfold answerRuleRewrite
  simp only [bind_apply, recordQuery, record_apply, sendDnsResponse_apply]
  cases ruleRewriteError (buildDnsrewriteResponse work.query work.question filter.blocking action)
      ((sentBytes work io (buildDnsrewriteResponse work.query work.question filter.blocking
        action)).map fun _ => ()) with
  | some message => exact tells_queue _ ⟨hnames, not_cache hsource hcached, rfl⟩ rfl rfl
  | none => exact tells_queue _ ⟨hnames, not_cache hsource hcached, rfl⟩ rfl rfl

/-- **Every decision tells** what it hands, unless the query is forwarded. -/
theorem handleDecision_tells {decision : LocalDecision} (h : decision.forwards = false)
    (s : Server) : Tells context filter n work (.decided decision) {} s
      (handleDecision context filter n work io decision s).2 := by
  cases decision with
  | refuseAny => exact answerAny_tells rfl rfl s
  | rewrite target => exact answerFixed_tells rfl rfl _ (by decide) _ s
  | blockService ruleMatch => exact answerBlocked_tells rfl rfl _ ruleMatch s
  | safeSearch target => exact answerSafeSearch_tells rfl rfl target s
  | ruleRewrite action ruleMatch => exact answerRuleRewrite_tells rfl rfl action ruleMatch s
  | ruleBlock ruleMatch => exact answerBlocked_tells rfl rfl _ ruleMatch s
  | localReverse => exact answerFixed_tells rfl rfl _ (by decide) _ s
  | forward filteringActive clientFilteringEnabled routed => cases h

/-! ## Deliveries -/

theorem deliverResponseProtectionBlock_tells (block : ResponseProtectionBlock)
    (upstream : Option UpstreamForwardResponse) (upstreamTraffic : UpstreamTraffic) (s : Server) :
    Tells context filter n work (.blocked block) upstreamTraffic s
      (deliverResponseProtectionBlock context filter n work io block upstream
        upstreamTraffic s).2 := by
  have hmakes : work.Makes (buildBlockResponse work.query work.question filter.blocking) :=
    buildBlockResponse_built work.query work.question filter.blocking
  have hnames : Names work (.blocked block) (.response .made _ _) _ :=
    names_anyway io rfl rfl hmakes.ne_nil
  have hsource : QueryResponseSource.blocked ≠ .cache := by decide
  unfold deliverResponseProtectionBlock
  simp only [bind_apply, recordResponseBlocked, record_apply, sendDnsResponse_apply]
  cases hsent : sentBytes work io
      (buildBlockResponse work.query work.question filter.blocking) with
  | error error =>
    rw [hsent] at hnames
    exact tells_queue _ ⟨hnames, not_cache hsource rfl, rfl⟩ rfl rfl
  | ok sent =>
    rw [hsent] at hnames
    exact tells_queue _ ⟨hnames, not_cache hsource rfl, rfl⟩ rfl rfl

theorem deliverCached_tells (response : Packet) (s : Server) :
    Tells context filter n work (.cached response) {} s
      (deliverCached context filter n work io response s).2 := by
  have hsource : QueryResponseSource.cache = .cache ↔
      (Outcome.cached response).isCached = true := iff_of_true rfl rfl
  unfold deliverCached
  simp only [bind_apply, sendDnsResponse_apply]
  cases hsent : sentBytes work io response with
  | error error =>
    exact tells_queue (.response .cached response none) ⟨.failed rfl, hsource, rfl⟩ rfl rfl
  | ok sent =>
    exact tells_queue (.response .cached response (some sent))
      ⟨.left hsent fun _ => rfl, hsource, rfl⟩ rfl rfl

theorem deliverForwardError_tells (hcached : outcome.isCached = false)
    (upstreamTraffic : UpstreamTraffic) (error : Text) (s : Server) :
    Tells context filter n work outcome upstreamTraffic s
      (deliverForwardError context filter n work io upstreamTraffic error s).2 := by
  have hsource : QueryResponseSource.upstream ≠ .cache := by decide
  unfold deliverForwardError
  simp only [bind_apply, recordError, record_apply, sendNoResponse_apply]
  exact tells_queue .noResponse ⟨.nothing hcached, not_cache hsource hcached, rfl⟩ rfl rfl

theorem deliverForwarded_tells (upstreamTraffic : UpstreamTraffic) (result : ForwardResult)
    (s : Server) : Tells context filter n work (.forwarded result) upstreamTraffic s
      (deliverForwarded context filter n work io upstreamTraffic result s).2 := by
  cases result with
  | error error => exact deliverForwardError_tells rfl upstreamTraffic error s
  | ok forwarded =>
    have hsource : QueryResponseSource.upstream ≠ .cache := by decide
    simp only [deliverForwarded, bind_apply, sendDnsResponse_apply]
    cases hsent : sentBytes work io forwarded.response with
    | error error =>
      exact tells_queue (.response (.upstream _) forwarded.response none)
        ⟨.failed rfl, not_cache hsource rfl, rfl⟩ rfl rfl
    | ok sent =>
      exact tells_queue (.response (.upstream _) forwarded.response (some sent))
        ⟨.left hsent (not_cached rfl), not_cache hsource rfl, rfl⟩ rfl rfl

theorem deliverPendingFollower_tells (result : ForwardResult) (s : Server) :
    Tells context filter n work (.forwarded result) {} s
      (deliverPendingFollower context filter n work io result s).2 := by
  cases result with
  | error error => exact deliverForwardError_tells rfl {} error s
  | ok forwarded =>
    have hsource : QueryResponseSource.upstream ≠ .cache := by decide
    simp only [deliverPendingFollower, bind_apply, sendDnsResponse_apply]
    cases hsent : sentBytes work io (prepareForwardedResponse forwarded.response work.query) with
    | error error =>
      exact tells_queue (.response (.upstream _) _ none)
        ⟨.failed rfl, not_cache hsource rfl, rfl⟩ rfl rfl
    | ok sent =>
      exact tells_queue (.response (.upstream _) _ (some sent))
        ⟨.left hsent (not_cached rfl), not_cache hsource rfl, rfl⟩ rfl rfl

theorem deliverOutcome_tells (upstreamTraffic : UpstreamTraffic) (outcome : ForwardOutcome)
    (s : Server) : Tells context filter n work outcome.outcome upstreamTraffic s
      (deliverOutcome context filter n work io upstreamTraffic outcome s).2 := by
  cases outcome with
  | checked result => exact deliverForwarded_tells upstreamTraffic result s
  | blocked block forwarded =>
    exact deliverResponseProtectionBlock_tells block (some forwarded) upstreamTraffic s

theorem deliverToFollower_tells (outcome : ForwardOutcome) (s : Server) :
    Tells context filter n work outcome.outcome {} s
      (deliverToFollower context filter n work io outcome s).2 := by
  cases outcome with
  | checked result => exact deliverPendingFollower_tells result s
  | blocked block forwarded =>
    exact deliverResponseProtectionBlock_tells block (some forwarded) {} s

end

/-! ## Steps -/

/-- Which bytes a step reports for the query `n` as those of the upstream servers. -/
inductive Reports (s : WorkerState) : WorkerEvent → ℕ → UpstreamTraffic → Prop
  | fresh {e} : Reports s e s.items.length {}
  | routed {e n work snapshot} : s.items[n]? = some ⟨work, snapshot, .routed⟩ → Reports s e n {}
  | follower {e n work snapshot q p key} : s.items[n]? = some ⟨work, snapshot, .pending q⟩ →
      s.pending.queries[q]? = some ⟨key, .follower p⟩ → Reports s e n {}
  | forwarded {n result upstreamTraffic io} :
      Reports s (.forward n result upstreamTraffic io) n upstreamTraffic
  | answered {n upstreamTraffic io} : Reports s (.answer n upstreamTraffic io) n upstreamTraffic

section
variable {context : WorkerContext} {hash : QueryCacheKey → ℕ} {s s' : WorkerState}
  {e : WorkerEvent}

/-- **A step answers one query at most**, and logs what it hands to it. -/
theorem workerStep_tells (hinv : WorkerInv hash s) (h : workerStep context hash s e = some s') :
    (s'.server.handed = s.server.handed ∧ s'.server.offered = s.server.offered) ∨
    ∃ n work snapshot deliverer outcome filter upstreamTraffic,
      s'.items[n]? = some ⟨work, snapshot, .done deliverer outcome⟩ ∧
      Reports s e n upstreamTraffic ∧
      Tells context filter n work outcome upstreamTraffic s.server s'.server := by
  have hput {n deliverer : ℕ} {work : WorkItem} {snapshot : Snapshot} {stage : Stage}
      {outcome : Outcome} (hn : s.items[n]? = some ⟨work, snapshot, stage⟩) :
      (s.put n ⟨work, snapshot, .done deliverer outcome⟩).items[n]? =
        some ⟨work, snapshot, .done deliverer outcome⟩ :=
    (WorkerState.getElem?_put hn _ n).trans (if_pos rfl)
  cases e with
  | accept work snapshot io =>
    simp only [workerStep] at h
    cases hforwards : (localDecision context snapshot work.client work.question).forwards with
    | true =>
      left
      cases hdecision : localDecision context snapshot work.client work.question with
      | forward filteringActive clientFilteringEnabled routed =>
        rw [hdecision] at h
        cases h
        exact ⟨rfl, rfl⟩
      | _ =>
        rw [hdecision] at hforwards
        cases hforwards
    | false =>
      right
      cases h
      have htells : Tells context snapshot.filter s.items.length work _ {} s.server
          (handleDecision context snapshot.filter s.items.length work io _ s.server).2 :=
        handleDecision_tells hforwards s.server
      refine ⟨s.items.length, work, snapshot, s.items.length, _, _, _, ?_, .fresh, htells⟩
      rw [List.getElem?_concat_length, hforwards]
      rfl
  | lookup n hit io =>
    simp only [workerStep] at h
    split at h
    · rename_i work snapshot hn
      split at h
      · cases h
        exact .inl ⟨rfl, rfl⟩
      · cases hit with
        | none =>
          cases h
          exact .inl ⟨rfl, rfl⟩
        | some response =>
          dsimp only at h
          split at h
          · rename_i block hblock
            cases h
            exact .inr ⟨n, work, snapshot, n, _, _, _, hput hn, .routed hn,
              deliverResponseProtectionBlock_tells block none {} s.server⟩
          · cases h
            exact .inr ⟨n, work, snapshot, n, _, _, _, hput hn, .routed hn,
              deliverCached_tells response s.server⟩
    · cases h
  | begin n =>
    simp only [workerStep] at h
    split at h
    · obtain ⟨pending, -, rfl⟩ := Option.map_eq_some_iff.1 h
      exact .inl ⟨rfl, rfl⟩
    · cases h
  | register n =>
    simp only [workerStep] at h
    split at h
    · obtain ⟨pending, -, rfl⟩ := Option.map_eq_some_iff.1 h
      exact .inl ⟨rfl, rfl⟩
    · cases h
  | forward n result upstreamTraffic io =>
    simp only [workerStep] at h
    split at h
    · rename_i work snapshot hn
      cases h
      exact .inr ⟨n, work, snapshot, n, _, _, _, hput hn, .forwarded,
        deliverOutcome_tells upstreamTraffic _ s.server⟩
    · obtain ⟨pending, -, rfl⟩ := Option.map_eq_some_iff.1 h
      exact .inl ⟨rfl, rfl⟩
    · cases h
  | take n =>
    simp only [workerStep] at h
    split at h
    · obtain ⟨pending, -, rfl⟩ := Option.map_eq_some_iff.1 h
      exact .inl ⟨rfl, rfl⟩
    · cases h
  | deliver n io =>
    simp only [workerStep] at h
    split at h
    · rename_i work snapshot q hn
      split at h
      · rename_i key followers outcome follower rest hq
        split at h
        · rename_i m hm
          split at h
          · rename_i work' snapshot' stage hitem
            obtain ⟨pending, -, rfl⟩ := Option.map_eq_some_iff.1 h
            obtain ⟨rfl, -⟩ := hinv.deliver (n := n) hq hm hitem
            obtain ⟨key', hfollower⟩ : s.pending.Follows follower q := by
              refine (hinv.pending.line q follower).1 (List.mem_append_right _ ?_)
              rw [PendingState.waiting_of_getElem? hq]
              exact List.mem_cons_self
            exact .inr ⟨m, work', snapshot', n, _, _, _, hput hitem, .follower hitem hfollower,
              deliverToFollower_tells outcome s.server⟩
          · cases h
        · cases h
      · cases h
    · cases h
  | answer n upstreamTraffic io =>
    simp only [workerStep] at h
    split at h
    · rename_i work snapshot q hn
      split at h
      · rename_i key followers outcome hq
        cases h
        exact .inr ⟨n, work, snapshot, n, _, _, _, hput hn, .answered,
          deliverOutcome_tells upstreamTraffic outcome s.server⟩
      · cases h
    · cases h

/-! ## Queries that have been forwarded -/

def Leads (s : WorkerState) (q : ℕ) : Prop :=
  ∃ key followers stage, s.pending.queries[q]? = some ⟨key, .leader followers stage⟩

/-- The stages behind the forwarding of a query. -/
def Behind (s : WorkerState) : Stage → Prop
  | .done _ _ => True
  | .pending q => Leads s q
  | _ => False

theorem Leads.step (hm : WorkerMove context hash s e s') {q : ℕ} (h : Leads s q) : Leads s' q := by
  obtain ⟨key, followers, stage, hq⟩ := h
  rcases hm.pending with hsame | ⟨pe, hstep⟩
  · exact ⟨key, followers, stage, hsame ▸ hq⟩
  · have hput {x : ℕ} {a b : Query ForwardOutcome} {pending : PendingState ForwardOutcome}
        (hx : s.pending.queries[x]? = some a)
        (hb : x = q → ∃ key followers stage, b = ⟨key, .leader followers stage⟩)
        (hpending : pending.queries = (s.pending.put x b).queries) :
        ∃ key followers stage, pending.queries[q]? = some ⟨key, .leader followers stage⟩ := by
      rw [hpending, PendingState.getElem?_put hx]
      split_ifs with hqx
      · obtain ⟨key', followers', stage', rfl⟩ := hb hqx.symm
        exact ⟨_, _, _, rfl⟩
      · exact ⟨key, followers, stage, hq⟩
    have hconcat {new : Query ForwardOutcome} :
        (s.pending.queries ++ [new])[q]? = some ⟨key, .leader followers stage⟩ :=
      (List.getElem?_append_left (List.getElem?_eq_some_iff.1 hq).1).trans hq
    generalize hp : s'.pending = pending at hstep
    unfold Leads
    rw [hp]
    cases pendingStep_cases hstep with
    | lead _ _ _ => exact ⟨_, _, _, hconcat⟩
    | join _ => exact ⟨_, _, _, hconcat⟩
    | accepted hx hleader _ =>
      obtain ⟨followers', hq', -⟩ := PendingState.getElem?_accept_leader hx hleader hq
      exact ⟨_, _, _, hq'⟩
    | refused hx _ _ =>
      refine hput hx (fun heq => ?_) rfl
      rw [heq, hq] at hx
      cases hx
    | finish hx => exact hput hx (fun _ => ⟨_, _, _, rfl⟩) rfl
    | take hx => exact hput hx (fun _ => ⟨_, _, _, rfl⟩) rfl
    | deliver hx => exact hput hx (fun _ => ⟨_, _, _, rfl⟩) rfl

theorem Behind.step (hm : WorkerMove context hash s e s') {stage : Stage} (h : Behind s stage) :
    Behind s' stage := by
  cases stage with
  | done deliverer outcome => trivial
  | pending q => exact Leads.step hm h
  | _ => exact h

/-- **A query that has been forwarded** stays so; one that is done does not change. -/
theorem WorkerMove.behind (hm : WorkerMove context hash s e s') (hinv : WorkerInv hash s) {k : ℕ}
    {work : WorkItem} {snapshot : Snapshot} {stage : Stage}
    (hk : s.items[k]? = some ⟨work, snapshot, stage⟩) (hbehind : Behind s stage) :
    ∃ stage', s'.items[k]? = some ⟨work, snapshot, stage'⟩ ∧ Behind s' stage' ∧
      (stage.IsDone → stage' = stage) := by
  have hstays := hbehind.step hm
  have hsame (hitems : s'.items = s.items) : ∃ stage', s'.items[k]? =
      some ⟨work, snapshot, stage'⟩ ∧ Behind s' stage' ∧ (stage.IsDone → stage' = stage) :=
    ⟨stage, hitems ▸ hk, hstays, fun _ => rfl⟩
  have hconcat {item : Item} (hitems : s'.items = s.items ++ [item]) : ∃ stage', s'.items[k]? =
      some ⟨work, snapshot, stage'⟩ ∧ Behind s' stage' ∧ (stage.IsDone → stage' = stage) :=
    ⟨stage, hitems ▸ (List.getElem?_append_left (List.getElem?_eq_some_iff.1 hk).1).trans hk,
      hstays, fun _ => rfl⟩
  have hput {n : ℕ} {w : WorkItem} {sn : Snapshot} {st st' : Stage}
      (hn : s.items[n]? = some ⟨w, sn, st⟩)
      (hitems : s'.items = (s.put n ⟨w, sn, st'⟩).items)
      (hok : ¬ Behind s st ∨ ¬ st.IsDone ∧ Behind s' st') : ∃ stage', s'.items[k]? =
        some ⟨work, snapshot, stage'⟩ ∧ Behind s' stage' ∧ (stage.IsDone → stage' = stage) := by
    rw [hitems, WorkerState.getElem?_put hn]
    split_ifs with hkn
    · rw [hkn, hn] at hk
      cases hk
      rcases hok with hnot | ⟨hdone, hbehind'⟩
      · exact absurd hbehind hnot
      · exact ⟨st', rfl, hbehind', fun h => absurd h hdone⟩
    · exact ⟨stage, hk, hstays, fun _ => rfl⟩
  cases hm with
  | routed _ => exact hconcat rfl
  | decided _ _ => exact hconcat rfl
  | pass hn _ => exact hput hn rfl (.inl id)
  | begin hn _ => exact hput hn rfl (.inl id)
  | accepted _ _ _ _ => exact hsame rfl
  | refused hn hq _ =>
    refine hput hn rfl (.inl ?_)
    rintro ⟨key, followers, stage, hleader⟩
    rw [hq] at hleader
    cases hleader
  | finish _ _ => exact hsame rfl
  | take _ _ => exact hsame rfl
  | @deliver n _ _ _ _ _ _ _ _ _ _ _ _ _ _ hq hm' hitem =>
    obtain ⟨rfl, -⟩ := hinv.deliver (n := n) hq hm' hitem
    exact hput hitem rfl (.inr ⟨id, trivial⟩)
  | @own _ n _ _ stage' _ _ _ hn hanswerable _ =>
    refine hput hn rfl (.inr ⟨?_, trivial⟩)
    intro hdone
    cases stage' with
    | done deliverer outcome => exact hanswerable
    | _ => exact hdone

end

/-! ## The workers and their calls -/

/-- The workers, and the call that each query has been forwarded with. -/
structure TrafficState where
  workers : WorkerState
  forwarded : ℕ → Option ForwardRun

inductive TrafficEvent
  | worker (e : WorkerEvent)
  /-- The call `run` for the query `n` has returned; `upstream` is the server that it names. -/
  | forward (n : ℕ) (run : ForwardRun) (upstream : Text) (durationMs : ℕ) (io : Surroundings)
  | answer (n : ℕ) (io : Surroundings)

/-- The events with the counters of a query. -/
def WorkerEvent.hasTraffic : WorkerEvent → Bool
  | .forward _ _ _ _ => true
  | .answer _ _ _ => true
  | _ => false

namespace TrafficState
variable (s : TrafficState) (n : ℕ)

/-- The counters of the query (`metadata.upstream_traffic`). -/
def recorded : UpstreamTraffic :=
  (s.forwarded n).elim {} fun run => run.last.upstreamTraffic

/-- What has crossed the wire for it. -/
def onWire : UpstreamTraffic := (s.forwarded n).elim {} ForwardRun.wireBytes

end TrafficState

section
variable (context : WorkerContext) (hash : QueryCacheKey → ℕ)

def trafficStep (s : TrafficState) : TrafficEvent → Option TrafficState
  | .worker e =>
    if e.hasTraffic then none
    else (workerStep context hash s.workers e).map fun workers => { s with workers }
  | .forward n run upstream durationMs io =>
    match s.workers.items[n]? with
    | some ⟨work, _, _⟩ =>
      let result := run.result.map fun reply => ⟨reply.packet, upstream, durationMs⟩
      if run.call.query = work.query then
        (workerStep context hash s.workers
          (.forward n result run.last.upstreamTraffic io)).map fun workers =>
            { workers, forwarded := Function.update s.forwarded n (some run) }
      else none
    | none => none
  | .answer n io =>
    (workerStep context hash s.workers (.answer n (s.recorded n) io)).map fun workers =>
      { s with workers }

def trafficMachine (shardCount : ℕ) : Machine TrafficState TrafficEvent where
  init := ⟨(workerMachine context hash shardCount).init, fun _ => none⟩
  step := trafficStep context hash

end

/-! ## Accounts -/

/-- The entry is about an answer to its query, with the counters of that query. -/
def Logged (s : TrafficState) (offer : Offer) : Prop :=
  ∃ work snapshot deliverer outcome h report,
    s.workers.items[offer.query]? = some ⟨work, snapshot, .done deliverer outcome⟩ ∧
    (offer.query, h) ∈ s.workers.server.handed ∧
    Told work outcome (s.recorded offer.query) h report ∧
    offer.entry.entry = queryLogEntry (work.metadata report.upstreamTraffic) work.client report

structure Accounts (context : WorkerContext) (hash : QueryCacheKey → ℕ) (shardCount : ℕ)
    (s : TrafficState) : Prop where
  reachable : (workerMachine context hash shardCount).Reachable s.workers
  behind : ∀ n run, s.forwarded n = some run → ∃ work snapshot stage,
    s.workers.items[n]? = some ⟨work, snapshot, stage⟩ ∧ Behind s.workers stage ∧
      run.call.query = work.query
  logged : ∀ offer ∈ s.workers.server.offered, Logged s offer

section
variable {context : WorkerContext} {hash : QueryCacheKey → ℕ} {shardCount : ℕ}

theorem stage_of_forward {s s' : WorkerState} {n : ℕ} {result : ForwardResult}
    {upstreamTraffic : UpstreamTraffic} {io : Surroundings}
    (h : workerStep context hash s (.forward n result upstreamTraffic io) = some s') :
    ∃ work snapshot stage stage', s.items[n]? = some ⟨work, snapshot, stage⟩ ∧
      (stage = .alone ∨ ∃ q, stage = .pending q ∧ Leads s q) ∧
      s'.items[n]? = some ⟨work, snapshot, stage'⟩ ∧ Behind s' stage' := by
  simp only [workerStep] at h
  split at h
  · rename_i work snapshot hn
    cases h
    exact ⟨work, snapshot, _, _, hn, .inl rfl,
      (WorkerState.getElem?_put hn _ n).trans (if_pos rfl), trivial⟩
  · rename_i work snapshot q hn
    obtain ⟨pending, hpending, rfl⟩ := Option.map_eq_some_iff.1 h
    cases pendingStep_cases hpending with
    | @finish _ _ key followers hq =>
      refine ⟨work, snapshot, _, _, hn, .inr ⟨q, rfl, key, followers, _, hq⟩, hn, ?_⟩
      exact ⟨key, followers, _, (PendingState.getElem?_put hq _ q).trans (if_pos rfl)⟩
  · cases h

theorem mem_offers {filter : FilterRuntime} {n : ℕ} {work : WorkItem} {queue : QueueOutcome}
    {report : QueryReport} {offer : Offer} (h : offer ∈ offers context filter n work queue report) :
    offer.query = n ∧ offer.entry.entry =
      queryLogEntry (work.metadata report.upstreamTraffic) work.client report := by
  unfold offers at h
  split_ifs at h
  · rw [List.mem_singleton.1 h]
    exact ⟨rfl, rfl⟩
  · cases h

/-- **A step of the workers keeps the accounts**, if the calls of its queries are recorded. -/
theorem Accounts.move {s : TrafficState} {workers : WorkerState} {e : WorkerEvent}
    {forwarded : ℕ → Option ForwardRun} (h : Accounts context hash shardCount s)
    (hstep : workerStep context hash s.workers e = some workers)
    (hforwarded : ∀ k, forwarded k = s.forwarded k ∨ ∃ run result io item,
      e = .forward k result run.last.upstreamTraffic io ∧ forwarded k = some run ∧
        s.workers.items[k]? = some item ∧ run.call.query = item.work.query)
    (htraffic : ∀ n upstreamTraffic, ((∃ result io, e = .forward n result upstreamTraffic io) ∨
      ∃ io, e = .answer n upstreamTraffic io) →
        upstreamTraffic = TrafficState.recorded ⟨workers, forwarded⟩ n) :
    Accounts context hash shardCount ⟨workers, forwarded⟩ := by
  have hinv := (counted h.reachable).1
  have hm := workerStep_move hstep
  -- a query without a call has no bytes to report
  have hnone {n : ℕ} (hitem : ∀ work snapshot stage,
      s.workers.items[n]? = some ⟨work, snapshot, stage⟩ →
        stage ≠ .alone ∧ ¬ Behind s.workers stage) :
      TrafficState.recorded ⟨workers, forwarded⟩ n = {} := by
    unfold TrafficState.recorded
    rcases hforwarded n with hsame | ⟨run, result, io, item, rfl, -, -, -⟩
    · dsimp only
      cases hrun : s.forwarded n with
      | none => rw [hsame, hrun, Option.elim_none]
      | some run =>
        obtain ⟨work, snapshot, stage, hn, hbehind, -⟩ := h.behind n run hrun
        exact absurd hbehind (hitem work snapshot stage hn).2
    · obtain ⟨work, snapshot, stage, stage', hn, hstage, -⟩ := stage_of_forward hstep
      obtain ⟨halone, hbehind⟩ := hitem work snapshot stage hn
      rcases hstage with rfl | ⟨q, rfl, hleads⟩
      · exact absurd rfl halone
      · exact absurd hleads hbehind
  refine ⟨h.reachable.step hstep, fun n run hrun => ?_, fun offer hoffer => ?_⟩
  · rcases hforwarded n with hsame | ⟨run', result, io, item, rfl, hrun', hn, hquery⟩
    · obtain ⟨work, snapshot, stage, hn, hbehind, hquery⟩ := h.behind n run (hsame ▸ hrun)
      obtain ⟨stage', hn', hbehind', -⟩ := hm.behind hinv hn hbehind
      exact ⟨work, snapshot, stage', hn', hbehind', hquery⟩
    · obtain ⟨work, snapshot, stage, stage', hold, -, hn', hbehind'⟩ := stage_of_forward hstep
      cases hrun.symm.trans hrun'
      cases hold.symm.trans hn
      exact ⟨work, snapshot, stage', hn', hbehind', hquery⟩
  · have hkeep (hhanded : ∀ x ∈ s.workers.server.handed, x ∈ workers.server.handed)
        (hold : offer ∈ s.workers.server.offered) : Logged ⟨workers, forwarded⟩ offer := by
      obtain ⟨work, snapshot, deliverer, outcome, handed, report, hn, hmem, htold, hentry⟩ :=
        h.logged offer hold
      obtain ⟨stage', hn', -, hsame⟩ := hm.behind hinv hn trivial
      rw [hsame trivial] at hn'
      refine ⟨work, snapshot, deliverer, outcome, handed, report, hn', hhanded _ hmem, ?_, hentry⟩
      rcases hforwarded offer.query with heq | ⟨run, result, io, item, rfl, -, -, -⟩
      · unfold TrafficState.recorded at htold ⊢
        dsimp only
        rwa [heq]
      · obtain ⟨w, sn, stage, _, hold', hstage, -⟩ := stage_of_forward hstep
        rw [hn] at hold'
        cases hold'
        rcases hstage with heq | ⟨q, heq, -⟩ <;> cases heq
    rcases workerStep_tells hinv hstep with ⟨hhanded, hoffered⟩ |
      ⟨n, work, snapshot, deliverer, outcome, filter, upstreamTraffic, hn, hreports, handed, queue,
        report, htold, hhanded, hoffered⟩
    · exact hkeep (fun x hx => hhanded ▸ hx) (hoffered ▸ hoffer)
    · dsimp only at hoffer
      rw [hoffered] at hoffer
      rcases List.mem_append.1 hoffer with hold | hnew
      · exact hkeep (fun x hx => hhanded ▸ List.mem_append_left _ hx) hold
      · have hrecorded : upstreamTraffic = TrafficState.recorded ⟨workers, forwarded⟩ n := by
          cases hreports with
          | fresh =>
            refine (hnone fun w sn st hk => ?_).symm
            rw [List.getElem?_eq_none (Nat.le_refl _)] at hk
            cases hk
          | routed hk =>
            refine (hnone fun w sn st hk' => ?_).symm
            cases hk.symm.trans hk'
            exact ⟨by simp, id⟩
          | follower hk hq =>
            refine (hnone fun w sn st hk' => ?_).symm
            cases hk.symm.trans hk'
            refine ⟨by simp, ?_⟩
            rintro ⟨key, followers, stage, hleader⟩
            rw [hq] at hleader
            cases hleader
          | forwarded => exact htraffic _ _ (.inl ⟨_, _, rfl⟩)
          | answered => exact htraffic _ _ (.inr ⟨_, rfl⟩)
        obtain ⟨rfl, hentry⟩ := mem_offers hnew
        refine ⟨work, snapshot, deliverer, outcome, handed, report, hn, ?_, hrecorded ▸ htold,
          hentry⟩
        exact hhanded ▸ List.mem_append_right _ (List.mem_singleton_self _)

theorem accounts_reachable {s : TrafficState}
    (h : (trafficMachine context hash shardCount).Reachable s) :
    Accounts context hash shardCount s := by
  refine h.inv ⟨.init, fun n run hrun => (by cases hrun), fun offer hoffer => (by cases hoffer)⟩ ?_
  rintro s e s' haccounts hstep
  cases e with
  | worker e =>
    simp only [trafficMachine, trafficStep] at hstep
    split_ifs at hstep with hfree
    obtain ⟨workers, hworkers, rfl⟩ := Option.map_eq_some_iff.1 hstep
    refine haccounts.move hworkers (fun k => .inl rfl) fun n upstreamTraffic hevent => ?_
    rcases hevent with ⟨result, io, rfl⟩ | ⟨io, rfl⟩
    · exact absurd rfl hfree
    · exact absurd rfl hfree
  | forward n run upstream durationMs io =>
    simp only [trafficMachine, trafficStep] at hstep
    split at hstep
    · rename_i work snapshot stage hn
      split_ifs at hstep with hquery
      obtain ⟨workers, hworkers, rfl⟩ := Option.map_eq_some_iff.1 hstep
      refine haccounts.move hworkers (fun k => ?_) fun k upstreamTraffic hevent => ?_
      · by_cases hkn : k = n
        · subst hkn
          exact .inr ⟨run, _, io, _, rfl, Function.update_self .., hn, hquery⟩
        · exact .inl (Function.update_of_ne hkn ..)
      · rcases hevent with ⟨result, io', heq⟩ | ⟨io', heq⟩
        · cases heq
          unfold TrafficState.recorded
          dsimp only
          rw [Function.update_self, Option.elim_some]
        · cases heq
    · cases hstep
  | answer n io =>
    simp only [trafficMachine, trafficStep] at hstep
    obtain ⟨workers, hworkers, rfl⟩ := Option.map_eq_some_iff.1 hstep
    refine haccounts.move hworkers (fun k => .inl rfl) fun k upstreamTraffic hevent => ?_
    rcases hevent with ⟨result, io', heq⟩ | ⟨io', heq⟩
    · cases heq
    · cases heq
      rfl

end

/-! ## When an entry is exact -/

/-- The bytes that have left for a target. -/
def Handed.bytesLeft : Handed → ℕ
  | .response _ _ (some sent) => sent.length
  | _ => 0

/-- The entry says what has crossed the wire: to the client, to the upstream servers and from
    them; and saved bytes are those of a hit that was delivered. -/
structure CountsWire (s : TrafficState) (offer : Offer) : Prop where
  clientBytesOut : offer.entry.entry.traffic.clientBytesOut =
    ((s.workers.server.handedTo offer.query).map Handed.bytesLeft).sum
  upstreamBytesOut : offer.entry.entry.traffic.upstreamBytesOut = (s.onWire offer.query).bytesOut
  upstreamBytesIn : offer.entry.entry.traffic.upstreamBytesIn = (s.onWire offer.query).bytesIn
  cacheSavedBytes : offer.entry.entry.traffic.cacheSavedBytes ≠ 0 → ∃ response sent,
    .response .cached response (some sent) ∈ s.workers.server.handedTo offer.query

/-- The answer has left whole or not at all, and in that case it was none of those that are
    logged anyway; and the attempts of the call are balanced. -/
structure Unaltered (s : TrafficState) (offer : Offer) : Prop where
  whole : ∀ work snapshot stage, s.workers.items[offer.query]? = some ⟨work, snapshot, stage⟩ →
    ∀ origin response sent,
      .response origin response (some sent) ∈ s.workers.server.handedTo offer.query →
        work.responseTarget = .udp → response.length ≤ udpPayloadSize work.query
  failed : ∀ work snapshot deliverer outcome,
    s.workers.items[offer.query]? = some ⟨work, snapshot, .done deliverer outcome⟩ →
      ∀ origin response, .response origin response none ∈ s.workers.server.handedTo offer.query →
        outcome.toldAnyway = false ∧ outcome.isCached = false
  balanced : ∀ run, s.forwarded offer.query = some run →
    Balanced run.call.query run.last.attempts

section
variable {work : WorkItem} {io : Surroundings} {outcome : Outcome} {response sent : Packet}

theorem length_truncateResponseForUdp_le {query response sent : Packet} {maxSize : ℕ}
    (h : truncateResponseForUdp query response maxSize = some sent) : sent.length ≤ maxSize := by
  unfold truncateResponseForUdp at h
  split_ifs at h with hfits
  · cases h
    exact hfits
  · split at h
    · cases h
    · split at h
      · dsimp only at h
        split_ifs at h with hle
        cases h
        exact hle
      · cases h

theorem length_sentBytes_le (hudp : work.responseTarget = .udp)
    (h : sentBytes work io response = .ok sent) : sent.length ≤ udpPayloadSize work.query := by
  unfold sentBytes at h
  rw [hudp] at h
  dsimp only at h
  split at h
  · cases h
  · rename_i bytes hbytes
    have hle : bytes.length ≤ udpPayloadSize work.query := by
      split_ifs at hbytes with hfits
      · cases hbytes
        exact hfits
      · exact length_truncateResponseForUdp_le hbytes
    cases hsend : io.sendError with
    | none =>
      rw [hsend] at h
      cases h
      exact hle
    | some error =>
      rw [hsend] at h
      cases h

theorem length_sentBytes (h : sentBytes work io response = .ok sent) :
    response.length = sent.length ↔
      (work.responseTarget = .udp → response.length ≤ udpPayloadSize work.query) := by
  have hsome : (sentBytes work io response).toOption = some sent := by
    rw [h]
    rfl
  constructor
  · exact fun hlength hudp => hlength.le.trans (length_sentBytes_le hudp h)
  · intro hfits
    rcases sentBytes_eq_some hsome with rfl | ⟨hudp, hcut⟩
    · rfl
    · rw [truncateResponseForUdp, if_pos (hfits hudp)] at hcut
      rw [Option.some.inj hcut]

end

section
variable {context : WorkerContext} {hash : QueryCacheKey → ℕ} {shardCount : ℕ}
  {s : TrafficState} {offer : Offer}

theorem recorded_eq_onWire_iff (n : ℕ) : s.recorded n = s.onWire n ↔
    ∀ run, s.forwarded n = some run → Balanced run.call.query run.last.attempts := by
  unfold TrafficState.recorded TrafficState.onWire
  cases hrun : s.forwarded n with
  | none => exact iff_of_true rfl fun run hsome => by cases hsome
  | some run =>
    rw [Option.elim_some, Option.elim_some, run.recorded_exact_iff]
    constructor
    · rintro h _ ⟨⟩
      exact h
    · exact fun h => h run rfl

theorem handedTo_eq (h : Accounts context hash shardCount s) {work : WorkItem}
    {snapshot : Snapshot} {deliverer n : ℕ} {outcome : Outcome} {handed : Handed}
    (hn : s.workers.items[n]? = some ⟨work, snapshot, .done deliverer outcome⟩)
    (hmem : (n, handed) ∈ s.workers.server.handed) :
    s.workers.server.handedTo n = [handed] := by
  obtain ⟨-, -, -, hcounted⟩ := counted h.reachable
  obtain ⟨-, -, ⟨only, -, honly⟩, -⟩ := hcounted.settled n work snapshot _ hn
  have hhanded : handed ∈ s.workers.server.handedTo n :=
    List.mem_map.2 ⟨(n, handed), List.mem_filter.2 ⟨hmem, by simp⟩, rfl⟩
  rw [honly, List.mem_singleton] at hhanded
  rw [hhanded, honly]

theorem client_exact_iff {work : WorkItem} {outcome : Outcome} {handed : Handed}
    {upstreamTraffic : UpstreamTraffic} {report : QueryReport}
    (htold : Told work outcome upstreamTraffic handed report) :
    (((report.response.map List.length).getD 0 = handed.bytesLeft) ∧
      ((if report.source = .cache then
          work.query.length + (report.response.map List.length).getD 0 else 0) ≠ 0 →
        ∃ response sent, handed = .response .cached response (some sent))) ↔
    (∀ origin response sent, handed = .response origin response (some sent) →
      work.responseTarget = .udp → response.length ≤ udpPayloadSize work.query) ∧
    ∀ origin response, handed = .response origin response none →
      outcome.toldAnyway = false ∧ outcome.isCached = false := by
  obtain ⟨hnames, hsource, -⟩ := htold
  generalize report.response = named at hnames
  cases hnames with
  | nothing hcached =>
    refine iff_of_true ⟨rfl, fun hsaved => absurd ?_ hsaved⟩ ⟨?_, ?_⟩
    · rw [if_neg]
      rw [hsource, hcached]
      exact Bool.false_ne_true
    · rintro origin response sent ⟨⟩
    · rintro origin response ⟨⟩
  | @left io origin response sent hsent horigin =>
    have hlength := length_sentBytes hsent
    change (response.length = sent.length ∧ _) ↔ _
    rw [hlength]
    constructor
    · rintro ⟨hfits, -⟩
      refine ⟨?_, ?_⟩
      · rintro _ _ _ ⟨⟩
        exact hfits
      · rintro _ _ ⟨⟩
    · rintro ⟨hfits, -⟩
      refine ⟨hfits _ _ _ rfl, fun hsaved => ?_⟩
      by_cases hcache : report.source = .cache
      · exact ⟨response, sent, by rw [horigin (hsource.1 hcache)]⟩
      · exact absurd (if_neg hcache) hsaved
  | @failed origin response htold =>
    have hpos : work.query.length ≠ 0 := work.length_query_pos.ne'
    constructor
    · rintro ⟨-, hsaved⟩
      refine ⟨?_, ?_⟩
      · rintro _ _ _ ⟨⟩
      · rintro _ _ ⟨⟩
        refine ⟨htold, ?_⟩
        by_contra hcached
        rw [Bool.not_eq_false] at hcached
        rw [if_pos (hsource.2 hcached)] at hsaved
        obtain ⟨_, _, heq⟩ := hsaved (by simpa using hpos)
        cases heq
    · rintro ⟨-, hfailed⟩
      obtain ⟨-, hcached⟩ := hfailed _ _ rfl
      refine ⟨rfl, fun hsaved => absurd (if_neg ?_) hsaved⟩
      rw [hsource, hcached]
      exact Bool.false_ne_true
  | @toldAnyway origin response htold hne =>
    refine iff_of_false ?_ ?_
    · rintro ⟨hlength, -⟩
      exact hne (List.length_eq_zero_iff.1 hlength)
    · rintro ⟨-, hfailed⟩
      rw [(hfailed _ _ rfl).1] at htold
      cases htold

/-- **An entry says what has crossed the wire** exactly if its answer has left unaltered and
    the attempts of its call are balanced. -/
theorem logged_traffic_iff (h : (trafficMachine context hash shardCount).Reachable s)
    (hoffer : offer ∈ s.workers.server.offered) : CountsWire s offer ↔ Unaltered s offer := by
  have haccounts := accounts_reachable h
  obtain ⟨work, snapshot, deliverer, outcome, handed, report, hn, hmem, htold, hentry⟩ :=
    haccounts.logged offer hoffer
  have hhanded := handedTo_eq haccounts hn hmem
  have hclient := client_exact_iff htold
  have hupstream := recorded_eq_onWire_iff (s := s) offer.query
  rw [← htold.upstreamTraffic] at hupstream
  constructor
  · rintro ⟨hout, hsent, hreceived, hsaved⟩
    rw [hentry] at hout hsent hreceived hsaved
    rw [hhanded, List.map_singleton, List.sum_singleton] at hout
    rw [hhanded] at hsaved
    obtain ⟨hwhole, hfailed⟩ := hclient.1 ⟨hout, fun hne => by
      obtain ⟨response, sent, hmem'⟩ := hsaved hne
      exact ⟨response, sent, (List.mem_singleton.1 hmem').symm⟩⟩
    constructor
    case whole =>
      intro work' snapshot' stage' hn' origin response sent hmem'
      cases hn.symm.trans hn'
      exact hwhole origin response sent (List.mem_singleton.1 (hhanded ▸ hmem')).symm
    case failed =>
      intro work' snapshot' deliverer' outcome' hn' origin response hmem'
      cases hn.symm.trans hn'
      exact hfailed origin response (List.mem_singleton.1 (hhanded ▸ hmem')).symm
    case balanced =>
      refine hupstream.1 ?_
      have htraffic {a b : UpstreamTraffic} (hout : a.bytesOut = b.bytesOut)
          (hin : a.bytesIn = b.bytesIn) : a = b := by
        cases a
        cases b
        cases hout
        cases hin
        rfl
      exact htraffic hsent hreceived
  · rintro ⟨hwhole, hfailed, hbalanced⟩
    have hrecorded := hupstream.2 hbalanced
    obtain ⟨hout, hsaved⟩ := hclient.2 ⟨fun origin response sent heq =>
        hwhole work snapshot _ hn origin response sent (by rw [hhanded, heq]; simp),
      fun origin response heq =>
        hfailed work snapshot deliverer outcome hn origin response (by rw [hhanded, heq]; simp)⟩
    constructor
    case clientBytesOut =>
      rw [hentry, hhanded, List.map_singleton, List.sum_singleton]
      exact hout
    case upstreamBytesOut =>
      rw [hentry]
      exact congrArg UpstreamTraffic.bytesOut hrecorded
    case upstreamBytesIn =>
      rw [hentry]
      exact congrArg UpstreamTraffic.bytesIn hrecorded
    case cacheSavedBytes =>
      intro hne
      rw [hentry] at hne
      obtain ⟨response, sent, heq⟩ := hsaved hne
      exact ⟨response, sent, by rw [hhanded, heq]; exact List.mem_singleton_self _⟩

end

/-! ## A hit -/

/-- A query that is answered from the cache, with the surroundings of its answer. -/
def hitRun (io : Surroundings) : List TrafficEvent :=
  [.worker (.accept plainWork ⟨rebindingOnly, false, ⟨0, 0⟩⟩ {}),
    .worker (.lookup 0 (some publicResponse) io)]

/-- A hit that is delivered is counted as it should be. -/
theorem deliveredHit_exact : ∃ s offer, offer ∈ s.workers.server.offered ∧ CountsWire s offer ∧
    offer.entry.entry.traffic.cacheSavedBytes = 54 := by
  have hrun : (trafficMachine {} (fun _ => 0) 4).run (trafficMachine {} (fun _ => 0) 4).init
      (hitRun {}) = some _ := rfl
  refine ⟨_, _, List.mem_singleton.2 rfl, (logged_traffic_iff ⟨_, hrun⟩
    (List.mem_singleton.2 rfl)).2 ?_, rfl⟩
  constructor
  case whole =>
    intro work snapshot stage hn origin response sent hmem hudp
    cases hn
    cases hudp
  case failed =>
    intro work snapshot deliverer outcome hn origin response hmem
    cases List.mem_singleton.1 hmem
  case balanced =>
    intro run hsome
    cases hsome

/-- **A hit that is not delivered** is logged as saved. -/
theorem unsent_hit_saves : ¬ ∀ (context : WorkerContext) (hash : QueryCacheKey → ℕ)
    (shardCount : ℕ) (s : TrafficState), (trafficMachine context hash shardCount).Reachable s →
      ∀ offer ∈ s.workers.server.offered, CountsWire s offer := by
  intro hall
  have hrun : (trafficMachine {} (fun _ => 0) 4).run (trafficMachine {} (fun _ => 0) 4).init
      (hitRun { sendError := some [] }) = some _ := rfl
  have hsaved := (hall _ _ _ _ ⟨_, hrun⟩ _ (List.mem_singleton.2 rfl)).cacheSavedBytes
  obtain ⟨response, sent, hmem⟩ := hsaved (by decide)
  cases List.mem_singleton.1 hmem

end DnsBlackhole.Worker
