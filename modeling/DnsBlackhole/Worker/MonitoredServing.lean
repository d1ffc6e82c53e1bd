/-
  The workers, as the monitoring interface knows them.

  A handler changes the statistics by calls of recorders, and the queue to the database by
  `queue_query_log_with_match` (`RecordsOnly`); a lookup of a worker is one of the cache.

  * **`serving_monitored`**: every state that the workers reach with their cache is one of
    `monitoredMachine`.
-/
import DnsBlackhole.Worker.Monitored
import DnsBlackhole.Worker.Protected
import DnsBlackhole.Worker.Serving

namespace DnsBlackhole.Worker
open Lib Cache DnsBlackhole.Filter Protocol Rules
open Admin (DnsStats StatsEvent)

/-! ## Handlers -/

/-- What the interface and the database know of the workers. -/
def Server.monitored (server : Server) (cache : Option MeteredStore) : MonitoredServer :=
  ⟨server.stats, cache, accepted server.offered⟩

/-- A call of a recorder, of `queue_query_log_with_match`, or of a sender. -/
inductive RecorderStep (context : WorkerContext) (s : Server) : Server → Prop
  | record (event : StatsEvent) : RecorderStep context s
      { s with stats := s.stats.record context.detailedRuntimeStats event }
  | offer (filter : FilterRuntime) (n : ℕ) (work : WorkItem) (queue : QueueOutcome)
      (report : QueryReport) : RecorderStep context s
      { s with offered := s.offered ++ offers context filter n work queue report }
  | hand (handed : List (ℕ × Handed)) : RecorderStep context s { s with handed }

abbrev Recorders (context : WorkerContext) := Relation.ReflTransGen (RecorderStep context)

/-- A program that changes nothing else. -/
def RecordsOnly (context : WorkerContext) {α : Type} (m : Handler α) : Prop :=
  ∀ s, Recorders context s (m s).2

section
variable {context : WorkerContext} {filter : FilterRuntime} {n : ℕ} {work : WorkItem}
  {io : Surroundings}

theorem RecordsOnly.bind {α β : Type} {m : Handler α} {f : α → Handler β}
    (hm : RecordsOnly context m) (hf : ∀ a, RecordsOnly context (f a)) :
    RecordsOnly context (m >>= f) :=
  fun s => (hm s).trans (hf _ _)

/-! ## Parts of handlers -/

theorem recordsOnly_record {f : DnsStats → DnsStats} (event : StatsEvent)
    (hf : ∀ stats, f stats = stats.record context.detailedRuntimeStats event) :
    RecordsOnly context (record f) := by
  intro s
  rw [record_apply, hf]
  exact .single (.record event)

theorem recordsOnly_recordQuery : RecordsOnly context (recordQuery context work io) :=
  recordsOnly_record (.query work.question.domain work.client.display io.minute) fun _ => rfl

theorem recordsOnly_recordError (error : Text) : RecordsOnly context (recordError error) :=
  recordsOnly_record (.error error) fun _ => rfl

theorem recordsOnly_sendNoResponse : RecordsOnly context (sendNoResponse n) :=
  fun _ => .single (.hand _)

theorem recordsOnly_sendDnsResponse (origin : ResponseOrigin) (response : Packet) :
    RecordsOnly context (sendDnsResponse n work io origin response) :=
  fun _ => .single (.hand _)

theorem RecordsOnly.sent {origin : ResponseOrigin} {response : Packet}
    {f : Except Text Unit → Handler Unit}
    (herror : ∀ error, RecordsOnly context (f (.error error)))
    (hok : ∀ sent, RecordsOnly context (f (.ok sent))) :
    RecordsOnly context (sendDnsResponse n work io origin response >>= f) := by
  refine (recordsOnly_sendDnsResponse origin response).bind fun sent => ?_
  cases sent with
  | error error => exact herror error
  | ok sent => exact hok sent

/-- The call for an entry, and the note about an entry that was dropped. -/
theorem recordsOnly_queueQueryLog (report : QueryReport) :
    RecordsOnly context (queueQueryLog context filter n work io report) := by
  intro s
  have hs : Recorders context s
      { s with offered := s.offered ++ offers context filter n work io.queue report } :=
    .single (.offer filter n work io.queue report)
  unfold offers at hs
  unfold queueQueryLog
  by_cases hpersists : persists context filter work.question.domain = true
  · rw [if_pos hpersists] at hs ⊢
    refine hs.trans ?_
    cases io.queue with
    | accepted => exact .refl
    | full => exact recordsOnly_record (.persistenceQueueDrop _) (fun _ => rfl) _
    | disconnected => exact recordsOnly_record (.persistenceQueueDrop _) (fun _ => rfl) _
  · rw [if_neg hpersists]
    exact .refl

theorem recordsOnly_failure (error : Text) (report : QueryReport) :
    RecordsOnly context (do
      recordError error
      queueQueryLog context filter n work io report) :=
  (recordsOnly_recordError error).bind fun _ => recordsOnly_queueQueryLog report

/-! ## Branches -/

theorem recordsOnly_answerAny : RecordsOnly context (answerAny context filter n work io) := by
  have hrefused (report : QueryReport) :
      RecordsOnly context (do
        recordRefusedAny
        queueQueryLog context filter n work io report) :=
    (recordsOnly_record .refusedAny fun _ => rfl).bind fun _ => recordsOnly_queueQueryLog report
  unfold answerAny
  refine recordsOnly_recordQuery.bind fun _ => ?_
  cases buildErrorResponse work.query rcodeRefused with
  | none => exact recordsOnly_sendNoResponse.bind fun _ => hrefused _
  | some response =>
    exact .sent (fun _ => recordsOnly_failure _ _) fun _ => hrefused _

theorem recordsOnly_answerFixed (failure : Text) (source : QueryResponseSource)
    (response : Packet) :
    RecordsOnly context (answerFixed context filter n work io failure source response) := by
  unfold answerFixed
  refine recordsOnly_recordQuery.bind fun _ => ?_
  exact .sent (fun _ => recordsOnly_failure _ _) fun _ => recordsOnly_queueQueryLog _

theorem recordsOnly_answerBlocked (failure : Text) (ruleMatch : BlockMatch) :
    RecordsOnly context (answerBlocked context filter n work io failure ruleMatch) := by
  unfold answerBlocked
  exact .sent (fun _ => recordsOnly_recordQuery.bind fun _ => recordsOnly_failure _ _) fun _ =>
    (recordsOnly_record (.blockedQuery _ _ _ _) fun _ => rfl).bind fun _ =>
      recordsOnly_queueQueryLog _

theorem recordsOnly_answerSafeSearch (target : Text) :
    RecordsOnly context (answerSafeSearch context filter n work io target) := by
  unfold answerSafeSearch
  refine recordsOnly_recordQuery.bind fun _ => ?_
  exact .sent (fun _ => recordsOnly_failure _ _) fun _ => recordsOnly_queueQueryLog _

theorem recordsOnly_answerRuleRewrite (action : DnsRewriteAction) (ruleMatch : BlockMatch) :
    RecordsOnly context (answerRuleRewrite context filter n work io action ruleMatch) := by
  unfold answerRuleRewrite
  refine recordsOnly_recordQuery.bind fun _ => ?_
  refine (recordsOnly_sendDnsResponse .made _).bind fun sent => ?_
  cases ruleRewriteError _ sent with
  | some message => exact recordsOnly_failure _ _
  | none => exact recordsOnly_queueQueryLog _

/-- **Every decision** is carried out by recorders and entries. -/
theorem recordsOnly_handleDecision (decision : LocalDecision) :
    RecordsOnly context (handleDecision context filter n work io decision) := by
  cases decision with
  | refuseAny => exact recordsOnly_answerAny
  | rewrite target => exact recordsOnly_answerFixed _ _ _
  | blockService ruleMatch => exact recordsOnly_answerBlocked _ ruleMatch
  | safeSearch target => exact recordsOnly_answerSafeSearch target
  | ruleRewrite action ruleMatch => exact recordsOnly_answerRuleRewrite action ruleMatch
  | ruleBlock ruleMatch => exact recordsOnly_answerBlocked _ ruleMatch
  | localReverse => exact recordsOnly_answerFixed _ _ _
  | forward filteringActive clientFilteringEnabled routed => exact recordsOnly_recordQuery

/-! ## Deliveries -/

theorem recordsOnly_deliverResponseProtectionBlock (block : ResponseProtectionBlock)
    (upstream : Option UpstreamForwardResponse) (upstreamTraffic : UpstreamTraffic) :
    RecordsOnly context (deliverResponseProtectionBlock context filter n work io block upstream
        upstreamTraffic) := by
  unfold deliverResponseProtectionBlock
  refine (recordsOnly_record (.responseBlocked _ _ _ _ _) fun _ => rfl).bind fun _ => ?_
  exact .sent (fun _ => recordsOnly_failure _ _) fun _ => recordsOnly_queueQueryLog _

theorem recordsOnly_deliverCached (response : Packet) :
    RecordsOnly context (deliverCached context filter n work io response) := by
  unfold deliverCached
  exact .sent (fun _ => recordsOnly_failure _ _) fun _ => recordsOnly_queueQueryLog _

theorem recordsOnly_deliverForwardError (upstreamTraffic : UpstreamTraffic) (error : Text) :
    RecordsOnly context (deliverForwardError context filter n work io upstreamTraffic error) := by
  unfold deliverForwardError
  refine (recordsOnly_recordError error).bind fun _ => ?_
  exact recordsOnly_sendNoResponse.bind fun _ => recordsOnly_queueQueryLog _

theorem recordsOnly_deliverForwarded (upstreamTraffic : UpstreamTraffic)
    (result : ForwardResult) :
    RecordsOnly context (deliverForwarded context filter n work io upstreamTraffic result) := by
  cases result with
  | error error => exact recordsOnly_deliverForwardError upstreamTraffic error
  | ok forwarded =>
    unfold deliverForwarded
    exact .sent (fun _ => recordsOnly_failure _ _) fun _ =>
      (recordsOnly_record .forwarded fun _ => rfl).bind fun _ => recordsOnly_queueQueryLog _

theorem recordsOnly_deliverPendingFollower (result : ForwardResult) :
    RecordsOnly context (deliverPendingFollower context filter n work io result) := by
  cases result with
  | error error => exact recordsOnly_deliverForwardError {} error
  | ok forwarded =>
    unfold deliverPendingFollower
    exact .sent (fun _ => recordsOnly_failure _ _) fun _ => recordsOnly_queueQueryLog _

theorem recordsOnly_deliverOutcome (upstreamTraffic : UpstreamTraffic)
    (outcome : ForwardOutcome) :
    RecordsOnly context (deliverOutcome context filter n work io upstreamTraffic outcome) := by
  cases outcome with
  | checked result => exact recordsOnly_deliverForwarded upstreamTraffic result
  | blocked block forwarded =>
    exact recordsOnly_deliverResponseProtectionBlock block (some forwarded) upstreamTraffic

theorem recordsOnly_deliverToFollower (outcome : ForwardOutcome) :
    RecordsOnly context (deliverToFollower context filter n work io outcome) := by
  cases outcome with
  | checked result => exact recordsOnly_deliverPendingFollower result
  | blocked block forwarded =>
    exact recordsOnly_deliverResponseProtectionBlock block (some forwarded) {}

end

/-! ## Steps -/

section
variable {context : WorkerContext} {hash cacheHash : QueryCacheKey → ℕ} {config : DnsCacheConfig}
  {shardCount : ℕ}

/-- **A step of a worker** is one of recorders and entries. -/
theorem workerStep_recorders {s s' : WorkerState} {e : WorkerEvent}
    (h : workerStep context hash s e = some s') :
    Recorders context s.server s'.server := by
  cases e with
  | accept work snapshot io =>
    cases h
    exact recordsOnly_handleDecision _ s.server
  | lookup n hit io =>
    simp only [workerStep] at h
    split at h
    · split at h
      · cases h
        exact .refl
      · cases hit with
        | none =>
          cases h
          exact .refl
        | some response =>
          dsimp only at h
          split at h
          · cases h
            exact recordsOnly_deliverResponseProtectionBlock _ none {} s.server
          · cases h
            exact recordsOnly_deliverCached response s.server
    · cases h
  | begin n | register n | take n =>
    simp only [workerStep] at h
    split at h
    · obtain ⟨pending, -, rfl⟩ := Option.map_eq_some_iff.1 h
      exact .refl
    · cases h
  | forward n result upstreamTraffic io =>
    simp only [workerStep] at h
    split at h
    · cases h
      exact recordsOnly_deliverOutcome upstreamTraffic _ s.server
    · obtain ⟨pending, -, rfl⟩ := Option.map_eq_some_iff.1 h
      exact .refl
    · cases h
  | deliver n io =>
    simp only [workerStep] at h
    split at h
    · split at h
      · split at h
        · split at h
          · obtain ⟨pending, -, rfl⟩ := Option.map_eq_some_iff.1 h
            exact recordsOnly_deliverToFollower _ s.server
          · cases h
        · cases h
      · cases h
    · cases h
  | answer n upstreamTraffic io =>
    simp only [workerStep] at h
    split at h
    · split at h
      · cases h
        exact recordsOnly_deliverOutcome upstreamTraffic _ s.server
      · cases h
    · cases h

/-- A server whose workers have just been started. -/
abbrev startedMachine (context : WorkerContext) (hash : QueryCacheKey → ℕ)
    (config : DnsCacheConfig) (shardCount : ℕ) : Machine MonitoredServer MonitoredEvent :=
  monitoredMachine context hash config shardCount none []

/-- The interface knows the workers and their cache. -/
def Known (M : Machine MonitoredServer MonitoredEvent) (s : ServingState) : Prop :=
  ∃ cache, M.Reachable (s.workers.server.monitored cache) ∧
    cache.map MeteredStore.store = s.cache

theorem accepted_append (a b : List Offer) : accepted (a ++ b) = accepted a ++ accepted b := by
  rw [accepted, List.filter_append, List.map_append]
  rfl

theorem Recorders.reachable {s s' : Server} (h : Recorders context s s')
    {cache : Option MeteredStore} (hs : (startedMachine context cacheHash config
      shardCount).Reachable (s.monitored cache)) :
    (startedMachine context cacheHash config shardCount).Reachable (s'.monitored cache) := by
  induction h with
  | refl => exact hs
  | tail _ hstep ih =>
    cases hstep with
    | record event => exact ih.step (e := .record event) rfl
    | offer filter n work queue report =>
      refine ih.step (e := .queueQueryLog filter n work queue report) ?_
      unfold Server.monitored
      rw [accepted_append]
      rfl
    | hand handed => exact ih

theorem Known.work {s : ServingState}
    (h : Known (startedMachine context cacheHash config shardCount) s) {workers : WorkerState}
    (hrecorders : Recorders context s.workers.server workers.server) :
    Known (startedMachine context cacheHash config shardCount) { s with workers } := by
  obtain ⟨cache, hreachable, hcache⟩ := h
  exact ⟨cache, hrecorders.reachable hreachable, hcache⟩

theorem Known.operate {s : ServingState}
    (h : Known (startedMachine context cacheHash config shardCount) s) (op : StoreOp) :
    Known (startedMachine context cacheHash config shardCount) { s with
      cache := s.cache.map fun store => (storeStep cacheHash config store op).1 } := by
  obtain ⟨cache, hreachable, hcache⟩ := h
  cases cache with
  | none =>
    refine ⟨none, hreachable, ?_⟩
    rw [← hcache]
    rfl
  | some metered =>
    refine ⟨some (meteredStep cacheHash config metered (.store op)),
      hreachable.step (e := .cache (.store op)) rfl, ?_⟩
    rw [← hcache, Option.map_some, Option.map_some, Option.map_some, store_meteredStep]

theorem Known.step {s s' : ServingState} {e : ServingEvent}
    (h : Known (startedMachine context cacheHash config shardCount) s)
    (hstep : servingStep context hash cacheHash config s e = some s') :
    Known (startedMachine context cacheHash config shardCount) s' := by
  cases e with
  | worker e =>
    simp only [servingStep] at hstep
    split_ifs at hstep
    obtain ⟨workers, hworkers, rfl⟩ := Option.map_eq_some_iff.1 hstep
    exact h.work (workerStep_recorders hworkers)
  | lookup n now io =>
    simp only [servingStep] at hstep
    split at hstep
    · rename_i work snapshot stage hn
      obtain ⟨workers, hworkers, rfl⟩ := Option.map_eq_some_iff.1 hstep
      have hlooked : Known (startedMachine context cacheHash config shardCount) { s with
          cache := (s.hit cacheHash (queryCacheKey context snapshot work) work.query now).2 } := by
        unfold ServingState.hit
        cases queryCacheKey context snapshot work with
        | none => exact h
        | some key =>
          have hoperated := h.operate (.lookup key work.query now)
          cases hcache : s.cache with
          | none =>
            rw [hcache] at hoperated
            exact hoperated
          | some store =>
            rw [hcache] at hoperated
            exact hoperated
      exact hlooked.work (workerStep_recorders hworkers)
    · cases hstep
  | forward n attempt upstreamTraffic io =>
    simp only [servingStep] at hstep
    split at hstep
    · obtain ⟨workers, hworkers, rfl⟩ := Option.map_eq_some_iff.1 hstep
      exact h.work (workerStep_recorders hworkers)
    · cases hstep
  | insert n call order now =>
    simp only [servingStep] at hstep
    split at hstep
    · rename_i work snapshot stage store hn hstore
      split at hstep
      · rename_i key reply hkey hreply
        cases hstep
        have hoperated := h.operate (.insert order key reply.packet now)
        rw [hstore] at hoperated
        exact hoperated
      · cases hstep
    · cases hstep
  | finishRefresh key =>
    cases hstep
    exact h.operate (.finishRefresh key)
  | clear =>
    cases hstep
    exact h.operate .clear

/-- **The workers are monitored**: the statistics, the entries and the cache that they have
    reached are those of a monitored server. -/
theorem serving_monitored {cacheShardCount : ℕ} {s : ServingState}
    (h : (servingMachine context hash cacheHash config shardCount cacheShardCount).Reachable s) :
    Known (startedMachine context cacheHash config cacheShardCount) s := by
  refine h.inv ⟨MeteredStore.fromConfig config cacheShardCount, .init, ?_⟩
    fun s e s' hs hstep => hs.step hstep
  change (MeteredStore.fromConfig config cacheShardCount).map MeteredStore.store =
    DnsCacheStore.fromConfig config cacheShardCount
  unfold MeteredStore.fromConfig
  cases DnsCacheStore.fromConfig config cacheShardCount <;> rfl

end

/-- A query comes in, and is not found in the cache. -/
theorem missedQuery_monitored :
    let machine := servingMachine {} (fun _ => 0) (fun _ => 0) smallConfig 4 1
    ∃ s, machine.run machine.init [.worker (.accept plainWork ⟨rebindingOnly, false, ⟨0, 0⟩⟩ {}),
        .lookup 0 0 {}] = some s ∧ Known (startedMachine {} (fun _ => 0) smallConfig 1) s := by
  intro machine
  have hrun : machine.run machine.init [.worker (.accept plainWork
      ⟨rebindingOnly, false, ⟨0, 0⟩⟩ {}), .lookup 0 0 {}] = some _ := rfl
  exact ⟨_, hrun, serving_monitored ⟨_, hrun⟩⟩

end DnsBlackhole.Worker
