/-
  What the events of the workers can do.

  `WorkerMove` lists it: a query is accepted; it passes on without an answer; it
  makes a step among the pending queries; or it is answered, by its own worker
  (`own`) or by that of its leader (`deliver`).  The pending queries of the
  workers run as those of `pendingMachine`, and each of them is a query of the
  workers (`workers_run_pending`).
-/
import DnsBlackhole.Worker.Lines
import DnsBlackhole.Worker.Queries

namespace DnsBlackhole.Worker
open Lib Cache DnsBlackhole.Filter Protocol

/-- The query whose worker acts. -/
def WorkerEvent.actor : WorkerEvent → Option ℕ
  | .accept _ _ _ => none
  | .lookup n _ _ => some n
  | .begin n => some n
  | .register n => some n
  | .forward n _ _ _ => some n
  | .take n => some n
  | .deliver n _ => some n
  | .answer n _ _ => some n

def Stage.IsDone : Stage → Prop
  | .done _ _ => True
  | _ => False

/-- The query `n` has registered with the query `m`. -/
def WorkerState.Joined (s : WorkerState) (n m : ℕ) : Prop :=
  ∃ q p, s.owners[q]? = some n ∧ s.owners[p]? = some m ∧ s.pending.Follows q p

/-- The outcome is one of the evaluation of the query `work`: a response of others has
    passed its check. -/
def Outcome.Of (context : WorkerContext) (snapshot : Snapshot) (work : WorkItem) : Outcome → Prop
  | .decided decision => decision = localDecision context snapshot work.client work.question
  | .blocked block => ∃ response, protectionBlock context snapshot work response = some block
  | .cached found => protectionBlock context snapshot work found = none
  | .forwarded result => ∀ response, forwardedResponse result = some response →
      protectionBlock context snapshot work response = none

section
variable (context : WorkerContext) (hash : QueryCacheKey → ℕ) (s : WorkerState)

/-- The stages in which the worker of a query answers it by itself, with an outcome of
    its evaluation or, behind its followers, with what it has delivered to them. -/
def Answerable (snapshot : Snapshot) (work : WorkItem) (outcome : Outcome) : Stage → Prop
  | .routed => outcome.Of context snapshot work
  | .alone => outcome.Of context snapshot work
  | .pending q => ∃ key followers result,
      s.pending.queries[q]? = some ⟨key, .leader followers (.delivering result [])⟩ ∧
        outcome = result.outcome
  | .missed _ => False
  | .done _ _ => False

inductive WorkerMove : WorkerEvent → WorkerState → Prop
  | routed {work snapshot io} :
      (localDecision context snapshot work.client work.question).forwards = true →
      WorkerMove (.accept work snapshot io)
        { s with
          server := (recordQuery context work io s.server).2
          items := s.items ++ [⟨work, snapshot, .routed⟩] }
  | decided {work snapshot io decision} :
      decision = localDecision context snapshot work.client work.question →
      decision.forwards = false →
      WorkerMove (.accept work snapshot io)
        { s with
          server := (handleDecision context snapshot.filter s.items.length work io decision
            s.server).2
          items := s.items ++ [⟨work, snapshot, .done s.items.length (.decided decision)⟩] }
  | pass {n hit io work snapshot stage} : s.items[n]? = some ⟨work, snapshot, .routed⟩ →
      (stage = .alone ∨ ∃ key, stage = .missed key) →
      WorkerMove (.lookup n hit io) (s.put n ⟨work, snapshot, stage⟩)
  | begin {n work snapshot key pending} : s.items[n]? = some ⟨work, snapshot, .missed key⟩ →
      pendingStep hash s.pending (.begin key) = some pending →
      WorkerMove (.begin n)
        { s.put n ⟨work, snapshot, .pending s.pending.queries.length⟩ with
          pending, owners := s.owners ++ [n] }
  | accepted {n work snapshot q key p key' followers stage} :
      s.items[n]? = some ⟨work, snapshot, .pending q⟩ →
      s.pending.queries[q]? = some ⟨key, .joining p⟩ →
      s.pending.queries[p]? = some ⟨key', .leader (some followers) stage⟩ →
      followers.length < maxPendingFollowers →
      WorkerMove (.register n) { s with pending := s.pending.accept q p key key' followers stage }
  | refused {n work snapshot q key p} : s.items[n]? = some ⟨work, snapshot, .pending q⟩ →
      s.pending.queries[q]? = some ⟨key, .joining p⟩ →
      pendingStep hash s.pending (.register q) = some (s.pending.put q ⟨key, .alone⟩) →
      WorkerMove (.register n)
        { s.put n ⟨work, snapshot, .alone⟩ with pending := s.pending.put q ⟨key, .alone⟩ }
  | finish {n work snapshot q result upstreamTraffic io pending} :
      s.items[n]? = some ⟨work, snapshot, .pending q⟩ →
      pendingStep hash s.pending (.finish q (forwardOutcome context snapshot work result)) =
        some pending →
      WorkerMove (.forward n result upstreamTraffic io) { s with pending }
  | take {n work snapshot q pending} : s.items[n]? = some ⟨work, snapshot, .pending q⟩ →
      pendingStep hash s.pending (.take q) = some pending →
      WorkerMove (.take n) { s with pending }
  | deliver {n io work snapshot q key followers outcome follower rest m work' snapshot' stage} :
      s.items[n]? = some ⟨work, snapshot, .pending q⟩ →
      s.pending.queries[q]? =
        some ⟨key, .leader followers (.delivering outcome (follower :: rest))⟩ →
      s.owners[follower]? = some m → s.items[m]? = some ⟨work', snapshot', stage⟩ →
      WorkerMove (.deliver n io)
        { s.settle m ⟨work', snapshot', .done n outcome.outcome⟩
            (deliverToFollower context snapshot.filter m work' io outcome) with
          pending :=
            { s.pending.put q ⟨key, .leader followers (.delivering outcome rest)⟩ with
              delivered := s.pending.delivered ++ [⟨q, follower, outcome⟩] } }
  | own {e n work snapshot stage outcome} {m : Handler Unit} : e.actor = some n →
      s.items[n]? = some ⟨work, snapshot, stage⟩ →
      Answerable context s snapshot work outcome stage →
      (∀ server, Answered context snapshot.filter n work 0 outcome.blocks outcome.foreign server
        (m server).2) →
      WorkerMove e (s.settle n ⟨work, snapshot, .done n outcome⟩ m)

end

/-! ## Outcomes -/

section
variable {context : WorkerContext} {snapshot : Snapshot} {filter : FilterRuntime} {n : ℕ}
  {work : WorkItem} {io : Surroundings}

theorem deliverOutcome_answered (upstreamTraffic : UpstreamTraffic) (outcome : ForwardOutcome)
    (server : Server) : Answered context filter n work 0 outcome.outcome.blocks
      outcome.outcome.foreign server
      (deliverOutcome context filter n work io upstreamTraffic outcome server).2 := by
  cases outcome with
  | checked result => exact deliverForwarded_answered upstreamTraffic result server
  | blocked block forwarded =>
    exact deliverResponseProtectionBlock_answered block (some forwarded) upstreamTraffic server

theorem deliverToFollower_answered (outcome : ForwardOutcome) (server : Server) :
    Answered context filter n work 0 outcome.outcome.blocks outcome.outcome.foreign server
      (deliverToFollower context filter n work io outcome server).2 := by
  cases outcome with
  | checked result => exact deliverPendingFollower_answered result server
  | blocked block forwarded =>
    exact deliverResponseProtectionBlock_answered block (some forwarded) {} server

theorem Outcome.Of.unblocked {outcome : Outcome} (h : outcome.Of context snapshot work)
    {response : Packet} (hresponse : outcome.foreign = some response) :
    protectionBlock context snapshot work response = none := by
  cases outcome with
  | decided decision => cases hresponse
  | blocked block => cases hresponse
  | cached found =>
    cases hresponse
    exact h
  | forwarded result => exact h response hresponse

theorem of_forwardOutcome (context : WorkerContext) (snapshot : Snapshot) (work : WorkItem)
    (result : ForwardResult) :
    (forwardOutcome context snapshot work result).outcome.Of context snapshot work := by
  cases result with
  | error error => exact fun response hresponse => nomatch hresponse
  | ok forwarded =>
    cases hblock : protectionBlock context snapshot work forwarded.response with
    | some block =>
      simp only [forwardOutcome, hblock]
      exact ⟨forwarded.response, hblock⟩
    | none =>
      simp only [forwardOutcome, hblock]
      intro response hresponse
      cases hresponse
      exact hblock

end

/-! ## Events -/

section
variable {context : WorkerContext} {hash : QueryCacheKey → ℕ} {s s' : WorkerState}
  {e : WorkerEvent}

theorem WorkerState.put_self {n : ℕ} {item : Item} (h : s.items[n]? = some item) :
    s.put n item = s := by
  have hset : s.items.set n item = s.items := by
    refine List.ext_getElem? fun x => ?_
    rw [List.getElem?_set]
    split_ifs with hx hlt
    · rw [← hx, h]
    · rw [← hx, List.getElem?_eq_none (Nat.le_of_not_lt hlt)]
    · rfl
  rw [WorkerState.put, hset]

theorem workerStep_move (h : workerStep context hash s e = some s') :
    WorkerMove context hash s e s' := by
  cases e with
  | accept work snapshot io =>
    simp only [workerStep] at h
    obtain ⟨decision, hdecision⟩ : ∃ decision, decision =
      localDecision context snapshot work.client work.question := ⟨_, rfl⟩
    rw [← hdecision] at h
    cases decision with
    | forward filteringActive clientFilteringEnabled routed =>
      cases h
      exact .routed (hdecision ▸ rfl)
    | _ =>
      cases h
      exact .decided hdecision rfl
  | lookup n hit io =>
    simp only [workerStep] at h
    split at h
    · rename_i work snapshot hn
      split at h
      · cases h
        exact .pass hn (.inl rfl)
      · rename_i key hkey
        cases hit with
        | none =>
          cases h
          exact .pass hn (.inr ⟨key, rfl⟩)
        | some response =>
          dsimp only at h
          split at h
          · rename_i block hblock
            cases h
            have hof : (Outcome.blocked block).Of context snapshot work := ⟨response, hblock⟩
            exact .own rfl hn hof fun server =>
              deliverResponseProtectionBlock_answered block none {} server
          · rename_i hblock
            cases h
            have hof : (Outcome.cached response).Of context snapshot work := hblock
            exact .own rfl hn hof fun server => deliverCached_answered response server
    · cases h
  | begin n =>
    simp only [workerStep] at h
    split at h
    · rename_i work snapshot key hn
      obtain ⟨pending, hpending, rfl⟩ := Option.map_eq_some_iff.1 h
      exact .begin hn hpending
    · cases h
  | register n =>
    simp only [workerStep] at h
    split at h
    · rename_i work snapshot q hn
      obtain ⟨pending, hpending, rfl⟩ := Option.map_eq_some_iff.1 h
      cases pendingStep_cases hpending with
      | @accepted _ key p key' followers stage hq hp hlt =>
        have hrole := PendingState.getElem?_accept hq hp q
        rw [if_pos rfl] at hrole
        simp only [hrole, Option.any_some, QueryRole.isAlone, Bool.false_eq_true, if_false,
          WorkerState.put_self hn]
        exact .accepted hn hq hp hlt
      | @refused _ key p key' followers stage hq hp hfull =>
        have hrole := PendingState.getElem?_put hq ⟨key, .alone⟩ q
        rw [if_pos rfl] at hrole
        simp only [hrole, Option.any_some, QueryRole.isAlone, if_true]
        exact .refused hn hq hpending
    · cases h
  | forward n result upstreamTraffic io =>
    simp only [workerStep] at h
    split at h
    · rename_i work snapshot hn
      cases h
      have hof := of_forwardOutcome context snapshot work result
      exact .own rfl hn hof fun server => deliverOutcome_answered upstreamTraffic _ server
    · rename_i work snapshot q hn
      obtain ⟨pending, hpending, rfl⟩ := Option.map_eq_some_iff.1 h
      exact .finish hn hpending
    · cases h
  | take n =>
    simp only [workerStep] at h
    split at h
    · rename_i work snapshot q hn
      obtain ⟨pending, hpending, rfl⟩ := Option.map_eq_some_iff.1 h
      exact .take hn hpending
    · cases h
  | deliver n io =>
    simp only [workerStep] at h
    split at h
    · rename_i work snapshot q hn
      split at h
      · rename_i key followers outcome follower rest hq
        split at h
        · rename_i m hm
          split at h
          · rename_i work' snapshot' stage hitem
            obtain ⟨pending, hpending, rfl⟩ := Option.map_eq_some_iff.1 h
            simp only [pendingStep, hq] at hpending
            cases hpending
            exact .deliver hn hq hm hitem
          · cases h
        · cases h
      · cases h
    · cases h
  | answer n upstreamTraffic io =>
    simp only [workerStep] at h
    split at h
    · rename_i work snapshot q hn
      split at h
      · rename_i key followers outcome hq
        cases h
        exact .own rfl hn ⟨key, followers, outcome, hq, rfl⟩
          fun server => deliverOutcome_answered upstreamTraffic outcome server
      · cases h
    · cases h

/-! ## Pending queries -/

theorem WorkerMove.pending (h : WorkerMove context hash s e s') : s'.pending = s.pending ∨
    ∃ e', pendingStep hash s.pending e' = some s'.pending := by
  cases h with
  | routed _ => exact .inl rfl
  | decided _ _ => exact .inl rfl
  | pass _ _ => exact .inl rfl
  | begin _ hpending => exact .inr ⟨_, hpending⟩
  | @accepted _ _ _ q key p key' followers stage _ hq hp hlt =>
    refine .inr ⟨.register q, ?_⟩
    simp only [pendingStep, hq, hp, registerPendingFollower, if_pos hlt, if_true]
    rfl
  | refused _ _ hpending => exact .inr ⟨_, hpending⟩
  | finish _ hpending => exact .inr ⟨_, hpending⟩
  | take _ hpending => exact .inr ⟨_, hpending⟩
  | @deliver _ _ _ _ q _ _ _ _ _ _ _ _ _ _ hq _ _ =>
    refine .inr ⟨.deliver q, ?_⟩
    simp only [pendingStep, hq]
  | own _ _ _ _ => exact .inl rfl

/-- The queries that lead or follow are queries of the workers: those in a line that
    wait are under way, and the others have been answered. -/
structure WorkerInv (hash : QueryCacheKey → ℕ) (s : WorkerState) : Prop where
  pending : PendingInv hash s.pending
  owners : s.owners.length = s.pending.queries.length
  owned : ∀ (n : ℕ) work snapshot q, s.items[n]? = some ⟨work, snapshot, .pending q⟩ →
    s.owners[q]? = some n
  waiting : ∀ p q, q ∈ s.pending.waiting p → ∃ n work snapshot, s.owners[q]? = some n ∧
    s.items[n]? = some ⟨work, snapshot, .pending q⟩
  answered : ∀ p q, q ∈ s.pending.answered p → ∃ n work snapshot deliverer outcome,
    s.owners[q]? = some n ∧ s.items[n]? = some ⟨work, snapshot, .done deliverer outcome⟩

theorem WorkerState.getElem?_put {n : ℕ} {item : Item} (h : s.items[n]? = some item)
    (item' : Item) (x : ℕ) :
    (s.put n item').items[x]? = if x = n then some item' else s.items[x]? := by
  simp only [WorkerState.put]
  split_ifs with hx
  · rw [hx, List.getElem?_set_self (List.getElem?_eq_some_iff.1 h).1]
  · rw [List.getElem?_set_ne (Ne.symm hx)]

namespace WorkerInv

theorem init (hash : QueryCacheKey → ℕ) (shardCount : ℕ) :
    WorkerInv hash ⟨{}, [], ⟨PendingQueries.new shardCount, [], []⟩, []⟩ where
  pending := .init hash shardCount
  owners := rfl
  owned n work snapshot q hn := by cases hn
  waiting p q hq := by simp [PendingState.waiting] at hq
  answered p q hq := by simp [PendingState.answered] at hq

theorem withServer (h : WorkerInv hash s) (server : Server) : WorkerInv hash { s with server } :=
  ⟨h.pending, h.owners, h.owned, h.waiting, h.answered⟩

theorem concat (h : WorkerInv hash s) {item : Item} (hitem : ∀ q, item.stage ≠ .pending q)
    (server : Server) : WorkerInv hash { s with server, items := s.items ++ [item] } := by
  have hmono : ∀ {n : ℕ} {a : Item}, s.items[n]? = some a → (s.items ++ [item])[n]? = some a :=
    fun ha => (List.getElem?_append_left (List.getElem?_eq_some_iff.1 ha).1).trans ha
  refine ⟨h.pending, h.owners, fun n work snapshot q hn => ?_, fun p q hq => ?_, fun p q hq => ?_⟩
  · dsimp only at hn
    rw [PendingState.getElem?_concat] at hn
    split_ifs at hn
    · cases hn
      exact absurd rfl (hitem q)
    · exact h.owned n work snapshot q hn
  · obtain ⟨n, work, snapshot, hn, ha⟩ := h.waiting p q hq
    exact ⟨n, work, snapshot, hn, hmono ha⟩
  · obtain ⟨n, work, snapshot, deliverer, outcome, hn, ha⟩ := h.answered p q hq
    exact ⟨n, work, snapshot, deliverer, outcome, hn, hmono ha⟩

/-- A query that comes to another stage, without waiting for a leader before or
    behind it. -/
theorem put (h : WorkerInv hash s) {n : ℕ} {work : WorkItem} {snapshot : Snapshot}
    {stage stage' : Stage} (hn : s.items[n]? = some ⟨work, snapshot, stage⟩)
    (hdone : ∀ deliverer outcome, stage ≠ .done deliverer outcome)
    (hwaits : ∀ q, stage = .pending q → ∀ p, q ∉ s.pending.waiting p)
    (hstage' : ∀ q, stage' = .pending q → s.owners[q]? = some n) :
    WorkerInv hash (s.put n ⟨work, snapshot, stage'⟩) := by
  have hget := WorkerState.getElem?_put hn ⟨work, snapshot, stage'⟩
  refine ⟨h.pending, h.owners, fun x w sn q hx => ?_, fun p q hq => ?_, fun p q hq => ?_⟩
  · rw [hget] at hx
    split_ifs at hx with hxn
    · cases hx
      rw [hxn]
      exact hstage' q rfl
    · exact h.owned x w sn q hx
  · obtain ⟨x, w, sn, howner, ha⟩ := h.waiting p q hq
    refine ⟨x, w, sn, howner, (hget x).trans ?_⟩
    rw [if_neg, ha]
    rintro rfl
    rw [hn] at ha
    cases ha
    exact hwaits q rfl p hq
  · obtain ⟨x, w, sn, deliverer, outcome, howner, ha⟩ := h.answered p q hq
    refine ⟨x, w, sn, deliverer, outcome, howner, (hget x).trans ?_⟩
    rw [if_neg, ha]
    rintro rfl
    rw [hn] at ha
    cases ha
    exact hdone deliverer outcome rfl

theorem withPending (h : WorkerInv hash s) {pending : PendingState ForwardOutcome}
    (hinv : PendingInv hash pending) (hlength : pending.queries.length = s.pending.queries.length)
    (hwaiting : ∀ p, pending.waiting p = s.pending.waiting p)
    (hdelivered : pending.delivered = s.pending.delivered) :
    WorkerInv hash { s with pending } := by
  refine ⟨hinv, h.owners.trans hlength.symm, h.owned, fun p q hq => ?_, fun p q hq => ?_⟩
  · rw [hwaiting] at hq
    exact h.waiting p q hq
  · rw [PendingState.answered, hdelivered] at hq
    exact h.answered p q hq

theorem not_waiting (h : WorkerInv hash s) {q : ℕ} {query : Query ForwardOutcome}
    (hq : s.pending.queries[q]? = some query) (hrole : ∀ p, query.role ≠ .follower p) (p : ℕ) :
    q ∉ s.pending.waiting p := by
  intro hp
  obtain ⟨key, hk⟩ := (h.pending.line p q).1 (List.mem_append_right _ hp)
  rw [hq] at hk
  cases hk
  exact hrole p rfl

theorem waiting_unique (h : WorkerInv hash s) {p p' q : ℕ} (hp : q ∈ s.pending.waiting p)
    (hp' : q ∈ s.pending.waiting p') : p = p' := by
  obtain ⟨key, hk⟩ := (h.pending.line p q).1 (List.mem_append_right _ hp)
  obtain ⟨key', hk'⟩ := (h.pending.line p' q).1 (List.mem_append_right _ hp')
  rw [hk] at hk'
  cases hk'
  rfl

theorem begin (h : WorkerInv hash s) {n : ℕ} {work : WorkItem} {snapshot : Snapshot}
    {key : QueryCacheKey} {pending : PendingState ForwardOutcome}
    (hn : s.items[n]? = some ⟨work, snapshot, .missed key⟩)
    (hpending : PendingSteps hash s.pending (.begin key) pending) :
    WorkerInv hash { s.put n ⟨work, snapshot, .pending s.pending.queries.length⟩ with
      pending, owners := s.owners ++ [n] } := by
  have hget := WorkerState.getElem?_put hn ⟨work, snapshot, .pending s.pending.queries.length⟩
  have hinv := h.pending.step hpending
  obtain ⟨hlength, hwaiting, hdelivered⟩ :
      pending.queries.length = s.pending.queries.length + 1 ∧
        (∀ p, pending.waiting p = s.pending.waiting p) ∧
        pending.delivered = s.pending.delivered := by
    cases hpending with
    | lead _ _ _ =>
      exact ⟨List.length_append, PendingState.waiting_concat rfl, rfl⟩
    | join _ => exact ⟨List.length_append, PendingState.waiting_concat rfl, rfl⟩
  have howner : ∀ {q m : ℕ}, s.owners[q]? = some m → (s.owners ++ [n])[q]? = some m :=
    fun hq => (List.getElem?_append_left (List.getElem?_eq_some_iff.1 hq).1).trans hq
  refine ⟨hinv, ?_, fun x w sn q hx => ?_, fun p q hq => ?_, fun p q hq => ?_⟩
  · rw [List.length_append, h.owners, hlength]
    rfl
  · dsimp only at hx ⊢
    rw [hget] at hx
    split_ifs at hx with hxn
    · cases hx
      rw [hxn, ← h.owners, List.getElem?_concat_length]
    · exact howner (h.owned x w sn q hx)
  · rw [hwaiting] at hq
    obtain ⟨x, w, sn, hx, ha⟩ := h.waiting p q hq
    refine ⟨x, w, sn, howner hx, (hget x).trans ?_⟩
    rw [if_neg, ha]
    rintro rfl
    rw [hn] at ha
    cases ha
  · rw [PendingState.answered, hdelivered] at hq
    obtain ⟨x, w, sn, deliverer, outcome, hx, ha⟩ := h.answered p q hq
    refine ⟨x, w, sn, deliverer, outcome, howner hx, (hget x).trans ?_⟩
    rw [if_neg, ha]
    rintro rfl
    rw [hn] at ha
    cases ha

theorem accepted (h : WorkerInv hash s) {n q p : ℕ} {work : WorkItem} {snapshot : Snapshot}
    {key key' : QueryCacheKey} {followers : List PendingFollower}
    {stage : LeaderStage ForwardOutcome} (hn : s.items[n]? = some ⟨work, snapshot, .pending q⟩)
    (hq : s.pending.queries[q]? = some ⟨key, .joining p⟩)
    (hp : s.pending.queries[p]? = some ⟨key', .leader (some followers) stage⟩)
    (hlt : followers.length < maxPendingFollowers) :
    WorkerInv hash { s with pending := s.pending.accept q p key key' followers stage } := by
  have hw : ∀ l, (QueryRole.leader (some l) stage).waiting = l := by
    cases stage with
    | forwarding => exact fun _ => rfl
    | finished result => exact fun _ => rfl
    | delivering result rest => cases h.pending.taken p key' _ result rest hp
  refine ⟨h.pending.accepted hq hp hlt, ?_, h.owned, fun x y hy => ?_, h.answered⟩
  · rw [h.owners]
    simp only [PendingState.accept, PendingState.put, List.length_set]
  · rw [PendingState.waiting_accept hq hp hw] at hy
    split_ifs at hy with hx
    · rcases List.mem_append.1 hy with hy | hy
      · refine h.waiting p y ?_
        rw [PendingState.waiting_of_getElem? hp, hw]
        exact hy
      · obtain rfl := List.mem_singleton.1 hy
        exact ⟨n, work, snapshot, h.owned n work snapshot y hn, hn⟩
    · exact h.waiting x y hy

theorem deliver (h : WorkerInv hash s) {n q m : ℕ} {key : QueryCacheKey}
    {followers : Option (List PendingFollower)} {outcome : ForwardOutcome}
    {follower : PendingFollower} {rest : List PendingFollower} {work : WorkItem}
    {snapshot : Snapshot} {stage : Stage}
    (hq : s.pending.queries[q]? =
      some ⟨key, .leader followers (.delivering outcome (follower :: rest))⟩)
    (hm : s.owners[follower]? = some m) (hitem : s.items[m]? = some ⟨work, snapshot, stage⟩) :
    stage = .pending follower ∧
    WorkerInv hash { s.put m ⟨work, snapshot, .done n outcome.outcome⟩ with
      pending :=
        { s.pending.put q ⟨key, .leader followers (.delivering outcome rest)⟩ with
          delivered := s.pending.delivered ++ [⟨q, follower, outcome⟩] } } := by
  have hwaiting : s.pending.waiting q = follower :: rest := PendingState.waiting_of_getElem? hq
  have hfollower : follower ∈ s.pending.waiting q := hwaiting ▸ List.mem_cons_self
  have hstage : stage = .pending follower := by
    obtain ⟨x, w, sn, hx, ha⟩ := h.waiting q follower hfollower
    rw [hm] at hx
    cases hx
    rw [hitem] at ha
    cases ha
    rfl
  subst hstage
  have hnodup : follower ∉ rest := by
    have hline := h.pending.nodup q
    rw [PendingState.line, hwaiting] at hline
    exact (List.nodup_cons.1 (List.nodup_append.1 hline).2.1).1
  have hget := WorkerState.getElem?_put hitem ⟨work, snapshot, .done n outcome.outcome⟩
  have hw := fun x =>
    PendingState.waiting_put hq ⟨key, .leader followers (.delivering outcome rest)⟩ x
  refine ⟨rfl, h.pending.step (.deliver hq), ?_, fun x w sn y hx => ?_, fun x y hy => ?_,
    fun x y hy => ?_⟩
  · exact h.owners.trans List.length_set.symm
  · dsimp only at hx
    rw [hget] at hx
    split_ifs at hx
    · cases hx
    · exact h.owned x w sn y hx
  · -- the others still wait
    have hy' : y ∈ s.pending.waiting x ∧ y ≠ follower := by
      have hmem : y ∈ (s.pending.put q ⟨key, .leader followers (.delivering outcome rest)⟩).waiting x :=
        hy
      rw [hw] at hmem
      split_ifs at hmem with hxq
      · refine ⟨?_, fun he => hnodup (he ▸ hmem)⟩
        rw [hxq, hwaiting]
        exact List.mem_cons_of_mem _ hmem
      · refine ⟨hmem, ?_⟩
        rintro rfl
        exact hxq (h.waiting_unique hmem hfollower)
    obtain ⟨k, w, sn, hk, ha⟩ := h.waiting x y hy'.1
    refine ⟨k, w, sn, hk, (hget k).trans ?_⟩
    rw [if_neg, ha]
    rintro rfl
    rw [hitem] at ha
    cases ha
    exact hy'.2 rfl
  · rw [PendingState.answered, List.filter_append, List.map_append] at hy
    rcases List.mem_append.1 hy with hy | hy
    · obtain ⟨k, w, sn, deliverer, o, hk, ha⟩ := h.answered x y hy
      refine ⟨k, w, sn, deliverer, o, hk, (hget k).trans ?_⟩
      rw [if_neg, ha]
      rintro rfl
      rw [hitem] at ha
      cases ha
    · obtain ⟨d, hd, rfl⟩ := List.mem_map.1 hy
      obtain rfl := List.mem_singleton.1 (List.mem_filter.1 hd).1
      exact ⟨m, work, snapshot, n, outcome.outcome, hm, (hget m).trans (if_pos rfl)⟩

/-- **The queries of the workers stay in order** in every step. -/
theorem move (h : WorkerInv hash s) (hm : WorkerMove context hash s e s') : WorkerInv hash s' := by
  cases hm with
  | routed _ => exact h.concat (fun q hq => by cases hq) _
  | decided _ _ => exact h.concat (fun q hq => by cases hq) _
  | @pass n hit io work snapshot stage hn hstage =>
    refine h.put hn (fun _ _ hd => nomatch hd) (fun q hq => nomatch hq) fun q hq => ?_
    rcases hstage with rfl | ⟨key, rfl⟩
    · cases hq
    · cases hq
  | begin hn hpending => exact h.begin hn (pendingStep_cases hpending)
  | accepted hn hq hp hlt => exact h.accepted hn hq hp hlt
  | @refused n work snapshot q key p hn hq hpending =>
    have hput : WorkerInv hash (s.put n ⟨work, snapshot, .alone⟩) :=
      h.put hn (fun _ _ hd => nomatch hd)
        (fun q' hq' => by cases hq'; exact h.not_waiting hq fun p hr => nomatch hr)
        fun q' hq' => nomatch hq'
    refine hput.withPending (h.pending.step (pendingStep_cases hpending)) ?_ (fun x => ?_) rfl
    · exact List.length_set
    · exact PendingState.waiting_put_of_eq (b := ⟨key, .alone⟩) hq rfl x
  | @finish n work snapshot q result upstreamTraffic io pending hn hpending =>
    refine h.withPending (h.pending.step (pendingStep_cases hpending)) ?_ (fun x => ?_) ?_
    all_goals cases pendingStep_cases hpending with | @finish _ _ key followers hq => ?_
    · exact List.length_set
    · exact PendingState.waiting_put_of_eq (b := ⟨key, .leader followers (.finished _)⟩) hq rfl x
    · rfl
  | @take n work snapshot q pending hn hpending =>
    refine h.withPending (h.pending.step (pendingStep_cases hpending)) ?_ (fun x => ?_) ?_
    all_goals cases pendingStep_cases hpending with | @take _ key followers result hq => ?_
    · exact List.length_set
    · exact PendingState.waiting_put_of_eq (b := ⟨key, .leader none (.delivering result _)⟩) hq rfl x
    · rfl
  | deliver hn hq hm hitem => exact (h.deliver hq hm hitem).2.withServer _
  | @own _ n work snapshot stage outcome m hactor hn hanswerable hanswered =>
    have hput : WorkerInv hash (s.put n ⟨work, snapshot, .done n outcome⟩) := by
      refine h.put hn (fun _ _ hd => ?_) (fun q hq => ?_) fun q hq => nomatch hq
      · rw [hd] at hanswerable
        exact hanswerable
      · rw [hq] at hanswerable
        obtain ⟨key, followers, result, hleader, -⟩ := hanswerable
        exact h.not_waiting hleader fun p hr => nomatch hr
    exact hput.withServer _

end WorkerInv

/-! ## Leaders -/

/-- The result that a leader delivers. -/
def LeaderStage.result {ρ : Type*} : LeaderStage ρ → Option ρ
  | .forwarding => none
  | .finished result => some result
  | .delivering result _ => some result

/-- The query `n` of the workers leads as `q`: it is under way, or has been answered
    behind its last follower, and its result is that of its own evaluation. -/
structure LeaderAt (context : WorkerContext) (s : WorkerState) (q : ℕ)
    (stage : LeaderStage ForwardOutcome) (n : ℕ) (work : WorkItem) (snapshot : Snapshot)
    (st : Stage) : Prop where
  owner : s.owners[q]? = some n
  item : s.items[n]? = some ⟨work, snapshot, st⟩
  underWay : st = .pending q ∨
    (∃ deliverer outcome, st = .done deliverer outcome) ∧ ∃ result, stage = .delivering result []
  result : ∀ outcome, stage.result = some outcome →
    ∃ result, outcome = forwardOutcome context snapshot work result

def Leading (context : WorkerContext) (s : WorkerState) : Prop :=
  ∀ (q : ℕ) key followers stage, s.pending.queries[q]? = some ⟨key, .leader followers stage⟩ →
    ∃ n work snapshot st, LeaderAt context s q stage n work snapshot st

theorem LeaderAt.keep {q n : ℕ} {stage : LeaderStage ForwardOutcome} {work : WorkItem}
    {snapshot : Snapshot} {st : Stage} (h : LeaderAt context s q stage n work snapshot st)
    (howner : s'.owners[q]? = some n) (hitem : s'.items[n]? = some ⟨work, snapshot, st⟩) :
    LeaderAt context s' q stage n work snapshot st :=
  ⟨howner, hitem, h.underWay, h.result⟩

theorem LeaderAt.put {q n x : ℕ} {stage : LeaderStage ForwardOutcome} {work : WorkItem}
    {snapshot : Snapshot} {st : Stage} {item : Item}
    (h : LeaderAt context s q stage n work snapshot st) (hx : s.items[x]? = some item)
    (hpending : item.stage ≠ .pending q) (hdone : ∀ d o, item.stage ≠ .done d o) (item' : Item) :
    (s.put x item').items[n]? = some ⟨work, snapshot, st⟩ := by
  rw [WorkerState.getElem?_put hx, if_neg, h.item]
  rintro rfl
  have hitem := h.item
  rw [hx] at hitem
  cases hitem
  rcases h.underWay with hst | ⟨⟨d, o, hst⟩, -⟩
  · exact hpending hst
  · exact hdone d o hst

theorem Leading.concat (h : Leading context s) (server : Server) (item : Item) :
    Leading context { s with server, items := s.items ++ [item] } := by
  intro q key followers stage hq
  obtain ⟨n, w, sn, st, hl⟩ := h q key followers stage hq
  exact ⟨n, w, sn, st, hl.keep hl.owner
    ((List.getElem?_append_left (List.getElem?_eq_some_iff.1 hl.item).1).trans hl.item)⟩

theorem Leading.move (h : Leading context s) (hinv : WorkerInv hash s)
    (hm : WorkerMove context hash s e s') : Leading context s' := by
  cases hm with
  | routed _ => exact h.concat _ _
  | decided _ _ => exact h.concat _ _
  | @pass x hit io work snapshot stage' hx hstage =>
    intro q key followers stage hq
    obtain ⟨n, w, sn, st, hl⟩ := h q key followers stage hq
    exact ⟨n, w, sn, st, hl.keep hl.owner
      (hl.put hx (fun he => nomatch he) (fun _ _ he => nomatch he) _)⟩
  | @begin x work snapshot key' pending hx hpending =>
    have hold : ∀ {q n stage w sn st}, LeaderAt context s q stage n w sn st →
        LeaderAt context { s.put x ⟨work, snapshot, .pending s.pending.queries.length⟩ with
          pending, owners := s.owners ++ [x] } q stage n w sn st := fun hl =>
      hl.keep ((List.getElem?_append_left (List.getElem?_eq_some_iff.1 hl.owner).1).trans hl.owner)
        (hl.put hx (fun he => nomatch he) (fun _ _ he => nomatch he) _)
    intro q key followers stage hq
    cases pendingStep_cases hpending with
    | lead _ _ _ =>
      dsimp only at hq
      rw [PendingState.getElem?_concat] at hq
      split_ifs at hq with hlen
      · cases hq
        refine ⟨x, work, snapshot, .pending s.pending.queries.length, ?_,
          (WorkerState.getElem?_put hx _ x).trans (if_pos rfl), .inl (hlen ▸ rfl),
          fun _ ho => by cases ho⟩
        rw [hlen, ← hinv.owners, List.getElem?_concat_length]
      · obtain ⟨n, w, sn, st, hl⟩ := h q key followers stage hq
        exact ⟨n, w, sn, st, hold hl⟩
    | join _ =>
      dsimp only at hq
      rw [PendingState.getElem?_concat] at hq
      split_ifs at hq
      · cases hq
      · obtain ⟨n, w, sn, st, hl⟩ := h q key followers stage hq
        exact ⟨n, w, sn, st, hold hl⟩
  | @accepted x work snapshot y key' p key'' followers' stage' hx hy hp hlt =>
    intro q key followers stage hq
    obtain ⟨fs, hq, -⟩ := PendingState.getElem?_leader_of_accept hy hp hq
    obtain ⟨n, w, sn, st, hl⟩ := h q key fs stage hq
    exact ⟨n, w, sn, st, hl.keep hl.owner hl.item⟩
  | @refused x work snapshot y key' p hx hy hpending =>
    intro q key followers stage hq
    rw [PendingState.getElem?_put hy] at hq
    split_ifs at hq with hqy
    · cases hq
    · obtain ⟨n, w, sn, st, hl⟩ := h q key followers stage hq
      exact ⟨n, w, sn, st, hl.keep hl.owner
        (hl.put hx (fun he => hqy (by cases he; rfl)) (fun _ _ he => nomatch he) _)⟩
  | @finish x work snapshot y result upstreamTraffic io pending hx hpending =>
    intro q key followers stage hq
    cases pendingStep_cases hpending with
    | @finish _ _ key' followers' hy =>
      have hq' := (PendingState.getElem?_put hy _ q).symm.trans hq
      split_ifs at hq' with hqy
      · cases hq'
        refine ⟨x, work, snapshot, .pending y, ?_, hx, .inl (hqy ▸ rfl), fun outcome ho => ?_⟩
        · rw [hqy]
          exact hinv.owned x work snapshot y hx
        · cases ho
          exact ⟨result, rfl⟩
      · obtain ⟨n, w, sn, st, hl⟩ := h q key followers stage hq'
        exact ⟨n, w, sn, st, hl.keep hl.owner hl.item⟩
  | @take x work snapshot y pending hx hpending =>
    intro q key followers stage hq
    cases pendingStep_cases hpending with
    | @take _ key' followers' result hy =>
      rw [PendingState.getElem?_put hy] at hq
      split_ifs at hq with hqy
      · cases hq
        obtain ⟨n, w, sn, st, hl⟩ := h y key followers' (.finished result) hy
        rcases hl.underWay with hst | ⟨-, r, hr⟩
        · exact ⟨n, w, sn, st, hqy ▸ hl.owner, hl.item, .inl (hqy ▸ hst), hl.result⟩
        · cases hr
      · obtain ⟨n, w, sn, st, hl⟩ := h q key followers stage hq
        exact ⟨n, w, sn, st, hl.keep hl.owner hl.item⟩
  | @deliver x io work snapshot y key' followers' outcome follower rest m work' snapshot' stage'
      hx hy hm hitem =>
    obtain ⟨rfl, -⟩ := hinv.deliver (n := x) hy hm hitem
    -- the follower does not lead
    have hput : ∀ {q n stage w sn st}, LeaderAt context s q stage n w sn st → q ≠ follower →
        (s.put m ⟨work', snapshot', .done x outcome.outcome⟩).items[n]? = some ⟨w, sn, st⟩ :=
      fun hl hne => hl.put hitem (fun he => hne (by cases he; rfl)) (fun _ _ he => nomatch he) _
    have hfollower : ∀ {q key fs stage}, s.pending.queries[q]? = some ⟨key, .leader fs stage⟩ →
        q ≠ follower := by
      rintro q key fs stage hq rfl
      refine hinv.not_waiting hq (fun p hr => nomatch hr) y ?_
      rw [PendingState.waiting_of_getElem? hy]
      exact List.mem_cons_self
    intro q key followers stage hq
    have hq' := (PendingState.getElem?_put hy _ q).symm.trans hq
    split_ifs at hq' with hqy
    · cases hq'
      obtain ⟨n, w, sn, st, hl⟩ := h y key' followers' _ hy
      rcases hl.underWay with hst | ⟨-, r, hr⟩
      · exact ⟨n, w, sn, st, hqy ▸ hl.owner, hput hl (hfollower hy), .inl (hqy ▸ hst), hl.result⟩
      · cases hr
    · obtain ⟨n, w, sn, st, hl⟩ := h q key followers stage hq'
      exact ⟨n, w, sn, st, hl.keep hl.owner (hput hl (hfollower hq'))⟩
  | @own _ x work snapshot stage' outcome m hactor hx hanswerable hanswered =>
    have hdone : ∀ d o, stage' ≠ .done d o := by
      rintro d o rfl
      exact hanswerable
    intro q key followers stage hq
    obtain ⟨n, w, sn, st, hl⟩ := h q key followers stage hq
    by_cases hpending : stage' = .pending q
    · subst hpending
      obtain ⟨key', followers', result, hq', -⟩ := hanswerable
      obtain rfl : n = x := Option.some.inj
        (hl.owner.symm.trans (hinv.owned x work snapshot q hx))
      have hitem := hl.item
      rw [hx] at hitem
      cases hitem
      rw [show s.pending.queries[q]? = _ from hq] at hq'
      cases hq'
      exact ⟨n, work, snapshot, .done n outcome, hl.owner,
        (WorkerState.getElem?_put hx _ n).trans (if_pos rfl), .inr ⟨⟨n, outcome, rfl⟩, result, rfl⟩,
        hl.result⟩
    · exact ⟨n, w, sn, st, hl.keep hl.owner (hl.put hx hpending hdone _)⟩

end

end DnsBlackhole.Worker
