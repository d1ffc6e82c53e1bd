/-
  Every query is answered in the end.

  The worker of a query has a bounded number of steps before it (`ahead`), and no
  other worker adds to them.  As long as a query is not done, its worker can make
  the next step, or that of the leader it has registered with can.
-/
import DnsBlackhole.Worker.Coalesced
import DnsBlackhole.Worker.Moves

namespace DnsBlackhole.Worker
open Lib Cache DnsBlackhole.Filter Protocol

/-- The steps that a query has before it, behind its look for a pending query. -/
def QueryRole.ahead {ρ : Type*} : QueryRole ρ → ℕ
  | .leader followers stage => (QueryRole.leader followers stage).remaining + 1
  | .joining _ => 2
  | .follower _ => 0
  | .alone => 0

def PendingState.ahead {ρ : Type*} (s : PendingState ρ) (q : ℕ) : ℕ :=
  (s.queries[q]?).elim 0 fun query => query.role.ahead

/-- The steps of the worker of a query in the stage. -/
def Stage.ahead (pending : PendingState ForwardOutcome) : Stage → ℕ
  | .routed => maxPendingFollowers + 5
  | .missed _ => maxPendingFollowers + 4
  | .pending q => pending.ahead q
  | .alone => 1
  | .done _ _ => 0

def WorkerState.ahead (s : WorkerState) (n : ℕ) : ℕ :=
  (s.items[n]?).elim 0 fun item => item.stage.ahead s.pending

/-- The steps that the worker of the query makes in a run. -/
def actedBy (n : ℕ) (es : List WorkerEvent) : ℕ := es.countP fun e => e.actor = some n

/-- A query that leads or follows has not been refused. -/
def Engaged (s : WorkerState) : Prop :=
  ∀ (n : ℕ) work snapshot q, s.items[n]? = some ⟨work, snapshot, .pending q⟩ →
    ∃ query, s.pending.queries[q]? = some query ∧ query.role.isAlone = false

section
variable {context : WorkerContext} {hash : QueryCacheKey → ℕ} {s s' : WorkerState}
  {e : WorkerEvent}

theorem PendingState.ahead_of_getElem? {ρ : Type*} {s : PendingState ρ} {q : ℕ} {a : Query ρ}
    (h : s.queries[q]? = some a) : s.ahead q = a.role.ahead := by
  rw [PendingState.ahead, h]
  rfl

theorem WorkerState.ahead_of_getElem? {n : ℕ} {item : Item} (h : s.items[n]? = some item) :
    s.ahead n = item.stage.ahead s.pending := by
  rw [WorkerState.ahead, h]
  rfl

theorem ahead_congr {n : ℕ} (hitem : s'.items[n]? = s.items[n]?)
    (hpending : ∀ work snapshot q, s.items[n]? = some ⟨work, snapshot, .pending q⟩ →
      s'.pending.ahead q = s.pending.ahead q) : s'.ahead n = s.ahead n := by
  rw [WorkerState.ahead, WorkerState.ahead, hitem]
  cases hn : s.items[n]? with
  | none => rfl
  | some item =>
    obtain ⟨work, snapshot, stage⟩ := item
    cases stage with
    | pending q => exact hpending work snapshot q hn
    | _ => rfl

theorem ahead_put {x n : ℕ} {item : Item} (hx : s.items[x]? = some item) (item' : Item) :
    (s.put x item').ahead n = if n = x then item'.stage.ahead s.pending else s.ahead n := by
  have hget := WorkerState.getElem?_put hx item' n
  split_ifs at hget ⊢ with hnx
  · exact WorkerState.ahead_of_getElem? hget
  · exact ahead_congr hget fun _ _ _ _ => rfl

theorem ahead_pending (hinv : WorkerInv hash s) {x q n : ℕ} {work : WorkItem}
    {snapshot : Snapshot} {pending : PendingState ForwardOutcome}
    (hx : s.items[x]? = some ⟨work, snapshot, .pending q⟩)
    (hother : ∀ y, y ≠ q → pending.ahead y = s.pending.ahead y) :
    WorkerState.ahead { s with pending } n = if n = x then pending.ahead q else s.ahead n := by
  split_ifs with hnx
  · rw [hnx]
    exact WorkerState.ahead_of_getElem? (s := { s with pending }) hx
  · refine ahead_congr rfl fun w sn y hn => hother y ?_
    rintro rfl
    have howner := hinv.owned n w sn y hn
    rw [hinv.owned x work snapshot y hx] at howner
    exact hnx (Option.some.inj howner).symm

theorem ahead_count (hinv : WorkerInv hash s) {x q n : ℕ} {work : WorkItem} {snapshot : Snapshot}
    {query : Query ForwardOutcome} {pending : PendingState ForwardOutcome}
    (hx : s.items[x]? = some ⟨work, snapshot, .pending q⟩)
    (hq : s.pending.queries[q]? = some query)
    (hother : ∀ y, y ≠ q → pending.ahead y = s.pending.ahead y)
    (hless : pending.ahead q + 1 ≤ query.role.ahead) :
    WorkerState.ahead { s with pending } n + (if some x = some n then 1 else 0) ≤ s.ahead n := by
  rw [ahead_pending hinv hx hother]
  by_cases hnx : n = x
  · rw [if_pos hnx, if_pos (congrArg some hnx.symm), hnx, WorkerState.ahead_of_getElem? hx]
    show _ ≤ s.pending.ahead q
    rwa [PendingState.ahead_of_getElem? hq]
  · rw [if_neg hnx, if_neg fun h => hnx (Option.some.inj h).symm]
    exact Nat.le_refl _

theorem PendingState.ahead_put {ρ : Type*} {s : PendingState ρ} {q : ℕ} {a : Query ρ}
    (h : s.queries[q]? = some a) (b : Query ρ) (y : ℕ) :
    (s.put q b).ahead y = if y = q then b.role.ahead else s.ahead y := by
  rw [PendingState.ahead, PendingState.getElem?_put h]
  split_ifs
  · rfl
  · rfl

/-- **The steps before a query**: those of its own worker count down, and no other
    worker adds to them. -/
theorem WorkerMove.ahead (hm : WorkerMove context hash s e s') (hinv : WorkerInv hash s) {n : ℕ}
    (hn : n < s.items.length) :
    s'.ahead n + (if e.actor = some n then 1 else 0) ≤ s.ahead n := by
  have hactor : ∀ {x : ℕ}, (some x = some n) = (n = x) := by
    intro x
    rw [Option.some.injEq]
    exact propext eq_comm
  cases hm with
  | routed _ =>
    exact Nat.le_of_eq (ahead_congr (List.getElem?_append_left hn) fun _ _ _ _ => rfl)
  | decided _ _ =>
    exact Nat.le_of_eq (ahead_congr (List.getElem?_append_left hn) fun _ _ _ _ => rfl)
  | @pass x hit io work snapshot stage hx hstage =>
    have hbefore := WorkerState.ahead_of_getElem? hx
    rw [ahead_put hx]
    simp only [WorkerEvent.actor, hactor]
    split_ifs with hnx
    · rw [hnx, hbefore]
      rcases hstage with rfl | ⟨key, rfl⟩
      · exact Nat.le_add_left 2 _
      · exact Nat.le_refl _
    · exact Nat.le_refl _
  | @begin x work snapshot key pending hx hpending =>
    have hbefore := WorkerState.ahead_of_getElem? hx
    have hget := WorkerState.getElem?_put hx ⟨work, snapshot, .pending s.pending.queries.length⟩ n
    obtain ⟨query, hqueries, hquery⟩ : ∃ query, pending.queries = s.pending.queries ++ [query] ∧
        query.role.ahead ≤ maxPendingFollowers + 3 := by
      cases pendingStep_cases hpending with
      | lead _ _ _ => exact ⟨_, rfl, Nat.le_refl _⟩
      | join _ => exact ⟨_, rfl, Nat.le_add_left 2 _⟩
    simp only [WorkerEvent.actor, hactor]
    split_ifs at hget ⊢ with hnx
    · have hnew : pending.queries[s.pending.queries.length]? = some query := by
        rw [hqueries, List.getElem?_concat_length]
      rw [hnx, hbefore, WorkerState.ahead_of_getElem? (hnx ▸ hget)]
      show pending.ahead s.pending.queries.length + 1 ≤ maxPendingFollowers + 4
      rw [PendingState.ahead_of_getElem? hnew]
      exact Nat.succ_le_succ hquery
    · refine Nat.le_of_eq (ahead_congr hget fun w sn q hq => ?_)
      have hlt : q < s.pending.queries.length := by
        rw [← hinv.owners]
        exact (List.getElem?_eq_some_iff.1 (hinv.owned n w sn q hq)).1
      show pending.ahead q = s.pending.ahead q
      rw [PendingState.ahead, hqueries, List.getElem?_append_left hlt, PendingState.ahead]
  | @accepted x work snapshot q key p key' followers stage hx hq hp hlt =>
    have hget := PendingState.getElem?_accept hq hp
    have hne : p ≠ q := by
      rintro rfl
      rw [hq] at hp
      cases hp
    refine ahead_count hinv hx hq (fun y hy => ?_) ?_
    · by_cases hyp : y = p
      · rw [hyp, PendingState.ahead_of_getElem? hp, PendingState.ahead_of_getElem?
          ((hget p).trans ((if_neg hne).trans (if_pos rfl)))]
        cases stage <;> rfl
      · rw [PendingState.ahead, hget, if_neg hy, if_neg hyp, PendingState.ahead]
    · rw [PendingState.ahead_of_getElem? ((hget q).trans (if_pos rfl))]
      exact Nat.le_succ 1
  | @refused x work snapshot q key p hx hq hpending =>
    have hbefore := WorkerState.ahead_of_getElem? hx
    have hget := WorkerState.getElem?_put hx ⟨work, snapshot, .alone⟩ n
    simp only [WorkerEvent.actor, hactor]
    split_ifs at hget ⊢ with hnx
    · rw [hnx, hbefore, WorkerState.ahead_of_getElem? (hnx ▸ hget)]
      show 1 + 1 ≤ s.pending.ahead q
      rw [PendingState.ahead_of_getElem? hq]
      exact Nat.le_refl _
    · refine Nat.le_of_eq (ahead_congr hget fun w sn y hy => ?_)
      have hyq : y ≠ q := by
        rintro rfl
        have howner := hinv.owned n w sn y hy
        rw [hinv.owned x work snapshot y hx] at howner
        exact hnx (Option.some.inj howner).symm
      exact (PendingState.ahead_put hq _ y).trans (if_neg hyq)
  | @finish x work snapshot q result upstreamTraffic io pending hx hpending =>
    cases pendingStep_cases hpending with
    | @finish _ _ key followers hq =>
      have hput := PendingState.ahead_put hq
        ⟨key, .leader followers (.finished (forwardOutcome context snapshot work result))⟩
      exact ahead_count hinv hx hq (fun y hy => (hput y).trans (if_neg hy))
        ((congrArg (· + 1) ((hput q).trans (if_pos rfl))).le)
  | @take x work snapshot q pending hx hpending =>
    cases pendingStep_cases hpending with
    | @take _ key followers result hq =>
      have hput := PendingState.ahead_put hq
        ⟨key, .leader none (.delivering result (followers.getD []))⟩
      have hshort := hinv.pending.short q
      rw [PendingState.waiting_of_getElem? hq] at hshort
      exact ahead_count hinv hx hq (fun y hy => (hput y).trans (if_neg hy))
        ((congrArg (· + 1) ((hput q).trans (if_pos rfl))).le.trans
          (Nat.succ_le_succ (Nat.succ_le_succ hshort)))
  | @deliver x io work snapshot q key followers outcome follower rest m work' snapshot' stage
      hx hq hm hitem =>
    have hput := PendingState.ahead_put hq ⟨key, .leader followers (.delivering outcome rest)⟩
    let pending : PendingState ForwardOutcome :=
      { s.pending.put q ⟨key, .leader followers (.delivering outcome rest)⟩ with
        delivered := s.pending.delivered ++ [⟨q, follower, outcome⟩] }
    have hcount : WorkerState.ahead { s with pending } n + (if some x = some n then 1 else 0) ≤
        s.ahead n :=
      ahead_count hinv hx hq (fun y hy => (hput y).trans (if_neg hy))
        (congrArg (· + 1) ((hput q).trans (if_pos rfl))).le
    have hdone : (WorkerState.put { s with pending } m
        ⟨work', snapshot', .done x outcome.outcome⟩).ahead n ≤
          WorkerState.ahead { s with pending } n := by
      rw [ahead_put (s := { s with pending }) hitem]
      split_ifs
      · exact Nat.zero_le _
      · exact Nat.le_refl _
    exact Nat.le_trans (Nat.add_le_add_right hdone _) hcount
  | @own e x work snapshot stage outcome m hact hx hanswerable hanswered =>
    have hbefore := WorkerState.ahead_of_getElem? hx
    have hafter : (s.settle x ⟨work, snapshot, .done x outcome⟩ m).ahead n =
        if n = x then 0 else s.ahead n := ahead_put hx _
    rw [hafter, hact]
    simp only [hactor]
    split_ifs with hnx
    · rw [hnx, hbefore]
      cases stage with
      | routed => exact Nat.le_add_left 1 _
      | alone => exact Nat.le_refl _
      | pending q =>
        obtain ⟨key, followers, result, hq, -⟩ := hanswerable
        show 0 + 1 ≤ s.pending.ahead q
        rw [PendingState.ahead_of_getElem? hq]
        exact Nat.le_refl _
      | missed key => cases hanswerable
      | done deliverer outcome => cases hanswerable
    · exact Nat.le_refl _

theorem WorkerMove.length_le (hm : WorkerMove context hash s e s') :
    s.items.length ≤ s'.items.length := by
  cases hm with
  | routed _ => exact (List.length_append ▸ Nat.le_add_right _ _)
  | decided _ _ => exact (List.length_append ▸ Nat.le_add_right _ _)
  | pass _ _ => exact List.length_set.ge
  | begin _ _ => exact List.length_set.ge
  | refused _ _ _ => exact List.length_set.ge
  | deliver _ _ _ _ => exact List.length_set.ge
  | own _ _ _ _ => exact List.length_set.ge
  | _ => exact Nat.le_refl _

theorem actedBy_le {shardCount n : ℕ} : ∀ (es : List WorkerEvent) {s s' : WorkerState},
    WorkerInv hash s → n < s.items.length →
    (workerMachine context hash shardCount).run s es = some s' →
    s'.ahead n + actedBy n es ≤ s.ahead n
  | [], s, s', _, _, hr => by cases hr; exact Nat.le_refl _
  | e :: es, s, s', hinv, hn, hr => by
    obtain ⟨s₁, hstep, hrest⟩ := Machine.run_cons_eq_some _ |>.1 hr
    have hm := workerStep_move hstep
    have hle := hm.ahead hinv hn
    have hle' := actedBy_le es (hinv.move hm) (Nat.lt_of_lt_of_le hn hm.length_le) hrest
    simp only [actedBy, List.countP_cons, decide_eq_true_eq] at hle' ⊢
    omega

theorem ahead_le (hinv : WorkerInv hash s) (n : ℕ) : s.ahead n ≤ maxPendingFollowers + 5 := by
  rw [WorkerState.ahead]
  cases hn : s.items[n]? with
  | none => exact Nat.zero_le _
  | some item =>
    obtain ⟨work, snapshot, stage⟩ := item
    cases stage with
    | routed => exact Nat.le_refl _
    | missed key => exact Nat.le_succ _
    | pending q =>
      show s.pending.ahead q ≤ _
      rw [PendingState.ahead]
      cases hq : s.pending.queries[q]? with
      | none => exact Nat.zero_le _
      | some query =>
        obtain ⟨key, role⟩ := query
        cases role with
        | leader followers stage =>
          have hleads : s.pending.Leads q key := ⟨followers, stage, hq⟩
          have hle := hleads.remaining_le (hinv.pending.short q)
          rw [PendingState.remaining_of_getElem? hq] at hle
          exact Nat.le_trans (Nat.succ_le_succ hle) (Nat.le_add_right _ 2)
        | joining p => exact Nat.le_add_left 2 _
        | follower p => exact Nat.zero_le _
        | alone => exact Nat.zero_le _
    | alone => exact Nat.le_add_left 1 _
    | done deliverer outcome => exact Nat.zero_le _

/-! ## The next step -/

namespace Engaged

theorem concat (h : Engaged s) {item : Item} (hitem : ∀ q, item.stage ≠ .pending q)
    (server : Server) : Engaged { s with server, items := s.items ++ [item] } := by
  intro n work snapshot q hn
  dsimp only at hn
  rw [PendingState.getElem?_concat] at hn
  split_ifs at hn
  · cases hn
    exact absurd rfl (hitem q)
  · exact h n work snapshot q hn

theorem put (h : Engaged s) {n : ℕ} {item item' : Item} (hn : s.items[n]? = some item)
    (hitem : ∀ q, item'.stage ≠ .pending q) : Engaged (s.put n item') := by
  intro x work snapshot q hx
  rw [WorkerState.getElem?_put hn] at hx
  split_ifs at hx
  · cases hx
    exact absurd rfl (hitem q)
  · exact h x work snapshot q hx

theorem withPending (h : Engaged s) {pending : PendingState ForwardOutcome}
    (hkeep : ∀ (n : ℕ) work snapshot q query, s.items[n]? = some ⟨work, snapshot, .pending q⟩ →
      s.pending.queries[q]? = some query → query.role.isAlone = false →
      ∃ query', pending.queries[q]? = some query' ∧ query'.role.isAlone = false) :
    Engaged { s with pending } := by
  intro n work snapshot q hn
  obtain ⟨query, hq, halone⟩ := h n work snapshot q hn
  exact hkeep n work snapshot q query hn hq halone

theorem keep_put {x : ℕ} {a b query : Query ForwardOutcome} {q : ℕ}
    (hx : s.pending.queries[x]? = some a) (hb : b.role.isAlone = false)
    (hq : s.pending.queries[q]? = some query) (halone : query.role.isAlone = false) :
    ∃ query', (s.pending.put x b).queries[q]? = some query' ∧ query'.role.isAlone = false := by
  rw [PendingState.getElem?_put hx]
  split_ifs
  · exact ⟨b, rfl, hb⟩
  · exact ⟨query, hq, halone⟩

theorem move (h : Engaged s) (hinv : WorkerInv hash s) (hm : WorkerMove context hash s e s') :
    Engaged s' := by
  cases hm with
  | routed _ => exact h.concat (fun q hq => by cases hq) _
  | decided _ _ => exact h.concat (fun q hq => by cases hq) _
  | pass hn hstage =>
    refine h.put hn fun q hq => ?_
    rcases hstage with rfl | ⟨key, rfl⟩
    · cases hq
    · cases hq
  | @begin x work snapshot key pending hx hpending =>
    obtain ⟨query, hqueries, hquery⟩ : ∃ query, pending.queries = s.pending.queries ++ [query] ∧
        query.role.isAlone = false := by
      cases pendingStep_cases hpending with
      | lead _ _ _ => exact ⟨_, rfl, rfl⟩
      | join _ => exact ⟨_, rfl, rfl⟩
    intro n w sn q hn
    have hn' := (WorkerState.getElem?_put hx _ n).symm.trans hn
    show ∃ query, pending.queries[q]? = some query ∧ _
    rw [hqueries]
    split_ifs at hn' with hnx
    · cases hn'
      exact ⟨query, List.getElem?_concat_length, hquery⟩
    · obtain ⟨old, hq, halone⟩ := h n w sn q hn'
      exact ⟨old, (List.getElem?_append_left (List.getElem?_eq_some_iff.1 hq).1).trans hq, halone⟩
  | @accepted x work snapshot q key p key' followers stage hx hq hp hlt =>
    refine h.withPending fun n w sn y query hn hy halone => ?_
    rw [PendingState.getElem?_accept hq hp]
    split_ifs
    · exact ⟨_, rfl, rfl⟩
    · exact ⟨_, rfl, rfl⟩
    · exact ⟨query, hy, halone⟩
  | @refused x work snapshot q key p hx hq hpending =>
    intro n w sn y hn
    have hn' := (WorkerState.getElem?_put hx _ n).symm.trans hn
    split_ifs at hn' with hnx
    · cases hn'
    · have hyq : y ≠ q := by
        rintro rfl
        have howner := hinv.owned n w sn y hn'
        rw [hinv.owned x work snapshot y hx] at howner
        exact hnx (Option.some.inj howner).symm
      obtain ⟨query, hy, halone⟩ := h n w sn y hn'
      exact ⟨query, (PendingState.getElem?_put hq _ y).trans ((if_neg hyq).trans hy), halone⟩
  | @finish x work snapshot q result upstreamTraffic io pending hx hpending =>
    cases pendingStep_cases hpending with
    | finish hq => exact h.withPending fun _ _ _ _ _ _ hy halone => keep_put hq rfl hy halone
  | take hx hpending =>
    cases pendingStep_cases hpending with
    | take hq => exact h.withPending fun _ _ _ _ _ _ hy halone => keep_put hq rfl hy halone
  | deliver hx hq hm hitem =>
    refine Engaged.withPending (s := WorkerState.settle s _ _ _) (h.put hitem fun q hq => ?_)
      fun _ _ _ _ _ _ hy halone => keep_put hq rfl hy halone
    cases hq
  | own _ hn _ _ => exact h.put hn fun q hq => nomatch hq

end Engaged

theorem enabled (hinv : WorkerInv hash s) {n : ℕ} (h : 0 < s.ahead n) :
    ∃ e, e.actor = some n ∧ (workerStep context hash s e).isSome := by
  rw [WorkerState.ahead] at h
  cases hn : s.items[n]? with
  | none =>
    rw [hn] at h
    cases h
  | some item =>
    obtain ⟨work, snapshot, stage⟩ := item
    rw [hn] at h
    cases stage with
    | routed =>
      refine ⟨.lookup n none {}, rfl, ?_⟩
      simp only [workerStep, hn]
      cases queryCacheKey context snapshot work with
      | none => rfl
      | some key => rfl
    | missed key =>
      refine ⟨.begin n, rfl, ?_⟩
      simp only [workerStep, hn, pendingStep, Option.isSome_map]
      split
      · rfl
      · rfl
    | pending q =>
      have hq' : 0 < s.pending.ahead q := h
      rw [PendingState.ahead] at hq'
      cases hq : s.pending.queries[q]? with
      | none =>
        rw [hq] at hq'
        cases hq'
      | some query =>
        obtain ⟨key, role⟩ := query
        rw [hq] at hq'
        cases role with
        | leader followers stage =>
          cases stage with
          | forwarding =>
            exact ⟨.forward n (.error []) {} {}, rfl, by simp [workerStep, hn, pendingStep, hq]⟩
          | finished result => exact ⟨.take n, rfl, by simp [workerStep, hn, pendingStep, hq]⟩
          | delivering result rest =>
            cases rest with
            | nil => exact ⟨.answer n {} {}, rfl, by simp [workerStep, hn, hq]⟩
            | cons follower rest =>
              have hwaits : follower ∈ s.pending.waiting q := by
                rw [PendingState.waiting_of_getElem? hq]
                exact List.mem_cons_self
              obtain ⟨m, w, sn, howner, hitem⟩ := hinv.waiting q follower hwaits
              exact ⟨.deliver n {}, rfl, by simp [workerStep, hn, hq, howner, hitem, pendingStep]⟩
        | joining p =>
          refine ⟨.register n, rfl, ?_⟩
          have hregisters := hinv.pending.registers hq
          simpa only [workerStep, hn, Option.isSome_map] using hregisters
        | follower p => cases hq'
        | alone => cases hq'
    | alone => exact ⟨.forward n (.error []) {} {}, rfl, by simp [workerStep, hn]⟩
    | done deliverer outcome => cases h

/-- **A query that is not done is on its way**: its worker can make a step, or that of
    the leader it has registered with can. -/
theorem onItsWay (hinv : WorkerInv hash s) (hleading : Leading context s) (hengaged : Engaged s)
    {n : ℕ} {work : WorkItem} {snapshot : Snapshot} {stage : Stage}
    (hn : s.items[n]? = some ⟨work, snapshot, stage⟩) (hdone : ¬ stage.IsDone) :
    ∃ m, (m = n ∨ s.Joined n m) ∧
      ∃ e, e.actor = some m ∧ (workerStep context hash s e).isSome := by
  have hself : 0 < s.ahead n → ∃ m, (m = n ∨ s.Joined n m) ∧
      ∃ e, e.actor = some m ∧ (workerStep context hash s e).isSome :=
    fun hpos => ⟨n, .inl rfl, enabled hinv hpos⟩
  have hahead := WorkerState.ahead_of_getElem? hn
  cases stage with
  | routed => exact hself (hahead ▸ Nat.succ_pos _)
  | missed key => exact hself (hahead ▸ Nat.succ_pos _)
  | alone => exact hself (hahead ▸ Nat.one_pos)
  | done deliverer outcome => exact absurd trivial hdone
  | pending q =>
    obtain ⟨⟨key, role⟩, hq, halone⟩ := hengaged n work snapshot q hn
    have hpending : s.ahead n = role.ahead :=
      hahead.trans (PendingState.ahead_of_getElem? hq)
    cases role with
    | leader followers stage => exact hself (hpending ▸ Nat.succ_pos _)
    | joining p => exact hself (hpending ▸ Nat.two_pos)
    | alone => cases halone
    | follower p =>
      have howner := hinv.owned n work snapshot q hn
      -- it waits for its leader
      have hwaits : q ∈ s.pending.waiting p := by
        rcases List.mem_append.1 ((hinv.pending.line p q).2 ⟨key, hq⟩) with hanswered | hwaits
        · obtain ⟨x, w, sn, deliverer, outcome, hx, hitem⟩ := hinv.answered p q hanswered
          rw [howner] at hx
          cases hx
          rw [hn] at hitem
          cases hitem
        · exact hwaits
      obtain ⟨followers, leaderStage, hp⟩ := hinv.pending.joined q key p (.inr hq)
      obtain ⟨m, w, sn, st, hl⟩ := hleading p key followers leaderStage hp
      rcases hl.underWay with rfl | ⟨-, result, rfl⟩
      · have hpos : s.ahead m = (QueryRole.leader followers leaderStage).ahead :=
          (WorkerState.ahead_of_getElem? hl.item).trans (PendingState.ahead_of_getElem? hp)
        exact ⟨m, .inr ⟨q, p, howner, hl.owner, key, hq⟩, enabled hinv (hpos ▸ Nat.succ_pos _)⟩
      · rw [PendingState.waiting_of_getElem? hp] at hwaits
        cases hwaits

end

end DnsBlackhole.Worker
