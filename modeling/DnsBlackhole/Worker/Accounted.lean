/-
  Every query is answered and accounted for once.

  A query is counted when it is accepted.  Until it has been answered nothing has
  been handed to its target and no entry has been called for (`Quiet`); the move
  that answers it does both once (`Answered`), and no other move does anything for
  it.  What the entry says is in the outcome; whether it is written is up to the
  context and to the filter of the worker that answers.
-/
import DnsBlackhole.Worker.Finished

namespace DnsBlackhole.Worker
open Lib Cache DnsBlackhole.Filter Protocol

namespace Server

/-- What the target of the query `n` has been handed. -/
def handedTo (server : Server) (n : ℕ) : List Handed :=
  (server.handed.filter fun h => h.1 = n).map Prod.snd

/-- The entries about the query `n` that have been put into the queue. -/
def offeredFor (server : Server) (n : ℕ) : List Offer :=
  server.offered.filter fun offer => offer.query = n

/-- Nothing has been done for the query `n`. -/
def Quiet (server : Server) (n : ℕ) : Prop := server.handedTo n = [] ∧ server.offeredFor n = []

end Server

section
variable {context : WorkerContext} {filter : FilterRuntime} {n k counted : ℕ} {work : WorkItem}
  {blocked : Bool} {foreign : Option Packet} {server server' : Server}

theorem query_of_mem_offers {queue : QueueOutcome} {report : QueryReport} :
    ∀ offer ∈ offers context filter n work queue report, offer.query = n := by
  intro offer h
  unfold offers at h
  split_ifs at h
  · rw [List.mem_singleton.1 h]
  · cases h

theorem Answered.frame (h : Answered context filter n work counted blocked foreign server server')
    (hk : k ≠ n) :
    server'.handedTo k = server.handedTo k ∧ server'.offeredFor k = server.offeredFor k := by
  obtain ⟨-, ⟨handed, -, hhanded⟩, queue, report, -, hoffered⟩ := h
  constructor
  · rw [Server.handedTo, hhanded, List.filter_append]
    simp [Server.handedTo, Ne.symm hk]
  · have hnone : (offers context filter n work queue report).filter (fun o => o.query = k) = [] := by
      rw [List.filter_eq_nil_iff]
      intro offer hmem
      rw [query_of_mem_offers offer hmem]
      simp [Ne.symm hk]
    rw [Server.offeredFor, hoffered, List.filter_append, hnone, List.append_nil]
    rfl

theorem Answered.done (h : Answered context filter n work counted blocked foreign server server')
    (hquiet : server.Quiet n) :
    (∃ handed : Handed, handed.foreign = foreign ∧ server'.handedTo n = [handed]) ∧
    ∃ queue report, report.blocked = blocked ∧
      server'.offeredFor n = offers context filter n work queue report := by
  obtain ⟨-, ⟨handed, hforeign, hhanded⟩, queue, report, hblocked, hoffered⟩ := h
  obtain ⟨hnone, hnothing⟩ := hquiet
  refine ⟨⟨handed, hforeign, ?_⟩, queue, report, hblocked, ?_⟩
  · rw [Server.handedTo, hhanded, List.filter_append, List.map_append]
    rw [Server.handedTo] at hnone
    rw [hnone]
    simp
  · rw [Server.offeredFor, hoffered, List.filter_append]
    rw [Server.offeredFor] at hnothing
    rw [hnothing, List.nil_append, List.filter_eq_self]
    intro offer hmem
    rw [query_of_mem_offers offer hmem]
    simp

end

/-! ## What stays -/

/-- The queries stay, with their snapshots and the queries they have registered with. -/
structure Grows (s s' : WorkerState) : Prop where
  items : ∀ (k : ℕ) item, s.items[k]? = some item → ∃ item', s'.items[k]? = some item' ∧
    item'.work = item.work ∧ item'.snapshot = item.snapshot
  joined : ∀ n m, s.Joined n m → s'.Joined n m

section
variable {context : WorkerContext} {hash : QueryCacheKey → ℕ} {s s' : WorkerState}
  {e : WorkerEvent}

theorem items_put {n : ℕ} {work : WorkItem} {snapshot : Snapshot} {stage : Stage}
    (hn : s.items[n]? = some ⟨work, snapshot, stage⟩) (stage' : Stage) (k : ℕ) (item : Item)
    (hk : s.items[k]? = some item) : ∃ item', (s.put n ⟨work, snapshot, stage'⟩).items[k]? =
      some item' ∧ item'.work = item.work ∧ item'.snapshot = item.snapshot := by
  rw [WorkerState.getElem?_put hn]
  split_ifs with hkn
  · subst hkn
    rw [hn] at hk
    cases hk
    exact ⟨_, rfl, rfl, rfl⟩
  · exact ⟨item, hk, rfl, rfl⟩

theorem items_concat (new : Item) (k : ℕ) (item : Item) (hk : s.items[k]? = some item) :
    ∃ item', (s.items ++ [new])[k]? = some item' ∧ item'.work = item.work ∧
      item'.snapshot = item.snapshot :=
  ⟨item, (List.getElem?_append_left (List.getElem?_eq_some_iff.1 hk).1).trans hk, rfl, rfl⟩

theorem WorkerMove.items (hm : WorkerMove context hash s e s') (k : ℕ) (item : Item)
    (hk : s.items[k]? = some item) : ∃ item', s'.items[k]? = some item' ∧
      item'.work = item.work ∧ item'.snapshot = item.snapshot := by
  have hsame : ∃ item', s.items[k]? = some item' ∧ item'.work = item.work ∧
      item'.snapshot = item.snapshot := ⟨item, hk, rfl, rfl⟩
  cases hm with
  | routed _ => exact items_concat _ k item hk
  | decided _ _ => exact items_concat _ k item hk
  | pass hn _ => exact items_put hn _ k item hk
  | begin hn _ => exact items_put hn _ k item hk
  | accepted _ _ _ _ => exact hsame
  | refused hn _ _ => exact items_put hn _ k item hk
  | finish _ _ => exact hsame
  | take _ _ => exact hsame
  | deliver _ _ _ hitem => exact items_put hitem _ k item hk
  | own _ hn _ _ => exact items_put hn _ k item hk

theorem WorkerMove.owners (hm : WorkerMove context hash s e s') {q n : ℕ}
    (hq : s.owners[q]? = some n) : s'.owners[q]? = some n := by
  cases hm with
  | begin _ _ => exact (List.getElem?_append_left (List.getElem?_eq_some_iff.1 hq).1).trans hq
  | _ => exact hq

theorem WorkerMove.grows (hm : WorkerMove context hash s e s') : Grows s s' := by
  refine ⟨hm.items, fun n m => ?_⟩
  rintro ⟨q, p, hq, hp, hfollows⟩
  refine ⟨q, p, hm.owners hq, hm.owners hp, ?_⟩
  rcases hm.pending with hsame | ⟨pe, hstep⟩
  · rwa [hsame]
  · exact hfollows.step (pendingStep_cases hstep)

end

/-! ## The state of a query -/

/-- The worker of the query `deliverer` has answered the query `n`: its own worker, or
    that of the leader it has registered with, by the evaluation of `answering`. -/
structure AnsweredBy (context : WorkerContext) (s : WorkerState) (n : ℕ) (outcome : Outcome)
    (deliverer : ℕ) (answering : Item) : Prop where
  item : s.items[deliverer]? = some answering
  who : deliverer = n ∨ s.Joined n deliverer
  of : outcome.Of context answering.snapshot answering.work

/-- What has been done for the query `n`, by its stage. -/
def Settled (context : WorkerContext) (s : WorkerState) (n : ℕ) (work : WorkItem) : Stage → Prop
  | .done deliverer outcome =>
    ∃ answering, AnsweredBy context s n outcome deliverer answering ∧
      (∃ handed : Handed, handed.foreign = outcome.foreign ∧ s.server.handedTo n = [handed]) ∧
      ∃ queue report, report.blocked = outcome.blocks ∧ s.server.offeredFor n =
        offers context answering.snapshot.filter n work queue report
  | _ => s.server.Quiet n

structure Counted (context : WorkerContext) (s : WorkerState) : Prop where
  queries : s.server.stats.queries = s.items.length
  settled : ∀ n work snapshot stage, s.items[n]? = some ⟨work, snapshot, stage⟩ →
    Settled context s n work stage
  fresh : ∀ n, s.items.length ≤ n → s.server.Quiet n

section
variable {context : WorkerContext} {hash : QueryCacheKey → ℕ} {s s' : WorkerState}
  {e : WorkerEvent}

theorem AnsweredBy.grow {n deliverer : ℕ} {outcome : Outcome} {answering : Item}
    (h : AnsweredBy context s n outcome deliverer answering) (hgrows : Grows s s') :
    ∃ answering', AnsweredBy context s' n outcome deliverer answering' ∧
      answering'.snapshot = answering.snapshot := by
  obtain ⟨answering', hitem, hwork, hsnapshot⟩ := hgrows.items deliverer answering h.item
  refine ⟨answering', ⟨hitem, h.who.imp_right (hgrows.joined n deliverer), ?_⟩, hsnapshot⟩
  rw [hwork, hsnapshot]
  exact h.of

theorem Settled.keep {n : ℕ} {work : WorkItem} {stage : Stage} (h : Settled context s n work stage)
    (hgrows : Grows s s') (hhanded : s'.server.handedTo n = s.server.handedTo n)
    (hoffered : s'.server.offeredFor n = s.server.offeredFor n) :
    Settled context s' n work stage := by
  cases stage with
  | done deliverer outcome =>
    obtain ⟨answering, hby, ⟨handed, hforeign, hone⟩, queue, report, hblocked, hentry⟩ := h
    obtain ⟨answering', hby', hsnapshot⟩ := hby.grow hgrows
    exact ⟨answering', hby', ⟨handed, hforeign, hhanded.trans hone⟩, queue, report, hblocked,
      by rw [hoffered, hentry, hsnapshot]⟩
  | _ => exact ⟨hhanded.trans h.1, hoffered.trans h.2⟩

theorem settled_of_not_isDone {n : ℕ} {work : WorkItem} {stage : Stage} (h : ¬ stage.IsDone) :
    Settled context s n work stage ↔ s.server.Quiet n := by
  cases stage with
  | done deliverer outcome => exact absurd trivial h
  | _ => exact Iff.rfl

namespace Counted

theorem keep (h : Counted context s) (hserver : s'.server = s.server) (hgrows : Grows s s')
    (hlength : s'.items.length = s.items.length)
    (hitems : ∀ (n : ℕ) work snapshot stage, s'.items[n]? = some ⟨work, snapshot, stage⟩ →
      s.items[n]? = some ⟨work, snapshot, stage⟩ ∨ ¬ stage.IsDone ∧
        ∃ stage', s.items[n]? = some ⟨work, snapshot, stage'⟩ ∧ ¬ stage'.IsDone) :
    Counted context s' := by
  refine ⟨by rw [hserver, hlength]; exact h.queries, fun n work snapshot stage hn => ?_,
    fun n hn => by rw [hserver]; exact h.fresh n (hlength ▸ hn)⟩
  rcases hitems n work snapshot stage hn with hold | ⟨hstage, stage', hold, hstage'⟩
  · exact (h.settled n work snapshot stage hold).keep hgrows (by rw [hserver]) (by rw [hserver])
  · rw [settled_of_not_isDone hstage, hserver, ← settled_of_not_isDone hstage']
    exact h.settled n work snapshot stage' hold

theorem put (h : Counted context s) {n : ℕ} {work : WorkItem} {snapshot : Snapshot}
    {stage stage' : Stage} (hn : s.items[n]? = some ⟨work, snapshot, stage⟩)
    (hstage : ¬ stage.IsDone) (hstage' : ¬ stage'.IsDone) (hserver : s'.server = s.server)
    (hgrows : Grows s s') (hitems : s'.items = (s.put n ⟨work, snapshot, stage'⟩).items) :
    Counted context s' := by
  refine h.keep hserver hgrows (hitems ▸ List.length_set) fun x w sn st hx => ?_
  rw [hitems, WorkerState.getElem?_put hn] at hx
  split_ifs at hx with hxn
  · cases hx
    exact .inr ⟨hstage', stage, hxn ▸ hn, hstage⟩
  · exact .inl hx

theorem answer (h : Counted context s) {n deliverer : ℕ} {work : WorkItem} {snapshot : Snapshot}
    {stage : Stage} {outcome : Outcome} {answering : Item}
    (hn : s.items[n]? = some ⟨work, snapshot, stage⟩) (hstage : ¬ stage.IsDone)
    (hby : AnsweredBy context s n outcome deliverer answering)
    (hanswered : Answered context answering.snapshot.filter n work 0 outcome.blocks
      outcome.foreign s.server s'.server) (hgrows : Grows s s')
    (hitems : s'.items = (s.put n ⟨work, snapshot, .done deliverer outcome⟩).items) :
    Counted context s' := by
  have hget := WorkerState.getElem?_put hn ⟨work, snapshot, .done deliverer outcome⟩
  have hlength : s'.items.length = s.items.length := hitems ▸ List.length_set
  refine ⟨hanswered.queries.trans (h.queries.trans hlength.symm), fun x w sn st hx => ?_,
    fun x hx => ?_⟩
  · rw [hitems, hget] at hx
    split_ifs at hx with hxn
    · cases hx
      subst hxn
      have hquiet := (settled_of_not_isDone hstage).1 (h.settled x work snapshot stage hn)
      obtain ⟨hhanded, queue, report, hblocked, hoffered⟩ := hanswered.done hquiet
      obtain ⟨answering', hby', hsnapshot⟩ := hby.grow hgrows
      exact ⟨answering', hby', hhanded, queue, report, hblocked, by rw [hoffered, hsnapshot]⟩
    · obtain ⟨hhanded, hoffered⟩ := hanswered.frame hxn
      exact (h.settled x w sn st hx).keep hgrows hhanded hoffered
  · rw [hlength] at hx
    have hxn : x ≠ n := by
      rintro rfl
      rw [List.getElem?_eq_none hx] at hn
      cases hn
    obtain ⟨hhanded, hoffered⟩ := hanswered.frame hxn
    obtain ⟨hnone, hnothing⟩ := h.fresh x hx
    exact ⟨hhanded.trans hnone, hoffered.trans hnothing⟩

theorem accept (h : Counted context s) {work : WorkItem} {snapshot : Snapshot} {stage : Stage}
    {server : Server} {s' : WorkerState} (hitems : s'.items = s.items ++ [⟨work, snapshot, stage⟩])
    (hserver : s'.server = server) (hqueries : server.stats.queries = s.server.stats.queries + 1)
    (hother : ∀ x, x ≠ s.items.length → server.handedTo x = s.server.handedTo x ∧
      server.offeredFor x = s.server.offeredFor x)
    (hnew : Settled context s' s.items.length work stage) (hgrows : Grows s s') :
    Counted context s' := by
  have hlength : s'.items.length = s.items.length + 1 := by
    rw [hitems, List.length_append]
    rfl
  refine ⟨by rw [hserver, hqueries, hlength, h.queries], fun x w sn st hx => ?_, fun x hx => ?_⟩
  · rw [hitems, PendingState.getElem?_concat] at hx
    split_ifs at hx with hxn
    · cases hx
      exact hxn ▸ hnew
    · obtain ⟨hhanded, hoffered⟩ := hother x hxn
      exact (h.settled x w sn st hx).keep hgrows (hserver ▸ hhanded) (hserver ▸ hoffered)
  · rw [hlength] at hx
    obtain ⟨hhanded, hoffered⟩ := hother x (by omega)
    obtain ⟨hnone, hnothing⟩ := h.fresh x (by omega)
    rw [hserver]
    exact ⟨hhanded.trans hnone, hoffered.trans hnothing⟩

/-- **Every move keeps the accounts.** -/
theorem move (h : Counted context s) (hinv : WorkerInv hash s) (hleading : Leading context s)
    (hm : WorkerMove context hash s e s') : Counted context s' := by
  have hgrows := hm.grows
  cases hm with
  | @routed work snapshot io hdecision =>
    exact h.accept rfl rfl (Admin.DnsStats.queries_recordQuery ..) (fun _ _ => ⟨rfl, rfl⟩)
      (h.fresh s.items.length (Nat.le_refl _)) hgrows
  | @decided work snapshot io decision hdecision hforwards =>
    have hanswered := handleDecision_answered context snapshot.filter s.items.length work io
      hforwards s.server
    obtain ⟨hhanded, hoffered⟩ := hanswered.done (h.fresh s.items.length (Nat.le_refl _))
    refine h.accept rfl rfl hanswered.queries (fun x hx => hanswered.frame hx) ?_ hgrows
    exact ⟨⟨work, snapshot, _⟩, ⟨List.getElem?_concat_length, .inl rfl, hdecision⟩, hhanded,
      hoffered⟩
  | @pass n hit io work snapshot stage hn hstage =>
    refine h.put hn id ?_ rfl hgrows rfl
    rcases hstage with rfl | ⟨key, rfl⟩
    · exact id
    · exact id
  | begin hn hpending => exact h.put hn id id rfl hgrows rfl
  | accepted _ _ _ _ => exact h.keep rfl hgrows rfl fun _ _ _ _ => .inl
  | refused hn _ _ => exact h.put hn id id rfl hgrows rfl
  | finish _ _ => exact h.keep rfl hgrows rfl fun _ _ _ _ => .inl
  | take _ _ => exact h.keep rfl hgrows rfl fun _ _ _ _ => .inl
  | @deliver n io work snapshot q key followers outcome follower rest m work' snapshot' stage
      hn hq hm hitem =>
    obtain ⟨rfl, -⟩ := hinv.deliver (n := n) hq hm hitem
    -- the leader has evaluated what it delivers
    obtain ⟨x, w, sn, st, hl⟩ := hleading q key followers _ hq
    obtain rfl : x = n := Option.some.inj (hl.owner.symm.trans (hinv.owned n work snapshot q hn))
    have hx := hl.item
    rw [hn] at hx
    cases hx
    obtain ⟨result, rfl⟩ := hl.result outcome rfl
    have hfollows : s.pending.Follows follower q := by
      refine (hinv.pending.line q follower).1 (List.mem_append_right _ ?_)
      rw [PendingState.waiting_of_getElem? hq]
      exact List.mem_cons_self
    refine h.answer hitem id ⟨hn, .inr ⟨follower, q, hm, hl.owner, hfollows⟩, ?_⟩ ?_ hgrows rfl
    · exact of_forwardOutcome context snapshot work result
    · exact deliverToFollower_answered _ s.server
  | @own _ n work snapshot stage outcome m hactor hn hanswerable hanswered =>
    have hdone : ¬ stage.IsDone := by
      intro hdone
      cases stage with
      | done deliverer outcome => exact hanswerable
      | _ => exact hdone
    have hof : outcome.Of context snapshot work := by
      cases stage with
      | routed => exact hanswerable
      | alone => exact hanswerable
      | pending q =>
        obtain ⟨key, followers, result, hq, rfl⟩ := hanswerable
        obtain ⟨x, w, sn, st, hl⟩ := hleading q key followers _ hq
        obtain rfl : x = n := Option.some.inj
          (hl.owner.symm.trans (hinv.owned n work snapshot q hn))
        have hx := hl.item
        rw [hn] at hx
        cases hx
        obtain ⟨r, rfl⟩ := hl.result result rfl
        exact of_forwardOutcome context snapshot work r
      | missed key => cases hanswerable
      | done deliverer outcome => cases hanswerable
    have hby : AnsweredBy context s n outcome n ⟨work, snapshot, stage⟩ := ⟨hn, .inl rfl, hof⟩
    exact h.answer hn hdone hby (hanswered s.server) hgrows rfl

end Counted

end

/-! ## Accounts -/

/-- What holds of the queries of the workers in every reachable state; a query has
    been accepted behind the access check and `parse_query`. -/
structure Accounted (context : WorkerContext) (hash : QueryCacheKey → ℕ) (shardCount : ℕ)
    (s : WorkerState) : Prop where
  /-- Every query has been counted once. -/
  queries : s.server.stats.queries = s.items.length
  /-- Nothing has been done for a query that is not done. -/
  quiet : ∀ n work snapshot stage, s.items[n]? = some ⟨work, snapshot, stage⟩ → ¬ stage.IsDone →
    s.server.Quiet n
  /-- A query that is done has been answered by its worker or by that of its leader.
      Its target has been handed one thing, and one entry has been put into the
      queue, unless the answering worker's filter and the context keep nothing about
      its domain; the entry is a blocked one exactly for the outcomes that block. -/
  done : ∀ n work snapshot deliverer outcome,
    s.items[n]? = some ⟨work, snapshot, .done deliverer outcome⟩ →
    ∃ answering, AnsweredBy context s n outcome deliverer answering ∧
      (∃ handed : Handed, handed.foreign = outcome.foreign ∧ s.server.handedTo n = [handed]) ∧
      ∃ queue report, report.blocked = outcome.blocks ∧ s.server.offeredFor n =
        offers context answering.snapshot.filter n work queue report
  /-- A query that is not done comes to be: a worker can make a step for it. -/
  onItsWay : ∀ n work snapshot stage, s.items[n]? = some ⟨work, snapshot, stage⟩ →
    ¬ stage.IsDone → ∃ m, (m = n ∨ s.Joined n m) ∧
      ∃ e, e.actor = some m ∧ (workerStep context hash s e).isSome
  /-- And a worker makes a bounded number of steps for a query. -/
  bounded : ∀ n, n < s.items.length → ∀ es s',
    (workerMachine context hash shardCount).run s es = some s' →
    actedBy n es ≤ maxPendingFollowers + 5

theorem counted {context : WorkerContext} {hash : QueryCacheKey → ℕ} {shardCount : ℕ}
    {s : WorkerState} (h : (workerMachine context hash shardCount).Reachable s) :
    WorkerInv hash s ∧ Leading context s ∧ Engaged s ∧ Counted context s := by
  refine h.inv (P := fun s => WorkerInv hash s ∧ Leading context s ∧ Engaged s ∧ Counted context s)
    ⟨.init hash shardCount, fun _ _ _ _ hq => (by cases hq), fun _ _ _ _ hn => (by cases hn),
      rfl, fun _ _ _ _ hn => (by cases hn), fun _ _ => ⟨rfl, rfl⟩⟩ fun _ _ _ hs hstep => ?_
  obtain ⟨hinv, hleading, hengaged, hcounted⟩ := hs
  have hm := workerStep_move hstep
  exact ⟨hinv.move hm, hleading.move hinv hm, hengaged.move hinv hm, hcounted.move hinv hleading hm⟩

/-- **Every query is answered and accounted for once**, in every interleaving of the
    workers and with every failure of the surroundings. -/
theorem queries_accounted {context : WorkerContext} {hash : QueryCacheKey → ℕ} {shardCount : ℕ}
    {s : WorkerState} (h : (workerMachine context hash shardCount).Reachable s) :
    Accounted context hash shardCount s := by
  obtain ⟨hinv, hleading, hengaged, hcounted⟩ := counted h
  refine ⟨hcounted.queries, fun n work snapshot stage hn hdone => ?_,
    fun n work snapshot deliverer outcome => hcounted.settled n work snapshot _,
    fun n work snapshot stage => onItsWay hinv hleading hengaged, fun n hn es s' hrun => ?_⟩
  · exact (settled_of_not_isDone hdone).1 (hcounted.settled n work snapshot stage hn)
  · have hle := actedBy_le es hinv hn hrun
    have hbound := ahead_le hinv n
    omega

/-! ## Small runs -/

/-- A query for everything about `a`. -/
def anyQuery : Packet := [0, 7, 1, 0, 0, 1, 0, 0, 0, 0, 0, 0, 1, 97, 0, 0, 255, 0, 1]

def anyWork : WorkItem where
  query := anyQuery
  client := .v4 ⟨192, 168, 0, 2⟩
  responseTarget := .tcp
  parsed := ⟨⟨['a'], 255, 1, 19⟩, true, false, false, false, none, true⟩
  parses := by decide

/-- A filter that keeps `a` out of the log and out of the statistics. -/
def ignoringFilter : FilterRuntime :=
  { rebindingOnly with logIgnore := ⟨[['a']]⟩, statisticsIgnore := ⟨[['a']]⟩ }

/-- One refused query that is logged. -/
theorem anyWork_accounted : ∃ s : WorkerState, s.items.length = 1 ∧
    Accounted {} (fun _ => 0) 4 s := by
  have h : (workerMachine {} (fun _ => 0) 4).Reachable _ :=
    ⟨[.accept anyWork ⟨rebindingOnly, false, ⟨0, 0⟩⟩ {}], rfl⟩
  exact ⟨_, rfl, queries_accounted h⟩

/-- A query for a domain that neither the log nor the statistics keep is answered
    and counted, and no entry about it is queued. -/
theorem ignoredQuery_not_queued :
    ((workerMachine {} (fun _ => 0) 4).run (workerMachine {} (fun _ => 0) 4).init
      [.accept anyWork ⟨ignoringFilter, false, ⟨0, 0⟩⟩ {}]).map (fun s =>
        (s.server.stats.queries, (s.server.handedTo 0).length, (s.server.offeredFor 0).length)) =
      some (1, 1, 0) := by
  decide

end DnsBlackhole.Worker
