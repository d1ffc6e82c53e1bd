/-
  The protection of responses over whole runs.

  A response is checked with the snapshot of the query that is forwarded, and its
  followers get what has passed that check.  So a follower is protected by its own
  filter as long as the check of its leader covers its own (`Covers`); a query that
  is accepted when the protection is resumed, or when another filter is installed,
  still registers with a leader from before.
-/
import DnsBlackhole.Worker.Accounted

namespace DnsBlackhole.Worker
open Lib Cache DnsBlackhole.Filter Protocol

/-- The check of `leader` looks for whatever that of `follower` looks for. -/
structure Covers (context : WorkerContext) (leader follower : Item) : Prop where
  active : filteringActive leader.snapshot leader.work.client = true
  cname : follower.snapshot.filter.cnameCloakingEnabled = true →
    leader.snapshot.filter.cnameCloakingEnabled = true ∧ ∀ target,
      leader.snapshot.filter.rules.blockingMatch target leader.work.question.qtype =
        follower.snapshot.filter.rules.blockingMatch target follower.work.question.qtype
  rebinding : follower.snapshot.filter.checksRebinding follower.work.question
      (follower.work.routedUpstream context).isSome = true →
    leader.snapshot.filter.checksRebinding leader.work.question
      (leader.work.routedUpstream context).isSome = true

theorem cnameBlock_congr {filter filter' : FilterRuntime} {qtype qtype' : UInt16}
    (h : ∀ target, filter.rules.blockingMatch target qtype =
      filter'.rules.blockingMatch target qtype') (targets : List Text) :
    cnameBlock filter qtype targets = cnameBlock filter' qtype' targets := by
  unfold cnameBlock
  simp only [h]

theorem Covers.protectionBlock {context : WorkerContext} {leader follower : Item}
    (h : Covers context leader follower) {response : Packet}
    (hleader : protectionBlock context leader.snapshot leader.work response = none) :
    protectionBlock context follower.snapshot follower.work response = none := by
  unfold Worker.protectionBlock at hleader ⊢
  rw [if_pos h.active] at hleader
  split_ifs
  · cases hdata : responseSecurityData response with
    | none => exact responseProtectionBlock_of_unreadable hdata
    | some data =>
      obtain ⟨hcname, hrebinding⟩ := (responseProtectionBlock_eq_none hdata).1 hleader
      refine (responseProtectionBlock_eq_none hdata).2 ⟨fun hon => ?_, fun hon => ?_⟩
      · obtain ⟨hleaderOn, hrules⟩ := h.cname hon
        rw [← cnameBlock_congr hrules]
        exact hcname hleaderOn
      · exact hrebinding (h.rebinding hon)
  · rfl

/-! ## Registrations -/

/-- The query `n` is about to register with the query `m`, and will be accepted. -/
def WorkerState.Accepts (s : WorkerState) (n m : ℕ) : Prop :=
  ∃ work snapshot q key p key' followers stage,
    s.items[n]? = some ⟨work, snapshot, .pending q⟩ ∧
    s.pending.queries[q]? = some ⟨key, .joining p⟩ ∧
    s.pending.queries[p]? = some ⟨key', .leader followers stage⟩ ∧
    (registerPendingFollower followers q).1 = true ∧ s.owners[p]? = some m

/-- A query with filtering active registers only with a leader whose check covers
    its own. -/
def CoveredRegistration (context : WorkerContext) (s : WorkerState) (e : WorkerEvent) : Prop :=
  ∀ n m item leader, e = .register n → s.Accepts n m → s.items[n]? = some item →
    s.items[m]? = some leader → filteringActive item.snapshot item.work.client = true →
    Covers context leader item

section
variable {context : WorkerContext} {hash : QueryCacheKey → ℕ} {s s' : WorkerState}
  {e : WorkerEvent}

theorem joined_cases (hinv : WorkerInv hash s) (hm : WorkerMove context hash s e s') {n m : ℕ}
    (h : s'.Joined n m) : s.Joined n m ∨ e = .register n ∧ s.Accepts n m := by
  obtain ⟨q, p, hq, hp, hfollows⟩ := h
  have hput : ∀ {x : ℕ} {a b : Query ForwardOutcome}, s.pending.queries[x]? = some a →
      (∀ y, b.role ≠ .follower y) → (s.pending.put x b).Follows q p → s.pending.Follows q p := by
    rintro x a b hx hb ⟨key, hk⟩
    rw [PendingState.getElem?_put hx] at hk
    split_ifs at hk
    · cases hk
      exact absurd rfl (hb p)
    · exact ⟨key, hk⟩
  cases hm with
  | @begin x work snapshot key pending hx hpending =>
    have hold : s.pending.Follows q p := by
      obtain ⟨k, hk⟩ := hfollows
      cases pendingStep_cases hpending with
      | lead _ _ _ =>
        dsimp only at hk
        rw [PendingState.getElem?_concat] at hk
        split_ifs at hk
        · cases hk
        · exact ⟨k, hk⟩
      | join _ =>
        dsimp only at hk
        rw [PendingState.getElem?_concat] at hk
        split_ifs at hk
        · cases hk
        · exact ⟨k, hk⟩
    have howner : ∀ {y z : ℕ}, y < s.pending.queries.length →
        (s.owners ++ [x])[y]? = some z → s.owners[y]? = some z := by
      intro y z hy hz
      rwa [List.getElem?_append_left (hinv.owners ▸ hy)] at hz
    obtain ⟨k, hk⟩ := hold
    obtain ⟨followers, stage, hleader⟩ := hinv.pending.joined q k p (.inr hk)
    exact .inl ⟨q, p, howner (List.getElem?_eq_some_iff.1 hk).1 hq,
      howner (List.getElem?_eq_some_iff.1 hleader).1 hp, k, hk⟩
  | @accepted x work snapshot q' key p' key' followers stage hx hq' hp' hlt =>
    rcases (PendingState.follows_accept hq' hp' q p).1 hfollows with ⟨rfl, rfl⟩ | hold
    · obtain rfl : n = x := Option.some.inj (hq.symm.trans (hinv.owned x work snapshot q hx))
      refine .inr ⟨rfl, work, snapshot, q, key, p, key', some followers, stage, hx, hq', hp', ?_, hp⟩
      simp only [registerPendingFollower, if_pos hlt]
    · exact .inl ⟨q, p, hq, hp, hold⟩
  | refused _ hq' _ => exact .inl ⟨q, p, hq, hp, hput hq' (fun _ hr => by cases hr) hfollows⟩
  | finish _ hpending =>
    cases pendingStep_cases hpending with
    | finish hq' => exact .inl ⟨q, p, hq, hp, hput hq' (fun _ hr => by cases hr) hfollows⟩
  | take _ hpending =>
    cases pendingStep_cases hpending with
    | take hq' => exact .inl ⟨q, p, hq, hp, hput hq' (fun _ hr => by cases hr) hfollows⟩
  | deliver _ hq' _ _ =>
    exact .inl ⟨q, p, hq, hp, hput hq' (fun _ hr => by cases hr) hfollows⟩
  | _ => exact .inl ⟨q, p, hq, hp, hfollows⟩

/-- The leaders that queries with filtering active have joined cover their checks. -/
def CoveredJoins (context : WorkerContext) (s : WorkerState) : Prop :=
  ∀ n m item leader, s.Joined n m → s.items[n]? = some item → s.items[m]? = some leader →
    filteringActive item.snapshot item.work.client = true → Covers context leader item

theorem joined_items (hinv : WorkerInv hash s) (hleading : Leading context s) {n m : ℕ}
    (h : s.Joined n m) : (∃ item, s.items[n]? = some item) ∧ ∃ leader, s.items[m]? = some leader := by
  obtain ⟨q, p, hq, hp, key, hk⟩ := h
  constructor
  · rcases List.mem_append.1 ((hinv.pending.line p q).2 ⟨key, hk⟩) with hanswered | hwaits
    · obtain ⟨x, w, sn, deliverer, outcome, hx, hitem⟩ := hinv.answered p q hanswered
      rw [hq] at hx
      cases hx
      exact ⟨_, hitem⟩
    · obtain ⟨x, w, sn, hx, hitem⟩ := hinv.waiting p q hwaits
      rw [hq] at hx
      cases hx
      exact ⟨_, hitem⟩
  · obtain ⟨followers, stage, hleader⟩ := hinv.pending.joined q key p (.inr hk)
    obtain ⟨x, w, sn, st, hl⟩ := hleading p key followers stage hleader
    obtain rfl : m = x := Option.some.inj (hp.symm.trans hl.owner)
    exact ⟨_, hl.item⟩

theorem accepts_items (hleading : Leading context s) {n m : ℕ} (h : s.Accepts n m) :
    (∃ item, s.items[n]? = some item) ∧ ∃ leader, s.items[m]? = some leader := by
  obtain ⟨work, snapshot, q, key, p, key', followers, stage, hn, -, hp, -, howner⟩ := h
  obtain ⟨x, w, sn, st, hl⟩ := hleading p key' followers stage hp
  obtain rfl : m = x := Option.some.inj (howner.symm.trans hl.owner)
  exact ⟨⟨_, hn⟩, _, hl.item⟩

theorem CoveredJoins.move (h : CoveredJoins context s) (hinv : WorkerInv hash s)
    (hleading : Leading context s) (hok : CoveredRegistration context s e)
    (hm : WorkerMove context hash s e s') : CoveredJoins context s' := by
  intro n m item leader hjoined hn hleader hactive
  obtain ⟨⟨item₀, hn₀⟩, leader₀, hleader₀⟩ : (∃ item₀, s.items[n]? = some item₀) ∧
      ∃ leader₀, s.items[m]? = some leader₀ := by
    rcases joined_cases hinv hm hjoined with hold | ⟨-, haccepts⟩
    · exact joined_items hinv hleading hold
    · exact accepts_items hleading haccepts
  -- snapshots do not change
  obtain ⟨item', hitem', hwork, hsnapshot⟩ := hm.items n item₀ hn₀
  obtain ⟨leader', hleader', hwork', hsnapshot'⟩ := hm.items m leader₀ hleader₀
  rw [hn] at hitem'
  rw [hleader] at hleader'
  cases hitem'
  cases hleader'
  rw [hwork, hsnapshot] at hactive
  have hcovers : Covers context leader₀ item₀ := by
    rcases joined_cases hinv hm hjoined with hold | ⟨rfl, haccepts⟩
    · exact h n m item₀ leader₀ hold hn₀ hleader₀ hactive
    · exact hok n m item₀ leader₀ rfl haccepts hn₀ hleader₀ hactive
  obtain ⟨hleaderActive, hcname, hrebinding⟩ := hcovers
  constructor
  · rw [hwork', hsnapshot']
    exact hleaderActive
  · rw [hwork, hsnapshot, hwork', hsnapshot']
    exact hcname
  · rw [hwork, hsnapshot, hwork', hsnapshot']
    exact hrebinding

/-! ## Delivered responses -/

theorem mem_handedTo {server : Server} {n : ℕ} {h : Handed} (hmem : (n, h) ∈ server.handed) :
    h ∈ server.handedTo n :=
  List.mem_map.2 ⟨(n, h), List.mem_filter.2 ⟨hmem, by simp⟩, rfl⟩

/-- **Response protection covers what is delivered**: in a run in which queries with
    filtering active register only with leaders whose checks cover theirs, no query
    with filtering active is answered with a response of others that its own filter
    blocks, nor with a packet made from it in which the protection reads the same. -/
theorem delivered_protected {shardCount : ℕ} {es : List WorkerEvent}
    (hg : (workerMachine context hash shardCount).Guarded (CoveredRegistration context)
      (workerMachine context hash shardCount).init es)
    (hrun : (workerMachine context hash shardCount).run
      (workerMachine context hash shardCount).init es = some s) {n : ℕ} {h : Handed}
    (hmem : (n, h) ∈ s.server.handed) {item : Item} (hn : s.items[n]? = some item)
    (hactive : filteringActive item.snapshot item.work.client = true) {response : Packet}
    (hforeign : h.foreign = some response) :
    responseProtectionBlock item.snapshot.filter item.work.question response
      (item.work.routedUpstream context).isSome = none ∧
    ∀ origin packet sent, h = .response origin packet sent →
      responseSecurityData packet = responseSecurityData response →
      responseProtectionBlock item.snapshot.filter item.work.question packet
        (item.work.routedUpstream context).isSome = none := by
  obtain ⟨-, -, hjoins⟩ : WorkerInv hash s ∧ Leading context s ∧ CoveredJoins context s :=
    Machine.Guarded.inv (P := fun s => WorkerInv hash s ∧ Leading context s ∧ CoveredJoins context s)
      (fun s e s' hs hok hstep => by
        have hm := workerStep_move hstep
        exact ⟨hs.1.move hm, hs.2.1.move hs.1 hm, hs.2.2.move hs.1 hs.2.1 hok hm⟩) es
      ⟨.init hash shardCount, fun _ _ _ _ hq => (by cases hq), fun n m item leader hjoined hn =>
        (by cases hn)⟩ hg hrun
  have hcounted := (counted ⟨es, hrun⟩ : _ ∧ _ ∧ _ ∧ Counted context s).2.2.2
  obtain ⟨work, snapshot, stage⟩ := item
  have hhanded := mem_handedTo hmem
  suffices hblock : protectionBlock context snapshot work response = none by
    rw [protectionBlock, if_pos hactive] at hblock
    exact ⟨hblock, fun origin packet sent _ hdata =>
      (responseProtectionBlock_congr hdata).trans hblock⟩
  cases stage with
  | done deliverer outcome =>
    obtain ⟨answering, hby, ⟨handed, hof, hone⟩, -⟩ := hcounted.settled n work snapshot _ hn
    rw [hone] at hhanded
    obtain rfl := List.mem_singleton.1 hhanded
    have hunblocked := hby.of.unblocked (hof ▸ hforeign)
    rcases hby.who with rfl | hjoined
    · have hitem := hby.item
      rw [hn] at hitem
      cases hitem
      exact hunblocked
    · exact (hjoins n deliverer _ answering hjoined hn hby.item hactive).protectionBlock hunblocked
  | _ =>
    have hquiet := hcounted.settled n work snapshot _ hn
    rw [hquiet.1] at hhanded
    cases hhanded

end

/-! ## Small runs -/

/-- A query for the addresses of `a`. -/
def plainWork : WorkItem where
  query := Filter.plainQuery
  client := .v4 ⟨192, 168, 0, 2⟩
  responseTarget := .tcp
  parsed := ⟨⟨['a'], 1, 1, 19⟩, true, false, false, false, none, true⟩
  parses := by decide

/-- The response to it with the address 8.0.0.1. -/
def publicResponse : Packet :=
  [0, 7, 129, 128, 0, 1, 0, 1, 0, 0, 0, 0, 1, 97, 0, 0, 1, 0, 1,
    192, 12, 0, 1, 0, 1, 0, 0, 0, 60, 0, 4, 8, 0, 0, 1]

/-- The query is forwarded. -/
def plainRun : List WorkerEvent :=
  [.accept plainWork ⟨rebindingOnly, false, ⟨0, 0⟩⟩ {}, .lookup 0 none {}, .begin 0,
    .forward 0 (.ok ⟨publicResponse, [], 5⟩) {} {}, .take 0, .answer 0 {} {}]

/-- Its client gets the response, which it may. -/
theorem publicResponse_protected : ∃ s h,
    (workerMachine {} (fun _ => 0) 4).run (workerMachine {} (fun _ => 0) 4).init plainRun = some s ∧
    (0, h) ∈ s.server.handed ∧ h.foreign = some publicResponse ∧
    responseProtectionBlock rebindingOnly plainWork.question publicResponse false = none := by
  have hrun : (workerMachine {} (fun _ => 0) 4).run (workerMachine {} (fun _ => 0) 4).init
      plainRun = some _ := rfl
  have hguarded := @Machine.Guarded.of_run _ _ _ (CoveredRegistration {}) plainRun _ _
    (fun e he s n m item leader hregister => by
      subst hregister
      simp [plainRun] at he) hrun
  refine ⟨_, _, hrun, List.mem_singleton.2 rfl, rfl, ?_⟩
  exact (delivered_protected hguarded hrun (List.mem_singleton.2 rfl) rfl rfl rfl).1

/-- Two queries of one key, the one accepted while the protection is paused, the
    other behind it; the other registers with the one, and the upstream server
    answers with the address 10.0.0.1. -/
def resumedRun : List WorkerEvent :=
  [.accept plainWork ⟨rebindingOnly, true, ⟨0, 0⟩⟩ {}, .lookup 0 none {}, .begin 0,
    .accept plainWork ⟨rebindingOnly, false, ⟨0, 0⟩⟩ {}, .lookup 1 none {}, .begin 1, .register 1,
    .forward 0 (.ok ⟨localResponse 0, [], 5⟩) {} {}, .take 0, .deliver 0 {}, .answer 0 {} {}]

/-- **The protection is not resumed for a follower**: it gets the local address,
    although its own filter blocks it. -/
theorem resumedRun_delivers :
    ((workerMachine {} (fun _ => 0) 4).run (workerMachine {} (fun _ => 0) 4).init
      resumedRun).map (fun s => (s.server.handedTo 1).map Handed.foreign) =
        some [some (localResponse 0)] ∧
    filteringActive ⟨rebindingOnly, false, ⟨0, 0⟩⟩ plainWork.client = true ∧
    (responseProtectionBlock rebindingOnly plainWork.question (localResponse 0)
      (plainWork.routedUpstream {}).isSome).isSome = true := by
  refine ⟨by decide, by decide, by decide⟩

end DnsBlackhole.Worker
