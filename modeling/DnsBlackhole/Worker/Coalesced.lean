/-
  What the pending queries are for: queries that ask the same are forwarded once,
  and each is answered once.

  Every reachable state is `Coalesced`.  A leader has a bounded number of steps
  before it (`remaining`), it can always take the next one, and nobody else can
  add to them; so each line is answered in the end.
-/
import DnsBlackhole.Worker.Lines

namespace DnsBlackhole.Worker
open Lib Cache

section
variable {ρ : Type*}

/-! ## The steps of a leader -/

/-- The leader whose step it is. -/
def PendingEvent.leader : PendingEvent ρ → Option ℕ
  | .finish q _ | .take q | .deliver q => some q
  | .begin _ | .register _ => none

/-- The steps a leader has before it, at most. -/
def QueryRole.remaining : QueryRole ρ → ℕ
  | .leader _ .forwarding => maxPendingFollowers + 2
  | .leader _ (.finished _) => maxPendingFollowers + 1
  | .leader _ (.delivering _ followers) => followers.length
  | _ => 0

namespace PendingState

def remaining (s : PendingState ρ) (p : PendingQuery) : ℕ :=
  (s.queries[p]?).elim 0 fun query => query.role.remaining

theorem remaining_of_getElem? {s : PendingState ρ} {q : ℕ} {a : Query ρ}
    (h : s.queries[q]? = some a) : s.remaining q = a.role.remaining := by
  rw [remaining, h]; rfl

theorem Leads.remaining_le {s : PendingState ρ} {p : ℕ} {key : QueryCacheKey}
    (h : s.Leads p key) (hshort : (s.waiting p).length ≤ maxPendingFollowers) :
    s.remaining p ≤ maxPendingFollowers + 2 := by
  obtain ⟨followers, stage, hp⟩ := h
  rw [waiting_of_getElem? hp] at hshort
  rw [remaining_of_getElem? hp]
  cases stage with
  | forwarding => exact Nat.le_refl _
  | finished result => exact Nat.le_succ _
  | delivering result rest => exact Nat.le_trans hshort (Nat.le_add_right _ 2)

theorem Leads.done {s : PendingState ρ} {p : ℕ} {key : QueryCacheKey} (h : s.Leads p key)
    (hr : s.remaining p = 0) : s.waiting p = [] := by
  obtain ⟨followers, stage, hp⟩ := h
  rw [remaining_of_getElem? hp] at hr
  rw [waiting_of_getElem? hp]
  cases stage with
  | forwarding => cases hr
  | finished result => cases hr
  | delivering result rest => exact List.eq_nil_of_length_eq_zero hr

theorem Leads.enabled {hash : QueryCacheKey → ℕ} {s : PendingState ρ} {p : ℕ}
    {key : QueryCacheKey} (h : s.Leads p key) (hr : 0 < s.remaining p) (result : ρ) :
    ∃ e, e.leader = some p ∧ (pendingStep hash s e).isSome := by
  obtain ⟨followers, stage, hp⟩ := h
  rw [remaining_of_getElem? hp] at hr
  cases stage with
  | forwarding => exact ⟨.finish p result, rfl, by simp [pendingStep, hp]⟩
  | finished result' => exact ⟨.take p, rfl, by simp [pendingStep, hp]⟩
  | delivering result' rest =>
    cases rest with
    | nil => cases hr
    | cons follower rest => exact ⟨.deliver p, rfl, by simp [pendingStep, hp]⟩

theorem Leads.of_stage {s s' : PendingState ρ} {p : ℕ} {key : QueryCacheKey}
    {followers followers' : Option (List PendingFollower)} {stage : LeaderStage ρ}
    (h : s.queries[p]? = some ⟨key, .leader followers stage⟩)
    (h' : s'.queries[p]? = some ⟨key, .leader followers' stage⟩) :
    s'.Leads p key ∧ s'.remaining p = s.remaining p := by
  refine ⟨⟨followers', stage, h'⟩, ?_⟩
  rw [remaining_of_getElem? h, remaining_of_getElem? h']
  cases stage <;> rfl

theorem Leads.put {s : PendingState ρ} {q p : ℕ} {key k : QueryCacheKey}
    {followers followers' : Option (List PendingFollower)} {stage stage' : LeaderStage ρ}
    (h : s.Leads p k) (hq : s.queries[q]? = some ⟨key, .leader followers stage⟩)
    (hr : (QueryRole.leader followers' stage').remaining + 1 ≤
      (QueryRole.leader followers stage).remaining) :
    (s.put q ⟨key, .leader followers' stage'⟩).Leads p k ∧
      (s.put q ⟨key, .leader followers' stage'⟩).remaining p +
        (if some q = some p then 1 else 0) ≤ s.remaining p := by
  obtain ⟨fs, st, hp⟩ := h
  have hget := getElem?_put hq ⟨key, .leader followers' stage'⟩ p
  by_cases hqp : p = q
  · subst hqp
    rw [hp] at hq
    cases hq
    rw [if_pos rfl] at hget
    rw [remaining_of_getElem? hget, remaining_of_getElem? hp, if_pos rfl]
    exact ⟨⟨_, _, hget⟩, hr⟩
  · rw [if_neg hqp, hp] at hget
    rw [if_neg fun hsome => hqp (Option.some.inj hsome).symm]
    obtain ⟨hleads, hrem⟩ := Leads.of_stage hp hget
    exact ⟨hleads, Nat.le_of_eq hrem⟩

end PendingState

open PendingState

/-- **The steps of a leader are bounded**: it takes them one by one, and no other
    step adds to them. -/
theorem PendingInv.remaining_step {hash : QueryCacheKey → ℕ} {s s' : PendingState ρ}
    {e : PendingEvent ρ} (h : PendingInv hash s) (hs : PendingSteps hash s e s') {p : ℕ}
    {key : QueryCacheKey} (hp : s.Leads p key) : s'.Leads p key ∧
      s'.remaining p + (if e.leader = some p then 1 else 0) ≤ s.remaining p := by
  have hp' := hp
  obtain ⟨fs, st, hleader⟩ := hp
  cases hs with
  | lead _ _ _ =>
    exact (Leads.of_stage hleader ((List.getElem?_append_left
      (List.getElem?_eq_some_iff.1 hleader).1).trans hleader)).imp_right Nat.le_of_eq
  | join _ =>
    exact (Leads.of_stage hleader ((List.getElem?_append_left
      (List.getElem?_eq_some_iff.1 hleader).1).trans hleader)).imp_right Nat.le_of_eq
  | accepted hq hpending _ =>
    obtain ⟨fs', hleader', -⟩ := getElem?_accept_leader hq hpending hleader
    exact (Leads.of_stage hleader hleader').imp_right Nat.le_of_eq
  | @refused q _ _ _ _ _ hq _ _ =>
    have hpq : p ≠ q := by
      rintro rfl
      rw [hq] at hleader
      cases hleader
    exact (Leads.of_stage hleader
      ((getElem?_put hq _ p).trans ((if_neg hpq).trans hleader))).imp_right Nat.le_of_eq
  | @finish q result key' followers hq =>
    exact @Leads.put ρ s q p key' key followers followers _ (.finished result) hp' hq
      (Nat.le_refl _)
  | @take q key' followers result hq =>
    have hshort := h.short q
    rw [waiting_of_getElem? hq] at hshort
    exact @Leads.put ρ s q p key' key followers none _ (.delivering result (followers.getD []))
      hp' hq (Nat.succ_le_succ hshort)
  | @deliver q key' followers result follower rest hq =>
    exact @Leads.put ρ s q p key' key followers followers _ (.delivering result rest) hp' hq
      (Nat.le_refl _)

theorem PendingState.Follows.put {s : PendingState ρ} {q x y : ℕ} {a : Query ρ}
    (h : s.Follows x y) (hq : s.queries[q]? = some a) (ha : ∀ p, a.role ≠ .follower p)
    (b : Query ρ) : (s.put q b).Follows x y := by
  obtain ⟨key, hx⟩ := h
  have hxq : x ≠ q := by
    rintro rfl
    rw [hx] at hq
    cases hq
    exact ha y rfl
  exact ⟨key, (getElem?_put hq b x).trans ((if_neg hxq).trans hx)⟩

theorem PendingState.Follows.step {hash : QueryCacheKey → ℕ} {s s' : PendingState ρ}
    {e : PendingEvent ρ} {x y : ℕ} (h : s.Follows x y) (hs : PendingSteps hash s e s') :
    s'.Follows x y := by
  have hconcat : ∀ query : Query ρ, ∃ key, (s.queries ++ [query])[x]? = some ⟨key, .follower y⟩ := by
    obtain ⟨key, hx⟩ := h
    exact fun query =>
      ⟨key, (List.getElem?_append_left (List.getElem?_eq_some_iff.1 hx).1).trans hx⟩
  cases hs with
  | lead _ _ _ => exact hconcat _
  | join _ => exact hconcat _
  | accepted hq hp _ => exact (follows_accept hq hp x y).2 (.inr h)
  | refused hq _ _ => exact h.put hq (fun p hr => by cases hr) _
  | finish hq => exact h.put hq (fun p hr => by cases hr) _
  | take hq => exact h.put hq (fun p hr => by cases hr) _
  | deliver hq => exact h.put hq (fun p hr => by cases hr) _

/-- The steps of a leader in a run. -/
def ledBy (p : PendingQuery) (es : List (PendingEvent ρ)) : ℕ :=
  es.countP fun e => e.leader = some p

theorem PendingInv.run {hash : QueryCacheKey → ℕ} {shardCount p : ℕ} {key : QueryCacheKey} :
    ∀ (es : List (PendingEvent ρ)) {s s' : PendingState ρ}, PendingInv hash s → s.Leads p key →
      (pendingMachine ρ hash shardCount).run s es = some s' →
      PendingInv hash s' ∧ s'.Leads p key ∧ (∀ x, s.Follows x p → s'.Follows x p) ∧
        s'.remaining p + ledBy p es ≤ s.remaining p
  | [], s, s', h, hp, hr => by cases hr; exact ⟨h, hp, fun _ hx => hx, Nat.le_refl _⟩
  | e :: es, s, s', h, hp, hr => by
    obtain ⟨s₁, hstep, hrest⟩ := Machine.run_cons_eq_some _ |>.1 hr
    have hs := pendingStep_cases hstep
    obtain ⟨hp₁, hle⟩ := h.remaining_step hs hp
    obtain ⟨h', hp', hfollows, hle'⟩ := PendingInv.run es (h.step hs) hp₁ hrest
    refine ⟨h', hp', fun x hx => hfollows x (hx.step hs), ?_⟩
    simp only [ledBy, List.countP_cons, decide_eq_true_eq] at hle' ⊢
    omega

/-! ## Coalescing -/

/-- Where a query stands: a follower in the line of its leader, once and nowhere
    else, and the others in no line. -/
def Placed (s : PendingState ρ) (q : ℕ) : QueryRole ρ → Prop
  | .follower p => (s.line p).count q = 1 ∧ ∀ p', p' ≠ p → q ∉ s.line p'
  | .leader _ _ | .joining _ | .alone => ∀ p, q ∉ s.line p

/-- What holds of the pending queries in every reachable state; `shards` is the
    number of shards they started with. -/
structure Coalesced (hash : QueryCacheKey → ℕ) (shardCount : ℕ) (s : PendingState ρ) : Prop where
  /-- There is one entry for a key at most, over all shards. -/
  single : ∀ (i j : ℕ) key p p', (s.pending.shards[i]?).bind (·.lookup key) = some p →
    (s.pending.shards[j]?).bind (·.lookup key) = some p' → i = j ∧ p = p'
  /-- It is the entry of the leader that forwards for the key. -/
  live : ∀ key p, s.pending.entry hash key = some p ↔
    ∃ followers, s.queries[p]? = some ⟨key, .leader followers .forwarding⟩
  placed : ∀ (q : ℕ) query, s.queries[q]? = some query → Placed s q query.role
  /-- A query that has found an entry can register. -/
  registers : ∀ (q : ℕ) key p, s.queries[q]? = some ⟨key, .joining p⟩ →
    (pendingStep hash s (.register q)).isSome
  /-- A leader that finishes removes its own entry and no other. -/
  finish : ∀ q result s', pendingStep hash s (.finish q result) = some s' →
    ∃ key, s.pending.entry hash key = some q ∧ ∀ k, s'.pending.entry hash k =
      if k = key then none else s.pending.entry hash k
  /-- When a leader is done, each query that has registered with it has been
      answered once, with its result, and asked for the same key. -/
  answered : ∀ (p : ℕ) key followers result (q : ℕ) k,
    s.queries[p]? = some ⟨key, .leader followers (.delivering result [])⟩ →
    s.queries[q]? = some ⟨k, .follower p⟩ →
    k = key ∧ s.delivered.filter (fun d => d.follower = q) = [⟨p, q, result⟩]
  /-- Whatever happens, the leader of a follower that waits can take its next
      step, and it is done after finitely many. -/
  finishes : ∀ q p, s.Follows q p → ∀ es s',
    (pendingMachine ρ hash shardCount).run s es = some s' →
    (q ∈ s'.waiting p → ∀ _ : ρ, ∃ e, e.leader = some p ∧ (pendingStep hash s' e).isSome) ∧
    (maxPendingFollowers + 2 ≤ ledBy p es → q ∈ s'.answered p)
  short : ∀ (p : ℕ) key followers stage,
    s.queries[p]? = some ⟨key, .leader (some followers) stage⟩ →
    followers.length ≤ maxPendingFollowers

namespace PendingInv
variable {hash : QueryCacheKey → ℕ} {s : PendingState ρ}

theorem placed (h : PendingInv hash s) {q : ℕ} {query : Query ρ}
    (hq : s.queries[q]? = some query) : Placed s q query.role := by
  have hnone : (∀ p, query.role ≠ .follower p) → ∀ p, q ∉ s.line p := by
    intro hrole p hp
    obtain ⟨key, hk⟩ := (h.line p q).1 hp
    rw [hq] at hk
    cases hk
    exact hrole p rfl
  obtain ⟨key, role⟩ := query
  cases role with
  | follower p =>
    have hmem : q ∈ s.line p := (h.line p q).2 ⟨key, hq⟩
    refine ⟨List.count_eq_one_of_mem (h.nodup p) hmem, fun p' hne hp' => ?_⟩
    obtain ⟨k, hk⟩ := (h.line p' q).1 hp'
    rw [hq] at hk
    cases hk
    exact hne rfl
  | leader followers stage => exact hnone fun p hr => by cases hr
  | joining p => exact hnone fun p hr => by cases hr
  | alone => exact hnone fun p hr => by cases hr

theorem registers (h : PendingInv hash s) {q p : ℕ} {key : QueryCacheKey}
    (hq : s.queries[q]? = some ⟨key, .joining p⟩) :
    (pendingStep hash s (.register q)).isSome := by
  obtain ⟨followers, stage, hp⟩ := h.joined q key p (.inl hq)
  simp only [pendingStep, hq, hp]
  rfl

theorem finish (h : PendingInv hash s) {q : ℕ} {result : ρ} {s' : PendingState ρ}
    (hs : PendingSteps hash s (.finish q result) s') :
    ∃ key, s.pending.entry hash key = some q ∧ ∀ k, s'.pending.entry hash k =
      if k = key then none else s.pending.entry hash k := by
  cases hs with
  | @finish _ _ key followers hq =>
    have hown : s.pending.entry hash key = some q := (h.entry key q).2 ⟨followers, hq⟩
    refine ⟨key, hown, fun k => ?_⟩
    simp only [PendingQueries.entry_finish, hown, and_true]

/-- What is delivered goes to the queries that have registered, with the result
    of their leader. -/
theorem answered (h : PendingInv hash s) {p q : ℕ} {key k : QueryCacheKey}
    {followers : Option (List PendingFollower)} {result : ρ}
    (hp : s.queries[p]? = some ⟨key, .leader followers (.delivering result [])⟩)
    (hq : s.queries[q]? = some ⟨k, .follower p⟩) :
    k = key ∧ s.delivered.filter (fun d => d.follower = q) = [⟨p, q, result⟩] := by
  obtain ⟨fs, stage, hleader⟩ := h.joined q k p (.inr hq)
  rw [hp] at hleader
  cases hleader
  refine ⟨rfl, ?_⟩
  -- every delivery to `q` is the one by `p`
  have hall : ∀ d ∈ s.delivered.filter (fun d => d.follower = q), d = ⟨p, q, result⟩ := by
    intro d hd
    obtain ⟨hd, hdq⟩ := List.mem_filter.1 hd
    have hdq : d.follower = q := by simpa using hdq
    have hmem : d.follower ∈ s.line d.leader :=
      List.mem_append_left _ (List.mem_map_of_mem (List.mem_filter.2 ⟨hd, by simp⟩))
    obtain ⟨k', hk'⟩ := (h.line d.leader d.follower).1 hmem
    rw [hdq, hq] at hk'
    cases hk'
    obtain ⟨rest, hst⟩ := h.stage_of_mem hd hp
    cases hst
    rw [← hdq]
  have hcount : (s.answered p).count q = 1 := by
    have := (h.placed hq).1
    rwa [PendingState.line, waiting_of_getElem? hp, QueryRole.waiting, List.append_nil] at this
  have hlength : (s.delivered.filter fun d => d.follower = q).length = 1 := by
    rw [← hcount, PendingState.answered, List.count, List.countP_map, List.countP_filter,
      List.countP_eq_length_filter]
    refine congrArg List.length (List.filter_congr fun d hd => ?_)
    by_cases hdq : d.follower = q
    · have := hall d (List.mem_filter.2 ⟨hd, by simpa using hdq⟩)
      rw [this]
      simp
    · simp [hdq]
  rw [List.eq_replicate_of_mem hall, hlength]
  rfl

theorem finishes (h : PendingInv hash s) {shardCount q p : ℕ} (hq : s.Follows q p)
    {es : List (PendingEvent ρ)} {s' : PendingState ρ}
    (hrun : (pendingMachine ρ hash shardCount).run s es = some s') :
    (q ∈ s'.waiting p → ∀ _ : ρ, ∃ e, e.leader = some p ∧ (pendingStep hash s' e).isSome) ∧
    (maxPendingFollowers + 2 ≤ ledBy p es → q ∈ s'.answered p) := by
  obtain ⟨key, hk⟩ := hq
  have hleads := h.joined q key p (.inr hk)
  obtain ⟨h', hleads', hfollows, hle⟩ := PendingInv.run es h hleads hrun
  refine ⟨fun hwaits result => ?_, fun hmany => ?_⟩
  · refine hleads'.enabled (Nat.pos_of_ne_zero fun hzero => ?_) result
    rw [hleads'.done hzero] at hwaits
    cases hwaits
  · have hbound := hleads.remaining_le (h.short p)
    have hzero : s'.remaining p = 0 := by omega
    have hline : q ∈ s'.line p := (h'.line p q).2 (hfollows q ⟨key, hk⟩)
    rwa [PendingState.line, hleads'.done hzero, List.append_nil] at hline

theorem length_followers_le (h : PendingInv hash s) {p : ℕ} {key : QueryCacheKey}
    {followers : List PendingFollower} {stage : LeaderStage ρ}
    (hp : s.queries[p]? = some ⟨key, .leader (some followers) stage⟩) :
    followers.length ≤ maxPendingFollowers := by
  have hshort := h.short p
  rw [waiting_of_getElem? hp] at hshort
  cases stage with
  | forwarding => exact hshort
  | finished result => exact hshort
  | delivering result rest => cases h.taken p key (some followers) result rest hp

end PendingInv

/-- **Pending queries are coalesced** in every reachable state, for any number of
    queries and every order of their steps. -/
theorem pending_coalesced {hash : QueryCacheKey → ℕ} {shardCount : ℕ} {s : PendingState ρ}
    (h : (pendingMachine ρ hash shardCount).Reachable s) : Coalesced hash shardCount s := by
  have hinv : PendingInv hash s := h.inv (PendingInv.init hash shardCount)
    fun s e s' hs hstep => hs.step (pendingStep_cases hstep)
  refine ⟨fun i j key p p' hi hj => ?_, hinv.entry, fun q query => hinv.placed,
    fun q key p => hinv.registers, fun q result s' hs => hinv.finish (pendingStep_cases hs),
    fun p key followers result q k => hinv.answered, fun q p hq es s' => hinv.finishes hq,
    fun p key followers stage => hinv.length_followers_le⟩
  have hij : i = j := (hinv.home i key p hi).trans (hinv.home j key p' hj).symm
  subst hij
  rw [hi] at hj
  exact ⟨rfl, Option.some.inj hj⟩

end

/-- The question for the addresses of `a`. -/
def pendingKey : QueryCacheKey := ⟨['a'], 1, 1, true, false, false, false, false, none⟩

/-- A query leads, one registers with it, and one finds it gone. -/
theorem threeQueries_coalesced : ∃ s : PendingState Bool,
    s.queries.map Query.role =
      [.leader none (.delivering true []), .follower 0, .alone] ∧
    Coalesced (fun _ => 0) 4 s := by
  have h : (pendingMachine Bool (fun _ => 0) 4).Reachable _ :=
    ⟨[.begin pendingKey, .begin pendingKey, .begin pendingKey, .register 1, .finish 0 true,
      .take 0, .register 2, .deliver 0], rfl⟩
  exact ⟨_, by decide, pending_coalesced h⟩

end DnsBlackhole.Worker
