/-
  What comes of asking several upstream servers at once.

  A server is asked once at most, by its task or by the caller.  What the call
  returns is the answer of a server that has been asked, and a success that is in
  the channel when the caller looks into it is not lost.  The caller looks until it
  has what it waits for, or all tasks are over, or a look that finds nothing is
  followed by the expiry of its time; a success that is sent between these two is
  lost, even if the deadline has not passed.

  * `Batch.Sound`: the invariant, with `StageSound` for the stages of the caller;
  * `Batch.callerCost_le`: the loop ends;
  * `Batch.collects`: what holds of every call;
  * `Batch.lostRun_fails`: a success that is lost.
-/
import Mathlib.Data.List.Perm.Subperm
import DnsBlackhole.Upstream.Parallel
import DnsBlackhole.Upstream.Strays

namespace DnsBlackhole.Upstream
open Lib Config Protocol

namespace Batch

/-! ## What a step can do -/

/-- The caller waits for `left` messages, and is about to look into the channel. -/
def Looking (s : BatchState) (left : ℕ) (nothing : CallerStage) : Prop :=
  s.stage = .looking left ∧ nothing = .looked left ∨
    ∃ expiry, s.stage = .waiting left expiry ∧ nothing = .woken left expiry

/-- The steps of the caller. -/
inductive CallerMove (batch : Batch) (s : BatchState) : BatchEvent → BatchState → Prop
  | accepted {place} : s.stage = .submitting place →
      CallerMove batch s (.submit true) { s with
        tasks := s.tasks ++ [.queued]
        stage := if place + 1 < batch.selected.length then .submitting (place + 1)
          else receive (place + 1) }
  | rejected {place} : s.stage = .submitting place →
      CallerMove batch s (.submit false) { s with
        asked := s.asked ++ [place], stage := .asking place }
  | attempted {place network result} : s.stage = .asking place →
      batch.resultAt place network = some result →
      CallerMove batch s (.attempt network) (batch.note s s.tasks.length result)
  | took {left nothing message} : Looking s left nothing →
      s.delivered[s.received]? = some message →
      CallerMove batch s .look
        (batch.note { s with received := s.received + 1, seen := s.delivered.length } (left - 1)
          message.result)
  | gone {left nothing} : Looking s left nothing → s.delivered[s.received]? = none →
      (∀ stage ∈ s.tasks, stage = .ended) →
      CallerMove batch s .look { s with seen := s.delivered.length, stage := .closing }
  | found {left nothing} : Looking s left nothing → s.delivered[s.received]? = none →
      CallerMove batch s .look { s with seen := s.delivered.length, stage := nothing }
  | late {left} : s.stage = .looked left → batch.deadline < s.clock →
      CallerMove batch s .readClock { s with stage := .closing }
  | timed {left} : s.stage = .looked left → s.clock ≤ batch.deadline →
      CallerMove batch s .readClock { s with stage := .timed left (batch.deadline - s.clock) }
  | started {left remaining} : s.stage = .timed left remaining →
      CallerMove batch s .startWaiting { s with stage := .waiting left (s.clock + remaining) }
  | expired {left expiry} : s.stage = .woken left expiry → expiry ≤ s.clock →
      CallerMove batch s .checkExpiry { s with stage := .closing }
  | early {left expiry} : s.stage = .woken left expiry → s.clock < expiry →
      CallerMove batch s .checkExpiry { s with stage := .waiting left expiry }
  | cancelled : s.stage = .closing →
      CallerMove batch s .cancel { s with cancelled := true, stage := .closed }
  | concluded {probes result} : s.stage = .closed → batch.conclusion s probes = some result →
      CallerMove batch s (.conclude probes) { s with stage := .returned result }

/-- The steps of a task. -/
inductive TaskMove (batch : Batch) (s : BatchState) : BatchEvent → BatchState → Prop
  | skipped {place} : s.tasks[place]? = some .queued → s.cancelled = true →
      TaskMove batch s (.readFlag place) (putTask s place .ended)
  | passed {place} : s.tasks[place]? = some .queued → s.cancelled = false →
      TaskMove batch s (.readFlag place) (putTask s place .unflagged)
  | started {place} : s.tasks[place]? = some .unflagged → s.clock < batch.deadline →
      TaskMove batch s (.readDeadline place)
        { putTask s place .running with asked := s.asked ++ [place] }
  | late {place} : s.tasks[place]? = some .unflagged → batch.deadline ≤ s.clock →
      TaskMove batch s (.readDeadline place) (putTask s place .ended)
  | finished {place network result} : s.tasks[place]? = some .running →
      batch.resultAt place network = some result →
      TaskMove batch s (.finish place network) (putTask s place (.finished result))
  | flagged {place result} : s.tasks[place]? = some (.finished result) →
      TaskMove batch s (.flag place) { putTask s place (.sending result) with
        cancelled := s.cancelled || (decide (batch.mode = .parallelRequests) && result.isOk) }
  | sent {place result} : s.tasks[place]? = some (.sending result) →
      TaskMove batch s (.send place) { putTask s place .ended with
        delivered := s.delivered ++ [⟨place, s.clock, result⟩] }

section
variable {batch : Batch} {s s' : BatchState} {e : BatchEvent}

theorem lookInto_move {left : ℕ} {nothing : CallerStage} (h : Looking s left nothing) :
    CallerMove batch s .look (batch.lookInto s left nothing) := by
  unfold lookInto
  cases hmessage : s.delivered[s.received]? with
  | some message => exact .took h hmessage
  | none =>
    dsimp only
    split_ifs with hended
    · refine .gone h hmessage fun stage hstage => ?_
      exact eq_of_beq (List.all_eq_true.1 hended stage hstage)
    · exact .found h hmessage

theorem callerStep_move (h : batch.callerStep s e = some s') : CallerMove batch s e s' := by
  cases e with
  | submit accepted =>
    simp only [callerStep] at h
    split at h
    · rename_i place hstage
      cases accepted with
      | true => cases h; exact .accepted hstage
      | false => cases h; exact .rejected hstage
    · cases h
  | attempt network =>
    simp only [callerStep] at h
    split at h
    · rename_i place hstage
      obtain ⟨result, hresult, rfl⟩ := Option.map_eq_some_iff.1 h
      exact .attempted hstage hresult
    · cases h
  | look =>
    simp only [callerStep] at h
    split at h
    · rename_i left hstage
      cases h
      exact lookInto_move (.inl ⟨hstage, rfl⟩)
    · rename_i left expiry hstage
      cases h
      exact lookInto_move (.inr ⟨expiry, hstage, rfl⟩)
    · cases h
  | readClock =>
    simp only [callerStep] at h
    split at h
    · rename_i left hstage
      cases h
      split_ifs with hlate
      · exact .late hstage hlate
      · exact .timed hstage (Nat.le_of_not_lt hlate)
    · cases h
  | startWaiting =>
    simp only [callerStep] at h
    split at h
    · rename_i left remaining hstage
      cases h
      exact .started hstage
    · cases h
  | checkExpiry =>
    simp only [callerStep] at h
    split at h
    · rename_i left expiry hstage
      cases h
      split_ifs with hexpired
      · exact .expired hstage hexpired
      · exact .early hstage (Nat.lt_of_not_le hexpired)
    · cases h
  | cancel =>
    simp only [callerStep] at h
    split at h
    · rename_i hstage
      cases h
      exact .cancelled hstage
    · cases h
  | conclude probes =>
    simp only [callerStep] at h
    split at h
    · rename_i hstage
      split_ifs at h
      obtain ⟨result, hresult, rfl⟩ := Option.map_eq_some_iff.1 h
      exact .concluded hstage hresult
    · cases h
  | _ => cases h

theorem taskStep_move (h : batch.taskStep s e = some s') : TaskMove batch s e s' := by
  cases e with
  | readFlag place =>
    simp only [taskStep] at h
    split at h
    · rename_i htask
      cases h
      split_ifs with hcancelled
      · exact .skipped htask hcancelled
      · exact .passed htask (Bool.eq_false_iff.2 hcancelled)
    · cases h
  | readDeadline place =>
    simp only [taskStep] at h
    split at h
    · rename_i htask
      split_ifs at h with hlt
      · cases h
        exact .started htask hlt
      · cases h
        exact .late htask (Nat.le_of_not_lt hlt)
    · cases h
  | finish place network =>
    simp only [taskStep] at h
    split at h
    · rename_i htask
      obtain ⟨result, hresult, rfl⟩ := Option.map_eq_some_iff.1 h
      exact .finished htask hresult
    · cases h
  | flag place =>
    simp only [taskStep] at h
    split at h
    · rename_i result htask
      cases h
      exact .flagged htask
    · cases h
  | send place =>
    simp only [taskStep] at h
    split at h
    · rename_i result htask
      cases h
      exact .sent htask
    · cases h
  | _ => cases h

theorem step_cases (h : batch.step s e = some s') :
    (∃ n, e = .tick n ∧ s' = { s with clock := s.clock + n }) ∨ CallerMove batch s e s' ∨
      TaskMove batch s e s' := by
  cases e with
  | tick n => cases h; exact .inl ⟨n, rfl, rfl⟩
  | readFlag place => exact .inr (.inr (taskStep_move h))
  | readDeadline place => exact .inr (.inr (taskStep_move h))
  | finish place network => exact .inr (.inr (taskStep_move h))
  | flag place => exact .inr (.inr (taskStep_move h))
  | send place => exact .inr (.inr (taskStep_move h))
  | submit accepted => exact .inr (.inl (callerStep_move h))
  | attempt network => exact .inr (.inl (callerStep_move h))
  | look => exact .inr (.inl (callerStep_move h))
  | readClock => exact .inr (.inl (callerStep_move h))
  | startWaiting => exact .inr (.inl (callerStep_move h))
  | checkExpiry => exact .inr (.inl (callerStep_move h))
  | cancel => exact .inr (.inl (callerStep_move h))
  | conclude probes => exact .inr (.inl (callerStep_move h))

end

/-! ## The invariant -/

/-- The reply is one of `forward_to_upstream` for the server at `place`. -/
def Answers (batch : Batch) (place : ℕ) (reply : Reply) : Prop :=
  ∃ network, batch.resultAt place network = some (.ok reply)

/-- The result of a task that has one. -/
def resultOf : TaskStage → Option (Except Text Reply)
  | .finished result => some result
  | .sending result => some result
  | _ => none

/-- The task has called `forward_to_upstream`, and has not sent its result. -/
def IsAsking (stage : TaskStage) : Prop := stage = .running ∨ ∃ result, resultOf stage = some result

/-- The caller is out of its loop: with a success, or behind a look that has found
    nothing new, with everything received or nothing more to come or its time over. -/
def Over (batch : Batch) (s : BatchState) : Prop :=
  s.responses = [] → s.seen = s.received ∧ (s.received = s.tasks.length ∨
    (∀ stage ∈ s.tasks, stage = .ended) ∧ s.delivered.length = s.received ∨
    batch.deadline ≤ s.clock)

/-- The caller still waits for `left` messages. -/
def Awaits (s : BatchState) (left : ℕ) : Prop := 0 < left ∧ s.received + left = s.tasks.length

def StageSound (batch : Batch) (s : BatchState) : CallerStage → Prop
  | .submitting place => place = s.tasks.length ∧ place < batch.selected.length ∧ s.received = 0
  | .asking place => place = s.tasks.length ∧ place < batch.selected.length ∧ s.received = 0 ∧
      place ∈ s.asked
  | .looking left => Awaits s left
  | .looked left => Awaits s left ∧ s.seen = s.received
  | .timed left remaining => Awaits s left ∧ s.seen = s.received ∧
      batch.deadline ≤ s.clock + remaining
  | .waiting left expiry => Awaits s left ∧ s.seen = s.received ∧ batch.deadline ≤ expiry
  | .woken left expiry => Awaits s left ∧ s.seen = s.received ∧ batch.deadline ≤ expiry
  | .closing => Over batch s
  | .closed => Over batch s ∧ s.cancelled = true
  | .returned result => batch.selected = [] ∧ s.tasks = [] ∧ (∀ reply, result ≠ .ok reply) ∨
      Over batch s ∧ s.cancelled = true ∧ (∀ reply, result = .ok reply → reply ∈ s.responses) ∧
        ∀ error, result = .error error → s.responses = []

structure Sound (batch : Batch) (s : BatchState) : Prop where
  stage : StageSound batch s s.stage
  length_le : s.tasks.length ≤ batch.selected.length
  /-- A server is asked once. -/
  nodup : s.asked.Nodup
  asked_lt : ∀ place ∈ s.asked, place < batch.selected.length
  /-- It is one whose task is under way, or the one that the pool has refused. -/
  asked : ∀ place ∈ s.asked, (∀ place', s.stage ≠ .submitting place') ∧ place = s.tasks.length ∨
    ∃ stage, s.tasks[place]? = some stage ∧ (IsAsking stage ∨ stage = .ended)
  asking : ∀ (place : ℕ) stage, s.tasks[place]? = some stage → IsAsking stage → place ∈ s.asked
  results : ∀ (place : ℕ) stage reply, s.tasks[place]? = some stage →
    resultOf stage = some (.ok reply) → Answers batch place reply
  /-- A task sends one message, at its end. -/
  sent : (s.delivered.map Message.place).Nodup
  ended : ∀ message ∈ s.delivered, s.tasks[message.place]? = some .ended ∧
    message.place ∈ s.asked
  messages : ∀ message ∈ s.delivered, ∀ reply, message.result = .ok reply →
    Answers batch message.place reply
  responses : ∀ reply ∈ s.responses, ∃ place ∈ s.asked, Answers batch place reply
  received_le : s.received ≤ s.seen
  seen_le : s.seen ≤ s.delivered.length
  /-- No success that has been received is lost. -/
  kept : ∀ (j : ℕ) message reply, j < s.received → s.delivered[j]? = some message →
    message.result = .ok reply → reply ∈ s.responses

section
variable {batch : Batch} {s s' : BatchState} {e : BatchEvent}

theorem conclusion_eq_some {probes : List IpLatencyProbe} {result : Except Text Reply}
    (h : batch.conclusion s probes = some result) :
    (∀ reply, result = .ok reply → reply ∈ s.responses) ∧
      ∀ error, result = .error error → s.responses = [] := by
  unfold conclusion at h
  cases hresponses : s.responses with
  | nil =>
    rw [hresponses] at h
    cases h
    refine ⟨fun reply hreply => ?_, fun _ _ => rfl⟩
    cases hreply
  | cons first rest =>
    rw [hresponses] at h
    have hok : ∃ reply ∈ first :: rest, result = .ok reply := by
      dsimp only at h
      split at h
      · rename_i index _ _
        obtain ⟨reply, hreply, rfl⟩ := Option.map_eq_some_iff.1 h
        exact ⟨reply, List.mem_of_getElem? hreply, rfl⟩
      · cases h
        exact ⟨first, List.mem_cons_self, rfl⟩
    obtain ⟨reply, hmem, rfl⟩ := hok
    refine ⟨fun reply' hreply' => ?_, fun error herror => ?_⟩
    · cases hreply'
      exact hmem
    · cases herror

theorem Sound.places_subset (h : Sound batch s) :
    s.delivered.map Message.place ⊆ List.range s.tasks.length := by
  intro place hplace
  obtain ⟨message, hmem, rfl⟩ := List.mem_map.1 hplace
  exact List.mem_range.2 (List.getElem?_eq_some_iff.1 (h.ended message hmem).1).1

theorem Sound.delivered_le (h : Sound batch s) : s.delivered.length ≤ s.tasks.length := by
  have hle := (h.sent.subperm h.places_subset).length_le
  rwa [List.length_map, List.length_range] at hle

theorem Sound.ended_of_length (h : Sound batch s) (hlength : s.delivered.length = s.tasks.length) :
    ∀ stage ∈ s.tasks, stage = .ended := by
  have hperm := ((h.sent.subperm h.places_subset).perm_of_length_le
    (by rw [List.length_map, List.length_range, hlength]))
  intro stage hstage
  obtain ⟨place, hplace⟩ := List.mem_iff_getElem?.1 hstage
  have hmem : place ∈ s.delivered.map Message.place :=
    hperm.mem_iff.2 (List.mem_range.2 (List.getElem?_eq_some_iff.1 hplace).1)
  obtain ⟨message, hmessage, rfl⟩ := List.mem_map.1 hmem
  exact Option.some.inj (hplace.symm.trans (h.ended message hmessage).1)

theorem StageSound.frame {stage : CallerStage} (h : StageSound batch s stage)
    (htasks : s'.tasks.length = s.tasks.length) (hreceived : s'.received = s.received)
    (hseen : s'.seen = s.seen) (hresponses : s'.responses = s.responses)
    (hasked : ∀ place ∈ s.asked, place ∈ s'.asked) (hclock : s.clock ≤ s'.clock)
    (hcancelled : s.cancelled = true → s'.cancelled = true)
    (hended : (∀ stage ∈ s.tasks, stage = .ended) → (∀ stage ∈ s'.tasks, stage = .ended) ∧
      s'.delivered.length = s.delivered.length) : StageSound batch s' stage := by
  have hover : Over batch s → Over batch s' := by
    intro hover hnone
    obtain ⟨hlast, hwhy⟩ := hover (hresponses ▸ hnone)
    refine ⟨by rw [hseen, hreceived, hlast], ?_⟩
    rw [hreceived, htasks]
    rcases hwhy with hall | ⟨hdone, hlen⟩ | htime
    · exact .inl hall
    · obtain ⟨hdone', hlen'⟩ := hended hdone
      exact .inr (.inl ⟨hdone', hlen'.trans hlen⟩)
    · exact .inr (.inr (htime.trans hclock))
  have hawaits : ∀ {left}, Awaits s left → Awaits s' left := by
    rintro left ⟨hpos, hsum⟩
    exact ⟨hpos, by rw [hreceived, htasks, hsum]⟩
  cases stage with
  | submitting place => simpa only [StageSound, htasks, hreceived] using h
  | asking place =>
    obtain ⟨hplace, hlt, hzero, hmem⟩ := h
    exact ⟨hplace.trans htasks.symm, hlt, hreceived.trans hzero, hasked place hmem⟩
  | looking left => exact hawaits h
  | looked left => exact ⟨hawaits h.1, by rw [hseen, hreceived, h.2]⟩
  | timed left remaining =>
    obtain ⟨ha, hlast, htime⟩ := h
    exact ⟨hawaits ha, by rw [hseen, hreceived, hlast], htime.trans (Nat.add_le_add_right hclock _)⟩
  | waiting left expiry => exact ⟨hawaits h.1, by rw [hseen, hreceived, h.2.1], h.2.2⟩
  | woken left expiry => exact ⟨hawaits h.1, by rw [hseen, hreceived, h.2.1], h.2.2⟩
  | closing => exact hover h
  | closed => exact ⟨hover h.1, hcancelled h.2⟩
  | returned result =>
    rcases h with ⟨hnone, htasks', hresult⟩ | ⟨ho, hc, hok, herror⟩
    · refine .inl ⟨hnone, List.eq_nil_of_length_eq_zero ?_, hresult⟩
      rw [htasks, htasks']
      rfl
    · exact .inr ⟨hover ho, hcancelled hc, by rwa [hresponses], by rwa [hresponses]⟩

/-! ## Tasks -/

theorem getElem?_putTask {place : ℕ} {stage : TaskStage} (h : s.tasks[place]? = some stage)
    (stage' : TaskStage) (x : ℕ) :
    (putTask s place stage').tasks[x]? = if x = place then some stage' else s.tasks[x]? := by
  simp only [putTask]
  split_ifs with hx
  · rw [hx, List.getElem?_set_self (List.getElem?_eq_some_iff.1 h).1]
  · rw [List.getElem?_set_ne (Ne.symm hx)]

theorem Sound.put (h : Sound batch s) {place : ℕ} {stage stage' : TaskStage}
    (hplace : s.tasks[place]? = some stage) (hne : stage ≠ .ended)
    (hasked : IsAsking stage' → IsAsking stage)
    (hkeeps : IsAsking stage → IsAsking stage' ∨ stage' = .ended)
    (hresult : ∀ reply, resultOf stage' = some (.ok reply) → Answers batch place reply) :
    Sound batch (putTask s place stage') := by
  have hget := getElem?_putTask hplace stage'
  have hlength : (putTask s place stage').tasks.length = s.tasks.length := List.length_set
  have hmem : stage ∈ s.tasks := List.mem_of_getElem? hplace
  refine ⟨?_, hlength.trans_le h.length_le, h.nodup, h.asked_lt, fun x hx => ?_,
    fun x st hx hst => ?_, fun x st reply hx hst => ?_, h.sent, fun m hm => ?_, h.messages,
    h.responses, h.received_le, h.seen_le, h.kept⟩
  · exact h.stage.frame hlength rfl rfl rfl (fun _ hx => hx) (Nat.le_refl _) id fun hdone =>
      absurd (hdone stage hmem) hne
  · rcases h.asked x hx with ⟨hstage, hxlen⟩ | ⟨st, hst, hcase⟩
    · exact .inl ⟨hstage, hxlen.trans hlength.symm⟩
    · right
      rw [hget]
      split_ifs with hxp
      · rw [hxp, hplace] at hst
        cases hst
        exact ⟨stage', rfl, hcase.elim hkeeps fun he => absurd he hne⟩
      · exact ⟨st, hst, hcase⟩
  · rw [hget] at hx
    split_ifs at hx with hxp
    · cases hx
      rw [hxp]
      exact h.asking place stage hplace (hasked hst)
    · exact h.asking x st hx hst
  · rw [hget] at hx
    split_ifs at hx with hxp
    · cases hx
      rw [hxp]
      exact hresult reply hst
    · exact h.results x st reply hx hst
  · obtain ⟨hended, hm'⟩ := h.ended m hm
    refine ⟨?_, hm'⟩
    rw [hget, if_neg, hended]
    intro hxp
    rw [hxp, hplace] at hended
    exact hne (Option.some.inj hended)

theorem not_isAsking_queued : ¬ IsAsking .queued := by
  rintro (h | ⟨result, h⟩)
  · cases h
  · cases h

theorem not_isAsking_unflagged : ¬ IsAsking .unflagged := by
  rintro (h | ⟨result, h⟩)
  · cases h
  · cases h

theorem not_isAsking_ended : ¬ IsAsking .ended := by
  rintro (h | ⟨result, h⟩)
  · cases h
  · cases h

theorem Sound.start (h : Sound batch s) {place : ℕ} (hplace : s.tasks[place]? = some .unflagged) :
    Sound batch { putTask s place .running with asked := s.asked ++ [place] } := by
  have hget := getElem?_putTask hplace .running
  have hlength : (putTask s place .running).tasks.length = s.tasks.length := List.length_set
  have hlt : place < s.tasks.length := (List.getElem?_eq_some_iff.1 hplace).1
  have hmem : TaskStage.unflagged ∈ s.tasks := List.mem_of_getElem? hplace
  have hnew : place ∉ s.asked := by
    intro hasked
    rcases h.asked place hasked with ⟨-, hlen⟩ | ⟨stage, hstage, hcase⟩
    · omega
    · rw [hplace] at hstage
      cases hstage
      rcases hcase with hasking | hended
      · exact not_isAsking_unflagged hasking
      · cases hended
  refine ⟨?_, hlength.trans_le h.length_le, ?_, fun x hx => ?_, fun x hx => ?_,
    fun x st hx hst => ?_, fun x st reply hx hst => ?_, h.sent, fun m hm => ?_, h.messages,
    fun reply hreply => ?_, h.received_le, h.seen_le, h.kept⟩
  · exact h.stage.frame hlength rfl rfl rfl (fun _ hx => List.mem_append_left _ hx) (Nat.le_refl _)
      id fun hdone => by cases hdone _ hmem
  · exact List.nodup_append.2 ⟨h.nodup, List.nodup_singleton place, fun x hx y hy hxy =>
      hnew (List.mem_singleton.1 hy ▸ hxy ▸ hx)⟩
  · rcases List.mem_append.1 hx with hx | hx
    · exact h.asked_lt x hx
    · rw [List.mem_singleton.1 hx]
      exact hlt.trans_le h.length_le
  · rcases List.mem_append.1 hx with hold | hx
    · rcases h.asked x hold with ⟨hstage, hxlen⟩ | ⟨st, hst, hcase⟩
      · exact .inl ⟨hstage, hxlen.trans hlength.symm⟩
      · refine .inr ⟨st, (hget x).trans ?_, hcase⟩
        rw [if_neg, hst]
        rintro rfl
        exact hnew hold
    · rw [List.mem_singleton.1 hx]
      exact .inr ⟨.running, (hget place).trans (if_pos rfl), .inl (.inl rfl)⟩
  · have hx' := (hget x).symm.trans hx
    split_ifs at hx' with hxp
    · rw [hxp]
      exact List.mem_append_right _ List.mem_cons_self
    · exact List.mem_append_left _ (h.asking x st hx' hst)
  · have hx' := (hget x).symm.trans hx
    split_ifs at hx' with hxp
    · cases hx'
      cases hst
    · exact h.results x st reply hx' hst
  · obtain ⟨hended, hm'⟩ := h.ended m hm
    refine ⟨(hget m.place).trans ?_, List.mem_append_left _ hm'⟩
    rw [if_neg, hended]
    intro hxp
    rw [hxp, hplace] at hended
    cases hended
  · obtain ⟨x, hx, hanswers⟩ := h.responses reply hreply
    exact ⟨x, List.mem_append_left _ hx, hanswers⟩

theorem Sound.send (h : Sound batch s) {place : ℕ} {result : Except Text Reply}
    (hplace : s.tasks[place]? = some (.sending result)) :
    Sound batch { putTask s place .ended with
      delivered := s.delivered ++ [⟨place, s.clock, result⟩] } := by
  have hput : Sound batch (putTask s place .ended) :=
    h.put hplace (fun he => by cases he) (fun ha => absurd ha not_isAsking_ended)
      (fun _ => .inr rfl) fun reply hreply => by cases hreply
  have hget := getElem?_putTask hplace .ended
  have hmem : TaskStage.sending result ∈ s.tasks := List.mem_of_getElem? hplace
  have hasked : place ∈ s.asked := h.asking place _ hplace (.inr ⟨result, rfl⟩)
  have hnew : place ∉ s.delivered.map Message.place := by
    intro hold
    obtain ⟨message, hmessage, rfl⟩ := List.mem_map.1 hold
    rw [(h.ended message hmessage).1] at hplace
    cases hplace
  refine ⟨?_, hput.length_le, hput.nodup, hput.asked_lt, hput.asked, hput.asking, hput.results, ?_,
    fun m hm => ?_, fun m hm reply hreply => ?_, hput.responses, h.received_le, ?_,
    fun j m reply hj hm hreply => ?_⟩
  · exact h.stage.frame List.length_set rfl rfl rfl (fun _ hx => hx) (Nat.le_refl _)
      id fun hdone => by cases hdone _ hmem
  · rw [List.map_append]
    refine List.nodup_append.2 ⟨h.sent, List.nodup_singleton place, ?_⟩
    rintro x hx y hy rfl
    obtain rfl := List.mem_singleton.1 hy
    exact hnew hx
  · rcases List.mem_append.1 hm with hm | hm
    · exact hput.ended m hm
    · rw [List.mem_singleton.1 hm]
      exact ⟨(hget place).trans (if_pos rfl), hasked⟩
  · rcases List.mem_append.1 hm with hm | hm
    · exact h.messages m hm reply hreply
    · rw [List.mem_singleton.1 hm] at hreply ⊢
      exact h.results place _ reply hplace (by rw [resultOf]; exact congrArg some hreply)
  · exact h.seen_le.trans (by simp)
  · have hlt : j < s.delivered.length := hj.trans_le (h.received_le.trans h.seen_le)
    rw [List.getElem?_append_left hlt] at hm
    exact h.kept j m reply hj hm hreply

/-- **Every step of a task** keeps the invariant. -/
theorem Sound.taskMove (h : Sound batch s) (hm : TaskMove batch s e s') : Sound batch s' := by
  cases hm with
  | skipped hplace _ =>
    exact h.put hplace (fun he => by cases he) (fun ha => absurd ha not_isAsking_ended)
      (fun _ => .inr rfl) fun reply hreply => by cases hreply
  | passed hplace _ =>
    exact h.put hplace (fun he => by cases he) (fun ha => absurd ha not_isAsking_unflagged)
      (fun ha => absurd ha not_isAsking_queued) fun reply hreply => by cases hreply
  | started hplace _ => exact h.start hplace
  | late hplace _ =>
    exact h.put hplace (fun he => by cases he) (fun ha => absurd ha not_isAsking_ended)
      (fun _ => .inr rfl) fun reply hreply => by cases hreply
  | @finished place network result hplace hresult =>
    refine h.put hplace (fun he => by cases he) (fun _ => .inl rfl)
      (fun _ => .inl (.inr ⟨result, rfl⟩)) fun reply hreply => ⟨network, ?_⟩
    rw [hresult]
    exact hreply
  | @flagged place result hplace =>
    have hput : Sound batch (putTask s place (.sending result)) :=
      h.put hplace (fun he => by cases he) (fun _ => .inr ⟨result, rfl⟩)
        (fun _ => .inl (.inr ⟨result, rfl⟩)) fun reply hreply =>
          h.results place _ reply hplace hreply
    refine ⟨?_, hput.length_le, hput.nodup, hput.asked_lt, hput.asked, hput.asking, hput.results,
      hput.sent, hput.ended, hput.messages, hput.responses, hput.received_le, hput.seen_le,
      hput.kept⟩
    exact hput.stage.frame rfl rfl rfl rfl (fun _ hx => hx) (Nat.le_refl _)
      (fun hc => by rw [show s.cancelled = true from hc, Bool.true_or]) fun hdone => ⟨hdone, rfl⟩
  | sent hplace => exact h.send hplace

/-! ## The caller -/

theorem Sound.withStage (h : Sound batch s) {stage : CallerStage}
    (hstage : StageSound batch { s with stage } stage) (hno : ∀ place, stage ≠ .submitting place) :
    Sound batch { s with stage } := by
  refine ⟨hstage, h.length_le, h.nodup, h.asked_lt, fun x hx => ?_, h.asking, h.results, h.sent,
    h.ended, h.messages, h.responses, h.received_le, h.seen_le, h.kept⟩
  exact (h.asked x hx).imp_left fun hlast => ⟨hno, hlast.2⟩

theorem receive_ne_submitting (left place : ℕ) : receive left ≠ .submitting place := by
  unfold receive
  split_ifs
  · intro h
    cases h
  · intro h
    cases h

theorem stageSound_receive {left : ℕ} (hsum : s.received + left = s.tasks.length)
    (hreceived : s.received ≤ s.seen) (hseen : s.seen ≤ s.tasks.length) :
    StageSound batch s (receive left) := by
  unfold receive
  split_ifs with hleft
  · exact fun _ => ⟨by omega, .inl (by omega)⟩
  · exact ⟨Nat.pos_of_ne_zero hleft, hsum⟩

theorem Sound.note (h : Sound batch s) {received seen left : ℕ} {result : Except Text Reply}
    (hreceived : received ≤ seen)
    (hseen : seen ≤ s.delivered.length) (hsum : received + left = s.tasks.length)
    (hanswers : ∀ reply, result = .ok reply → ∃ place ∈ s.asked, Answers batch place reply)
    (hkept : ∀ (j : ℕ) message reply, j < received → s.delivered[j]? = some message →
      message.result = .ok reply → reply ∈ s.responses ∨ result = .ok reply) :
    Sound batch (batch.note { s with received, seen } left result) := by
  have hle := h.delivered_le
  have hasked : ∀ stage : CallerStage, (∀ place, stage ≠ .submitting place) → ∀ place ∈ s.asked,
      (∀ place', stage ≠ .submitting place') ∧ place = s.tasks.length ∨
        ∃ stage, s.tasks[place]? = some stage ∧ (IsAsking stage ∨ stage = .ended) :=
    fun stage hstage place hplace => (h.asked place hplace).imp_left fun hlast =>
      ⟨hstage, hlast.2⟩
  cases result with
  | error error =>
    refine ⟨?_, h.length_le, h.nodup, h.asked_lt, hasked _ (receive_ne_submitting left), h.asking,
      h.results, h.sent, h.ended, h.messages, h.responses, hreceived, hseen, ?_⟩
    · exact stageSound_receive hsum hreceived (hseen.trans hle)
    · intro j message reply hj hm hreply
      exact (hkept j message reply hj hm hreply).elim id fun he => by cases he
  | ok reply =>
    have hstage : StageSound batch (batch.note { s with received, seen } left (.ok reply))
        (batch.note { s with received, seen } left (.ok reply)).stage := by
      simp only [Batch.note]
      split_ifs
      · exact fun hnone => absurd hnone (List.append_ne_nil_of_right_ne_nil _ (List.cons_ne_nil _ _))
      · exact stageSound_receive hsum hreceived (hseen.trans hle)
    have hstage' : ∀ place,
        (batch.note { s with received, seen } left (.ok reply)).stage ≠ .submitting place := by
      intro place
      simp only [Batch.note]
      split_ifs
      · intro he
        cases he
      · exact receive_ne_submitting left place
    refine ⟨hstage, h.length_le, h.nodup, h.asked_lt, hasked _ hstage', h.asking, h.results, h.sent,
      h.ended, h.messages, fun reply' hreply' => ?_, hreceived, hseen, ?_⟩
    · rcases List.mem_append.1 hreply' with hold | hnew
      · exact h.responses reply' hold
      · exact hanswers reply' (by rw [List.mem_singleton.1 hnew])
    · intro j message reply' hj hm hreply'
      rcases hkept j message reply' hj hm hreply' with hold | hnew
      · exact List.mem_append_left _ hold
      · cases hnew
        exact List.mem_append_right _ List.mem_cons_self

theorem Sound.awaits {left : ℕ} {nothing : CallerStage} (h : Sound batch s)
    (hlooking : Looking s left nothing) : Awaits s left := by
  have hstage := h.stage
  rcases hlooking with ⟨hs, -⟩ | ⟨expiry, hs, -⟩
  · rw [hs] at hstage
    exact hstage
  · rw [hs] at hstage
    exact hstage.1

theorem Sound.seen_eq (h : Sound batch s) (hnone : s.delivered[s.received]? = none) :
    s.delivered.length = s.received := by
  have hle : s.delivered.length ≤ s.received := List.getElem?_eq_none_iff.1 hnone
  exact Nat.le_antisymm hle (h.received_le.trans h.seen_le)

theorem Sound.withSeen (h : Sound batch s) {stage : CallerStage}
    (hstage : StageSound batch { s with seen := s.delivered.length, stage } stage)
    (hno : ∀ place, stage ≠ .submitting place) :
    Sound batch { s with seen := s.delivered.length, stage } := by
  refine ⟨hstage, h.length_le, h.nodup, h.asked_lt, fun x hx => ?_, h.asking, h.results, h.sent,
    h.ended, h.messages, h.responses, h.received_le.trans h.seen_le, Nat.le_refl _, h.kept⟩
  exact (h.asked x hx).imp_left fun hlast => ⟨hno, hlast.2⟩

theorem Sound.asked_of_submitting (h : Sound batch s) {place : ℕ} (hs : s.stage = .submitting place)
    {x : ℕ} (hx : x ∈ s.asked) :
    ∃ stage, s.tasks[x]? = some stage ∧ (IsAsking stage ∨ stage = .ended) :=
  (h.asked x hx).resolve_left fun hlast => hlast.1 place hs

theorem Sound.accept (h : Sound batch s) {place : ℕ} (hs : s.stage = .submitting place) :
    Sound batch { s with
      tasks := s.tasks ++ [.queued]
      stage := if place + 1 < batch.selected.length then .submitting (place + 1)
        else receive (place + 1) } := by
  have hstage := h.stage
  rw [hs] at hstage
  obtain ⟨rfl, hlt, hzero⟩ := hstage
  have hlength : (s.tasks ++ [TaskStage.queued]).length = s.tasks.length + 1 := by simp
  have hold : ∀ {x : ℕ} {stage : TaskStage}, s.tasks[x]? = some stage →
      (s.tasks ++ [TaskStage.queued])[x]? = some stage := by
    intro x stage hx
    rw [List.getElem?_append_left (List.getElem?_eq_some_iff.1 hx).1, hx]
  have hget : ∀ {x : ℕ} {stage : TaskStage}, (s.tasks ++ [TaskStage.queued])[x]? = some stage →
      s.tasks[x]? = some stage ∨ stage = .queued := by
    intro x stage hx
    rcases Nat.lt_or_ge x s.tasks.length with hx' | hx'
    · rw [List.getElem?_append_left hx'] at hx
      exact .inl hx
    · rw [List.getElem?_append_right hx'] at hx
      exact .inr (List.mem_singleton.1 (List.mem_of_getElem? hx))
  refine ⟨?_, hlength.trans_le hlt, h.nodup, h.asked_lt, fun x hx => ?_, fun x stage hx hasking => ?_,
    fun x stage reply hx hresult => ?_, h.sent, fun m hm => ?_, h.messages, h.responses,
    h.received_le, h.seen_le, h.kept⟩
  · dsimp only
    split_ifs with hnext
    · exact ⟨hlength.symm, hnext, hzero⟩
    · refine stageSound_receive (by rw [hlength, hzero, Nat.zero_add]) h.received_le ?_
      rw [hlength]
      exact (h.seen_le.trans h.delivered_le).trans (Nat.le_succ _)
  · obtain ⟨stage, hstage, hcase⟩ := h.asked_of_submitting hs hx
    exact .inr ⟨stage, hold hstage, hcase⟩
  · rcases hget hx with hx | rfl
    · exact h.asking x stage hx hasking
    · exact absurd hasking not_isAsking_queued
  · rcases hget hx with hx | rfl
    · exact h.results x stage reply hx hresult
    · cases hresult
  · exact ⟨hold (h.ended m hm).1, (h.ended m hm).2⟩

theorem Sound.reject (h : Sound batch s) {place : ℕ} (hs : s.stage = .submitting place) :
    Sound batch { s with asked := s.asked ++ [place], stage := .asking place } := by
  have hstage := h.stage
  rw [hs] at hstage
  obtain ⟨rfl, hlt, hzero⟩ := hstage
  have hnew : s.tasks.length ∉ s.asked := by
    intro hasked
    obtain ⟨stage, hget, -⟩ := h.asked_of_submitting hs hasked
    exact absurd (List.getElem?_eq_some_iff.1 hget).1 (Nat.lt_irrefl _)
  refine ⟨⟨rfl, hlt, hzero, List.mem_append_right _ List.mem_cons_self⟩, h.length_le, ?_,
    fun x hx => ?_, fun x hx => ?_, fun x stage hx hasking => ?_, h.results, h.sent, fun m hm => ?_,
    h.messages, fun reply hreply => ?_, h.received_le, h.seen_le, h.kept⟩
  · refine List.nodup_append.2 ⟨h.nodup, List.nodup_singleton _, ?_⟩
    rintro x hx y hy rfl
    exact hnew (List.mem_singleton.1 hy ▸ hx)
  · rcases List.mem_append.1 hx with hx | hx
    · exact h.asked_lt x hx
    · rw [List.mem_singleton.1 hx]
      exact hlt
  · rcases List.mem_append.1 hx with hx | hx
    · exact .inr (h.asked_of_submitting hs hx)
    · exact .inl ⟨fun p he => (by cases he), List.mem_singleton.1 hx⟩
  · exact List.mem_append_left _ (h.asking x stage hx hasking)
  · exact ⟨(h.ended m hm).1, List.mem_append_left _ (h.ended m hm).2⟩
  · obtain ⟨x, hx, hanswers⟩ := h.responses reply hreply
    exact ⟨x, List.mem_append_left _ hx, hanswers⟩

/-- **Every step of the caller** keeps the invariant. -/
theorem Sound.callerMove (h : Sound batch s) (hm : CallerMove batch s e s') : Sound batch s' := by
  have hstage := h.stage
  cases hm with
  | @accepted place hs => exact h.accept hs
  | @rejected place hs => exact h.reject hs
  | @attempted place network result hs hresult =>
    rw [hs] at hstage
    obtain ⟨-, -, hzero, hasked⟩ := hstage
    refine h.note h.received_le h.seen_le
      (by rw [hzero, Nat.zero_add]) (fun reply hreply => ⟨place, hasked, network, ?_⟩)
      fun j message reply hj hmessage hreply => .inl (h.kept j message reply hj hmessage hreply)
    rw [hresult, hreply]
  | @took left nothing message hlooking hmessage =>
    obtain ⟨hpos, hsum⟩ := h.awaits hlooking
    have hlt : s.received < s.delivered.length := (List.getElem?_eq_some_iff.1 hmessage).1
    have hmem : message ∈ s.delivered := List.mem_of_getElem? hmessage
    refine h.note hlt (Nat.le_refl _) (by omega)
      (fun reply hreply => ⟨message.place, (h.ended message hmem).2,
        h.messages message hmem reply hreply⟩) fun j message' reply hj hm' hreply => ?_
    rcases Nat.lt_succ_iff_lt_or_eq.1 hj with hj | rfl
    · exact .inl (h.kept j message' reply hj hm' hreply)
    · rw [hmessage] at hm'
      cases hm'
      exact .inr hreply
  | @gone left nothing hlooking hnone hended =>
    have hseen := h.seen_eq hnone
    exact h.withSeen (fun _ => ⟨hseen, .inr (.inl ⟨hended, hseen⟩)⟩)
      fun p he => by cases he
  | @found left nothing hlooking hnone =>
    have hseen := h.seen_eq hnone
    have hawaits := h.awaits hlooking
    rcases hlooking with ⟨-, rfl⟩ | ⟨expiry, hs, rfl⟩
    · exact h.withSeen ⟨hawaits, hseen⟩ fun p he => by cases he
    · rw [hs] at hstage
      exact h.withSeen ⟨hawaits, hseen, hstage.2.2⟩ fun p he => by cases he
  | @late left hs hlate =>
    rw [hs] at hstage
    exact h.withStage (fun _ => ⟨hstage.2, .inr (.inr (Nat.le_of_lt hlate))⟩) fun p he => by cases he
  | @timed left hs hlt =>
    rw [hs] at hstage
    have htime : batch.deadline ≤ s.clock + (batch.deadline - s.clock) := by omega
    exact h.withStage ⟨hstage.1, hstage.2, htime⟩ fun p he => by cases he
  | @started left remaining hs =>
    rw [hs] at hstage
    exact h.withStage hstage fun p he => by cases he
  | @expired left expiry hs hexpired =>
    rw [hs] at hstage
    exact h.withStage (fun _ => ⟨hstage.2.1, .inr (.inr (hstage.2.2.trans hexpired))⟩)
      fun p he => by cases he
  | @early left expiry hs hlt =>
    rw [hs] at hstage
    exact h.withStage hstage fun p he => by cases he
  | cancelled hs =>
    rw [hs] at hstage
    refine ⟨⟨hstage, rfl⟩, h.length_le, h.nodup, h.asked_lt, fun x hx => ?_, h.asking, h.results,
      h.sent, h.ended, h.messages, h.responses, h.received_le, h.seen_le, h.kept⟩
    exact (h.asked x hx).imp_left fun hlast => ⟨fun p he => (by cases he), hlast.2⟩
  | @concluded probes result hs hresult =>
    rw [hs] at hstage
    obtain ⟨hok, herror⟩ := conclusion_eq_some hresult
    exact h.withStage (.inr ⟨hstage.1, hstage.2, hok, herror⟩) fun p he => by cases he

/-- **Every step** keeps the invariant. -/
theorem Sound.step (h : Sound batch s) (hstep : batch.step s e = some s') : Sound batch s' := by
  rcases step_cases hstep with ⟨n, -, rfl⟩ | hm | hm
  · refine ⟨?_, h.length_le, h.nodup, h.asked_lt, h.asked, h.asking, h.results, h.sent, h.ended,
      h.messages, h.responses, h.received_le, h.seen_le, h.kept⟩
    exact h.stage.frame rfl rfl rfl rfl (fun _ hx => hx) (Nat.le_add_right _ _) id
      fun hdone => ⟨hdone, rfl⟩
  · exact h.callerMove hm
  · exact h.taskMove hm

theorem sound_init (batch : Batch) : Sound batch batch.init := by
  have hasked : batch.init.asked = [] := rfl
  have htasks : batch.init.tasks = [] := rfl
  refine ⟨?_, Nat.zero_le _, List.nodup_nil, ?_, ?_, ?_, ?_, List.nodup_nil, ?_, ?_, ?_,
    Nat.le_refl _, Nat.le_refl _, ?_⟩
  · unfold init
    split_ifs with hnone
    · exact .inl ⟨List.length_eq_zero_iff.1 hnone, rfl, fun reply he => by cases he⟩
    · exact ⟨rfl, Nat.pos_of_ne_zero hnone, rfl⟩
  · intro place hplace
    cases hplace
  · intro place hplace
    cases hplace
  · intro place stage hplace
    cases hplace
  · intro place stage reply hplace
    cases hplace
  · intro message hmessage
    cases hmessage
  · intro message hmessage
    cases hmessage
  · intro reply hreply
    cases hreply
  · intro j message reply hj
    exact absurd hj (Nat.not_lt_zero j)

theorem sound_of_reachable (h : batch.machine.Reachable s) : Sound batch s :=
  h.inv (sound_init batch) fun _ _ _ hs hstep => hs.step hstep

/-! ## The end of the loop -/

/-- The steps of the caller. -/
def callerCost (_ : BatchState) : BatchEvent → ℕ
  | .tick _ | .readFlag _ | .readDeadline _ | .finish _ _ | .flag _ | .send _ => 0
  | _ => 1

/-- The wake-ups in `recv_timeout` that come before its time is over. -/
def earlyCost (s : BatchState) (e : BatchEvent) : ℕ :=
  match e, s.stage with
  | .checkExpiry, .woken _ expiry => if s.clock < expiry then 1 else 0
  | _, _ => 0

/-- How many more steps the caller can take. -/
def stepsLeft (servers : ℕ) : CallerStage → ℕ
  | .submitting place => 5 * servers + 4 + (servers - place)
  | .asking place => 5 * place + 4
  | .looking left => 5 * left + 3
  | .looked left => 5 * left + 2
  | .timed left _ => 5 * left + 1
  | .waiting left _ => 5 * left
  | .woken left _ => 5 * left - 1
  | .closing => 2
  | .closed => 1
  | .returned _ => 0

theorem stepsLeft_receive (servers left : ℕ) : stepsLeft servers (receive left) ≤ 5 * left + 3 := by
  unfold receive
  split_ifs with hleft
  · simp [stepsLeft]
  · exact Nat.le_refl _

variable (batch s) in
theorem stepsLeft_note (servers left : ℕ) (result : Except Text Reply) :
    stepsLeft servers (batch.note s left result).stage ≤ 5 * left + 3 := by
  cases result with
  | error error => exact stepsLeft_receive servers left
  | ok reply =>
    simp only [Batch.note]
    split_ifs
    · simp [stepsLeft]
    · exact stepsLeft_receive servers left

theorem Looking.stepsLeft (servers : ℕ) {left : ℕ} {nothing : CallerStage} (h : Looking s left nothing)
    (hpos : 0 < left) : 5 * left ≤ stepsLeft servers s.stage ∧
      Batch.stepsLeft servers nothing < Batch.stepsLeft servers s.stage := by
  rcases h with ⟨hs, rfl⟩ | ⟨expiry, hs, rfl⟩
  · rw [hs]
    simp [Batch.stepsLeft]
  · rw [hs]
    simp only [Batch.stepsLeft]
    omega

theorem Sound.stepsLeft (h : Sound batch s) (hm : CallerMove batch s e s') :
    1 + stepsLeft batch.selected.length s'.stage ≤
      stepsLeft batch.selected.length s.stage + 2 * earlyCost s e := by
  have hstage := h.stage
  cases hm with
  | @accepted place hs =>
    rw [hs] at hstage ⊢
    have hlt : place < batch.selected.length := hstage.2.1
    dsimp only
    split_ifs with hnext
    · simp only [Batch.stepsLeft]
      omega
    · have hle := stepsLeft_receive batch.selected.length (place + 1)
      have hleft : Batch.stepsLeft batch.selected.length (.submitting place) =
        5 * batch.selected.length + 4 + (batch.selected.length - place) := rfl
      omega
  | @rejected place hs =>
    rw [hs] at hstage ⊢
    have hlt : place < batch.selected.length := hstage.2.1
    simp only [Batch.stepsLeft]
    omega
  | @attempted place network result hs hresult =>
    rw [hs] at hstage
    have hle := stepsLeft_note batch s batch.selected.length s.tasks.length result
    have hleft : Batch.stepsLeft batch.selected.length (.asking place) = 5 * place + 4 := rfl
    rw [← hstage.1] at hle ⊢
    rw [hs]
    omega
  | @took left nothing message hlooking hmessage =>
    have hpos := (h.awaits hlooking).1
    have hle := (hlooking.stepsLeft batch.selected.length hpos).1
    have hnote := stepsLeft_note batch { s with
      received := s.received + 1, seen := s.delivered.length } batch.selected.length (left - 1)
      message.result
    omega
  | @gone left nothing hlooking hnone hended =>
    have hpos := (h.awaits hlooking).1
    have hle := (hlooking.stepsLeft batch.selected.length hpos).1
    simp only [Batch.stepsLeft] at hle ⊢
    omega
  | @found left nothing hlooking hnone =>
    have hlt := (hlooking.stepsLeft batch.selected.length (h.awaits hlooking).1).2
    dsimp only
    omega
  | @late left hs hlate =>
    rw [hs] at hstage ⊢
    have hpos : 0 < left := hstage.1.1
    simp only [Batch.stepsLeft]
    omega
  | @timed left hs hlt =>
    rw [hs]
    simp only [Batch.stepsLeft]
    omega
  | @started left remaining hs =>
    rw [hs]
    simp only [Batch.stepsLeft]
    omega
  | @expired left expiry hs hexpired =>
    rw [hs] at hstage ⊢
    have hpos : 0 < left := hstage.1.1
    simp only [Batch.stepsLeft]
    omega
  | @early left expiry hs hlt =>
    have hcost : earlyCost s .checkExpiry = 1 := by simp [earlyCost, hs, hlt]
    rw [hcost, hs]
    simp only [Batch.stepsLeft]
    omega
  | cancelled hs =>
    rw [hs]
    simp [Batch.stepsLeft]
  | concluded hs hresult =>
    rw [hs]
    simp [Batch.stepsLeft]

theorem callerCost_task (hm : TaskMove batch s e s') :
    callerCost s e = 0 ∧ s'.stage = s.stage := by
  cases hm with
  | skipped => exact ⟨rfl, rfl⟩
  | passed => exact ⟨rfl, rfl⟩
  | started => exact ⟨rfl, rfl⟩
  | late => exact ⟨rfl, rfl⟩
  | finished => exact ⟨rfl, rfl⟩
  | flagged => exact ⟨rfl, rfl⟩
  | sent => exact ⟨rfl, rfl⟩

theorem callerCost_caller (hm : CallerMove batch s e s') : callerCost s e = 1 := by
  cases hm with
  | accepted => rfl
  | rejected => rfl
  | attempted => rfl
  | took => rfl
  | gone => rfl
  | found => rfl
  | late => rfl
  | timed => rfl
  | started => rfl
  | expired => rfl
  | early => rfl
  | cancelled => rfl
  | concluded => rfl

/-- **The loop ends**: the caller takes a bounded number of steps, but for the early
    wake-ups. -/
theorem callerCost_le {es : List BatchEvent} (h : Sound batch s)
    (hrun : batch.machine.run s es = some s') :
    batch.machine.cost callerCost s es + stepsLeft batch.selected.length s'.stage ≤
      stepsLeft batch.selected.length s.stage +
        batch.machine.cost (fun s e => 2 * earlyCost s e) s es := by
  refine Machine.cost_le (P := Sound batch)
    (V := fun s => Batch.stepsLeft batch.selected.length s.stage) ?_ es h hrun
  intro s e s' hs hstep
  refine ⟨hs.step hstep, ?_⟩
  rcases step_cases hstep with ⟨n, rfl, rfl⟩ | hm | hm
  · simp [callerCost]
  · have hle := hs.stepsLeft hm
    rw [callerCost_caller hm]
    exact hle
  · obtain ⟨hcost, hstage⟩ := callerCost_task hm
    rw [hcost, hstage]
    omega

/-- The caller does not wait for a time that comes later. -/
def WaitOver (clock : ℕ) : CallerStage → Prop
  | .timed _ _ => False
  | .waiting _ expiry => expiry ≤ clock
  | .woken _ expiry => expiry ≤ clock
  | _ => True

/-- The time of the caller is over. -/
def TimeOver (batch : Batch) (s : BatchState) : Prop :=
  batch.deadline < s.clock ∧ WaitOver s.clock s.stage

theorem waitOver_receive (clock left : ℕ) : WaitOver clock (receive left) := by
  unfold receive
  split_ifs
  · trivial
  · trivial

variable (batch s) in
theorem waitOver_note (clock left : ℕ) (result : Except Text Reply) :
    WaitOver clock (batch.note s left result).stage := by
  cases result with
  | error error => exact waitOver_receive clock left
  | ok reply =>
    simp only [Batch.note]
    split_ifs
    · trivial
    · exact waitOver_receive clock left

theorem TimeOver.step (h : TimeOver batch s) (hstep : batch.step s e = some s') :
    TimeOver batch s' ∧ 2 * earlyCost s e = 0 := by
  obtain ⟨hlate, hwait⟩ := h
  have hcost : earlyCost s e = 0 := by
    unfold earlyCost
    split
    · rename_i left expiry hs
      rw [hs] at hwait
      exact if_neg (Nat.not_lt.2 hwait)
    · rfl
  refine ⟨?_, by rw [hcost]⟩
  rcases step_cases hstep with ⟨n, -, rfl⟩ | hm | hm
  · refine ⟨Nat.lt_add_right n hlate, ?_⟩
    dsimp only
    cases hs : s.stage with
    | timed left remaining => rw [hs] at hwait; exact hwait
    | waiting left expiry => rw [hs] at hwait; exact Nat.le_add_right_of_le hwait
    | woken left expiry => rw [hs] at hwait; exact Nat.le_add_right_of_le hwait
    | _ => trivial
  · cases hm with
    | accepted hs =>
      refine ⟨hlate, ?_⟩
      dsimp only
      split_ifs
      · trivial
      · exact waitOver_receive _ _
    | rejected hs => exact ⟨hlate, trivial⟩
    | @attempted place network result hs hresult =>
      cases result with
      | error error => exact ⟨hlate, waitOver_receive _ _⟩
      | ok reply => exact ⟨hlate, waitOver_note batch s s.clock _ (.ok reply)⟩
    | @took left nothing message hlooking hmessage =>
      have hover := waitOver_note batch { s with
        received := s.received + 1, seen := s.delivered.length } s.clock (left - 1) message.result
      cases hresult : message.result with
      | error error => exact ⟨hlate, waitOver_receive _ _⟩
      | ok reply =>
        rw [hresult] at hover
        exact ⟨hlate, hover⟩
    | gone => exact ⟨hlate, trivial⟩
    | found hlooking hnone =>
      rcases hlooking with ⟨hs, rfl⟩ | ⟨expiry, hs, rfl⟩
      · exact ⟨hlate, trivial⟩
      · rw [hs] at hwait
        exact ⟨hlate, hwait⟩
    | late hs _ => exact ⟨hlate, trivial⟩
    | timed hs hle => exact absurd hlate (Nat.not_lt.2 hle)
    | started hs =>
      rw [hs] at hwait
      exact hwait.elim
    | expired => exact ⟨hlate, trivial⟩
    | early hs hlt =>
      rw [hs] at hwait
      exact ⟨hlate, hwait⟩
    | cancelled => exact ⟨hlate, trivial⟩
    | concluded => exact ⟨hlate, trivial⟩
  · cases hm with
    | skipped => exact ⟨hlate, hwait⟩
    | passed => exact ⟨hlate, hwait⟩
    | started => exact ⟨hlate, hwait⟩
    | late => exact ⟨hlate, hwait⟩
    | finished => exact ⟨hlate, hwait⟩
    | flagged => exact ⟨hlate, hwait⟩
    | sent => exact ⟨hlate, hwait⟩

variable (batch) in
theorem exists_conclusion (s : BatchState) : ∃ result, batch.conclusion s [] = some result := by
  unfold conclusion
  cases s.responses with
  | nil => exact ⟨_, rfl⟩
  | cons first rest => exact ⟨.ok first, by cases batch.mode <;> rfl⟩

theorem Sound.exists_step (h : Sound batch s) (hstage : ∀ result, s.stage ≠ .returned result) :
    ∃ e, callerCost s e = 1 ∧ (batch.step s e).isSome := by
  have hsound := h.stage
  cases hs : s.stage with
  | submitting place => exact ⟨.submit true, rfl, by simp [Batch.step, callerStep, hs]⟩
  | asking place =>
    rw [hs] at hsound
    have hlt : place < batch.selected.length := hsound.2.1
    exact ⟨.attempt {}, rfl, by simp [Batch.step, callerStep, hs, resultAt, hlt]⟩
  | looking left => exact ⟨.look, rfl, by simp [Batch.step, callerStep, hs]⟩
  | looked left => exact ⟨.readClock, rfl, by simp [Batch.step, callerStep, hs]⟩
  | timed left remaining => exact ⟨.startWaiting, rfl, by simp [Batch.step, callerStep, hs]⟩
  | waiting left expiry => exact ⟨.look, rfl, by simp [Batch.step, callerStep, hs]⟩
  | woken left expiry => exact ⟨.checkExpiry, rfl, by simp [Batch.step, callerStep, hs]⟩
  | closing => exact ⟨.cancel, rfl, by simp [Batch.step, callerStep, hs]⟩
  | closed =>
    obtain ⟨result, hresult⟩ := exists_conclusion batch s
    exact ⟨.conclude [], rfl, by simp [Batch.step, callerStep, hs, hresult]⟩
  | returned result => exact absurd hs (hstage result)

/-! ## Behind the return -/

theorem CallerMove.ne_returned (hm : CallerMove batch s e s') (result : Except Text Reply) :
    s.stage ≠ .returned result := by
  intro hreturned
  have hnot : ∀ {stage : CallerStage}, s.stage = stage → stage = .returned result :=
    fun hs => hs.symm.trans hreturned
  have hlooking : ∀ {left nothing}, ¬ Looking s left nothing := by
    rintro left nothing (⟨hs, -⟩ | ⟨expiry, hs, -⟩)
    · cases hnot hs
    · cases hnot hs
  cases hm with
  | accepted hs => cases hnot hs
  | rejected hs => cases hnot hs
  | attempted hs _ => cases hnot hs
  | took h _ => exact hlooking h
  | gone h _ _ => exact hlooking h
  | found h _ => exact hlooking h
  | late hs _ => cases hnot hs
  | timed hs _ => cases hnot hs
  | started hs => cases hnot hs
  | expired hs _ => cases hnot hs
  | early hs _ => cases hnot hs
  | cancelled hs => cases hnot hs
  | concluded hs _ => cases hnot hs

/-- The call has returned, and the task at `place` has not been taken up. -/
structure Idle (batch : Batch) (place : ℕ) (s : BatchState) : Prop where
  returned : ∃ result, s.stage = .returned result
  cancelled : s.cancelled = true
  task : s.tasks[place]? = some .queued ∨ s.tasks[place]? = some .ended
  notAsked : place ∉ s.asked
  notSent : place ∉ s.delivered.map Message.place

theorem Idle.putTask {place place' : ℕ} {stage stage' : TaskStage} (h : Idle batch place s)
    (hplace' : s.tasks[place']? = some stage) (hstage : place' = place → stage' = .ended) :
    Idle batch place (putTask s place' stage') := by
  refine ⟨h.returned, h.cancelled, ?_, h.notAsked, h.notSent⟩
  rw [getElem?_putTask hplace']
  split_ifs with heq
  · exact .inr (congrArg some (hstage heq.symm))
  · exact h.task

theorem Sound.idle (h : Sound batch s) {place : ℕ} {result : Except Text Reply}
    (hs : s.stage = .returned result) (htask : s.tasks[place]? = some .queued) :
    Idle batch place s := by
  have hlt : place < s.tasks.length := (List.getElem?_eq_some_iff.1 htask).1
  refine ⟨⟨result, hs⟩, ?_, .inl htask, fun hasked => ?_, fun hsent => ?_⟩
  · have hstage := h.stage
    rw [hs] at hstage
    rcases hstage with ⟨-, hnone, -⟩ | ⟨-, hcancelled, -⟩
    · rw [hnone] at hlt
      exact absurd hlt (Nat.not_lt_zero place)
    · exact hcancelled
  · rcases h.asked place hasked with ⟨-, hlast⟩ | ⟨stage, hstage, hcase⟩
    · exact absurd hlt (hlast ▸ Nat.lt_irrefl _)
    · cases htask.symm.trans hstage
      rcases hcase with hasking | hended
      · exact not_isAsking_queued hasking
      · cases hended
  · obtain ⟨message, hmessage, rfl⟩ := List.mem_map.1 hsent
    cases htask.symm.trans (h.ended message hmessage).1

theorem Idle.step {place : ℕ} (h : Idle batch place s) (hstep : batch.step s e = some s') :
    Idle batch place s' := by
  obtain ⟨result, hreturned⟩ := h.returned
  -- a task that does anything but look at the flag is another one
  have hother : ∀ {place' stage}, s.tasks[place']? = some stage → stage ≠ .queued →
      stage ≠ .ended → place' ≠ place := by
    rintro place' stage hstage hqueued hended rfl
    rcases h.task with htask | htask
    · exact hqueued (Option.some.inj (hstage.symm.trans htask))
    · exact hended (Option.some.inj (hstage.symm.trans htask))
  rcases step_cases hstep with ⟨n, -, rfl⟩ | hm | hm
  · exact ⟨h.returned, h.cancelled, h.task, h.notAsked, h.notSent⟩
  · exact absurd hreturned (hm.ne_returned result)
  · cases hm with
    | skipped htask => exact h.putTask htask fun _ => rfl
    | passed htask hcancelled => cases h.cancelled.symm.trans hcancelled
    | @started place' htask =>
      have hne := hother htask (by simp) (by simp)
      have hput : Idle batch place (Batch.putTask s place' .running) :=
        h.putTask htask fun heq => absurd heq hne
      refine ⟨hput.returned, hput.cancelled, hput.task, fun hmem => ?_, hput.notSent⟩
      rcases List.mem_append.1 hmem with hmem | hmem
      · exact h.notAsked hmem
      · exact hne (List.mem_singleton.1 hmem).symm
    | late htask _ => exact h.putTask htask fun _ => rfl
    | finished htask => exact h.putTask htask fun heq => absurd heq (hother htask (by simp) (by simp))
    | @flagged place' result htask =>
      have hput : Idle batch place (Batch.putTask s place' (.sending result)) :=
        h.putTask htask fun heq => absurd heq (hother htask (by simp) (by simp))
      refine ⟨hput.returned, ?_, hput.task, hput.notAsked, hput.notSent⟩
      rw [show s.cancelled = true from h.cancelled, Bool.true_or]
    | @sent place' result htask =>
      have hne := hother htask (by simp) (by simp)
      have hput : Idle batch place (Batch.putTask s place' .ended) := h.putTask htask fun _ => rfl
      refine ⟨hput.returned, hput.cancelled, hput.task, hput.notAsked, fun hmem => ?_⟩
      rw [List.map_append] at hmem
      rcases List.mem_append.1 hmem with hmem | hmem
      · exact h.notSent hmem
      · exact hne (List.mem_singleton.1 hmem).symm

/-! ## What is not lost -/

/-- A success reaches the caller: its own attempt succeeds, or it looks into the channel and
    there is one. -/
inductive Brings (batch : Batch) (s : BatchState) : BatchEvent → Prop
  | attempt {place network reply} : s.stage = .asking place →
      batch.resultAt place network = some (.ok reply) → Brings batch s (.attempt network)
  | look {message reply} : message ∈ s.delivered.drop s.received → message.result = .ok reply →
      Brings batch s .look

/-- A success has reached the caller: it has it, or it has seen it in the channel. -/
def Holds (s : BatchState) : Prop :=
  s.responses ≠ [] ∨ ∃ (j : ℕ) (message : Message) (reply : Reply), j < s.seen ∧
    s.delivered[j]? = some message ∧ message.result = .ok reply

theorem Holds.mono (h : Holds s) (hresponses : s.responses <+: s'.responses)
    (hseen : s.seen ≤ s'.seen) (hdelivered : s.delivered <+: s'.delivered) : Holds s' := by
  rcases h with hsome | ⟨j, message, reply, hj, hmessage, hreply⟩
  · refine .inl fun hnone => hsome ?_
    rw [hnone] at hresponses
    exact List.prefix_nil.1 hresponses
  · refine .inr ⟨j, message, reply, hj.trans_le hseen, ?_, hreply⟩
    obtain ⟨rest, hrest⟩ := hdelivered
    rw [← hrest, List.getElem?_append_left (List.getElem?_eq_some_iff.1 hmessage).1, hmessage]

theorem Holds.note (h : Holds s) (left : ℕ) (result : Except Text Reply) :
    Holds (batch.note s left result) := by
  cases result with
  | error error => exact h
  | ok reply => exact h.mono (List.prefix_append _ _) (Nat.le_refl _) (List.prefix_refl _)

theorem Holds.step (h : Holds s) (hs : Sound batch s) (hstep : batch.step s e = some s') :
    Holds s' := by
  have hsame : ∀ {t : BatchState}, s.responses = t.responses → s.seen ≤ t.seen →
      s.delivered = t.delivered → Holds t := fun hresponses hseen hdelivered =>
    h.mono (hresponses ▸ List.prefix_refl _) hseen (hdelivered ▸ List.prefix_refl _)
  rcases step_cases hstep with ⟨n, -, rfl⟩ | hm | hm
  · exact h
  · cases hm with
    | attempted => exact h.note _ _
    | took =>
      refine Holds.note ?_ _ _
      exact hsame rfl hs.seen_le rfl
    | gone => exact hsame rfl hs.seen_le rfl
    | found => exact hsame rfl hs.seen_le rfl
    | _ => exact hsame rfl (Nat.le_refl _) rfl
  · cases hm with
    | sent => exact h.mono (List.prefix_refl _) (Nat.le_refl _) (List.prefix_append _ _)
    | _ => exact hsame rfl (Nat.le_refl _) rfl

theorem Brings.holds (h : Brings batch s e) (hstep : batch.step s e = some s') : Holds s' := by
  cases h with
  | @attempt place network reply hs hresult =>
    simp only [Batch.step, callerStep, hs, hresult, Option.map_some] at hstep
    cases hstep
    exact .inl (List.append_ne_nil_of_right_ne_nil _ (List.cons_ne_nil _ _))
  | @look message reply hmem hreply =>
    obtain ⟨i, hi⟩ := List.mem_iff_getElem?.1 hmem
    rw [List.getElem?_drop] at hi
    have hlt : s.received + i < s.delivered.length := (List.getElem?_eq_some_iff.1 hi).1
    rcases step_cases hstep with ⟨n, he, -⟩ | hm | hm
    · cases he
    · cases hm with
      | took =>
        refine Holds.note ?_ _ _
        exact .inr ⟨s.received + i, message, reply, hlt, hi, hreply⟩
      | gone => exact .inr ⟨s.received + i, message, reply, hlt, hi, hreply⟩
      | found => exact .inr ⟨s.received + i, message, reply, hlt, hi, hreply⟩
    · cases hm

theorem Sound.ok_of_holds (h : Sound batch s) (hholds : Holds s) {result : Except Text Reply}
    (hs : s.stage = .returned result) : ∃ reply, result = .ok reply := by
  have hstage := h.stage
  rw [hs] at hstage
  cases result with
  | ok reply => exact ⟨reply, rfl⟩
  | error error =>
    rcases hstage with ⟨hnone, htasks, -⟩ | ⟨hover, -, -, hempty⟩
    · rcases hholds with hsome | ⟨j, message, reply, hj, -⟩
      · obtain ⟨reply, hreply⟩ := List.exists_mem_of_ne_nil _ hsome
        obtain ⟨place, hplace, -⟩ := h.responses reply hreply
        have hlt := h.asked_lt place hplace
        rw [hnone] at hlt
        exact absurd hlt (Nat.not_lt_zero place)
      · have hlt := (hj.trans_le h.seen_le).trans_le h.delivered_le
        rw [htasks] at hlt
        exact absurd hlt (Nat.not_lt_zero j)
    · have hresponses := hempty error rfl
      rcases hholds with hsome | ⟨j, message, reply, hj, hmessage, hreply⟩
      · exact absurd hresponses hsome
      · have hmem := h.kept j message reply ((hover hresponses).1 ▸ hj) hmessage hreply
        rw [hresponses] at hmem
        cases hmem

/-- Why a call returns an error: it has asked nobody, all tasks are over and none has sent a
    success, or the time of the caller is over. -/
theorem Sound.why_error (h : Sound batch s) {error : Text}
    (hs : s.stage = .returned (.error error)) : batch.selected = [] ∨
    (∀ stage ∈ s.tasks, stage = .ended) ∧
      (∀ message ∈ s.delivered, ∀ reply, message.result ≠ .ok reply) ∨
    batch.deadline ≤ s.clock := by
  have hstage := h.stage
  rw [hs] at hstage
  rcases hstage with ⟨hnone, -⟩ | ⟨hover, -, -, hempty⟩
  · exact .inl hnone
  · have hresponses := hempty error rfl
    obtain ⟨hseen, hwhy⟩ := hover hresponses
    have hfailed : s.delivered.length = s.received →
        ∀ message ∈ s.delivered, ∀ reply, message.result ≠ .ok reply := by
      intro hall message hmem reply hreply
      obtain ⟨j, hj⟩ := List.mem_iff_getElem?.1 hmem
      have hkept := h.kept j message reply (hall ▸ (List.getElem?_eq_some_iff.1 hj).1) hj hreply
      rw [hresponses] at hkept
      cases hkept
    rcases hwhy with hall | ⟨hended, hall⟩ | htime
    · have hlength : s.delivered.length = s.tasks.length :=
        Nat.le_antisymm h.delivered_le (hall ▸ h.received_le.trans h.seen_le)
      exact .inr (.inl ⟨h.ended_of_length hlength, hfailed (hlength.trans hall.symm)⟩)
    · exact .inr (.inl ⟨hended, hfailed hall⟩)
    · exact .inr (.inr htime)

/-! ## Every call -/

theorem Answers.valid {place : ℕ} {reply : Reply} (h : Answers batch place reply) :
    validateResponseForQuery batch.query reply.packet = .ok () := by
  obtain ⟨network, hresult⟩ := h
  obtain ⟨upstream, -, hreply⟩ := Option.map_eq_some_iff.1 hresult
  exact (forwardToUpstream_eq_ok hreply).2.2.1

end

/-- What holds of a call that has come to the state `s`. -/
structure Collects (batch : Batch) (s : BatchState) : Prop where
  /-- What it returns is a valid answer of a server that it has asked. -/
  answered : ∀ reply, s.stage = .returned (.ok reply) →
    validateResponseForQuery batch.query reply.packet = .ok () ∧
      ∃ place ∈ s.asked, Answers batch place reply
  /-- No success that reaches the caller is lost. -/
  kept : ∀ {e s' es t result}, Brings batch s e → batch.step s e = some s' →
    batch.machine.run s' es = some t → t.stage = .returned result → ∃ reply, result = .ok reply
  /-- An error is returned when nobody has been asked, nothing more comes, or time is over. -/
  failed : ∀ error, s.stage = .returned (.error error) → batch.selected = [] ∨
    (∀ stage ∈ s.tasks, stage = .ended) ∧
      (∀ message ∈ s.delivered, ∀ reply, message.result ≠ .ok reply) ∨
    batch.deadline ≤ s.clock
  /-- No server is asked twice. -/
  once : s.asked.Nodup ∧ ∀ place ∈ s.asked, place < batch.selected.length
  /-- The caller is never stuck, … -/
  goesOn : (∀ result, s.stage ≠ .returned result) →
    ∃ e, callerCost s e = 1 ∧ (batch.step s e).isSome
  /-- … and comes to its end: it takes a bounded number of steps, but for early wake-ups, … -/
  ends : ∀ {es t}, batch.machine.run s es = some t → batch.machine.cost callerCost s es ≤
    stepsLeft batch.selected.length s.stage +
      batch.machine.cost (fun s e => 2 * earlyCost s e) s es
  /-- … which are over when its time is. -/
  endsInTime : TimeOver batch s → ∀ {es t}, batch.machine.run s es = some t →
    batch.machine.cost callerCost s es ≤ stepsLeft batch.selected.length s.stage
  /-- A task that is taken up behind the return asks nobody and sends nothing. -/
  quiet : ∀ {result place es t}, s.stage = .returned result → s.tasks[place]? = some .queued →
    batch.machine.run s es = some t → place ∉ t.asked ∧ place ∉ t.delivered.map Message.place

/-- **Asking several servers**, in every state that a call can come to. -/
theorem collects {batch : Batch} {s : BatchState} (h : batch.machine.Reachable s) :
    Collects batch s := by
  have hsound := sound_of_reachable h
  have hstage := hsound.stage
  refine ⟨fun reply hs => ?_, fun hbrings hstep hrun ht => ?_, fun error => hsound.why_error,
    ⟨hsound.nodup, hsound.asked_lt⟩, hsound.exists_step, fun hrun => ?_, fun hover es t hrun => ?_,
    fun hs htask hrun => ?_⟩
  · rw [hs] at hstage
    rcases hstage with ⟨-, -, hne⟩ | ⟨-, -, hmem, -⟩
    · exact absurd rfl (hne reply)
    · obtain ⟨place, hplace, hanswers⟩ := hsound.responses reply (hmem reply rfl)
      exact ⟨hanswers.valid, place, hplace, hanswers⟩
  · have hinv := Machine.run_inv (M := batch.machine) (P := fun s => Sound batch s ∧ Holds s)
      (fun s e s' hs hstep => ⟨hs.1.step hstep, hs.2.step hs.1 hstep⟩) _
      ⟨hsound.step hstep, hbrings.holds hstep⟩ hrun
    exact hinv.1.ok_of_holds hinv.2 ht
  · have hle := callerCost_le hsound hrun
    omega
  · have hle := callerCost_le hsound hrun
    rw [Machine.cost_eq_zero (fun s e s' hs hstep => hs.step hstep) es hover hrun] at hle
    omega
  · have hidle := Machine.run_inv (M := batch.machine) (fun s e s' hs hstep => hs.step hstep) _
      (hsound.idle hs htask) hrun
    exact ⟨hidle.notAsked, hidle.notSent⟩

/-! ## A success that is lost -/

/-- One server, which has six units of time. -/
def lone : Batch := ⟨strayQuery, [plainUpstream], 6, .parallelRequests⟩

/-- The task for it, up to the sending of its result. -/
def loneTask : List BatchEvent :=
  [.readFlag 0, .readDeadline 0, .finish 0 (datagramNetwork [strayAnswer]), .flag 0]

/-- The caller looks into the channel behind the answer, and returns it. -/
theorem lone_collects : ∃ s, lone.machine.run lone.machine.init
      (.submit true :: loneTask ++ [.send 0, .look, .cancel, .conclude []]) = some s ∧
    s.stage = .returned (.ok ⟨.udp, strayAnswer⟩) ∧ Collects lone s := by
  have hrun : lone.machine.run lone.machine.init
      (.submit true :: loneTask ++ [.send 0, .look, .cancel, .conclude []]) = some _ := rfl
  exact ⟨_, hrun, rfl, collects ⟨_, hrun⟩⟩

/-- The caller looks into the channel before the answer, and at the clock behind the
    deadline. -/
def lostRun : List BatchEvent :=
  .submit true :: .look :: loneTask ++
    [.tick 5, .send 0, .tick 2, .readClock, .cancel, .conclude []]

/-- **A success is lost**: it is in the channel before the deadline, and the call returns an
    error. -/
theorem lostRun_fails : ∃ s, lone.machine.run lone.machine.init lostRun = some s ∧
    s.delivered = [⟨0, 5, .ok ⟨.udp, strayAnswer⟩⟩] ∧ 5 < lone.deadline ∧
    s.stage = .returned (.error "并行请求上游 DNS 超时".toList) := by
  have hrun : lone.machine.run lone.machine.init lostRun = some _ := rfl
  exact ⟨_, hrun, rfl, by decide, rfl⟩

end Batch

end DnsBlackhole.Upstream
