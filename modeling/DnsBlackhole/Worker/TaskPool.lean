/-
  The elastic pool of threads for the upstream tasks (`dns/task_pool.rs`).

  A step of the pool is what one thread does between two accesses to what the
  threads share: the lock with the queue, the condition variable, and the two
  counters.  A worker holds the lock in some of its phases; the counters are read
  and written at any time.  Threads are created, and the lock is not poisoned.

  * `TaskPool.step`: a call of `try_spawn`, its notify and its attempt to grow the
    pool; the loop of a worker, its timeouts and its attempt to retire;
  * `taskPool_inv`: no task is lost or started twice, the number of workers stays
    within its limits, and a task in the queue does not wait for a worker that
    nobody wakes.
-/
import Mathlib.Algebra.Order.Group.Nat
import DnsBlackhole.Lib.Machine
import DnsBlackhole.Lib.Threads

namespace DnsBlackhole.Worker
open Lib (Machine)

structure TaskPoolLimits where
  minThreads : ℕ
  maxThreads : ℕ
  queueCapacity : ℕ
  min_pos : 0 < minThreads
  min_le_max : minThreads ≤ maxThreads

/-- The limits that `TaskPool::new` corrects. -/
def TaskPoolLimits.new (minThreads maxThreads queueCapacity : ℕ) : TaskPoolLimits where
  minThreads := max minThreads 1
  maxThreads := max maxThreads (max minThreads 1)
  queueCapacity := max queueCapacity 1
  min_pos := Nat.lt_of_lt_of_le Nat.one_pos (Nat.le_max_right _ _)
  min_le_max := Nat.le_max_right _ _

/-! ## The threads -/

/-- Where a call of `try_spawn` is. -/
inductive CallPhase
  /-- The task is in the queue, which has that length; nobody is notified yet. -/
  | pushed (queued : ℕ)
  | notified (queued : ℕ)
  /-- There are more tasks than idle workers. -/
  | crowded
  /-- In `spawn_worker`. -/
  | spawning
  | loaded (current : ℕ)
  | returned (result : Bool)
  deriving DecidableEq

structure Call (τ : Type*) where
  task : τ
  phase : CallPhase

/-- Where a worker is, in `worker_loop`. -/
inductive WorkerPhase (τ : Type*)
  /-- At the beginning of the loop. -/
  | starting
  | locked
  /-- Counted as idle, and not in the wait yet. -/
  | idling
  | waiting
  /-- Not in the wait any more, and without the lock. -/
  | woken
  | relocked (timedOut : Bool)
  /-- In `try_retire_worker`. -/
  | expired
  | retiring (current : ℕ)
  /-- Not counted any more. -/
  | retired
  | running (task : τ)
  | exited

section
variable {τ : Type*}

/-- The task of a call that put it into the queue. -/
def Call.accepted? (call : Call τ) : Option τ :=
  if call.phase = .returned false then none else some call.task

/-- The notify of the call has not happened yet. -/
def Call.notifies (call : Call τ) : Bool :=
  match call.phase with
  | .pushed _ => true
  | _ => false

namespace WorkerPhase

def holdsLock : WorkerPhase τ → Bool
  | locked | idling | relocked _ | expired | retiring _ | retired => true
  | starting | waiting | woken | running _ | exited => false

/-- The worker counts in `worker_count`. -/
def counted : WorkerPhase τ → Bool
  | retired | exited => false
  | _ => true

/-- The worker counts in `idle_workers`. -/
def idle : WorkerPhase τ → Bool
  | idling | waiting | woken | relocked _ => true
  | _ => false

/-- The worker will look at the queue without a notify. -/
def awake : WorkerPhase τ → Bool
  | starting | locked | woken | relocked _ | running _ => true
  | idling | waiting | expired | retiring _ | retired | exited => false

def isWaiting : WorkerPhase τ → Bool
  | waiting => true
  | _ => false

/-- The worker has found an empty queue, and has kept the lock. -/
def foundEmpty : WorkerPhase τ → Bool
  | idling | expired | retiring _ | retired => true
  | _ => false

theorem holdsLock_of_foundEmpty (phase : WorkerPhase τ) (h : phase.foundEmpty) :
    phase.holdsLock := by
  cases phase <;> first | rfl | cases h

end WorkerPhase

end

/-! ## The steps -/

structure TaskPool (τ : Type*) where
  queue : List τ := []
  workerCount : ℕ
  idleWorkers : ℕ := 0
  workers : List (WorkerPhase τ)
  calls : List (Call τ) := []
  /-- The tasks that were taken from the queue, in order. -/
  started : List τ := []

inductive TaskPoolEvent (τ : Type*)
  /-- A call begins; it has the lock for what it does to the queue. -/
  | trySpawn (task : τ)
  /-- The call notifies; one of the waiting workers, if there are any, is woken. -/
  | notify (call : ℕ) (woken : Option ℕ)
  /-- The call goes on; an exchange may fail without reason. -/
  | grow (call : ℕ) (spurious : Bool)
  /-- A wait ends without a notify: its time is over, or without reason. -/
  | wake (worker : ℕ)
  /-- The worker goes on.  After a wait the flag says that the time was over, at an
      exchange that it fails without reason, and after a task that the task panicked. -/
  | work (worker : ℕ) (flag : Bool)

namespace TaskPool
variable {τ : Type*} (limits : TaskPoolLimits) (s : TaskPool τ)

/-- A worker has the lock. -/
def isLocked : Bool := s.workers.any (·.holdsLock)

def setWorker (worker : ℕ) (phase : WorkerPhase τ) : TaskPool τ :=
  { s with workers := s.workers.set worker phase }

def setCall (index : ℕ) (call : Call τ) : TaskPool τ := { s with calls := s.calls.set index call }

/-- The loop of `spawn_worker` and what comes before it, one access at a time. -/
def grow (index : ℕ) (spurious : Bool) : Option (TaskPool τ) :=
  (s.calls[index]?).bind fun call =>
    let goTo (phase : CallPhase) := s.setCall index { call with phase }
    match call.phase with
    | .notified queued =>
      some (goTo (if s.idleWorkers < queued then .crowded else .returned true))
    | .crowded =>
      some (goTo (if s.workerCount < limits.maxThreads then .spawning else .returned true))
    | .spawning => some (goTo (.loaded s.workerCount))
    | .loaded current =>
      if limits.maxThreads ≤ current then some (goTo (.returned true))
      else if spurious ∨ s.workerCount ≠ current then some (goTo (.loaded s.workerCount))
      else some { goTo (.returned true) with
        workerCount := current + 1
        workers := s.workers ++ [.starting] }
    | .pushed _ => none
    | .returned _ => none

/-- `worker_loop` and `try_retire_worker`, one access at a time. -/
def work (worker : ℕ) (flag : Bool) : Option (TaskPool τ) :=
  (s.workers[worker]?).bind fun phase =>
    match phase with
    | .starting => if s.isLocked then none else some (s.setWorker worker .locked)
    | .locked =>
      match s.queue with
      | task :: queue =>
        some { s.setWorker worker (.running task) with queue, started := s.started ++ [task] }
      | [] => some { s.setWorker worker .idling with idleWorkers := s.idleWorkers + 1 }
    | .idling => some (s.setWorker worker .waiting)
    | .waiting => none
    | .woken => if s.isLocked then none else some (s.setWorker worker (.relocked flag))
    | .relocked timedOut =>
      let phase := if timedOut && s.queue.isEmpty then .expired else .locked
      some { s.setWorker worker phase with idleWorkers := s.idleWorkers - 1 }
    | .expired => some (s.setWorker worker (.retiring s.workerCount))
    | .retiring current =>
      if current ≤ limits.minThreads then some (s.setWorker worker .locked)
      else if flag ∨ s.workerCount ≠ current then
        some (s.setWorker worker (.retiring s.workerCount))
      else some { s.setWorker worker .retired with workerCount := current - 1 }
    | .retired => some (s.setWorker worker .exited)
    | .running _ => some (s.setWorker worker .starting)
    | .exited => none

def step : TaskPoolEvent τ → Option (TaskPool τ)
  | .trySpawn task =>
    if s.isLocked then none
    else if limits.queueCapacity ≤ s.queue.length then
      some { s with calls := s.calls ++ [⟨task, .returned false⟩] }
    else
      some { s with
        queue := s.queue ++ [task]
        calls := s.calls ++ [⟨task, .pushed (s.queue.length + 1)⟩] }
  | .notify index woken =>
    match s.calls[index]? with
    | some ⟨task, .pushed queued⟩ =>
      let t := s.setCall index ⟨task, .notified queued⟩
      match woken with
      | some worker =>
        match s.workers[worker]? with
        | some .waiting => some (t.setWorker worker .woken)
        | _ => none
      | none => if s.workers.any (·.isWaiting) then none else some t
    | _ => none
  | .grow index spurious => s.grow limits index spurious
  | .wake worker =>
    match s.workers[worker]? with
    | some .waiting => some (s.setWorker worker .woken)
    | _ => none
  | .work worker flag => s.work limits worker flag

/-- The tasks that were put into the queue, in order. -/
def accepted : List τ := s.calls.filterMap (·.accepted?)

end TaskPool

/-- The pool as `TaskPool::new` returns it; until then no worker could retire. -/
def taskPoolMachine (τ : Type*) (limits : TaskPoolLimits) :
    Machine (TaskPool τ) (TaskPoolEvent τ) where
  init :=
    { workerCount := limits.minThreads
      workers := List.replicate limits.minThreads .starting }
  step := TaskPool.step limits

/-! ## What holds in every run -/

namespace TaskPool
variable {τ : Type*} {limits : TaskPoolLimits} {s : TaskPool τ}

/-- Holds in every state of a run. -/
structure Inv (limits : TaskPoolLimits) (s : TaskPool τ) : Prop where
  count_eq : s.workerCount = s.workers.countP (·.counted)
  idle_eq : s.idleWorkers = s.workers.countP (·.idle)
  min_le : limits.minThreads ≤ s.workerCount
  le_max : s.workerCount ≤ limits.maxThreads
  balance : s.accepted = s.started ++ s.queue
  empty : ∀ phase ∈ s.workers, phase.foundEmpty → s.queue = []
  /-- No wake-up is lost. -/
  noticed : s.queue ≠ [] → (∃ call ∈ s.calls, call.notifies) ∨ ∃ phase ∈ s.workers, phase.awake

theorem Inv.setWorker (h : s.Inv limits) {worker : ℕ} {old new : WorkerPhase τ}
    (hget : s.workers[worker]? = some old) {queue started : List τ} {count idle : ℕ}
    (hcount : count + (if old.counted then 1 else 0) =
      s.workerCount + if new.counted then 1 else 0)
    (hidle : idle + (if old.idle then 1 else 0) = s.idleWorkers + if new.idle then 1 else 0)
    (hmin : limits.minThreads ≤ count) (hmax : count ≤ limits.maxThreads)
    (hbalance : started ++ queue = s.started ++ s.queue)
    (hqueue : ∀ phase ∈ s.workers, phase.foundEmpty → queue = [])
    (hempty : new.foundEmpty → queue = []) (hawake : new.awake ∨ queue = []) :
    ({ s.setWorker worker new with
        queue, started, workerCount := count, idleWorkers := idle } : TaskPool τ).Inv limits where
  count_eq := by
    have hset := Lib.countP_set_add (b := new) hget (·.counted)
    rw [← h.count_eq] at hset
    exact Nat.add_right_cancel (hcount.trans hset.symm)
  idle_eq := by
    have hset := Lib.countP_set_add (b := new) hget (·.idle)
    rw [← h.idle_eq] at hset
    exact Nat.add_right_cancel (hidle.trans hset.symm)
  min_le := hmin
  le_max := hmax
  balance := h.balance.trans hbalance.symm
  empty := Lib.forall_mem_set hqueue hempty
  noticed := by
    intro hne
    refine .inr ⟨new, List.mem_set (List.getElem?_eq_some_iff.1 hget).1 new, ?_⟩
    exact hawake.resolve_right hne

theorem Inv.moved (h : s.Inv limits) {worker : ℕ} {old new : WorkerPhase τ}
    (hget : s.workers[worker]? = some old) (hcounted : new.counted = old.counted)
    (hidle : new.idle = old.idle) (hempty : new.foundEmpty → s.queue = [])
    (hawake : new.awake ∨ s.queue = []) : (s.setWorker worker new).Inv limits :=
  h.setWorker hget (by rw [hcounted]) (by rw [hidle]) h.min_le h.le_max rfl h.empty hempty hawake

theorem Inv.setCall (h : s.Inv limits) {index : ℕ} {old new : Call τ}
    (hget : s.calls[index]? = some old) (haccepted : new.accepted? = old.accepted?)
    (hnotifies : old.notifies → s.queue ≠ [] → ∃ phase ∈ s.workers, phase.awake) :
    (s.setCall index new).Inv limits where
  count_eq := h.count_eq
  idle_eq := h.idle_eq
  min_le := h.min_le
  le_max := h.le_max
  balance := (Lib.filterMap_set hget haccepted).trans h.balance
  empty := h.empty
  noticed := by
    intro hne
    by_cases hold : old.notifies
    · exact .inr (hnotifies hold hne)
    · exact (h.noticed hne).imp_left (Lib.exists_mem_set hget hold)

theorem Inv.pushed (h : s.Inv limits) (hfree : s.isLocked = false) (task : τ) :
    ({ s with
        queue := s.queue ++ [task]
        calls := s.calls ++ [⟨task, .pushed (s.queue.length + 1)⟩] } : TaskPool τ).Inv limits where
  count_eq := h.count_eq
  idle_eq := h.idle_eq
  min_le := h.min_le
  le_max := h.le_max
  balance := by
    have hbalance := h.balance
    rw [accepted] at hbalance ⊢
    rw [List.filterMap_append, hbalance, List.append_assoc]
    rfl
  empty := by
    -- who has found an empty queue has kept the lock
    intro phase hphase hempty
    have hlocked : s.isLocked = true :=
      List.any_eq_true.2 ⟨phase, hphase, phase.holdsLock_of_foundEmpty hempty⟩
    exact absurd (hfree.symm.trans hlocked) Bool.false_ne_true
  noticed := fun _ => .inl ⟨_, List.mem_append_right _ List.mem_cons_self, rfl⟩

theorem Inv.rejected (h : s.Inv limits) (task : τ) :
    ({ s with calls := s.calls ++ [⟨task, .returned false⟩] } : TaskPool τ).Inv limits where
  count_eq := h.count_eq
  idle_eq := h.idle_eq
  min_le := h.min_le
  le_max := h.le_max
  balance := by
    have hbalance := h.balance
    rw [accepted] at hbalance ⊢
    rw [List.filterMap_append, hbalance]
    exact List.append_nil _
  empty := h.empty
  noticed := fun hne => (h.noticed hne).imp_left fun ⟨call, hcall, hnotifies⟩ =>
    ⟨call, List.mem_append_left _ hcall, hnotifies⟩

theorem Inv.created (h : s.Inv limits) (hlt : s.workerCount < limits.maxThreads) :
    ({ s with
        workerCount := s.workerCount + 1
        workers := s.workers ++ [.starting] } : TaskPool τ).Inv limits where
  count_eq := by
    rw [List.countP_append, ← h.count_eq]
    rfl
  idle_eq := by
    rw [List.countP_append, ← h.idle_eq]
    rfl
  min_le := h.min_le.trans (Nat.le_succ _)
  le_max := hlt
  balance := h.balance
  empty := by
    intro phase hphase hempty
    rcases List.mem_append.1 hphase with hphase | hphase
    · exact h.empty phase hphase hempty
    · cases List.mem_singleton.1 hphase
      cases hempty
  noticed := fun _ => .inr ⟨.starting, List.mem_append_right _ List.mem_cons_self, rfl⟩

theorem Inv.grow (h : s.Inv limits) {s' : TaskPool τ} {index : ℕ} {spurious : Bool}
    (hs : s.grow limits index spurious = some s') : s'.Inv limits := by
  obtain ⟨⟨task, phase⟩, hget, hs⟩ := Option.bind_eq_some_iff.1 hs
  cases phase with
  | pushed queued => cases hs
  | returned result => cases hs
  | notified queued =>
    cases hs
    refine h.setCall hget ?_ nofun
    split_ifs <;> rfl
  | crowded =>
    cases hs
    refine h.setCall hget ?_ nofun
    split_ifs <;> rfl
  | spawning =>
    cases hs
    exact h.setCall hget rfl nofun
  | loaded current =>
    dsimp only at hs
    split_ifs at hs with hmax hfail
    · cases hs
      exact h.setCall hget rfl nofun
    · cases hs
      exact h.setCall hget rfl nofun
    · cases hs
      obtain rfl : s.workerCount = current := not_not.1 fun hne => hfail (.inr hne)
      exact (h.created (not_le.1 hmax)).setCall hget rfl nofun

theorem Inv.work (h : s.Inv limits) {s' : TaskPool τ} {worker : ℕ} {flag : Bool}
    (hs : s.work limits worker flag = some s') : s'.Inv limits := by
  obtain ⟨phase, hget, hs⟩ := Option.bind_eq_some_iff.1 hs
  have hmem := List.mem_of_getElem? hget
  cases phase with
  | starting =>
    dsimp only at hs
    split_ifs at hs
    cases hs
    exact h.moved hget rfl rfl nofun (.inl rfl)
  | locked =>
    dsimp only at hs
    split at hs
    · rename_i task queue hqueue
      cases hs
      refine h.setWorker hget rfl rfl h.min_le h.le_max ?_ ?_ nofun (.inl rfl)
      · rw [hqueue, List.append_assoc]
        rfl
      · intro phase hphase hempty
        have hnil := h.empty phase hphase hempty
        rw [hqueue] at hnil
        cases hnil
    · rename_i hqueue
      cases hs
      exact h.setWorker hget rfl rfl h.min_le h.le_max rfl h.empty (fun _ => hqueue) (.inr hqueue)
  | idling =>
    cases hs
    exact h.moved hget rfl rfl nofun (.inr (h.empty _ hmem rfl))
  | waiting => cases hs
  | woken =>
    dsimp only at hs
    split_ifs at hs
    cases hs
    exact h.moved hget rfl rfl nofun (.inl rfl)
  | relocked timedOut =>
    cases hs
    have hidle : 0 < s.idleWorkers := by
      rw [h.idle_eq]
      exact List.countP_pos_iff.2 ⟨_, hmem, rfl⟩
    split_ifs with hexpired
    · have hqueue := List.isEmpty_iff.1 (Bool.and_eq_true_iff.1 hexpired).2
      exact h.setWorker hget rfl (Nat.succ_pred_eq_of_pos hidle) h.min_le h.le_max rfl h.empty
        (fun _ => hqueue) (.inr hqueue)
    · exact h.setWorker hget rfl (Nat.succ_pred_eq_of_pos hidle) h.min_le h.le_max rfl h.empty
        nofun (.inl rfl)
  | expired =>
    cases hs
    have hqueue := h.empty _ hmem rfl
    exact h.moved hget rfl rfl (fun _ => hqueue) (.inr hqueue)
  | retiring current =>
    have hqueue := h.empty _ hmem rfl
    dsimp only at hs
    split_ifs at hs with hmin hfail
    · cases hs
      exact h.moved hget rfl rfl nofun (.inl rfl)
    · cases hs
      exact h.moved hget rfl rfl (fun _ => hqueue) (.inr hqueue)
    · cases hs
      obtain rfl : s.workerCount = current := not_not.1 fun hne => hfail (.inr hne)
      have hpos : 0 < s.workerCount := limits.min_pos.trans_le h.min_le
      refine h.setWorker hget (Nat.succ_pred_eq_of_pos hpos) rfl ?_ ?_ rfl h.empty
        (fun _ => hqueue) (.inr hqueue)
      · omega
      · exact (Nat.sub_le _ _).trans h.le_max
  | retired =>
    cases hs
    exact h.moved hget rfl rfl nofun (.inr (h.empty _ hmem rfl))
  | running task =>
    cases hs
    exact h.moved hget rfl rfl nofun (.inl rfl)
  | exited => cases hs

theorem Inv.exists_awake (h : s.Inv limits) (hwaiting : s.workers.any (·.isWaiting) = false)
    (hne : s.queue ≠ []) : ∃ phase ∈ s.workers, phase.awake := by
  have hpos : 0 < s.workers.countP (·.counted) := by
    rw [← h.count_eq]
    exact limits.min_pos.trans_le h.min_le
  obtain ⟨phase, hphase, hcounted⟩ := List.countP_pos_iff.1 hpos
  refine ⟨phase, hphase, ?_⟩
  have hnot := List.any_eq_false.1 hwaiting phase hphase
  have hfound : ¬ phase.foundEmpty := fun hempty => hne (h.empty phase hphase hempty)
  cases phase <;> first | rfl | exact absurd rfl hnot | exact absurd rfl hfound | cases hcounted

theorem Inv.notify (h : s.Inv limits) {s' : TaskPool τ} {index : ℕ} {woken : Option ℕ}
    (hs : s.step limits (.notify index woken) = some s') : s'.Inv limits := by
  rw [TaskPool.step] at hs
  split at hs
  · rename_i task queued hget
    dsimp only at hs
    split at hs
    · rename_i worker
      split at hs
      · rename_i hworker
        cases hs
        have hmoved : (s.setWorker worker .woken).Inv limits :=
          h.moved hworker rfl rfl nofun (.inl rfl)
        refine hmoved.setCall hget rfl fun _ _ => ⟨.woken, ?_, rfl⟩
        exact List.mem_set (List.getElem?_eq_some_iff.1 hworker).1 _
      · cases hs
    · split_ifs at hs with hwaiting
      cases hs
      exact h.setCall hget rfl fun _ => h.exists_awake (Bool.eq_false_iff.2 hwaiting)
  · cases hs

theorem Inv.step (h : s.Inv limits) {s' : TaskPool τ} {event : TaskPoolEvent τ}
    (hs : s.step limits event = some s') : s'.Inv limits := by
  cases event with
  | trySpawn task =>
    rw [TaskPool.step] at hs
    split_ifs at hs with hlocked hfull
    · cases hs
      exact h.rejected task
    · cases hs
      exact h.pushed (Bool.eq_false_iff.2 hlocked) task
  | notify index woken => exact h.notify hs
  | grow index spurious => exact h.grow hs
  | wake worker =>
    rw [TaskPool.step] at hs
    split at hs
    · rename_i hget
      cases hs
      exact h.moved hget rfl rfl nofun (.inl rfl)
    · cases hs
  | work worker flag => exact h.work hs

theorem inv_of_reachable (h : (taskPoolMachine τ limits).Reachable s) : s.Inv limits := by
  refine h.inv ?_ fun s event s' hinv hstep => hinv.step hstep
  exact
    { count_eq := by
        change limits.minThreads = (List.replicate limits.minThreads _).countP _
        rw [List.countP_replicate]
        rfl
      idle_eq := by
        change 0 = (List.replicate limits.minThreads _).countP _
        rw [List.countP_replicate]
        rfl
      min_le := le_rfl
      le_max := limits.min_le_max
      balance := rfl
      empty := fun phase hphase hempty => rfl
      noticed := fun hne => absurd rfl hne }

end TaskPool

/-- **The pool loses nothing**: in every run the number of workers stays within the limits,
    the tasks that were accepted are those that were started and then those in the queue, no
    worker retires while a task is in the queue, and no task waits for workers that sleep,
    with nobody about to notify one. -/
theorem taskPool_inv {τ : Type*} {limits : TaskPoolLimits} {s : TaskPool τ}
    (h : (taskPoolMachine τ limits).Reachable s) :
    s.workerCount = s.workers.countP (·.counted) ∧
    (limits.minThreads ≤ s.workerCount ∧ s.workerCount ≤ limits.maxThreads) ∧
    s.accepted = s.started ++ s.queue ∧
    (∀ call ∈ s.calls, call.phase = .returned true → call.task ∈ s.started ++ s.queue) ∧
    (.retired ∈ s.workers → s.queue = []) ∧
    (s.queue ≠ [] → (∀ call ∈ s.calls, ¬ call.notifies) → ∃ phase ∈ s.workers, phase.awake) := by
  have hinv := TaskPool.inv_of_reachable h
  refine ⟨hinv.count_eq, ⟨hinv.min_le, hinv.le_max⟩, hinv.balance, fun call hcall hreturned => ?_,
    fun hretired => hinv.empty _ hretired rfl, fun hne hcalls => ?_⟩
  · rw [← hinv.balance]
    refine List.mem_filterMap.2 ⟨call, hcall, ?_⟩
    rw [Call.accepted?, hreturned]
    rfl
  · refine (hinv.noticed hne).resolve_left ?_
    rintro ⟨call, hcall, hnotifies⟩
    exact hcalls call hcall hnotifies

/-- A worker that waits is woken for a task, and another is created for the next. -/
def samplePoolRun : List (TaskPoolEvent ℕ) :=
  [.work 0 false, .work 0 false, .work 0 false,
   .trySpawn 7, .notify 0 (some 0), .grow 0 false,
   .work 0 false, .work 0 false, .work 0 false,
   .trySpawn 8, .notify 1 none, .grow 1 false, .grow 1 false, .grow 1 false, .grow 1 false]

theorem taskPool_inv_sample : ∃ s,
    (taskPoolMachine ℕ (.new 1 4 16)).run (taskPoolMachine ℕ (.new 1 4 16)).init samplePoolRun =
      some s ∧
    s.workerCount = 2 ∧ s.accepted = [7, 8] ∧ 8 ∈ s.started ++ s.queue := by
  obtain ⟨s, hs⟩ : ∃ s, (taskPoolMachine ℕ (.new 1 4 16)).run
      (taskPoolMachine ℕ (.new 1 4 16)).init samplePoolRun = some s := ⟨_, rfl⟩
  obtain ⟨-, -, -, hreturned, -, -⟩ := taskPool_inv ⟨_, hs⟩
  have hcall : (⟨8, .returned true⟩ : Call ℕ) ∈ s.calls := by
    cases hs
    exact .tail _ (.head _)
  refine ⟨s, hs, ?_, ?_, hreturned _ hcall rfl⟩
  · cases hs
    rfl
  · cases hs
    rfl

end DnsBlackhole.Worker
