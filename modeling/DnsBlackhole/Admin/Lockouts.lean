/-
  What other logins do to a lockout (`web_auth.rs`).

  A locked client has an entry in a table of at most `maxTrackedClients`; a failure
  of any client makes room for its own entry first.

  * `LimitInv`: the locks of the table are those of the last failures, and they are in the past
    of the clock;
  * `CrowdsOut`: making room drops the entry of the client, whether it is locked or not;
  * `lockout_lasts`: a lockout lasts until its end if no failure crowds it out;
  * `crowdedOut_accepted`: 1024 logins of other clients lift one 300 s before its end.
-/
import DnsBlackhole.Admin.LoginLimits
import Mathlib.Data.List.MinMax

namespace DnsBlackhole.Admin
open Lib (Machine)

/-! ## The table -/

/-- The lock of the client, over or not. -/
def lockOf (client : IpAddr) (clients : List (IpAddr × ClientAttempts)) : Option ℕ :=
  (clients.find? (·.1 = client)).bind (·.2.lockedUntil)

/-- The entries that are locked or recent. -/
def retained (now : ℕ) (clients : List (IpAddr × ClientAttempts)) :
    List (IpAddr × ClientAttempts) :=
  clients.filter fun entry =>
    entry.2.lockedUntil.any (now < ·) || now - entry.2.lastFailureAt ≤ attemptRetention

def IsOldest (clients : List (IpAddr × ClientAttempts)) (entry : IpAddr × ClientAttempts) : Bool :=
  clients.all fun other => entry.2.lastFailureAt ≤ other.2.lastFailureAt

/-- There is no room for another entry, and the client is the first of those whose last failure
    is the oldest. -/
def CrowdsOut (client : IpAddr) (now : ℕ) (clients : List (IpAddr × ClientAttempts)) : Prop :=
  maxTrackedClients ≤ (retained now clients).length ∧
    ((retained now clients).find? (IsOldest (retained now clients))).map Prod.fst = some client

section
variable {client c : IpAddr} {now : ℕ} {clients : List (IpAddr × ClientAttempts)}

theorem lockOf_of_mem (hn : (clients.map Prod.fst).Nodup) {attempts : ClientAttempts}
    (h : (client, attempts) ∈ clients) : lockOf client clients = attempts.lockedUntil := by
  induction clients with
  | nil => cases h
  | cons entry entries ih =>
    rw [List.map_cons, List.nodup_cons] at hn
    rw [lockOf, List.find?_cons]
    rcases List.mem_cons.1 h with rfl | h
    · simp only [decide_true, Option.bind_some]
    · have hne : entry.1 ≠ client := by
        rintro rfl
        exact hn.1 (List.mem_map.2 ⟨_, h, rfl⟩)
      simp only [hne, decide_false]
      exact ih hn.2 h

theorem lockOf_of_notMem (h : client ∉ clients.map Prod.fst) : lockOf client clients = none := by
  rw [lockOf, List.find?_eq_none.2 fun entry hentry hclient => ?_, Option.bind_none]
  exact h (List.mem_map.2 ⟨entry, hentry, of_decide_eq_true hclient⟩)

theorem exists_mem_of_lockOf {T : ℕ} (h : lockOf client clients = some T) :
    ∃ attempts, (client, attempts) ∈ clients ∧ attempts.lockedUntil = some T := by
  obtain ⟨⟨ip, attempts⟩, hfind, hlock⟩ := Option.bind_eq_some_iff.1 h
  obtain rfl : ip = client := by simpa using List.find?_some hfind
  exact ⟨attempts, List.mem_of_find?_eq_some hfind, hlock⟩

theorem checkLockout_eq_ok_iff (client : IpAddr) (now : ℕ) (limit : RateLimitState) :
    (checkLockout client now limit).1 = .ok () ↔
      (∀ T ∈ limit.globalLockedUntil, T ≤ now) ∧ ∀ T ∈ lockOf client limit.clients, T ≤ now := by
  have hnone : ∀ o : Option ℕ, o.filter (now < ·) = none ↔ ∀ T ∈ o, T ≤ now := by
    intro o
    cases o <;> simp [Option.filter]
  have hlock : ((limit.clients.find? (·.1 = client)).bind fun entry =>
      entry.2.lockedUntil.filter (now < ·)) = (lockOf client limit.clients).filter (now < ·) := by
    rw [lockOf]
    cases limit.clients.find? (·.1 = client) <;> rfl
  rw [checkLockout, ← hnone, ← hnone]
  dsimp only
  rw [hlock]
  cases limit.globalLockedUntil.filter (now < ·) with
  | some T => simp
  | none => cases (lockOf client limit.clients).filter (now < ·) <;> simp

/-! ## Making room -/

theorem removeOldest_eq (clients : List (IpAddr × ClientAttempts)) :
    removeOldest clients = clients.eraseP (IsOldest clients) := rfl

theorem length_removeOldest (clients : List (IpAddr × ClientAttempts)) :
    (removeOldest clients).length = clients.length - 1 := by
  cases h : clients.argmin (·.2.lastFailureAt) with
  | none =>
    obtain rfl := List.argmin_eq_none.1 h
    rfl
  | some oldest =>
    refine List.length_eraseP_of_mem (List.argmin_mem h) ?_
    exact List.all_eq_true.2 fun other hother => decide_eq_true
      (List.le_of_mem_argmin (f := fun entry : IpAddr × ClientAttempts => entry.2.lastFailureAt)
        hother h)

theorem length_evictStaleAttempts (now : ℕ) (clients : List (IpAddr × ClientAttempts)) :
    (evictStaleAttempts now clients).length < maxTrackedClients := by
  have hrounds : ∀ rounds kept : List (IpAddr × ClientAttempts),
      (rounds.foldl (fun kept _ => removeOldest kept) kept).length =
        kept.length - rounds.length := by
    intro rounds
    induction rounds with
    | nil => exact fun kept => rfl
    | cons round rounds ih =>
      intro kept
      rw [List.foldl_cons, ih, length_removeOldest, List.length_cons]
      omega
  rw [evictStaleAttempts, hrounds, List.length_drop]
  have hmax : 0 < maxTrackedClients := by decide
  omega

theorem mem_eraseP_of_find?_ne {α : Type*} {p : α → Bool} {a : α} {l : List α} (h : a ∈ l)
    (hne : l.find? p ≠ some a) : a ∈ l.eraseP p := by
  induction l with
  | nil => cases h
  | cons b l ih =>
    rw [List.find?_cons] at hne
    rw [List.eraseP_cons]
    cases hb : p b with
    | true =>
      rw [hb] at hne
      exact (List.mem_cons.1 h).resolve_left fun hab => hne (congrArg some hab.symm)
    | false =>
      rw [hb] at hne
      rw [cond_false]
      rcases List.mem_cons.1 h with rfl | h
      · exact List.mem_cons_self
      · exact List.mem_cons_of_mem _ (ih h hne)

theorem mem_evictStaleAttempts {attempts : ClientAttempts} {T : ℕ}
    (hlength : clients.length ≤ maxTrackedClients) (h : (client, attempts) ∈ clients)
    (hlock : attempts.lockedUntil = some T) (hnow : now < T)
    (hroom : ¬ CrowdsOut client now clients) :
    (client, attempts) ∈ evictStaleAttempts now clients := by
  have hretained : (client, attempts) ∈ retained now clients := by
    refine List.mem_filter.2 ⟨h, Bool.or_eq_true_iff.2 (.inl ?_)⟩
    rw [hlock]
    exact decide_eq_true hnow
  have hle : (retained now clients).length ≤ maxTrackedClients :=
    (List.length_filter_le _ _).trans hlength
  change _ ∈ ((retained now clients).drop (maxTrackedClients - 1)).foldl
    (fun kept _ => removeOldest kept) (retained now clients)
  rcases hle.lt_or_eq with hlt | heq
  · rw [List.drop_eq_nil_of_le (Nat.le_sub_one_of_lt hlt)]
    exact hretained
  · -- one round, which erases the first of the oldest
    obtain ⟨round, hround⟩ : ∃ round,
        (retained now clients).drop (maxTrackedClients - 1) = [round] := by
      refine List.length_eq_one_iff.1 ?_
      rw [List.length_drop, heq]
      rfl
    rw [hround, List.foldl_cons, List.foldl_nil, removeOldest_eq]
    refine mem_eraseP_of_find?_ne hretained fun hfind => hroom ⟨heq.ge, ?_⟩
    rw [hfind]
    rfl

/-! ## Recording a failure -/

theorem forall_modifyAttempts {P : ClientAttempts → Prop} {change : ClientAttempts → ClientAttempts}
    (h : ∀ entry ∈ clients, P entry.2) (hchange : ∀ attempts, P attempts → P (change attempts)) :
    ∀ entry ∈ modifyAttempts client change clients, P entry.2 := by
  induction clients with
  | nil => exact h
  | cons first entries ih =>
    obtain ⟨hfirst, hrest⟩ := List.forall_mem_cons.1 h
    rw [modifyAttempts]
    split_ifs
    · exact List.forall_mem_cons.2 ⟨hchange _ hfirst, hrest⟩
    · exact List.forall_mem_cons.2 ⟨hfirst, ih hrest⟩

theorem modifyAttempts_mem {change : ClientAttempts → ClientAttempts} {attempts : ClientAttempts}
    (hn : (clients.map Prod.fst).Nodup) (h : (c, attempts) ∈ clients) :
    (c, if c = client then change attempts else attempts) ∈
      modifyAttempts client change clients := by
  induction clients with
  | nil => cases h
  | cons first entries ih =>
    rw [List.map_cons, List.nodup_cons] at hn
    rw [modifyAttempts]
    rcases List.mem_cons.1 h with rfl | h
    · by_cases hc : c = client
      · rw [if_pos hc, if_pos hc]
        exact List.mem_cons_self
      · rw [if_neg hc, if_neg hc]
        exact List.mem_cons_self
    · by_cases hfirst : first.1 = client
      · have hc : c ≠ client := by
          rintro rfl
          exact hn.1 (hfirst ▸ List.mem_map.2 ⟨_, h, rfl⟩)
        rw [if_pos hfirst, if_neg hc]
        exact List.mem_cons_of_mem _ h
      · rw [if_neg hfirst]
        exact List.mem_cons_of_mem _ (ih hn.2 h)

theorem forall_recordFailure {P : ClientAttempts → Prop} {limit : RateLimitState}
    (h : ∀ entry ∈ limit.clients, P entry.2) (hnew : P ⟨0, none, now⟩)
    (hfail : ∀ attempts, P attempts → P (attempts.fail now)) :
    ∀ entry ∈ (recordFailure client now limit).2.clients, P entry.2 := by
  have hkept : ∀ entry ∈ evictStaleAttempts now limit.clients, P entry.2 := fun entry hentry =>
    h entry ((evictStaleAttempts_sublist now limit.clients).subset hentry)
  rw [clients_recordFailure]
  refine forall_modifyAttempts ?_ hfail
  dsimp only
  split_ifs
  · exact hkept
  · exact List.forall_mem_append.2 ⟨hkept, List.forall_mem_singleton.2 hnew⟩

theorem recordFailure_mem {limit : RateLimitState} {attempts : ClientAttempts}
    (hn : (limit.clients.map Prod.fst).Nodup)
    (h : (c, attempts) ∈ evictStaleAttempts now limit.clients) :
    (c, if c = client then attempts.fail now else attempts) ∈
      (recordFailure client now limit).2.clients := by
  have hnames := nodup_recordFailure client now limit hn
  rw [clients_recordFailure] at hnames ⊢
  rw [map_fst_modifyAttempts] at hnames
  refine modifyAttempts_mem hnames ?_
  dsimp only
  split_ifs
  · exact h
  · exact List.mem_append_left _ h

theorem length_recordFailure_le (client : IpAddr) (now : ℕ) (limit : RateLimitState) :
    (recordFailure client now limit).2.clients.length ≤ maxTrackedClients := by
  have hkept := length_evictStaleAttempts now limit.clients
  rw [clients_recordFailure, ← List.length_map (f := Prod.fst), map_fst_modifyAttempts,
    List.length_map]
  dsimp only
  split_ifs
  · exact hkept.le
  · rw [List.length_append, List.length_singleton]
    exact hkept

theorem globalLockedUntil_recordFailure {limit : RateLimitState} {T : ℕ}
    (h : T ∈ (recordFailure client now limit).2.globalLockedUntil) :
    T ∈ limit.globalLockedUntil ∨ T = now + globalLockout := by
  have h : T ∈ (recordGlobalFailure now limit).2.globalLockedUntil := h
  rw [recordGlobalFailure] at h
  split_ifs at h
  · exact .inr (Option.some.inj h).symm
  · exact .inl h
  · exact .inr (Option.some.inj h).symm
  · exact .inl h

/-! ## The locks of a run -/

theorem lockFor_le_succ (failures : ℕ) :
    lockFor failures ≤ lockFor (saturatingSucc32 failures) := by
  refine min_le_min_right _ (Nat.mul_le_mul_left _ (Nat.pow_le_pow_right Nat.two_pos ?_))
  unfold saturatingSucc32 lockoutAfterFailures
  omega

/-- The lock of a client is the one its last failure has set. -/
structure ClientAttempts.Fine (clock : ℕ) (attempts : ClientAttempts) : Prop where
  past : attempts.lastFailureAt ≤ clock
  locked : ∀ T ∈ attempts.lockedUntil, lockoutAfterFailures ≤ attempts.failures ∧
    T = attempts.lastFailureAt + lockFor attempts.failures

/-- Holds in every state of a run whose steps have read the clock up to `clock`. -/
structure LimitInv (clock : ℕ) (limit : RateLimitState) : Prop where
  length_le : limit.clients.length ≤ maxTrackedClients
  fine : ∀ entry ∈ limit.clients, entry.2.Fine clock
  global_le : ∀ T ∈ limit.globalLockedUntil, T ≤ clock + globalLockout

theorem le_saturatingSucc32 {n limit : ℕ} (h : limit ≤ n) (hlimit : limit ≤ 4294967295) :
    limit ≤ saturatingSucc32 n := le_min (h.trans n.le_succ) hlimit

theorem ClientAttempts.Fine.fail {clock : ℕ} {attempts : ClientAttempts}
    (h : attempts.Fine clock) (now : ℕ) : (attempts.fail now).Fine now where
  past := le_rfl
  locked := by
    intro T hT
    rw [ClientAttempts.fail] at hT ⊢
    dsimp only at hT ⊢
    split_ifs at hT with hlocks
    · exact ⟨hlocks, (Option.some.inj hT).symm⟩
    · exact absurd (le_saturatingSucc32 (h.locked T hT).1 (by decide)) hlocks

theorem ClientAttempts.Fine.mono {clock clock' : ℕ} {attempts : ClientAttempts}
    (h : attempts.Fine clock) (hclock : clock ≤ clock') : attempts.Fine clock' :=
  ⟨h.past.trans hclock, h.locked⟩

theorem LimitInv.mono {clock clock' : ℕ} {limit : RateLimitState} (h : LimitInv clock limit)
    (hclock : clock ≤ clock') : LimitInv clock' limit where
  length_le := h.length_le
  fine := fun entry hentry => (h.fine entry hentry).mono hclock
  global_le := fun T hT => (h.global_le T hT).trans (Nat.add_le_add_right hclock _)

theorem LimitInv.recordFailure {clock : ℕ} {limit : RateLimitState} (h : LimitInv clock limit)
    (client : IpAddr) {now : ℕ} (hnow : now ≤ clock) :
    LimitInv clock (recordFailure client now limit).2 where
  length_le := length_recordFailure_le client now limit
  fine := by
    refine forall_recordFailure h.fine ⟨hnow, fun T hT => nomatch hT⟩ fun attempts hfine => ?_
    exact (hfine.fail now).mono hnow
  global_le := by
    intro T hT
    rcases globalLockedUntil_recordFailure hT with hT | rfl
    · exact h.global_le T hT
    · exact Nat.add_le_add_right hnow _

theorem globalLockedUntil_checkLockout {limit : RateLimitState} {T : ℕ}
    (h : T ∈ (checkLockout client now limit).2.globalLockedUntil) :
    T ∈ limit.globalLockedUntil := by
  unfold checkLockout at h
  split at h
  · exact h
  · dsimp only at h
    split at h <;> cases h

theorem LimitInv.checkLockout {clock : ℕ} {limit : RateLimitState} (h : LimitInv clock limit)
    (client : IpAddr) (now : ℕ) : LimitInv clock (checkLockout client now limit).2 where
  length_le := (LoginState.clients_checkLockout client now limit).1 ▸ h.length_le
  fine := (LoginState.clients_checkLockout client now limit).1 ▸ h.fine
  global_le := fun T hT => h.global_le T (globalLockedUntil_checkLockout hT)

theorem LimitInv.clearFailures {clock : ℕ} {limit : RateLimitState} (h : LimitInv clock limit)
    (client : IpAddr) : LimitInv clock (clearFailures client limit) where
  length_le := (List.length_filter_le _ _).trans h.length_le
  fine := fun entry hentry => h.fine entry (List.mem_filter.1 hentry).1
  global_le := h.global_le

end

/-! ## Runs -/

/-- The clock that a step has read. -/
def LoginEvent.clock? : LoginEvent → Option ℕ
  | .check _ _ _ now | .reject _ now => some now
  | .verify _ | .clear _ => none

/-- What a step does to the limits. -/
inductive LimitMove (s : LoginState) : LoginEvent → RateLimitState → Prop
  | check (client : IpAddr) (stored password : Text) (now : ℕ) :
    LimitMove s (.check client stored password now) (checkLockout client now s.limit).2
  | verify (index : ℕ) : LimitMove s (.verify index) s.limit
  | reject {index : ℕ} {call : LoginCall} (hcall : s.calls[index]? = some call) (now : ℕ) :
    LimitMove s (.reject index now) (recordFailure call.client now s.limit).2
  | clear {index : ℕ} {call : LoginCall} (hcall : s.calls[index]? = some call) :
    LimitMove s (.clear index) (clearFailures call.client s.limit)

section
variable {verifyPassword : Text → Text → Except Text Bool} {s s' : LoginState} {event : LoginEvent}
  {clock : ℕ}

theorem limit_step (hs : s.step verifyPassword event = some s') :
    LimitMove s event s'.limit := by
  cases event with
  | check client stored password now =>
    rw [LoginState.step] at hs
    dsimp only at hs
    split at hs
    all_goals
      cases hs
      exact .check client stored password now
  | verify index =>
    rw [LoginState.step] at hs
    split at hs
    · split_ifs at hs
      · cases hs
        exact .verify index
      · split at hs
        all_goals
          cases hs
          exact .verify index
    · cases hs
  | reject index now =>
    rw [LoginState.step] at hs
    split at hs
    · rename_i client verified hget
      obtain rfl := Option.some.inj hs
      exact .reject hget now
    · cases hs
  | clear index =>
    rw [LoginState.step] at hs
    split at hs
    · rename_i client hget
      cases hs
      exact .clear hget
    · cases hs

theorem LimitInv.step (h : LimitInv clock s.limit) (hclock : ∀ now ∈ event.clock?, now ≤ clock)
    (hs : s.step verifyPassword event = some s') : LimitInv clock s'.limit := by
  have hmove := limit_step hs
  generalize s'.limit = limit at hmove ⊢
  cases hmove with
  | check client stored password now => exact h.checkLockout client now
  | verify => exact h
  | @reject _ call _ now => exact h.recordFailure call.client (hclock now rfl)
  | @clear _ call => exact h.clearFailures call.client

theorem limitInv_of_run {events : List LoginEvent}
    (hclock : ∀ now ∈ events.filterMap LoginEvent.clock?, now ≤ clock)
    (hrun : (loginMachine verifyPassword).run (loginMachine verifyPassword).init events = some s) :
    LimitInv clock s.limit := by
  have hinit : LimitInv clock (loginMachine verifyPassword).init.limit :=
    { length_le := Nat.zero_le _
      fine := fun _ h => nomatch h
      global_le := fun _ h => nomatch h }
  have hguarded : (loginMachine verifyPassword).Guarded
      (fun _ event => ∀ now ∈ event.clock?, now ≤ clock) _ events :=
    .of_run events (fun event hmem _ now hnow =>
      hclock now (List.mem_filterMap.2 ⟨event, hmem, hnow⟩)) hrun
  exact Machine.Guarded.inv (P := fun s => LimitInv clock s.limit)
    (fun _ _ _ h hok hstep => h.step hok hstep) events hinit hguarded hrun

/-! ## A lockout -/

/-- The client is locked until `T` at least. -/
def LockedUntil (client : IpAddr) (T : ℕ) (limit : RateLimitState) : Prop :=
  ∃ attempts, (client, attempts) ∈ limit.clients ∧ ∃ deadline ∈ attempts.lockedUntil, T ≤ deadline

/-- The step is a successful login of the client. -/
def Clears (client : IpAddr) (s : LoginState) : LoginEvent → Prop
  | .clear index => (s.calls[index]?).map (·.client) = some client
  | .check _ _ _ _ | .verify _ | .reject _ _ => False

/-- The step records a failure that crowds the client out. -/
def CrowdsOutAt (client : IpAddr) (s : LoginState) : LoginEvent → Prop
  | .reject _ now => CrowdsOut client now s.limit.clients
  | .check _ _ _ _ | .verify _ | .clear _ => False

theorem LockedUntil.recordFailure {client : IpAddr} {T : ℕ} {limit : RateLimitState}
    (h : LockedUntil client T limit) (hinv : LimitInv clock limit)
    (hn : (limit.clients.map Prod.fst).Nodup) (failing : IpAddr) {now : ℕ} (hclock : clock ≤ now)
    (hnow : now < T) (hroom : ¬ CrowdsOut client now limit.clients) :
    LockedUntil client T (recordFailure failing now limit).2 := by
  obtain ⟨attempts, hmem, deadline, hlock, hT⟩ := h
  have hkept := mem_evictStaleAttempts hinv.length_le hmem hlock (hnow.trans_le hT) hroom
  refine ⟨_, recordFailure_mem hn hkept, ?_⟩
  split_ifs with hclient
  · -- its own failure: the lock is longer, and it begins later
    obtain ⟨hlocks, rfl⟩ := (hinv.fine _ hmem).locked deadline hlock
    have hfailures := le_saturatingSucc32 hlocks (by decide)
    refine ⟨now + lockFor (saturatingSucc32 attempts.failures), if_pos hfailures, hT.trans ?_⟩
    have hpast := (hinv.fine _ hmem).past
    dsimp only at hpast ⊢
    exact Nat.add_le_add (hpast.trans hclock) (lockFor_le_succ attempts.failures)
  · exact ⟨deadline, hlock, hT⟩

theorem LockedUntil.step {client : IpAddr} {T : ℕ} (h : LockedUntil client T s.limit)
    (hinv : LimitInv clock s.limit) (hs : s.Inv)
    (hclock : ∀ now ∈ event.clock?, clock ≤ now ∧ now < T) (hclears : ¬ Clears client s event)
    (hroom : ¬ CrowdsOutAt client s event) (hstep : s.step verifyPassword event = some s') :
    LockedUntil client T s'.limit := by
  have hmove := limit_step hstep
  generalize s'.limit = limit at hmove ⊢
  cases hmove with
  | check c stored password now =>
    rw [LockedUntil, (LoginState.clients_checkLockout c now s.limit).1]
    exact h
  | verify => exact h
  | @reject _ call _ now =>
    obtain ⟨hpast, hnow⟩ := hclock now rfl
    exact h.recordFailure hinv hs.nodup call.client hpast hnow hroom
  | @clear index call hcall =>
    have hne : client ≠ call.client := by
      rintro rfl
      exact hclears (by rw [Clears, hcall, Option.map_some])
    obtain ⟨attempts, hmem, hlock⟩ := h
    exact ⟨attempts, List.mem_filter.2 ⟨hmem, decide_eq_true hne⟩, hlock⟩

theorem LockedUntil.rejected {client : IpAddr} {T now : ℕ} {limit : RateLimitState}
    (h : LockedUntil client T limit) (hn : (limit.clients.map Prod.fst).Nodup) (hnow : now < T) :
    ∃ seconds, (checkLockout client now limit).1 = .error (.locked seconds) := by
  have hrefused : (checkLockout client now limit).1 ≠ .ok () := by
    obtain ⟨attempts, hmem, deadline, hlock, hT⟩ := h
    intro hok
    have hover := ((checkLockout_eq_ok_iff client now limit).1 hok).2 deadline
      ((lockOf_of_mem hn hmem).trans hlock)
    omega
  unfold checkLockout at hrefused ⊢
  split
  · exact ⟨_, rfl⟩
  · rename_i hglobal
    rw [hglobal] at hrefused
    dsimp only at hrefused ⊢
    split
    · exact ⟨_, rfl⟩
    · rename_i hclient
      rw [hclient] at hrefused
      exact absurd rfl hrefused

theorem LockedUntil.run {client : IpAddr} {T now : ℕ} (hnow : now < T) :
    ∀ (events : List LoginEvent) {clock : ℕ} {s u : LoginState},
      LockedUntil client T s.limit → LimitInv clock s.limit → s.Inv →
      (clock :: events.filterMap LoginEvent.clock?).Pairwise (· ≤ ·) →
      (∀ t ∈ events.filterMap LoginEvent.clock?, t ≤ now) →
      (loginMachine verifyPassword).Guarded
        (fun s event => ¬ Clears client s event ∧ ¬ CrowdsOutAt client s event) s events →
      (loginMachine verifyPassword).run s events = some u →
      LockedUntil client T u.limit ∧ u.Inv
  | [], _, s, u, h, _, hs, _, _, _, hrun => by
    cases hrun
    exact ⟨h, hs⟩
  | event :: events, clock, s, u, h, hinv, hs, hsorted, hle, hguarded, hrun => by
    obtain ⟨⟨hclears, hroom⟩, s', hstep, hguarded⟩ := hguarded
    obtain ⟨_, hstep', hrun⟩ := (Machine.run_cons_eq_some _).1 hrun
    obtain rfl := Option.some.inj (hstep.symm.trans hstep')
    rw [List.pairwise_cons] at hsorted
    have hnext := h.step hinv hs (fun t ht => ?_) hclears hroom hstep
    · cases hclock : event.clock? with
      | none =>
        rw [List.filterMap_cons_none hclock] at hsorted hle
        refine LockedUntil.run hnow events hnext (hinv.step (fun t ht => ?_) hstep)
          (hs.step hstep) (List.pairwise_cons.2 hsorted) hle hguarded hrun
        rw [hclock] at ht
        cases ht
      | some t =>
        rw [List.filterMap_cons_some hclock] at hsorted hle
        have ht : clock ≤ t := hsorted.1 t List.mem_cons_self
        refine LockedUntil.run hnow events hnext ((hinv.mono ht).step (fun t' ht' => ?_) hstep)
          (hs.step hstep) hsorted.2 (fun t' ht' => hle t' (List.mem_cons_of_mem _ ht')) hguarded
          hrun
        rw [hclock] at ht'
        exact (Option.some.inj ht').ge
    · have hmem : t ∈ (event :: events).filterMap LoginEvent.clock? :=
        List.mem_filterMap.2 ⟨event, List.mem_cons_self, ht⟩
      exact ⟨hsorted.1 t hmem, (hle t hmem).trans_lt hnow⟩

end

/-- A failure has locked the client out until `T`; from then up to `now` the clock does not go
    back and the client does not log in, and every step is `ok`.  Then before `T` the client is
    rejected. -/
def LockoutsLast (verifyPassword : Text → Text → Except Text Bool)
    (ok : IpAddr → LoginState → LoginEvent → Prop) : Prop :=
  ∀ {client : IpAddr} {T now index failed : ℕ} {before after : List LoginEvent}
    {s locked u : LoginState},
    (loginMachine verifyPassword).run (loginMachine verifyPassword).init before = some s →
    s.calls[index]?.map (·.client) = some client →
    s.step verifyPassword (.reject index failed) = some locked →
    lockOf client locked.limit.clients = some T →
    (loginMachine verifyPassword).run locked after = some u →
    (loginMachine verifyPassword).Guarded
      (fun s event => ¬ Clears client s event ∧ ok client s event) locked after →
    ((before ++ .reject index failed :: after).filterMap LoginEvent.clock?).Pairwise (· ≤ ·) →
    (∀ t ∈ (before ++ .reject index failed :: after).filterMap LoginEvent.clock?, t ≤ now) →
    now < T →
    ∃ seconds, (checkLockout client now u.limit).1 = .error (.locked seconds)

/-- **A lockout lasts** until its end, whatever the others do, if no failure crowds the client
    out. -/
theorem lockout_lasts (verifyPassword : Text → Text → Except Text Bool) :
    LockoutsLast verifyPassword fun client s event => ¬ CrowdsOutAt client s event := by
  intro client T now index failed before after s locked u hbefore hcall hfails hlock hafter
    hguarded hsorted hnow hT
  have hreachable : (loginMachine verifyPassword).Reachable locked :=
    Machine.Reachable.step (e := .reject index failed) ⟨before, hbefore⟩ hfails
  have hclock : (LoginEvent.reject index failed).clock? = some failed := rfl
  rw [List.filterMap_append, List.filterMap_cons_some hclock] at hsorted hnow
  obtain ⟨-, hsorted, hpast⟩ := List.pairwise_append.1 hsorted
  -- the clock at the failure is the latest so far
  have hinv : LimitInv failed s.limit :=
    limitInv_of_run (fun t ht => hpast t ht failed List.mem_cons_self) hbefore
  have hread : ∀ t ∈ (LoginEvent.reject index failed).clock?, t ≤ failed :=
    fun t ht => (Option.some.inj ht).ge
  have hinv : LimitInv failed locked.limit := hinv.step hread hfails
  have hlocked : LockedUntil client T locked.limit := by
    obtain ⟨attempts, hmem, hlock⟩ := exists_mem_of_lockOf hlock
    exact ⟨attempts, hmem, T, hlock, le_rfl⟩
  obtain ⟨hlocked, hu⟩ := LockedUntil.run hT after hlocked hinv
    (LoginState.inv_of_reachable hreachable) hsorted
    (fun t ht => hnow t (List.mem_append_right _ (List.mem_cons_of_mem _ ht))) hguarded hafter
  exact hlocked.rejected hu.nodup hT

/-! ## A client that is crowded out -/

/-- A login with a wrong password, in no time. -/
def failedLogin (index : ℕ) (client : IpAddr) (now : ℕ) : List LoginEvent :=
  [.check client ('#' :: firstPassword) "wrong".toList now, .verify index, .reject index now]

/-- Failed logins one after the other, each of a client at a time. -/
def failedLogins : ℕ → List (IpAddr × ℕ) → List LoginEvent
  | _, [] => []
  | index, (client, now) :: attempts =>
    failedLogin index client now ++ failedLogins (index + 1) attempts

/-- What they do to the limits, if all are let through. -/
def failAll (limit : RateLimitState) : List (IpAddr × ℕ) → Option RateLimitState
  | [] => some limit
  | (client, now) :: attempts =>
    match checkLockout client now limit with
    | (.ok _, limit) => failAll (recordFailure client now limit).2 attempts
    | (.error _, _) => none

theorem failAll_cons (limit : RateLimitState) (client : IpAddr) (now : ℕ)
    (attempts : List (IpAddr × ℕ)) :
    failAll limit ((client, now) :: attempts) = match checkLockout client now limit with
      | (.ok _, limit) => failAll (recordFailure client now limit).2 attempts
      | (.error _, _) => none := rfl

theorem run_failedLogin {s : LoginState} {client : IpAddr} {now : ℕ} {limit : RateLimitState}
    (h : checkLockout client now s.limit = (.ok (), limit)) :
    ∃ u, (loginMachine markedPassword).run s (failedLogin s.calls.length client now) = some u ∧
      u.limit = (recordFailure client now limit).2 ∧ u.calls.length = s.calls.length + 1 := by
  let checked : LoginState :=
    { s with
      limit
      calls := s.calls ++ [⟨client, .verify ('#' :: firstPassword) "wrong".toList⟩] }
  let verified := (checked.perform client).goTo s.calls.length ⟨client, .reject true⟩
  have hcheck : s.step markedPassword
      (.check client ('#' :: firstPassword) "wrong".toList now) = some checked := by
    rw [LoginState.step, h]
  have hverify : checked.step markedPassword (.verify s.calls.length) = some verified := by
    have hcall : checked.calls[s.calls.length]? =
        some ⟨client, .verify ('#' :: firstPassword) "wrong".toList⟩ :=
      List.getElem?_concat_length
    rw [LoginState.step, hcall]
    rfl
  have hcall : verified.calls[s.calls.length]? = some ⟨client, .reject true⟩ := by
    refine List.getElem?_set_self ?_
    rw [LoginState.perform, List.length_append]
    exact Nat.lt_succ_self _
  refine ⟨(verified.record client now).goTo s.calls.length ⟨client, .done⟩, ?_, rfl, ?_⟩
  · refine (Machine.run_cons_eq_some _).2 ⟨checked, hcheck, ?_⟩
    refine (Machine.run_cons_eq_some _).2 ⟨verified, hverify, ?_⟩
    refine (Machine.run_cons_eq_some _).2 ⟨_, ?_, rfl⟩
    change verified.step markedPassword (.reject s.calls.length now) = _
    rw [LoginState.step, hcall]
  · change ((checked.calls.set _ _).set _ _).length = _
    rw [List.length_set, List.length_set, List.length_append]
    rfl

theorem run_failedLogins : ∀ (attempts : List (IpAddr × ℕ)) {s : LoginState}
    {limit : RateLimitState}, failAll s.limit attempts = some limit →
    ∃ u, (loginMachine markedPassword).run s (failedLogins s.calls.length attempts) = some u ∧
      u.limit = limit ∧ u.calls.length = s.calls.length + attempts.length
  | [], s, limit, h => ⟨s, rfl, Option.some.inj h, rfl⟩
  | (client, now) :: attempts, s, limit, h => by
    rw [failAll_cons] at h
    split at h
    · rename_i checked hcheck
      obtain ⟨t, ht, hlimit, hcalls⟩ := run_failedLogin hcheck
      rw [← hlimit] at h
      obtain ⟨u, hu, hlimit, hlength⟩ := run_failedLogins attempts h
      rw [hcalls] at hu hlength
      refine ⟨u, ?_, hlimit, hlength.trans (by rw [List.length_cons]; omega)⟩
      rw [failedLogins, Machine.run_append, ht]
      exact hu
    · cases h

/-- A hundred failures lock all clients out for a minute. -/
def otherTime (i : ℕ) : ℕ := (945 + (i + 1) / 100 * 60) * nanosPerSecond

def crowd (n : ℕ) : List (IpAddr × ℕ) :=
  (List.range n).map fun i => (numberedAddr i, otherTime i)

/-- The client has failed 11 times, the last of it after 945 s, and the others once. -/
def crowdLimit (n : ℕ) : RateLimitState where
  clients :=
    (guessingClient, ⟨11, some (1845 * nanosPerSecond), 945 * nanosPerSecond⟩) ::
      (List.range n).map fun i => (numberedAddr i, ⟨1, none, otherTime i⟩)
  globalFailures := (n + 1) % 100
  globalWindowStartedAt := some ((945 + ((n + 1) / 100 - 1) * 60) * nanosPerSecond)
  globalLockedUntil := if (n + 1) % 100 = 0 then some (otherTime n) else none

theorem guessingClient_ne (i : ℕ) : numberedAddr i ≠ guessingClient :=
  numberedAddr_ne (by decide) i

theorem numberedAddr_notMem {n : ℕ} (hn : n < 65536) :
    numberedAddr n ∉ (crowdLimit n).clients.map Prod.fst := by
  intro h
  rcases List.mem_cons.1 h with h | h
  · exact guessingClient_ne n h
  · obtain ⟨_, hentry, hname⟩ := List.mem_map.1 h
    obtain ⟨i, hi, rfl⟩ := List.mem_map.1 hentry
    have hi := List.mem_range.1 hi
    exact absurd (numberedAddr_inj (hi.trans hn) hn hname) hi.ne

theorem checkLockout_crowd {n : ℕ} (hn : n < 65536) :
    checkLockout (numberedAddr n) (otherTime n) (crowdLimit n) =
      (.ok (), { crowdLimit n with globalLockedUntil := none }) := by
  have hglobal : (crowdLimit n).globalLockedUntil.filter (otherTime n < ·) = none := by
    rw [crowdLimit]
    dsimp only
    split_ifs
    · rw [Option.filter_some, if_neg (by simp)]
    · rfl
  have hclient : (crowdLimit n).clients.find? (·.1 = numberedAddr n) = none :=
    List.find?_eq_none.2 fun entry hentry hname =>
      numberedAddr_notMem hn (List.mem_map.2 ⟨entry, hentry, of_decide_eq_true hname⟩)
  rw [checkLockout, hglobal]
  dsimp only
  rw [hclient]
  rfl

theorem recordGlobalFailure_crowd (n : ℕ) :
    (recordGlobalFailure (otherTime n) { crowdLimit n with globalLockedUntil := none }).2 =
      { crowdLimit (n + 1) with clients := (crowdLimit n).clients } := by
  have hwindow : startsWindow (otherTime n) { crowdLimit n with globalLockedUntil := none } =
      false := by
    rw [startsWindow, crowdLimit, Option.all_some, decide_eq_false_iff_not, otherTime]
    unfold globalFailureWindow nanosPerSecond
    omega
  have hcount : saturatingSucc32 ((n + 1) % 100) = (n + 1) % 100 + 1 :=
    saturatingSucc32_of_lt (Nat.mod_lt _ (by decide))
  rw [recordGlobalFailure, hwindow, if_neg Bool.false_ne_true]
  by_cases hfull : (n + 1) % 100 = 99
  · have hlimit : globalFailureLimit ≤ saturatingSucc32 ((n + 1) % 100) := by
      rw [hcount, hfull]
      decide
    have hnext : (n + 1 + 1) % 100 = 0 := by omega
    have hstart : (n + 1 + 1) / 100 - 1 = (n + 1) / 100 := by omega
    have hend : otherTime n + globalLockout = otherTime (n + 1) := by
      unfold otherTime globalLockout nanosPerSecond
      omega
    refine (congrArg Prod.snd (if_pos hlimit)).trans ?_
    dsimp only [crowdLimit]
    rw [hend, if_pos hnext, hnext, hstart]
    rfl
  · have hlimit : ¬ globalFailureLimit ≤ saturatingSucc32 ((n + 1) % 100) := by
      rw [hcount, globalFailureLimit]
      omega
    have hnext : (n + 1 + 1) % 100 = (n + 1) % 100 + 1 := by omega
    have hstart : (n + 1 + 1) / 100 = (n + 1) / 100 := by omega
    refine (congrArg Prod.snd (if_neg hlimit)).trans ?_
    dsimp only [crowdLimit]
    rw [hcount, hnext, hstart, if_neg (Nat.succ_ne_zero _)]

theorem recordFailure_eq (client : IpAddr) (now : ℕ) (limit : RateLimitState) :
    (recordFailure client now limit).2 =
      { (recordGlobalFailure now limit).2 with
        clients := (recordFailure client now limit).2.clients } := rfl

theorem retained_crowd {n : ℕ} (hn : n ≤ maxTrackedClients) :
    retained (otherTime n) (crowdLimit n).clients = (crowdLimit n).clients := by
  have htime : otherTime n < 1845 * nanosPerSecond := by
    refine Nat.mul_lt_mul_of_pos_right ?_ (by decide)
    unfold maxTrackedClients at hn
    omega
  have hrecent : ∀ i, otherTime n - otherTime i ≤ attemptRetention := by
    intro i
    have hle : 945 * nanosPerSecond ≤ otherTime i := Nat.mul_le_mul_right _ (Nat.le_add_right _ _)
    have hretention : 1845 * nanosPerSecond - 945 * nanosPerSecond ≤ attemptRetention := by decide
    omega
  refine List.filter_eq_self.2 fun entry hentry => ?_
  rcases List.mem_cons.1 hentry with rfl | hentry
  · rw [Option.any_some, decide_eq_true htime, Bool.true_or]
  · obtain ⟨i, -, rfl⟩ := List.mem_map.1 hentry
    rw [decide_eq_true (hrecent i), Bool.or_true]

theorem length_crowd (n : ℕ) : (crowdLimit n).clients.length = n + 1 := by
  rw [crowdLimit, List.length_cons, List.length_map, List.length_range]

theorem clients_recordFailure_of_notMem {client : IpAddr} {now : ℕ} {limit : RateLimitState}
    (h : client ∉ limit.clients.map Prod.fst) :
    (recordFailure client now limit).2.clients =
      evictStaleAttempts now limit.clients ++ [(client, ⟨1, none, now⟩)] := by
  have happend : ∀ kept : List (IpAddr × ClientAttempts), client ∉ kept.map Prod.fst →
      modifyAttempts client (·.fail now) (kept ++ [(client, ⟨0, none, now⟩)]) =
        kept ++ [(client, ⟨1, none, now⟩)] := by
    intro kept hkept
    induction kept with
    | nil =>
      rw [List.nil_append, modifyAttempts, if_pos rfl]
      rfl
    | cons entry entries ih =>
      rw [List.map_cons, List.mem_cons, not_or] at hkept
      rw [List.cons_append, modifyAttempts, if_neg fun heq => hkept.1 heq.symm, ih hkept.2]
      rfl
  have hkept : client ∉ (evictStaleAttempts now limit.clients).map Prod.fst := fun hmem =>
    h (((evictStaleAttempts_sublist now limit.clients).map Prod.fst).subset hmem)
  rw [clients_recordFailure, ← happend _ hkept]
  dsimp only
  rw [if_neg]
  intro hany
  obtain ⟨entry, hentry, hname⟩ := List.any_eq_true.1 hany
  exact hkept (List.mem_map.2 ⟨entry, hentry, of_decide_eq_true hname⟩)

theorem clients_recordFailure_crowd {n : ℕ} (hn : n < 65536) :
    (recordFailure (numberedAddr n) (otherTime n)
      { crowdLimit n with globalLockedUntil := none }).2.clients =
      evictStaleAttempts (otherTime n) (crowdLimit n).clients ++
        [(numberedAddr n, ⟨1, none, otherTime n⟩)] :=
  clients_recordFailure_of_notMem (numberedAddr_notMem hn)

theorem recordFailure_crowd {n : ℕ} (hn : n < maxTrackedClients - 1) :
    (recordFailure (numberedAddr n) (otherTime n)
      { crowdLimit n with globalLockedUntil := none }).2 = crowdLimit (n + 1) := by
  have hclients := clients_recordFailure_crowd (hn.trans (by decide) : n < 65536)
  have hevict : evictStaleAttempts (otherTime n) (crowdLimit n).clients =
      (crowdLimit n).clients := by
    change ((retained _ _).drop (maxTrackedClients - 1)).foldl _ (retained _ _) = _
    rw [retained_crowd (hn.le.trans (Nat.sub_le _ _)), List.drop_eq_nil_of_le]
    · rfl
    · rw [length_crowd]
      exact hn
  have hnext : (crowdLimit (n + 1)).clients =
      (crowdLimit n).clients ++ [(numberedAddr n, ⟨1, none, otherTime n⟩)] := by
    rw [crowdLimit, crowdLimit, List.range_succ, List.map_append]
    rfl
  rw [recordFailure_eq, recordGlobalFailure_crowd, hclients, hevict, ← hnext]

theorem failAll_append (limit : RateLimitState) (first second : List (IpAddr × ℕ)) :
    failAll limit (first ++ second) =
      (failAll limit first).bind fun limit => failAll limit second := by
  induction first generalizing limit with
  | nil => rfl
  | cons attempt attempts ih =>
    obtain ⟨client, now⟩ := attempt
    rw [List.cons_append, failAll_cons, failAll_cons]
    split
    · exact ih _
    · rfl

theorem failAll_crowd : ∀ {n : ℕ}, n ≤ maxTrackedClients - 1 →
    failAll (crowdLimit 0) (crowd n) = some (crowdLimit n)
  | 0, _ => rfl
  | n + 1, hn => by
    have hmem : n < 65536 := hn.trans (by decide)
    rw [crowd, List.range_succ, List.map_append, failAll_append]
    change (failAll (crowdLimit 0) (crowd n)).bind _ = _
    rw [failAll_crowd (n.le_succ.trans hn), Option.bind_some, List.map_singleton, failAll_cons,
      checkLockout_crowd hmem]
    exact congrArg some (recordFailure_crowd hn)

theorem evictStaleAttempts_crowd {n : ℕ} (hn : n + 1 = maxTrackedClients) :
    evictStaleAttempts (otherTime n) (crowdLimit n).clients =
      (List.range n).map fun i => (numberedAddr i, ⟨1, none, otherTime i⟩) := by
  obtain ⟨round, hround⟩ : ∃ round,
      (crowdLimit n).clients.drop (maxTrackedClients - 1) = [round] := by
    refine List.length_eq_one_iff.1 ?_
    rw [List.length_drop, length_crowd, hn]
    rfl
  change ((retained _ _).drop (maxTrackedClients - 1)).foldl _ (retained _ _) = _
  rw [retained_crowd (n.le_succ.trans hn.le), hround, List.foldl_cons, List.foldl_nil,
    removeOldest_eq, crowdLimit, List.eraseP_cons_of_pos]
  refine List.all_eq_true.2 fun other hother => decide_eq_true ?_
  rcases List.mem_cons.1 hother with rfl | hother
  · exact le_rfl
  · obtain ⟨i, -, rfl⟩ := List.mem_map.1 hother
    exact Nat.mul_le_mul_right _ (Nat.le_add_right _ _)

theorem accepted_after_crowd {n : ℕ} (hn : n + 1 = maxTrackedClients) :
    ∃ limit, failAll (crowdLimit 0) (crowd (n + 1)) = some limit ∧
      (checkLockout guessingClient (otherTime n) limit).1 = .ok () := by
  have hmem : n < 65536 := by
    unfold maxTrackedClients at hn
    omega
  refine ⟨(recordFailure (numberedAddr n) (otherTime n)
    { crowdLimit n with globalLockedUntil := none }).2, ?_, ?_⟩
  · rw [crowd, List.range_succ, List.map_append, failAll_append]
    change (failAll (crowdLimit 0) (crowd n)).bind _ = _
    rw [failAll_crowd (Nat.le_sub_one_of_lt (Nat.lt_of_succ_le hn.le)), Option.bind_some,
      List.map_singleton, failAll_cons, checkLockout_crowd hmem]
    rfl
  · rw [checkLockout_eq_ok_iff]
    constructor
    · intro T hT
      rw [recordFailure_eq, recordGlobalFailure_crowd] at hT
      have hT : T ∈ (if (n + 1 + 1) % 100 = 0 then some (otherTime (n + 1)) else none) := hT
      unfold maxTrackedClients at hn
      rw [if_neg (by omega)] at hT
      cases hT
    · rw [clients_recordFailure_crowd hmem, evictStaleAttempts_crowd hn, lockOf_of_notMem]
      · exact fun T hT => nomatch hT
      · rw [List.map_append, List.mem_append, List.map_map]
        rintro (h | h)
        · obtain ⟨i, -, hi⟩ := List.mem_map.1 h
          exact guessingClient_ne i hi
        · exact guessingClient_ne n (List.mem_singleton.1 h).symm

theorem failedLogins_append (index : ℕ) (first second : List (IpAddr × ℕ)) :
    failedLogins index (first ++ second) =
      failedLogins index first ++ failedLogins (index + first.length) second := by
  induction first generalizing index with
  | nil => rfl
  | cons attempt attempts ih =>
    rw [List.cons_append, failedLogins, ih, failedLogins, List.append_assoc, List.length_cons,
      Nat.add_assoc, Nat.add_comm 1]

theorem clocks_failedLogins (index : ℕ) (attempts : List (IpAddr × ℕ)) :
    (failedLogins index attempts).filterMap LoginEvent.clock? =
      attempts.flatMap fun attempt => [attempt.2, attempt.2] := by
  induction attempts generalizing index with
  | nil => rfl
  | cons attempt attempts ih =>
    rw [failedLogins, List.filterMap_append, ih]
    rfl

theorem not_clears_failedLogins (client : IpAddr) {index : ℕ} {attempts : List (IpAddr × ℕ)}
    {event : LoginEvent} (h : event ∈ failedLogins index attempts) (s : LoginState) :
    ¬ Clears client s event := by
  induction attempts generalizing index with
  | nil => cases h
  | cons attempt attempts ih =>
    rcases List.mem_append.1 h with h | h
    · rcases h with _ | ⟨_, _ | ⟨_, _ | ⟨_, h⟩⟩⟩
      · exact not_false
      · exact not_false
      · exact not_false
      · cases h
    · exact ih h

/-- Each begins when the lock of the one before is over. -/
def guesses : List (IpAddr × ℕ) :=
  [0, 0, 0, 0, 0, 15, 45, 105, 225, 465].map fun seconds =>
    (guessingClient, seconds * nanosPerSecond)

/-- The eleventh failure has been verified, but not recorded. -/
def beforeLockout : List LoginEvent :=
  failedLogins 0 guesses ++ [.check guessingClient ('#' :: firstPassword) "wrong".toList
    (945 * nanosPerSecond), .verify 10]

theorem lockedOut_guesses : ∃ s locked,
    (loginMachine markedPassword).run (loginMachine markedPassword).init beforeLockout = some s ∧
    s.calls[10]?.map (·.client) = some guessingClient ∧
    (loginMachine markedPassword).step s (.reject 10 (945 * nanosPerSecond)) = some locked ∧
    locked.calls.length = 11 ∧ locked.limit = crowdLimit 0 ∧
    lockOf guessingClient locked.limit.clients = some (1845 * nanosPerSecond) :=
  ⟨_, _, rfl, rfl, rfl, rfl, rfl, rfl⟩

theorem otherTime_mono {i j : ℕ} (h : i ≤ j) : otherTime i ≤ otherTime j := by
  exact Nat.mul_le_mul_right _ (by omega)

theorem clocks_lockedOut (n : ℕ) :
    ((beforeLockout ++ .reject 10 (945 * nanosPerSecond) ::
      failedLogins 11 (crowd (n + 1))).filterMap LoginEvent.clock?).Pairwise (· ≤ ·) ∧
    ∀ t ∈ (beforeLockout ++ .reject 10 (945 * nanosPerSecond) ::
      failedLogins 11 (crowd (n + 1))).filterMap LoginEvent.clock?, t ≤ otherTime n := by
  have hevents : beforeLockout ++ .reject 10 (945 * nanosPerSecond) ::
      failedLogins 11 (crowd (n + 1)) =
      failedLogins 0 (guesses ++ (guessingClient, 945 * nanosPerSecond) :: crowd (n + 1)) := by
    rw [failedLogins_append, beforeLockout, List.append_assoc]
    rfl
  have hfirst : ∀ t ∈ (guesses ++ [(guessingClient, 945 * nanosPerSecond)]).map Prod.snd,
      t ≤ 945 * nanosPerSecond := by decide
  have hcrowd : ∀ i, 945 * nanosPerSecond ≤ otherTime i := fun i =>
    Nat.mul_le_mul_right _ (Nat.le_add_right _ _)
  have htimes : (guesses ++ (guessingClient, 945 * nanosPerSecond) :: crowd (n + 1)).map Prod.snd =
      (guesses ++ [(guessingClient, 945 * nanosPerSecond)]).map Prod.snd ++
        (List.range (n + 1)).map otherTime := by
    rw [List.append_cons, List.map_append, crowd, List.map_map]
    rfl
  rw [hevents, clocks_failedLogins]
  have hsorted : ((guesses ++ (guessingClient, 945 * nanosPerSecond) :: crowd (n + 1)).map
      Prod.snd).Pairwise (· ≤ ·) := by
    rw [htimes]
    refine List.pairwise_append.2 ⟨by decide, ?_, ?_⟩
    · exact List.pairwise_map.2 (List.pairwise_lt_range.imp fun h => otherTime_mono h.le)
    · intro t ht t' ht'
      obtain ⟨i, -, rfl⟩ := List.mem_map.1 ht'
      exact (hfirst t ht).trans (hcrowd i)
  constructor
  · refine List.pairwise_flatMap.2 ⟨fun attempt _ => ?_, (List.pairwise_map.1 hsorted).imp ?_⟩
    · exact List.pairwise_pair.2 le_rfl
    · intro first second hle t ht t' ht'
      simp only [List.mem_cons, List.not_mem_nil, or_false, or_self] at ht ht'
      exact ht ▸ ht' ▸ hle
  · intro t ht
    obtain ⟨attempt, hattempt, ht⟩ := List.mem_flatMap.1 ht
    simp only [List.mem_cons, List.not_mem_nil, or_false, or_self] at ht
    have hmem := List.mem_map_of_mem (f := Prod.snd) hattempt
    rw [htimes, ← ht] at hmem
    rcases List.mem_append.1 hmem with hmem | hmem
    · exact (hfirst t hmem).trans (hcrowd n)
    · obtain ⟨i, hi, rfl⟩ := List.mem_map.1 hmem
      exact otherTime_mono (Nat.le_of_lt_succ (List.mem_range.1 hi))

/-- The checks of another login do not crowd the client out, and neither does its failure. -/
theorem guarded_failedLogin {s : LoginState} {client : IpAddr} {now : ℕ} {limit : RateLimitState}
    (h : checkLockout client now s.limit = (.ok (), limit))
    (hroom : limit.clients.length < maxTrackedClients) :
    (loginMachine markedPassword).Guarded
      (fun s event => ¬ Clears guessingClient s event ∧ ¬ CrowdsOutAt guessingClient s event) s
      (failedLogin s.calls.length client now) := by
  obtain ⟨u, hu, -, -⟩ := run_failedLogin h
  obtain ⟨s₁, h₁, hu⟩ := (Machine.run_cons_eq_some _).1 hu
  obtain ⟨s₂, h₂, hu⟩ := (Machine.run_cons_eq_some _).1 hu
  obtain ⟨s₃, h₃, -⟩ := (Machine.run_cons_eq_some _).1 hu
  refine ⟨⟨not_false, not_false⟩, s₁, h₁, ⟨not_false, not_false⟩, s₂, h₂, ⟨not_false, ?_⟩, s₃, h₃,
    trivial⟩
  have hchecked : s₁.limit = limit := by
    have h₁ : s.step markedPassword
        (.check client ('#' :: firstPassword) "wrong".toList now) = some s₁ := h₁
    rw [LoginState.step, h] at h₁
    exact congrArg LoginState.limit (Option.some.inj h₁).symm
  have hverified : s₂.limit = s₁.limit := by
    have hmove : LimitMove s₁ (.verify s.calls.length) s₂.limit := limit_step h₂
    generalize s₂.limit = limit at hmove
    cases hmove
    rfl
  rintro ⟨hfull, -⟩
  rw [hverified, hchecked] at hfull
  exact absurd (hfull.trans (List.length_filter_le _ _)) (not_le.2 hroom)

/-- One other failure. -/
theorem lockout_lasts_sample : ∃ s locked u : LoginState,
    lockOf guessingClient locked.limit.clients = some (1845 * nanosPerSecond) ∧
    (loginMachine markedPassword).step s (.reject 10 (945 * nanosPerSecond)) = some locked ∧
    (loginMachine markedPassword).run locked (failedLogins 11 (crowd 1)) = some u ∧
    ∃ seconds, (checkLockout guessingClient (1844 * nanosPerSecond) u.limit).1 =
      .error (.locked seconds) := by
  obtain ⟨s, locked, hs, hcall, hlocks, hcalls, hlimit, hlock⟩ := lockedOut_guesses
  have hfails : failAll locked.limit (crowd 1) = some (crowdLimit 1) := by
    rw [hlimit]
    exact failAll_crowd (by decide)
  obtain ⟨u, hu, -, -⟩ := run_failedLogins (crowd 1) hfails
  have hcheck := checkLockout_crowd (n := 0) (by decide)
  rw [← hlimit] at hcheck
  have hguarded := guarded_failedLogin hcheck (hlimit ▸ by decide)
  rw [hcalls] at hu hguarded
  obtain ⟨hsorted, hpast⟩ := clocks_lockedOut 0
  exact ⟨s, locked, u, hlock, hlocks, hu, lockout_lasts markedPassword hs hcall hlocks hlock hu
    hguarded hsorted (fun t ht => (hpast t ht).trans (by decide)) (by decide)⟩

/-- **A client that is crowded out is let through**: 300 s before the end of its lock, after
    failures of 1024 other clients. -/
theorem crowdedOut_accepted : ¬ LockoutsLast markedPassword fun _ _ _ => True := by
  intro hlast
  obtain ⟨n, hn⟩ : ∃ n, n + 1 = maxTrackedClients := ⟨1023, rfl⟩
  obtain ⟨s, locked, hs, hcall, hlocks, hcalls, hlimit, hlock⟩ := lockedOut_guesses
  obtain ⟨limit, hfails, haccepted⟩ := accepted_after_crowd hn
  rw [← hlimit] at hfails
  obtain ⟨u, hu, rfl, -⟩ := run_failedLogins (crowd (n + 1)) hfails
  rw [hcalls] at hu
  obtain ⟨hsorted, hpast⟩ := clocks_lockedOut n
  have hearly : otherTime n < 1845 * nanosPerSecond := by
    refine Nat.mul_lt_mul_of_pos_right ?_ (by decide)
    unfold maxTrackedClients at hn
    omega
  have hclears : ∀ event ∈ failedLogins 11 (crowd (n + 1)), ∀ s,
      ¬ Clears guessingClient s event ∧ True := fun event hevent s =>
    ⟨not_clears_failedLogins guessingClient hevent s, trivial⟩
  obtain ⟨seconds, hrejected⟩ :=
    hlast hs hcall hlocks hlock hu (.of_run _ hclears hu) hsorted hpast hearly
  rw [hrejected] at haccepted
  cases haccepted

end DnsBlackhole.Admin
