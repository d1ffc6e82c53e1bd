/-
  The limits on failed logins (`web_auth.rs`).

  A login checks whether its client is locked out, verifies its password, and
  then records the failure or clears the failures of its client.  Each of the
  three takes the lock of the limits for itself, and between them other calls
  work; an `Instant` is read before the lock, so it may be any.

  A client is locked out at `lockoutAfterFailures` recorded failures, and all are
  at `globalFailureLimit` in one window.  Until then a call that has verified and
  not recorded yet does not count: the verifications stay below the limit but for
  such calls (`loginLimits_inv`), and exceed it by them (`overlappingLogins_exceed`).
-/
import DnsBlackhole.Admin.AuthRuns
import DnsBlackhole.Ip
import DnsBlackhole.Lib.Threads

namespace DnsBlackhole.Admin
open Lib (Machine)

def nanosPerSecond : ℕ := 1000000000

def lockoutAfterFailures : ℕ := 5
def lockoutBase : ℕ := 15 * nanosPerSecond
def lockoutMax : ℕ := 15 * 60 * nanosPerSecond
def maxTrackedClients : ℕ := 1024
def attemptRetention : ℕ := 3600 * nanosPerSecond
def globalFailureWindow : ℕ := 300 * nanosPerSecond
def globalFailureLimit : ℕ := 100
def globalLockout : ℕ := 60 * nanosPerSecond

/-! ## The limits -/

structure ClientAttempts where
  failures : ℕ
  lockedUntil : Option ℕ
  lastFailureAt : ℕ
  deriving DecidableEq

structure RateLimitState where
  clients : List (IpAddr × ClientAttempts) := []
  globalFailures : ℕ := 0
  globalWindowStartedAt : Option ℕ := none
  globalLockedUntil : Option ℕ := none
  deriving DecidableEq

/-- `u32::saturating_add(1)` -/
def saturatingSucc32 (n : ℕ) : ℕ := min (n + 1) 4294967295

theorem saturatingSucc32_of_lt {n limit : ℕ} (h : n < limit)
    (hlimit : limit ≤ 4294967295 := by decide) : saturatingSucc32 n = n + 1 :=
  min_eq_left (h.trans_le hlimit)

def asSecs (nanos : ℕ) : UInt64 := .ofNat (nanos / nanosPerSecond)

def remainingSeconds (deadline now : ℕ) : UInt64 := max (asSecs (deadline - now)) 1

section
variable (client : IpAddr) (now : ℕ) (limit : RateLimitState)

def checkLockout : Except AuthFailure Unit × RateLimitState :=
  match limit.globalLockedUntil.filter (now < ·) with
  | some deadline => (.error (.locked (remainingSeconds deadline now)), limit)
  | none =>
    let limit := { limit with globalLockedUntil := none }
    match (limit.clients.find? (·.1 = client)).bind fun entry =>
      entry.2.lockedUntil.filter (now < ·) with
    | some deadline => (.error (.locked (remainingSeconds deadline now)), limit)
    | none => (.ok (), limit)

/-- The window is over, or there was none. -/
def startsWindow : Bool :=
  limit.globalWindowStartedAt.all fun started => globalFailureWindow < now - started

/-- The failures of all clients. -/
def recordGlobalFailure : Option UInt64 × RateLimitState :=
  let limit :=
    if startsWindow now limit then
      { limit with globalWindowStartedAt := some now, globalFailures := 1 }
    else { limit with globalFailures := saturatingSucc32 limit.globalFailures }
  if globalFailureLimit ≤ limit.globalFailures then
    (some (asSecs globalLockout),
      { limit with
        globalLockedUntil := some (now + globalLockout)
        globalFailures := 0
        globalWindowStartedAt := some now })
  else (none, limit)

/-- The first of the entries with the oldest failure. -/
def removeOldest (clients : List (IpAddr × ClientAttempts)) : List (IpAddr × ClientAttempts) :=
  clients.eraseP fun entry =>
    clients.all fun other => entry.2.lastFailureAt ≤ other.2.lastFailureAt

/-- A round of the loop removes one entry, so there is one for each entry that is too many. -/
def evictStaleAttempts (clients : List (IpAddr × ClientAttempts)) :
    List (IpAddr × ClientAttempts) :=
  let clients := clients.filter fun entry =>
    entry.2.lockedUntil.any (now < ·) || now - entry.2.lastFailureAt ≤ attemptRetention
  (clients.drop (maxTrackedClients - 1)).foldl (fun kept _ => removeOldest kept) clients

/-- Change the attempts of the client. -/
def modifyAttempts (change : ClientAttempts → ClientAttempts) :
    List (IpAddr × ClientAttempts) → List (IpAddr × ClientAttempts)
  | [] => []
  | entry :: entries =>
    if entry.1 = client then (entry.1, change entry.2) :: entries
    else entry :: modifyAttempts change entries

def lockFor (failures : ℕ) : ℕ :=
  min (lockoutBase * 2 ^ min (failures - lockoutAfterFailures) 16) lockoutMax

def ClientAttempts.fail (attempts : ClientAttempts) : ClientAttempts :=
  let failures := saturatingSucc32 attempts.failures
  { failures
    lockedUntil :=
      if lockoutAfterFailures ≤ failures then some (now + lockFor failures)
      else attempts.lockedUntil
    lastFailureAt := now }

def failuresOf (clients : List (IpAddr × ClientAttempts)) : ℕ :=
  ((clients.find? (·.1 = client)).map (·.2.failures)).getD 0

def recordFailure : Option UInt64 × RateLimitState :=
  let (lockedFor, limit) := recordGlobalFailure now limit
  let clients := evictStaleAttempts now limit.clients
  let clients :=
    if clients.any (·.1 = client) then clients else clients ++ [(client, ⟨0, none, now⟩)]
  let clients := modifyAttempts client (·.fail now) clients
  let failures := failuresOf client clients
  (if lockoutAfterFailures ≤ failures then some (asSecs (lockFor failures)) else lockedFor,
    { limit with clients })

def clearFailures : RateLimitState :=
  { limit with clients := limit.clients.filter (·.1 ≠ client) }

end

/-! ## The calls -/

/-- What a login has still to do. -/
inductive LoginPhase
  | verify (stored password : Text)
  /-- The login fails; the flag says that its password was verified. -/
  | reject (verified : Bool)
  | clear
  | done
  deriving DecidableEq

structure LoginCall where
  client : IpAddr
  phase : LoginPhase
  deriving DecidableEq

/-- The call has verified its password, and nothing is recorded of it yet. -/
def LoginCall.unrecorded (call : LoginCall) : Bool :=
  match call.phase with
  | .reject verified => verified
  | .clear => true
  | .verify _ _ | .done => false

/-- The limits and the calls, and what the program does not remember. -/
structure LoginState where
  limit : RateLimitState := {}
  calls : List LoginCall := []
  /-- The clients that have been locked out. -/
  lockedOut : List IpAddr := []
  /-- The verifications for a client. -/
  performed : IpAddr → ℕ := fun _ => 0
  /-- Those before the failures of the client were last forgotten. -/
  forgotten : IpAddr → ℕ := fun _ => 0
  /-- The verifications for all clients in the window, and the successful ones of them. -/
  windowPerformed : ℕ := 0
  windowSucceeded : ℕ := 0

inductive LoginEvent
  /-- A login has read the hash. -/
  | check (client : IpAddr) (stored password : Text) (now : ℕ)
  | verify (call : ℕ)
  | reject (call now : ℕ)
  | clear (call : ℕ)

namespace LoginState
variable (verifyPassword : Text → Text → Except Text Bool) (s : LoginState)

def goTo (index : ℕ) (call : LoginCall) : LoginState :=
  { s with calls := s.calls.set index call }

/-- A password was verified. -/
def perform (client : IpAddr) : LoginState :=
  { s with
    performed := fun c => s.performed c + if c = client then 1 else 0
    windowPerformed := s.windowPerformed + 1 }

/-- The failures of some clients are forgotten. -/
def forget (p : IpAddr → Prop) [DecidablePred p] : LoginState :=
  { s with forgotten := fun c => if p c then s.performed c else s.forgotten c }

/-- A failure is recorded. -/
def record (client : IpAddr) (now : ℕ) : LoginState :=
  let kept := evictStaleAttempts now s.limit.clients
  let forgets := s.forget fun c => c ∈ s.limit.clients.map Prod.fst ∧ c ∉ kept.map Prod.fst
  let limit := (recordFailure client now s.limit).2
  let restarts := startsWindow now s.limit || (recordGlobalFailure now s.limit).1.isSome
  { forgets with
    limit
    lockedOut :=
      if lockoutAfterFailures ≤ failuresOf client limit.clients then client :: s.lockedOut
      else s.lockedOut
    windowPerformed := if restarts then 0 else s.windowPerformed
    windowSucceeded := if restarts then 0 else s.windowSucceeded }

def step : LoginEvent → Option LoginState
  | .check client stored password now =>
    let (result, limit) := checkLockout client now s.limit
    match result with
    | .ok _ => some { s with limit, calls := s.calls ++ [⟨client, .verify stored password⟩] }
    | .error _ => some { s with limit }
  | .verify index =>
    match s.calls[index]? with
    | some ⟨client, .verify stored password⟩ =>
      if maxPasswordBytes < password.len ∨ password.any isControl then
        some (s.goTo index ⟨client, .reject false⟩)
      else match verifyPassword stored password with
        | .ok true => some ((s.perform client).goTo index ⟨client, .clear⟩)
        | .ok false => some ((s.perform client).goTo index ⟨client, .reject true⟩)
        | .error _ => some (s.goTo index ⟨client, .done⟩)
    | _ => none
  | .reject index now =>
    match s.calls[index]? with
    | some ⟨client, .reject _⟩ => some ((s.record client now).goTo index ⟨client, .done⟩)
    | _ => none
  | .clear index =>
    match s.calls[index]? with
    | some ⟨client, .clear⟩ =>
      some { (s.forget (· = client)).goTo index ⟨client, .done⟩ with
        limit := clearFailures client s.limit
        windowSucceeded := s.windowSucceeded + 1 }
    | _ => none

end LoginState

def loginMachine (verifyPassword : Text → Text → Except Text Bool) :
    Machine LoginState LoginEvent where
  init := {}
  step := LoginState.step verifyPassword

/-! ## What a failure does to the attempts -/

section
variable {client c : IpAddr} {now : ℕ} {clients kept : List (IpAddr × ClientAttempts)}

theorem failuresOf_cons (c : IpAddr) (entry : IpAddr × ClientAttempts)
    (entries : List (IpAddr × ClientAttempts)) :
    failuresOf c (entry :: entries) =
      if entry.1 = c then entry.2.failures else failuresOf c entries := by
  unfold failuresOf
  rw [List.find?_cons]
  by_cases hc : entry.1 = c <;> simp [hc]

theorem failuresOf_of_notMem (h : c ∉ clients.map Prod.fst) : failuresOf c clients = 0 := by
  induction clients with
  | nil => rfl
  | cons entry entries ih =>
    rw [List.map_cons, List.mem_cons, not_or] at h
    rw [failuresOf_cons, if_neg fun heq => h.1 heq.symm, ih h.2]

theorem failuresOf_of_mem (hn : (clients.map Prod.fst).Nodup) {entry : IpAddr × ClientAttempts}
    (h : entry ∈ clients) : failuresOf entry.1 clients = entry.2.failures := by
  induction clients with
  | nil => cases h
  | cons first entries ih =>
    rw [List.map_cons, List.nodup_cons] at hn
    rw [failuresOf_cons]
    rcases List.mem_cons.1 h with rfl | h
    · exact if_pos rfl
    · have hne : first.1 ≠ entry.1 := by
        intro heq
        rw [heq] at hn
        exact hn.1 (List.mem_map_of_mem h)
      rw [if_neg hne, ih hn.2 h]

theorem failuresOf_of_sublist (hn : (clients.map Prod.fst).Nodup) (hs : kept.Sublist clients)
    (hc : c ∈ kept.map Prod.fst) : failuresOf c kept = failuresOf c clients := by
  obtain ⟨entry, hentry, rfl⟩ := List.mem_map.1 hc
  rw [failuresOf_of_mem (hn.sublist (hs.map _)) hentry, failuresOf_of_mem hn (hs.subset hentry)]

theorem foldl_removeOldest_sublist (rounds kept : List (IpAddr × ClientAttempts)) :
    (rounds.foldl (fun kept _ => removeOldest kept) kept).Sublist kept := by
  induction rounds generalizing kept with
  | nil => exact .refl kept
  | cons _ rounds ih => exact (ih _).trans List.eraseP_sublist

theorem evictStaleAttempts_sublist (now : ℕ) (clients : List (IpAddr × ClientAttempts)) :
    (evictStaleAttempts now clients).Sublist clients :=
  (foldl_removeOldest_sublist _ _).trans List.filter_sublist

theorem failuresOf_evict_le (hn : (clients.map Prod.fst).Nodup) :
    failuresOf c (evictStaleAttempts now clients) ≤ failuresOf c clients := by
  by_cases hc : c ∈ (evictStaleAttempts now clients).map Prod.fst
  · exact (failuresOf_of_sublist hn (evictStaleAttempts_sublist now clients) hc).le
  · rw [failuresOf_of_notMem hc]
    exact Nat.zero_le _

theorem failuresOf_evict (hn : (clients.map Prod.fst).Nodup)
    (hc : ¬ (c ∈ clients.map Prod.fst ∧ c ∉ (evictStaleAttempts now clients).map Prod.fst)) :
    failuresOf c (evictStaleAttempts now clients) = failuresOf c clients := by
  by_cases hkept : c ∈ (evictStaleAttempts now clients).map Prod.fst
  · exact failuresOf_of_sublist hn (evictStaleAttempts_sublist now clients) hkept
  · rw [failuresOf_of_notMem hkept, failuresOf_of_notMem fun hmem => hc ⟨hmem, hkept⟩]

theorem map_fst_modifyAttempts (change : ClientAttempts → ClientAttempts) :
    (modifyAttempts client change clients).map Prod.fst = clients.map Prod.fst := by
  induction clients with
  | nil => rfl
  | cons entry entries ih =>
    rw [modifyAttempts]
    split_ifs
    · rfl
    · rw [List.map_cons, List.map_cons, ih]

theorem failuresOf_modifyAttempts {change : ClientAttempts → ClientAttempts} {f : ℕ → ℕ}
    (hchange : ∀ attempts, (change attempts).failures = f attempts.failures)
    (hclient : client ∈ clients.map Prod.fst) :
    failuresOf c (modifyAttempts client change clients) =
      if c = client then f (failuresOf c clients) else failuresOf c clients := by
  induction clients with
  | nil => cases hclient
  | cons entry entries ih =>
    rw [modifyAttempts, failuresOf_cons]
    by_cases hentry : entry.1 = client
    · rw [if_pos hentry, failuresOf_cons, hchange, hentry]
      by_cases hc : client = c
      · rw [if_pos hc, if_pos hc.symm, if_pos hc]
      · rw [if_neg hc, if_neg fun heq => hc heq.symm, if_neg hc]
    · have hrest := (List.mem_cons.1 hclient).resolve_left fun heq => hentry heq.symm
      rw [if_neg hentry, failuresOf_cons, ih hrest]
      by_cases hc : entry.1 = c
      · rw [if_pos hc, if_pos hc, if_neg fun heq => hentry (hc.trans heq)]
      · rw [if_neg hc, if_neg hc]

theorem failuresOf_append_zero {attempts : ClientAttempts} (h : attempts.failures = 0) :
    failuresOf c (clients ++ [(client, attempts)]) = failuresOf c clients := by
  induction clients with
  | nil =>
    rw [List.nil_append, failuresOf_cons]
    split_ifs
    · exact h
    · rfl
  | cons entry entries ih => rw [List.cons_append, failuresOf_cons, failuresOf_cons, ih]

theorem failuresOf_filter_ne (hc : c ≠ client) :
    failuresOf c (clients.filter (·.1 ≠ client)) = failuresOf c clients := by
  induction clients with
  | nil => rfl
  | cons entry entries ih =>
    rw [List.filter_cons, failuresOf_cons]
    by_cases hentry : entry.1 = client
    · rw [if_neg (by simpa using hentry), ih, if_neg fun heq => hc (heq.symm.trans hentry)]
    · rw [if_pos (by simpa using hentry), failuresOf_cons, ih]

end

section
variable (client c : IpAddr) (now : ℕ) (limit : RateLimitState)

theorem clients_recordGlobalFailure : (recordGlobalFailure now limit).2.clients = limit.clients := by
  unfold recordGlobalFailure
  dsimp only
  split_ifs <;> rfl

theorem clients_recordFailure :
    (recordFailure client now limit).2.clients =
      modifyAttempts client (·.fail now)
        (let kept := evictStaleAttempts now limit.clients
        if kept.any (·.1 = client) then kept else kept ++ [(client, ⟨0, none, now⟩)]) := by
  rw [← clients_recordGlobalFailure now limit, recordFailure]

theorem nodup_recordFailure (hn : (limit.clients.map Prod.fst).Nodup) :
    ((recordFailure client now limit).2.clients.map Prod.fst).Nodup := by
  rw [clients_recordFailure, map_fst_modifyAttempts]
  have hkept := hn.sublist ((evictStaleAttempts_sublist now limit.clients).map Prod.fst)
  dsimp only
  split_ifs with hany
  · exact hkept
  · rw [List.map_append, List.map_singleton]
    refine List.nodup_append.2 ⟨hkept, List.nodup_singleton _, ?_⟩
    rintro ip hip other hother rfl
    obtain ⟨entry, hentry, hname⟩ := List.mem_map.1 hip
    refine hany (List.any_eq_true.2 ⟨entry, hentry, decide_eq_true ?_⟩)
    rw [hname, List.mem_singleton.1 hother]

theorem failuresOf_recordFailure :
    failuresOf c (recordFailure client now limit).2.clients =
      let failures := failuresOf c (evictStaleAttempts now limit.clients)
      if c = client then saturatingSucc32 failures else failures := by
  rw [clients_recordFailure,
    failuresOf_modifyAttempts (f := saturatingSucc32) (fun attempts => rfl) ?_]
  · dsimp only
    split_ifs with hany
    · rfl
    · rw [failuresOf_append_zero rfl]
    · rfl
    · rw [failuresOf_append_zero rfl]
  · dsimp only
    split_ifs with hany
    · obtain ⟨entry, hentry, hname⟩ := List.any_eq_true.1 hany
      exact List.mem_map.2 ⟨entry, hentry, of_decide_eq_true hname⟩
    · rw [List.map_append]
      exact List.mem_append_right _ List.mem_cons_self

theorem globalFailures_recordGlobalFailure :
    (recordGlobalFailure now limit).2.globalFailures < globalFailureLimit := by
  rw [recordGlobalFailure]
  generalize (if startsWindow now limit then _ else _ : RateLimitState) = counted
  split_ifs with hfull
  · exact Nat.zero_lt_succ _
  · exact not_le.1 hfull

theorem globalFailures_of_same_window (h : (recordGlobalFailure now limit).1 = none)
    (hw : startsWindow now limit = false) :
    (recordGlobalFailure now limit).2.globalFailures = saturatingSucc32 limit.globalFailures := by
  rw [recordGlobalFailure, hw] at h ⊢
  rw [if_neg Bool.false_ne_true] at h ⊢
  split_ifs at h ⊢
  rfl

end

/-! ## What holds in every run -/

namespace LoginState
variable {verifyPassword : Text → Text → Except Text Bool} {s s' : LoginState}

/-- The calls of the client that have verified, and of which nothing is recorded yet. -/
def unrecorded (s : LoginState) (client : IpAddr) : ℕ :=
  s.calls.countP fun call => call.unrecorded && call.client = client

/-- Those of all clients. -/
def allUnrecorded (s : LoginState) : ℕ := s.calls.countP (·.unrecorded)

/-- Holds in every state of a run. -/
structure Inv (s : LoginState) : Prop where
  nodup : (s.limit.clients.map Prod.fst).Nodup
  failures_lt : ∀ client ∉ s.lockedOut, failuresOf client s.limit.clients < lockoutAfterFailures
  performed_le : ∀ client ∉ s.lockedOut, s.performed client ≤
    failuresOf client s.limit.clients + s.forgotten client + s.unrecorded client
  globalFailures_lt : s.limit.globalFailures < globalFailureLimit
  window_le : s.windowPerformed ≤
    s.limit.globalFailures + s.windowSucceeded + s.allUnrecorded

theorem clients_checkLockout (client : IpAddr) (now : ℕ) (limit : RateLimitState) :
    (checkLockout client now limit).2.clients = limit.clients ∧
      (checkLockout client now limit).2.globalFailures = limit.globalFailures := by
  unfold checkLockout
  split
  · exact ⟨rfl, rfl⟩
  · dsimp only
    split <;> exact ⟨rfl, rfl⟩

theorem unrecorded_goTo {index : ℕ} {old : LoginCall} (hget : s.calls[index]? = some old)
    (new : LoginCall) (client : IpAddr) :
    (s.goTo index new).unrecorded client +
        (if old.unrecorded && old.client = client then 1 else 0) =
      s.unrecorded client + if new.unrecorded && new.client = client then 1 else 0 :=
  Lib.countP_set_add hget _

theorem allUnrecorded_goTo {index : ℕ} {old : LoginCall} (hget : s.calls[index]? = some old)
    (new : LoginCall) :
    (s.goTo index new).allUnrecorded + (if old.unrecorded then 1 else 0) =
      s.allUnrecorded + if new.unrecorded then 1 else 0 :=
  Lib.countP_set_add hget _

theorem unrecorded_le_goTo {index : ℕ} {old : LoginCall} (hget : s.calls[index]? = some old)
    (new : LoginCall) (client : IpAddr) :
    s.unrecorded client ≤
      (s.goTo index new).unrecorded client + if client = old.client then 1 else 0 := by
  have hcalls := unrecorded_goTo hget new client
  by_cases hclient : client = old.client
  · rw [if_pos hclient]
    split_ifs at hcalls <;> omega
  · rw [decide_eq_false fun heq => hclient heq.symm, Bool.and_false,
      if_neg Bool.false_ne_true] at hcalls
    omega

theorem allUnrecorded_le_goTo {index : ℕ} {old : LoginCall} (hget : s.calls[index]? = some old)
    (new : LoginCall) : s.allUnrecorded ≤ (s.goTo index new).allUnrecorded + 1 := by
  have hcalls := allUnrecorded_goTo hget new
  split_ifs at hcalls <;> omega

theorem Inv.goTo (h : s.Inv) {index : ℕ} {old new : LoginCall}
    (hget : s.calls[index]? = some old) (hold : old.unrecorded = false)
    (hnew : new.unrecorded = false) : (s.goTo index new).Inv where
  nodup := h.nodup
  failures_lt := h.failures_lt
  performed_le := by
    intro client hclient
    have hcalls := unrecorded_goTo hget new client
    rw [hold, hnew] at hcalls
    exact (h.performed_le client hclient).trans (Nat.add_le_add_left hcalls.ge _)
  globalFailures_lt := h.globalFailures_lt
  window_le := by
    have hcalls := allUnrecorded_goTo hget new
    rw [hold, hnew] at hcalls
    exact h.window_le.trans (Nat.add_le_add_left hcalls.ge _)

theorem Inv.checked (h : s.Inv) (client : IpAddr) (stored password : Text) (now : ℕ) :
    ({ s with limit := (checkLockout client now s.limit).2 } : LoginState).Inv ∧
    ({ s with
        limit := (checkLockout client now s.limit).2
        calls := s.calls ++ [⟨client, .verify stored password⟩] } : LoginState).Inv := by
  obtain ⟨hclients, hfailures⟩ := clients_checkLockout client now s.limit
  have hrefused : ({ s with limit := (checkLockout client now s.limit).2 } : LoginState).Inv :=
    { nodup := hclients ▸ h.nodup
      failures_lt := hclients ▸ h.failures_lt
      performed_le := hclients ▸ h.performed_le
      globalFailures_lt := hfailures ▸ h.globalFailures_lt
      window_le := hfailures ▸ h.window_le }
  have hcalls : ∀ p : LoginCall → Bool, p ⟨client, .verify stored password⟩ = false →
      (s.calls ++ [(⟨client, .verify stored password⟩ : LoginCall)]).countP p =
        s.calls.countP p := by
    intro p hp
    rw [List.countP_append, List.countP_singleton, hp]
    rfl
  refine ⟨hrefused, ?_⟩
  exact
    { nodup := hrefused.nodup
      failures_lt := hrefused.failures_lt
      performed_le := fun c hc => by
        rw [unrecorded, hcalls _ rfl]
        exact hrefused.performed_le c hc
      globalFailures_lt := hrefused.globalFailures_lt
      window_le := by
        rw [allUnrecorded, hcalls _ rfl]
        exact hrefused.window_le }

theorem Inv.performed (h : s.Inv) {index : ℕ} {old new : LoginCall}
    (hget : s.calls[index]? = some old) (hold : old.unrecorded = false)
    (hnew : new.unrecorded = true) : ((s.perform new.client).goTo index new).Inv where
  nodup := h.nodup
  failures_lt := h.failures_lt
  performed_le := by
    intro client hclient
    have hcalls := unrecorded_goTo (s := s.perform new.client) hget new client
    rw [hold, hnew, Bool.true_and, Bool.false_and, if_neg Bool.false_ne_true] at hcalls
    have hle := h.performed_le client hclient
    change s.performed client + (if client = new.client then 1 else 0) ≤
      failuresOf client s.limit.clients + s.forgotten client + _
    rw [Nat.add_zero] at hcalls
    rw [hcalls]
    change _ ≤ _ + (s.unrecorded client + _)
    simp only [decide_eq_true_eq, eq_comm (a := new.client)]
    omega
  globalFailures_lt := h.globalFailures_lt
  window_le := by
    have hcalls := allUnrecorded_goTo (s := s.perform new.client) hget new
    rw [hold, hnew] at hcalls
    have hle := h.window_le
    change s.windowPerformed + 1 ≤ s.limit.globalFailures + s.windowSucceeded + _
    change _ + 0 = s.allUnrecorded + 1 at hcalls
    omega

theorem Inv.recorded (h : s.Inv) {index : ℕ} {client : IpAddr} {verified : Bool}
    (hget : s.calls[index]? = some ⟨client, .reject verified⟩) (now : ℕ) :
    ((s.record client now).goTo index ⟨client, .done⟩).Inv := by
  have hlockedOut : ∀ c ∉ (s.record client now).lockedOut, c ∉ s.lockedOut ∧
      failuresOf c (recordFailure client now s.limit).2.clients < lockoutAfterFailures := by
    intro c hc
    have hother := failuresOf_recordFailure client c now s.limit
    have hc : c ∉ (if lockoutAfterFailures ≤ failuresOf client
        (recordFailure client now s.limit).2.clients then client :: s.lockedOut
        else s.lockedOut) := hc
    split_ifs at hc with hlocks
    · rw [List.mem_cons, not_or] at hc
      rw [if_neg hc.1] at hother
      refine ⟨hc.2, hother ▸ (failuresOf_evict_le h.nodup).trans_lt (h.failures_lt c hc.2)⟩
    · refine ⟨hc, ?_⟩
      by_cases hclient : c = client
      · rw [hclient]
        exact not_le.1 hlocks
      · rw [if_neg hclient] at hother
        exact hother ▸ (failuresOf_evict_le h.nodup).trans_lt (h.failures_lt c hc)
  constructor
  case nodup => exact nodup_recordFailure client now s.limit h.nodup
  case failures_lt => exact fun c hc => (hlockedOut c hc).2
  case performed_le =>
    intro c hc
    obtain ⟨hold, hlt⟩ := hlockedOut c hc
    have hcalls := unrecorded_le_goTo hget ⟨client, .done⟩ c
    have hle := h.performed_le c hold
    have hfailures := failuresOf_recordFailure client c now s.limit
    change s.performed c ≤ failuresOf c (recordFailure client now s.limit).2.clients +
      (if c ∈ s.limit.clients.map Prod.fst ∧
        c ∉ (evictStaleAttempts now s.limit.clients).map Prod.fst then s.performed c
      else s.forgotten c) + (s.goTo index ⟨client, .done⟩).unrecorded c
    split_ifs with hdropped
    · omega
    · rw [failuresOf_evict h.nodup hdropped] at hfailures
      dsimp only at hfailures hcalls
      rw [saturatingSucc32_of_lt (h.failures_lt c hold)] at hfailures
      rw [hfailures]
      split_ifs at hcalls ⊢ <;> omega
  case globalFailures_lt => exact globalFailures_recordGlobalFailure now s.limit
  case window_le =>
    have hcalls := allUnrecorded_le_goTo hget ⟨client, .done⟩
    have hle := h.window_le
    change (if startsWindow now s.limit || (recordGlobalFailure now s.limit).1.isSome then 0
      else s.windowPerformed) ≤ (recordGlobalFailure now s.limit).2.globalFailures +
        (if startsWindow now s.limit || (recordGlobalFailure now s.limit).1.isSome then 0
        else s.windowSucceeded) + (s.goTo index ⟨client, .done⟩).allUnrecorded
    split_ifs with hrestarts
    · exact Nat.zero_le _
    · rw [Bool.or_eq_true, not_or] at hrestarts
      rw [globalFailures_of_same_window now s.limit (Option.not_isSome_iff_eq_none.1 hrestarts.2)
        (Bool.eq_false_iff.2 hrestarts.1), saturatingSucc32_of_lt h.globalFailures_lt]
      omega

theorem Inv.cleared (h : s.Inv) {index : ℕ} {client : IpAddr}
    (hget : s.calls[index]? = some ⟨client, .clear⟩) :
    ({ (s.forget (· = client)).goTo index ⟨client, .done⟩ with
        limit := clearFailures client s.limit
        windowSucceeded := s.windowSucceeded + 1 } : LoginState).Inv := by
  have hfailures : ∀ c, failuresOf c (clearFailures client s.limit).clients =
      if c = client then 0 else failuresOf c s.limit.clients := by
    intro c
    split_ifs with hc
    · refine failuresOf_of_notMem ?_
      rintro hmem
      obtain ⟨entry, hentry, hname⟩ := List.mem_map.1 hmem
      exact of_decide_eq_true (List.mem_filter.1 hentry).2 (hname.trans hc)
    · exact failuresOf_filter_ne hc
  constructor
  case nodup => exact h.nodup.sublist (List.filter_sublist.map _)
  case failures_lt =>
    intro c hc
    change failuresOf c (clearFailures client s.limit).clients < _
    rw [hfailures]
    split_ifs
    · exact Nat.succ_pos _
    · exact h.failures_lt c hc
  case performed_le =>
    intro c hc
    have hcalls := unrecorded_le_goTo hget ⟨client, .done⟩ c
    have hle := h.performed_le c hc
    change s.performed c ≤ failuresOf c (clearFailures client s.limit).clients +
      (if c = client then s.performed c else s.forgotten c) +
        (s.goTo index ⟨client, .done⟩).unrecorded c
    rw [hfailures]
    dsimp only at hcalls
    split_ifs at hcalls ⊢ <;> omega
  case globalFailures_lt => exact h.globalFailures_lt
  case window_le =>
    have hcalls := allUnrecorded_le_goTo hget ⟨client, .done⟩
    have hle := h.window_le
    change s.windowPerformed ≤ s.limit.globalFailures + (s.windowSucceeded + 1) +
      (s.goTo index ⟨client, .done⟩).allUnrecorded
    omega

theorem Inv.step (h : s.Inv) {event : LoginEvent} (hs : s.step verifyPassword event = some s') :
    s'.Inv := by
  cases event with
  | check client stored password now =>
    obtain ⟨hrefused, haccepted⟩ := h.checked client stored password now
    rw [LoginState.step] at hs
    dsimp only at hs
    split at hs
    · cases hs
      exact haccepted
    · cases hs
      exact hrefused
  | verify index =>
    rw [LoginState.step] at hs
    split at hs
    · rename_i client stored password hget
      split_ifs at hs
      · cases hs
        exact h.goTo hget rfl rfl
      · split at hs
        · cases hs
          exact h.performed hget rfl rfl
        · cases hs
          exact h.performed hget rfl rfl
        · cases hs
          exact h.goTo hget rfl rfl
    · cases hs
  | reject index now =>
    rw [LoginState.step] at hs
    split at hs
    · rename_i client verified hget
      obtain rfl := Option.some.inj hs
      exact h.recorded hget now
    · cases hs
  | clear index =>
    rw [LoginState.step] at hs
    split at hs
    · rename_i client hget
      cases hs
      exact h.cleared hget
    · cases hs

theorem inv_of_reachable (h : (loginMachine verifyPassword).Reachable s) : s.Inv := by
  refine h.inv ?_ fun s event s' hinv hstep => hinv.step hstep
  exact
    { nodup := .nil
      failures_lt := fun _ _ => Nat.succ_pos _
      performed_le := fun _ _ => Nat.zero_le _
      globalFailures_lt := Nat.succ_pos _
      window_le := Nat.zero_le _ }

end LoginState

/-- **The limits hold but for the calls under way**: until a client is locked out for the
    first time, the verifications for it, but for those that were forgotten, exceed
    `lockoutAfterFailures - 1` by its calls that have verified and not recorded yet at most,
    and so do in one window the verifications for all clients that did not succeed. -/
theorem loginLimits_inv {verifyPassword : Text → Text → Except Text Bool} {s : LoginState}
    (h : (loginMachine verifyPassword).Reachable s) :
    (∀ client ∉ s.lockedOut, s.performed client ≤
      lockoutAfterFailures - 1 + s.forgotten client + s.unrecorded client) ∧
    s.windowPerformed ≤ globalFailureLimit - 1 + s.windowSucceeded + s.allUnrecorded := by
  have hinv := LoginState.inv_of_reachable h
  constructor
  · intro client hclient
    have hlt := hinv.failures_lt client hclient
    have hle := hinv.performed_le client hclient
    omega
  · have hlt := hinv.globalFailures_lt
    have hle := hinv.window_le
    omega

def guessingClient : IpAddr := .v4 ⟨192, 0, 2, 1⟩

/-- Six logins of one client; each is checked before the first has verified. -/
def overlappingLogins : List LoginEvent :=
  List.replicate 6 (.check guessingClient ('#' :: firstPassword) "wrong".toList 0) ++
    (List.range 6).map .verify

theorem loginLimits_inv_sample : ∃ s,
    (loginMachine markedPassword).run (loginMachine markedPassword).init overlappingLogins =
      some s ∧
    s.forgotten guessingClient = 0 ∧ s.unrecorded guessingClient = 6 ∧
    s.performed guessingClient ≤ lockoutAfterFailures - 1 + 0 + 6 := by
  obtain ⟨s, hs, hlockedOut, hforgotten, hunrecorded⟩ : ∃ s, (loginMachine markedPassword).run
      (loginMachine markedPassword).init overlappingLogins = some s ∧ s.lockedOut = [] ∧
      s.forgotten guessingClient = 0 ∧ s.unrecorded guessingClient = 6 :=
    ⟨_, rfl, rfl, rfl, rfl⟩
  refine ⟨s, hs, hforgotten, hunrecorded, ?_⟩
  have hle := (loginLimits_inv ⟨_, hs⟩).1 guessingClient (hlockedOut ▸ List.not_mem_nil)
  rw [hforgotten, hunrecorded] at hle
  exact hle

/-- **Logins that overlap exceed the limit.** -/
theorem overlappingLogins_exceed : ¬ ∀ s, (loginMachine markedPassword).Reachable s →
    (∀ client ∉ s.lockedOut, s.performed client ≤ lockoutAfterFailures) ∧
      s.windowPerformed ≤ globalFailureLimit := by
  intro hlimit
  obtain ⟨s, hs, hlockedOut, hperformed⟩ : ∃ s, (loginMachine markedPassword).run
      (loginMachine markedPassword).init overlappingLogins = some s ∧ s.lockedOut = [] ∧
      s.performed guessingClient = 6 := ⟨_, rfl, rfl, rfl⟩
  have hle := (hlimit s ⟨_, hs⟩).1 guessingClient (hlockedOut ▸ List.not_mem_nil)
  rw [hperformed] at hle
  exact absurd hle (by decide)

end DnsBlackhole.Admin
