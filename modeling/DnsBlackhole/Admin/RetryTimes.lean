/-
  The times after which a locked client is told to retry (`web_auth.rs`).

  Two locks may be pending, one of the client and one of all clients, and one number of whole
  seconds is reported.

  * `acceptedAt_iff`: without a further failure, a client is let through when both are over;
  * `retryTime_suffices`: a check reports enough if the lock that it reports has whole seconds
    left, or at most one, and outlasts the other; a failure does if the lock of its client,
    once there is one, outlasts that of all clients;
  * `halfSecond_tooEarly`: half a second into a lock of 15 s, 14 s are reported.
-/
import DnsBlackhole.Admin.Lockouts

namespace DnsBlackhole.Admin
open Lib (Machine)

/-! ## Whole seconds -/

/-- The seconds of an `Instant` fit in an `i64`. -/
def instantEnd : ℕ := 2 ^ 63 * nanosPerSecond

/-- Whole seconds, or at most one. -/
def WholeSeconds (left : ℕ) : Prop := left ≤ nanosPerSecond ∨ nanosPerSecond ∣ left

theorem toNat_asSecs {nanos : ℕ} (h : nanos < 2 ^ 64 * nanosPerSecond) :
    (asSecs nanos).toNat = nanos / nanosPerSecond := by
  rw [asSecs, UInt64.toNat_ofNat']
  exact Nat.mod_eq_of_lt (Nat.div_lt_of_lt_mul (by rwa [Nat.mul_comm] at h))

theorem toNat_asSecs_mul {nanos : ℕ} (h : nanosPerSecond ∣ nanos)
    (hfits : nanos < 2 ^ 64 * nanosPerSecond) :
    (asSecs nanos).toNat * nanosPerSecond = nanos := by
  rw [toNat_asSecs hfits, Nat.div_mul_cancel h]

theorem toNat_remainingSeconds {deadline now : ℕ} (h : deadline < 2 ^ 64 * nanosPerSecond) :
    (remainingSeconds deadline now).toNat = max ((deadline - now) / nanosPerSecond) 1 := by
  have hsecs := toNat_asSecs ((Nat.sub_le deadline now).trans_lt h)
  have hmax : ∀ m n : UInt64, (max m n).toNat = max m.toNat n.toNat := by
    intro m n
    have hle : max m n = if m ≤ n then n else m := rfl
    rw [hle, max_def]
    split_ifs with h₁ h₂ h₂
    · rfl
    · exact absurd (UInt64.le_iff_toNat_le.1 h₁) h₂
    · exact absurd (UInt64.le_iff_toNat_le.2 h₂) h₁
    · rfl
  rw [remainingSeconds, hmax, hsecs]
  rfl

theorem le_reported_iff (left : ℕ) :
    left ≤ max (left / nanosPerSecond) 1 * nanosPerSecond ↔ WholeSeconds left := by
  rw [WholeSeconds, Nat.dvd_iff_mod_eq_zero]
  unfold nanosPerSecond
  omega

theorem reported_eq {deadline now : ℕ} (hwhole : WholeSeconds (deadline - now))
    (hnow : now < deadline) :
    now + max ((deadline - now) / nanosPerSecond) 1 * nanosPerSecond =
      max deadline (now + nanosPerSecond) := by
  rw [WholeSeconds, Nat.dvd_iff_mod_eq_zero] at hwhole
  unfold nanosPerSecond at hwhole ⊢
  omega

theorem lockFor_le_lockoutMax (failures : ℕ) : lockFor failures ≤ lockoutMax := min_le_right _ _

theorem dvd_lockFor (failures : ℕ) : nanosPerSecond ∣ lockFor failures := by
  unfold lockFor
  rcases min_choice (lockoutBase * 2 ^ min (failures - lockoutAfterFailures) 16) lockoutMax with
    h | h
  · rw [h]
    exact Nat.dvd_mul_right_of_dvd (Nat.dvd_mul_left _ 15) _
  · rw [h]
    exact Nat.dvd_mul_left _ (15 * 60)

/-! ## What is accepted later -/

/-- The client is let through at `now`, whatever happens before but for a failure. -/
def AcceptedAt (verifyPassword : Text → Text → Except Text Bool) (s : LoginState)
    (client : IpAddr) (now : ℕ) : Prop :=
  ∀ (events : List LoginEvent) (u : LoginState), (∀ index t, .reject index t ∉ events) →
    (loginMachine verifyPassword).run s events = some u →
    (checkLockout client now u.limit).1 = .ok ()

section
variable {verifyPassword : Text → Text → Except Text Bool} {s s' : LoginState} {event : LoginEvent}
  {client : IpAddr} {now : ℕ}

theorem locks_of_step (hs : s.Inv) (hstep : s.step verifyPassword event = some s')
    (hfails : ∀ index t, event ≠ .reject index t) :
    (∀ T ∈ s'.limit.globalLockedUntil, T ∈ s.limit.globalLockedUntil) ∧
      ∀ T ∈ lockOf client s'.limit.clients, T ∈ lockOf client s.limit.clients := by
  have hmove := limit_step hstep
  generalize s'.limit = limit at hmove ⊢
  cases hmove with
  | check c stored password t =>
    refine ⟨fun T hT => globalLockedUntil_checkLockout hT, fun T hT => ?_⟩
    rwa [(LoginState.clients_checkLockout c t s.limit).1] at hT
  | verify => exact ⟨fun T hT => hT, fun T hT => hT⟩
  | @reject index _ _ t => exact absurd rfl (hfails index t)
  | @clear index call hcall =>
    refine ⟨fun T hT => hT, fun T hT => ?_⟩
    obtain ⟨attempts, hmem, hlock⟩ := exists_mem_of_lockOf hT
    exact (lockOf_of_mem hs.nodup (List.mem_filter.1 hmem).1).trans hlock

theorem acceptedAt_iff (hs : s.Inv) :
    AcceptedAt verifyPassword s client now ↔
      (∀ T ∈ s.limit.globalLockedUntil, T ≤ now) ∧
        ∀ T ∈ lockOf client s.limit.clients, T ≤ now := by
  constructor
  · intro h
    exact (checkLockout_eq_ok_iff client now s.limit).1
      (h [] s (fun _ _ => List.not_mem_nil) rfl)
  · intro h events u hfails hrun
    induction events generalizing s with
    | nil =>
      cases hrun
      exact (checkLockout_eq_ok_iff client now u.limit).2 h
    | cons event events ih =>
      obtain ⟨s', hstep, hrun⟩ := (Machine.run_cons_eq_some _).1 hrun
      obtain ⟨hglobal, hclient⟩ := @locks_of_step verifyPassword s s' event client hs hstep
        fun index t heq => hfails index t (heq ▸ List.mem_cons_self)
      exact ih (hs.step hstep) ⟨fun T hT => h.1 T (hglobal T hT), fun T hT => h.2 T (hclient T hT)⟩
        (fun index t hmem => hfails index t (List.mem_cons_of_mem _ hmem)) hrun

/-! ## What is reported -/

/-- The time of the lock that a check reports is whole seconds or at most one, and the lock of
    the client is not longer. -/
def CheckSuffices (client : IpAddr) (now : ℕ) (limit : RateLimitState) : Prop :=
  match limit.globalLockedUntil.filter (now < ·) with
  | some deadline =>
    WholeSeconds (deadline - now) ∧
      ∀ T ∈ lockOf client limit.clients, T ≤ max deadline (now + nanosPerSecond)
  | none => ∀ T ∈ lockOf client limit.clients, WholeSeconds (T - now)

/-- The failure is the last of a window. -/
def ReachesGlobalLimit (now : ℕ) (limit : RateLimitState) : Prop :=
  startsWindow now limit = false ∧ globalFailureLimit ≤ limit.globalFailures + 1

/-- A failure that locks its client locks it for as long as all clients are locked. -/
def FailureSuffices (client : IpAddr) (now : ℕ) (limit : RateLimitState) : Prop :=
  let failures := saturatingSucc32 (failuresOf client (evictStaleAttempts now limit.clients))
  lockoutAfterFailures ≤ failures →
    (ReachesGlobalLimit now limit → globalLockout ≤ lockFor failures) ∧
      (¬ ReachesGlobalLimit now limit →
        ∀ T ∈ limit.globalLockedUntil, T ≤ now + lockFor failures)

theorem globalLockedUntil_of_over {limit : RateLimitState}
    (h : limit.globalLockedUntil.filter (now < ·) = none) :
    (checkLockout client now limit).2.globalLockedUntil = none := by
  rw [checkLockout, h]
  dsimp only
  split <;> rfl

theorem checkSuffices_iff {limit : RateLimitState} {seconds : UInt64}
    (hglobal : ∀ T ∈ limit.globalLockedUntil, T < 2 ^ 64 * nanosPerSecond)
    (hclient : ∀ T ∈ lockOf client limit.clients, T < 2 ^ 64 * nanosPerSecond)
    (h : (checkLockout client now limit).1 = .error (.locked seconds)) :
    ((∀ T ∈ (checkLockout client now limit).2.globalLockedUntil,
        T ≤ now + seconds.toNat * nanosPerSecond) ∧
      ∀ T ∈ lockOf client (checkLockout client now limit).2.clients,
        T ≤ now + seconds.toNat * nanosPerSecond) ↔ CheckSuffices client now limit := by
  rw [(LoginState.clients_checkLockout client now limit).1]
  cases hg : limit.globalLockedUntil.filter (now < ·) with
  | some deadline =>
    obtain ⟨hlock, hnow⟩ := Option.filter_eq_some_iff.1 hg
    have hnow : now < deadline := of_decide_eq_true hnow
    rw [CheckSuffices, hg]
    rw [checkLockout, hg] at h ⊢
    dsimp only at h ⊢
    obtain rfl := AuthFailure.locked.inj (Except.error.inj h)
    rw [hlock, toNat_remainingSeconds (hglobal deadline hlock)]
    have hwhole := le_reported_iff (deadline - now)
    constructor
    · rintro ⟨hreported, hshorter⟩
      have hleft := hwhole.1 (Nat.sub_le_iff_le_add'.2 (hreported deadline rfl))
      exact ⟨hleft, fun T hT => reported_eq hleft hnow ▸ hshorter T hT⟩
    · rintro ⟨hleft, hshorter⟩
      rw [reported_eq hleft hnow]
      exact ⟨fun T hT => (Option.some.inj hT) ▸ le_max_left _ _, hshorter⟩
  | none =>
    rw [CheckSuffices, hg, globalLockedUntil_of_over hg]
    rw [checkLockout, hg] at h
    dsimp only at h ⊢
    split at h
    · rename_i deadline hdeadline
      obtain ⟨entry, hentry, hdeadline⟩ := Option.bind_eq_some_iff.1 hdeadline
      have hlock : lockOf client limit.clients = some deadline := by
        rw [lockOf, hentry]
        exact (Option.filter_eq_some_iff.1 hdeadline).1
      obtain rfl := AuthFailure.locked.inj (Except.error.inj h)
      rw [hlock, toNat_remainingSeconds (hclient deadline hlock)]
      have hwhole := le_reported_iff (deadline - now)
      constructor
      · rintro ⟨-, hreported⟩ T hT
        obtain rfl := Option.some.inj hT
        exact hwhole.1 (Nat.sub_le_iff_le_add'.2 (hreported deadline rfl))
      · intro hleft
        refine ⟨fun T hT => absurd hT (Option.not_mem_none T), fun T hT => ?_⟩
        obtain rfl := Option.some.inj hT
        exact Nat.sub_le_iff_le_add'.1 (hwhole.2 (hleft deadline rfl))
    · cases h

theorem globalLockedUntil_recordFailure_eq {limit : RateLimitState}
    (hfailures : limit.globalFailures < globalFailureLimit) :
    (ReachesGlobalLimit now limit →
      (recordGlobalFailure now limit).1 = some (asSecs globalLockout) ∧
        (recordFailure client now limit).2.globalLockedUntil = some (now + globalLockout)) ∧
    (¬ ReachesGlobalLimit now limit → (recordGlobalFailure now limit).1 = none ∧
      (recordFailure client now limit).2.globalLockedUntil = limit.globalLockedUntil) := by
  change (_ → _ ∧ (recordGlobalFailure now limit).2.globalLockedUntil = _) ∧
    (_ → _ ∧ (recordGlobalFailure now limit).2.globalLockedUntil = _)
  have hcount := saturatingSucc32_of_lt hfailures
  constructor
  · rintro ⟨hwindow, hfull⟩
    have hfull : globalFailureLimit ≤ saturatingSucc32 limit.globalFailures := hcount ▸ hfull
    rw [recordGlobalFailure, hwindow, if_neg Bool.false_ne_true]
    dsimp only
    rw [if_pos hfull]
    exact ⟨rfl, rfl⟩
  · intro hreaches
    rw [recordGlobalFailure]
    cases hwindow : startsWindow now limit with
    | true => exact ⟨rfl, rfl⟩
    | false =>
      have hfull : ¬ globalFailureLimit ≤ saturatingSucc32 limit.globalFailures := fun hfull =>
        hreaches ⟨hwindow, hcount ▸ hfull⟩
      rw [if_neg Bool.false_ne_true]
      dsimp only
      rw [if_neg hfull]
      exact ⟨rfl, rfl⟩

theorem exists_of_mem_modifyAttempts {change : ClientAttempts → ClientAttempts}
    {clients : List (IpAddr × ClientAttempts)} {attempts : ClientAttempts}
    (hn : (clients.map Prod.fst).Nodup)
    (h : (client, attempts) ∈ modifyAttempts client change clients) :
    ∃ old, attempts = change old := by
  induction clients with
  | nil => cases h
  | cons first entries ih =>
    rw [List.map_cons, List.nodup_cons] at hn
    rw [modifyAttempts] at h
    split_ifs at h with hfirst
    · rcases List.mem_cons.1 h with heq | h
      · exact ⟨first.2, congrArg Prod.snd heq⟩
      · exact absurd (hfirst ▸ List.mem_map_of_mem h) hn.1
    · rcases List.mem_cons.1 h with heq | h
      · exact absurd (congrArg Prod.fst heq).symm hfirst
      · exact ih hn.2 h

theorem lockOf_recordFailure {clock T : ℕ} {limit : RateLimitState} (hinv : LimitInv clock limit)
    (hn : (limit.clients.map Prod.fst).Nodup)
    (h : lockOf client (recordFailure client now limit).2.clients = some T) :
    lockoutAfterFailures ≤ failuresOf client (recordFailure client now limit).2.clients ∧
      T = now + lockFor (failuresOf client (recordFailure client now limit).2.clients) := by
  have hnames := nodup_recordFailure client now limit hn
  obtain ⟨attempts, hmem, hlock⟩ := exists_mem_of_lockOf h
  have hinv := hinv.mono (le_max_left clock now)
  have hfine := (hinv.recordFailure client (le_max_right clock now)).fine
  rw [failuresOf_of_mem hnames hmem]
  rw [clients_recordFailure] at hnames hmem
  rw [map_fst_modifyAttempts] at hnames
  obtain ⟨old, rfl⟩ := exists_of_mem_modifyAttempts hnames hmem
  rw [← clients_recordFailure] at hmem
  exact (hfine _ hmem).locked T hlock

theorem failureSuffices_iff {clock : ℕ} {limit : RateLimitState} {seconds : UInt64}
    (hinv : LimitInv clock limit) (hn : (limit.clients.map Prod.fst).Nodup)
    (hfailures : limit.globalFailures < globalFailureLimit)
    (h : (recordFailure client now limit).1 = some seconds) :
    ((∀ T ∈ (recordFailure client now limit).2.globalLockedUntil,
        T ≤ now + seconds.toNat * nanosPerSecond) ∧
      ∀ T ∈ lockOf client (recordFailure client now limit).2.clients,
        T ≤ now + seconds.toNat * nanosPerSecond) ↔ FailureSuffices client now limit := by
  obtain ⟨hreaches, hstays⟩ := @globalLockedUntil_recordFailure_eq client now limit hfailures
  have hlock := fun T => @lockOf_recordFailure client now clock T limit hinv hn
  have hcount := failuresOf_recordFailure client client now limit
  rw [if_pos rfl] at hcount
  have hseconds : (if lockoutAfterFailures ≤
      failuresOf client (recordFailure client now limit).2.clients then some (asSecs (lockFor (failuresOf client (recordFailure client now limit).2.clients)))
      else (recordGlobalFailure now limit).1) = some seconds := h
  rw [FailureSuffices, ← hcount]
  split_ifs at hseconds with hlocks
  · -- the lock of the client is reported
    obtain rfl := Option.some.inj hseconds
    rw [toNat_asSecs_mul (dvd_lockFor _) ((lockFor_le_lockoutMax _).trans_lt (by decide))]
    have hclient : ∀ T ∈ lockOf client (recordFailure client now limit).2.clients,
        T ≤ now + lockFor (failuresOf client (recordFailure client now limit).2.clients) :=
      fun T hT => (hlock T hT).2.le
    by_cases hreach : ReachesGlobalLimit now limit
    · rw [(hreaches hreach).2]
      constructor
      · exact fun hreported _ => ⟨fun _ => Nat.le_of_add_le_add_left (hreported.1 _ rfl),
          fun hno => absurd hreach hno⟩
      · intro hsuffices
        refine ⟨fun T hT => ?_, hclient⟩
        obtain rfl := Option.some.inj hT
        exact Nat.add_le_add_left ((hsuffices hlocks).1 hreach) now
    · rw [(hstays hreach).2]
      constructor
      · exact fun hreported _ => ⟨fun hyes => absurd hyes hreach, fun _ => hreported.1⟩
      · exact fun hsuffices => ⟨(hsuffices hlocks).2 hreach, hclient⟩
  · -- the client has no lock, and that of all clients is reported
    by_cases hreach : ReachesGlobalLimit now limit
    · obtain ⟨hlast, hglobal⟩ := hreaches hreach
      obtain rfl := Option.some.inj (hlast.symm.trans hseconds)
      have hwhole : (asSecs globalLockout).toNat * nanosPerSecond = globalLockout :=
        toNat_asSecs_mul (Nat.dvd_mul_left _ 60) (by decide)
      rw [hwhole, hglobal]
      refine iff_of_true ⟨fun T hT => (Option.some.inj hT).ge, fun T hT => ?_⟩
        fun hlocks' => absurd hlocks' hlocks
      exact absurd (hlock T hT).1 hlocks
    · rw [(hstays hreach).1] at hseconds
      cases hseconds

end

/-- **When the time that is reported suffices**: the client is let through after it, if no
    failure follows. -/
theorem retryTime_suffices {verifyPassword : Text → Text → Except Text Bool}
    {events : List LoginEvent} {s s' : LoginState}
    (hrun : (loginMachine verifyPassword).run (loginMachine verifyPassword).init events = some s)
    (hinstants : ∀ t ∈ events.filterMap LoginEvent.clock?, t < instantEnd)
    (client : IpAddr) (now : ℕ) (seconds : UInt64) :
    (∀ stored password,
      (checkLockout client now s.limit).1 = .error (.locked seconds) →
      s.step verifyPassword (.check client stored password now) = some s' →
      (AcceptedAt verifyPassword s' client (now + seconds.toNat * nanosPerSecond) ↔
        CheckSuffices client now s.limit)) ∧
    ∀ index, s.calls[index]?.map (·.client) = some client →
      (recordFailure client now s.limit).1 = some seconds →
      s.step verifyPassword (.reject index now) = some s' →
      (AcceptedAt verifyPassword s' client (now + seconds.toNat * nanosPerSecond) ↔
        FailureSuffices client now s.limit) := by
  have hs := LoginState.inv_of_reachable ⟨events, hrun⟩
  have hinv : LimitInv instantEnd s.limit := limitInv_of_run (fun t ht => (hinstants t ht).le) hrun
  constructor
  · intro stored password hlocked hstep
    have hglobal : ∀ T ∈ s.limit.globalLockedUntil, T < 2 ^ 64 * nanosPerSecond := fun T hT =>
      (hinv.global_le T hT).trans_lt (by decide)
    have hclient : ∀ T ∈ lockOf client s.limit.clients, T < 2 ^ 64 * nanosPerSecond := by
      intro T hT
      obtain ⟨attempts, hmem, hlock⟩ := exists_mem_of_lockOf hT
      obtain ⟨-, rfl⟩ := (hinv.fine _ hmem).locked T hlock
      have hle := Nat.add_le_add (hinv.fine _ hmem).past (lockFor_le_lockoutMax attempts.failures)
      exact hle.trans_lt (by decide)
    have hmove := limit_step hstep
    have hnext := hs.step hstep
    rw [acceptedAt_iff hnext]
    rw [← checkSuffices_iff hglobal hclient hlocked]
    generalize s'.limit = limit at hmove ⊢
    cases hmove
    rfl
  · intro index hcall hlocked hstep
    rw [acceptedAt_iff (hs.step hstep),
      ← failureSuffices_iff hinv hs.nodup hs.globalFailures_lt hlocked]
    have hmove := limit_step hstep
    generalize s'.limit = limit at hmove ⊢
    cases hmove with
    | reject hget =>
      rw [hget, Option.map_some] at hcall
      rw [Option.some.inj hcall]

theorem lockedOut_atOnce : ∃ s : LoginState,
    (loginMachine markedPassword).run (loginMachine markedPassword).init
      (failedLogins 0 (List.replicate 5 (guessingClient, 0))) = some s ∧
    s.limit = ⟨[(guessingClient, ⟨5, some (15 * nanosPerSecond), 0⟩)], 5, some 0, none⟩ ∧
    ∀ now < 15 * nanosPerSecond, checkLockout guessingClient now s.limit =
      (.error (.locked (remainingSeconds (15 * nanosPerSecond) now)), s.limit) := by
  have hfails : failAll (loginMachine markedPassword).init.limit
      (List.replicate 5 (guessingClient, 0)) =
      some ⟨[(guessingClient, ⟨5, some (15 * nanosPerSecond), 0⟩)], 5, some 0, none⟩ := rfl
  obtain ⟨s, hs, hlimit, -⟩ := run_failedLogins _ hfails
  refine ⟨s, hs, hlimit, fun now hnow => ?_⟩
  rw [hlimit, checkLockout]
  dsimp only [Option.filter_none]
  rw [List.find?_cons_of_pos (by decide), Option.bind_some, Option.filter_some,
    if_pos (decide_eq_true hnow)]

/-- At once, all 15 s are left. -/
theorem retryTime_suffices_atOnce : ∃ s : LoginState,
    (checkLockout guessingClient 0 s.limit).1 = .error (.locked 15) ∧
    AcceptedAt markedPassword s guessingClient (15 * nanosPerSecond) := by
  obtain ⟨s, hs, hlimit, hcheck⟩ := lockedOut_atOnce
  have hlocked : checkLockout guessingClient 0 s.limit = (.error (.locked 15), s.limit) :=
    hcheck 0 (by decide)
  have hstep : s.step markedPassword (.check guessingClient ('#' :: firstPassword) [] 0) =
      some s := by
    rw [LoginState.step, hlocked]
  have hclocks : ∀ t ∈ (failedLogins 0 (List.replicate 5 (guessingClient, 0))).filterMap
      LoginEvent.clock?, t < instantEnd := by
    rw [clocks_failedLogins]
    decide
  have hsuffices : CheckSuffices guessingClient 0 s.limit := by
    rw [hlimit]
    exact fun T hT => .inr ((Option.some.inj hT) ▸ Nat.dvd_mul_left _ 15)
  have haccepted := ((retryTime_suffices hs hclocks guessingClient 0 15).1 _ _ (by rw [hlocked])
    hstep).2 hsuffices
  rw [Nat.zero_add] at haccepted
  exact ⟨s, by rw [hlocked], haccepted⟩

/-- **Half a second later, the time is too short**: 14 s are reported, and after these the lock
    has half a second left. -/
theorem halfSecond_tooEarly : ¬ ∀ {events : List LoginEvent} {s s' : LoginState} {client : IpAddr}
    {stored password : Text} {now : ℕ} {seconds : UInt64},
    (loginMachine markedPassword).run (loginMachine markedPassword).init events = some s →
    (∀ t ∈ events.filterMap LoginEvent.clock?, t ≤ now) →
    (checkLockout client now s.limit).1 = .error (.locked seconds) →
    s.step markedPassword (.check client stored password now) = some s' →
    AcceptedAt markedPassword s' client (now + seconds.toNat * nanosPerSecond) := by
  intro hsuffices
  obtain ⟨s, hs, hlimit, hcheck⟩ := lockedOut_atOnce
  have hlocked : checkLockout guessingClient (nanosPerSecond / 2) s.limit =
      (.error (.locked 14), s.limit) := hcheck _ (by decide)
  have hstep : s.step markedPassword
      (.check guessingClient ('#' :: firstPassword) [] (nanosPerSecond / 2)) = some s := by
    rw [LoginState.step, hlocked]
  have hclocks : ∀ t ∈ (failedLogins 0 (List.replicate 5 (guessingClient, 0))).filterMap
      LoginEvent.clock?, t ≤ nanosPerSecond / 2 := by
    rw [clocks_failedLogins]
    decide
  have haccepted := hsuffices hs hclocks (by rw [hlocked]) hstep
  rw [acceptedAt_iff (LoginState.inv_of_reachable ⟨_, hs⟩), hlimit] at haccepted
  exact absurd (haccepted.2 (15 * nanosPerSecond) rfl) (by decide)

end DnsBlackhole.Admin
