/-
  Calls on the authentication state, in any interleaving.

  Every section of a call is one event; between them the call waits in `calls`.
  The state remembers what the program does not: the hashes in force after each
  write (`history`), the password changes that have completed (`completed`), and
  how many first setups have succeeded since the last reset (`created`).

  In every reachable state the loaded cache is the row of the database and there
  is at most one first setup since the last reset, and a section whose write
  fails at most loads the cache (`credentials_coherent`).
-/
import DnsBlackhole.Lib.Machine
import DnsBlackhole.Admin.Auth

namespace DnsBlackhole.Admin
open Lib

/-- What a call has still to do. -/
inductive AuthCall
  /-- A login has read the hash. -/
  | verify (password stored : Text) (version : ℕ)
  | issue (origin : SessionOrigin)
  /-- A password change has written the hash, and is to drop the sessions. -/
  | retain (keep : Option SessionKey)
  deriving DecidableEq

/-- A completed password change: the number of the write in force when it
    completed, and the session it has kept. -/
structure CompletedChange where
  version : ℕ
  keep : Option SessionKey
  deriving DecidableEq

structure AuthState where
  credentials : Credentials
  sessions : List SessionEntry
  calls : List AuthCall
  history : List (Option Text)
  completed : List CompletedChange
  created : ℕ
  deriving DecidableEq

/-- What can happen; `i` is the place of a call. -/
inductive AuthEvent
  /-- A call that reads the credential and does nothing else with it. -/
  | read (faults : DbFaults)
  | login (password : Text) (faults : DbFaults)
  /-- The login checks its password, unless it is locked out. -/
  | verify (i : ℕ) (lockout : Option AuthFailure)
  /-- A login, or the first setup, issues its session. -/
  | issue (i : ℕ) (token : Except Text Text) (idle now : ℕ)
  /-- The first setup, over the web or from a password file. -/
  | create (web : Bool) (password : Text) (phc : Except Text Text) (unixNow : UInt64)
      (faults : DbFaults)
  | change (cookieHeader : Option Text) (currentPassword newPassword : Text)
      (phc : Except Text Text) (unixNow : UInt64) (faults : DbFaults)
  | setLocally (password : Text) (phc : Except Text Text) (unixNow : UInt64) (faults : DbFaults)
  | reset (faults : DbFaults)
  /-- A password change drops the sessions. -/
  | retain (i : ℕ)
  /-- A request looks its session up. -/
  | touch (token : Text) (idle now : ℕ)
  | logout (cookieHeader : Option Text)
  | invalidate
  | prune (idle now : ℕ)

namespace AuthState

/-- The number of the last write. -/
def version (s : AuthState) : ℕ := s.history.length - 1

/-- A section that has written no credential. -/
def keep (s : AuthState) (c : Credentials) : AuthState := { s with credentials := c }

/-- A section that has written a credential. -/
def write (s : AuthState) (c : Credentials) : AuthState :=
  { s with credentials := c, history := s.history ++ [c.row.map (·.passwordHash)] }

def wait (s : AuthState) (call : AuthCall) : AuthState := { s with calls := s.calls ++ [call] }

end AuthState

section
variable (verifyPassword : Text → Text → Except Text Bool) (tokenKey : Text → SessionKey)

/-- The key of the session that a cookie header names. -/
def cookieKey (cookieHeader : Option Text) : Option SessionKey :=
  (cookieHeader.bind sessionTokenFromCookies).map tokenKey

def authStep (s : AuthState) : AuthEvent → Option AuthState
  | .read faults => some (s.keep (credentialHash faults s.credentials).2)
  | .login password faults =>
    match credentialHash faults s.credentials with
    | (.ok (some stored), c) => some ((s.keep c).wait (.verify password stored s.version))
    | (_, c) => some (s.keep c)
  | .verify i lockout =>
    match s.calls[i]? with
    | some (.verify password stored version) =>
      let s := { s with calls := s.calls.eraseIdx i }
      if lockout.isSome || password.len > maxPasswordBytes || password.any isControl then some s
      else match verifyPassword stored password with
        | .ok true => some (s.wait (.issue (.login version stored password)))
        | _ => some s
    | _ => none
  | .issue i token idle now =>
    match s.calls[i]? with
    | some (.issue origin) =>
      let s := { s with calls := s.calls.eraseIdx i }
      match token with
      | .error _ => some s
      | .ok token =>
        some { s with sessions := issueSession (tokenKey token) origin idle now s.sessions }
    | _ => none
  | .create web password phc unixNow faults =>
    match createInitialPassword password phc unixNow faults s.credentials with
    | (.error _, c) => some (s.keep c)
    | (.ok (), c) =>
      let s := s.write c
      let s := { s with
        created := s.created + 1
        completed := s.completed ++ [⟨s.version, none⟩] }
      some (if web then s.wait (.issue (.setup s.version)) else s)
  | .change cookieHeader currentPassword newPassword phc unixNow faults =>
    match changeCredential verifyPassword currentPassword newPassword phc unixNow faults
      s.credentials with
    | (.error _, c) => some (s.keep c)
    | (.ok (), c) => some ((s.write c).wait (.retain (cookieKey tokenKey cookieHeader)))
  | .setLocally password phc unixNow faults =>
    match storePassword password phc unixNow faults s.credentials with
    | (.error _, c) => some (s.keep c)
    | (.ok (), c) => some ((s.write c).wait (.retain none))
  | .reset faults =>
    match clearCredential faults s.credentials with
    | (.error _, c) => some (s.keep c)
    | (.ok _, c) => some ({ s.write c with created := 0 }.wait (.retain none))
  | .retain i =>
    match s.calls[i]? with
    | some (.retain keep) => some { s with
        calls := s.calls.eraseIdx i
        sessions := retainOnlySession keep s.sessions
        completed := s.completed ++ [⟨s.version, keep⟩] }
    | _ => none
  | .touch token idle now =>
    some { s with sessions := (touchSession (tokenKey token) idle now s.sessions).2 }
  | .logout cookieHeader =>
    match cookieKey tokenKey cookieHeader with
    | some key => some { s with sessions := removeSession key s.sessions }
    | none => some s
  | .invalidate => some { s with sessions := retainOnlySession none s.sessions }
  | .prune idle now => some { s with sessions := pruneSessions idle now s.sessions }

/-- The authentication state of a process that starts over a database. -/
def authMachine (row : Option WebAdminCredential) : Machine AuthState AuthEvent where
  init := ⟨⟨row, {}⟩, [], [], [row.map (·.passwordHash)], [], 0⟩
  step := authStep verifyPassword tokenKey

/-! ## What a step does -/

/-- What the event `e` can do in `s`. -/
inductive AuthMove (s : AuthState) : AuthEvent → AuthState → Prop
  /-- Sessions and calls only go, and the cache may be loaded. -/
  | quiet {e c sessions calls} : s.credentials.Loads c →
      (∀ x ∈ sessions, ∃ y ∈ s.sessions, y.key = x.key ∧ y.origin = x.origin) →
      calls ⊆ s.calls →
      AuthMove s e { s with credentials := c, sessions := sessions, calls := calls }
  | login {password faults c stored} : s.credentials.Loads c →
      s.credentials.row.map (·.passwordHash) = some stored →
      AuthMove s (.login password faults)
        ((s.keep c).wait (.verify password stored s.version))
  | verified {i lockout password stored version} :
      AuthCall.verify password stored version ∈ s.calls → verifyPassword stored password = .ok true →
      AuthMove s (.verify i lockout)
        ({ s with calls := s.calls.eraseIdx i }.wait (.issue (.login version stored password)))
  | issued {i token idle now origin} : s.calls[i]? = some (.issue origin) →
      AuthMove s (.issue i (.ok token) idle now) { s with
        calls := s.calls.eraseIdx i
        sessions := issueSession (tokenKey token) origin idle now s.sessions }
  | created {web password phc unixNow faults hash calls} : s.credentials.row = none →
      calls ⊆ s.calls ++ [.issue (.setup s.history.length)] →
      AuthMove s (.create web password phc unixNow faults)
        { s.write (.written (some ⟨hash, unixNow⟩)) with
          calls := calls
          completed := s.completed ++ [⟨s.history.length, none⟩]
          created := s.created + 1 }
  | changed {e hash unixNow keep} :
      AuthMove s e ((s.write (.written (some ⟨hash, unixNow⟩))).wait (.retain keep))
  | cleared {e} :
      AuthMove s e ({ s.write (.written none) with created := 0 }.wait (.retain none))
  | retained {e i keep} : AuthMove s e { s with
      calls := s.calls.eraseIdx i
      sessions := retainOnlySession keep s.sessions
      completed := s.completed ++ [⟨s.version, keep⟩] }

variable {verifyPassword tokenKey} {s s' : AuthState} {e : AuthEvent}

theorem AuthMove.ofLoads {c : Credentials} (h : s.credentials.Loads c) :
    AuthMove verifyPassword tokenKey s e (s.keep c) :=
  .quiet h (fun x hx => ⟨x, hx, rfl, rfl⟩) (List.Subset.refl _)

theorem AuthMove.ofSessions {sessions : List SessionEntry}
    (h : ∀ x ∈ sessions, ∃ y ∈ s.sessions, y.key = x.key ∧ y.origin = x.origin) :
    AuthMove verifyPassword tokenKey s e { s with sessions := sessions } :=
  .quiet (.refl _) h (List.Subset.refl _)

theorem AuthMove.ofCalls (i : ℕ) :
    AuthMove verifyPassword tokenKey s e { s with calls := s.calls.eraseIdx i } :=
  .quiet (.refl _) (fun x hx => ⟨x, hx, rfl, rfl⟩) fun _ => List.mem_of_mem_eraseIdx

/-- **Every step** is one of these. -/
theorem authStep_move (hc : s.credentials.Coherent)
    (h : authStep verifyPassword tokenKey s e = some s') :
    AuthMove verifyPassword tokenKey s e s' := by
  cases e with
  | read faults =>
    cases h
    exact .ofLoads (credentialHash_cases hc rfl).1
  | login password faults =>
    simp only [authStep] at h
    split at h
    · rename_i stored c hcred
      obtain ⟨hloads, hhash⟩ := credentialHash_cases hc hcred
      cases h
      exact .login hloads (hhash _ rfl).symm
    · rename_i r c _ hcred
      cases h
      exact .ofLoads (credentialHash_cases hc hcred).1
  | verify i lockout =>
    simp only [authStep] at h
    split at h
    · rename_i password stored version hcall
      split_ifs at h
      · cases h
        exact .ofCalls i
      · split at h
        · rename_i hverify
          cases h
          exact .verified (List.mem_of_getElem? hcall) hverify
        · cases h
          exact .ofCalls i
    · cases h
  | issue i token idle now =>
    simp only [authStep] at h
    split at h
    · rename_i origin hcall
      split at h
      · cases h
        exact .ofCalls i
      · cases h
        exact .issued hcall
    · cases h
  | create web password phc unixNow faults =>
    simp only [authStep] at h
    split at h
    · rename_i failure c hcred
      cases h
      rcases createInitialPassword_cases hc hcred with ⟨-, hloads⟩ | ⟨hok, -⟩
      · exact .ofLoads hloads
      · cases hok
    · rename_i c hcred
      rcases createInitialPassword_cases hc hcred with ⟨⟨_, herr⟩, -⟩ | ⟨-, hrow, -, hash, rfl⟩
      · cases herr
      · have hversion : (s.write (.written (some ⟨hash, unixNow⟩))).version = s.history.length := by
          simp [AuthState.version, AuthState.write]
        cases web with
        | true =>
          cases h
          simpa [AuthState.wait, AuthState.version, AuthState.write] using
            AuthMove.created hrow (List.Subset.refl _)
        | false =>
          cases h
          simpa [AuthState.wait, AuthState.version, AuthState.write] using
            AuthMove.created hrow (List.subset_append_left _ _)
  | change cookieHeader currentPassword newPassword phc unixNow faults =>
    simp only [authStep] at h
    split at h
    · rename_i failure c hcred
      cases h
      rcases changeCredential_cases hc hcred with ⟨-, hloads⟩ | ⟨hok, -⟩
      · exact .ofLoads hloads
      · cases hok
    · rename_i c hcred
      cases h
      rcases changeCredential_cases hc hcred with ⟨⟨_, herr⟩, -⟩ | ⟨-, -, -, hash, rfl⟩
      · cases herr
      · exact .changed
  | setLocally password phc unixNow faults =>
    simp only [authStep] at h
    split at h
    · rename_i failure c hcred
      cases h
      rcases storePassword_cases hcred with ⟨-, rfl⟩ | ⟨hok, -⟩
      · exact .ofLoads (.refl _)
      · cases hok
    · rename_i c hcred
      cases h
      rcases storePassword_cases hcred with ⟨⟨_, herr⟩, -⟩ | ⟨-, -, hash, rfl⟩
      · cases herr
      · exact .changed
  | reset faults =>
    simp only [authStep] at h
    split at h
    · rename_i failure c hcred
      cases h
      rcases clearCredential_cases hcred with ⟨-, rfl⟩ | ⟨⟨_, hok⟩, -⟩
      · exact .ofLoads (.refl _)
      · cases hok
    · rename_i removed c hcred
      cases h
      rcases clearCredential_cases hcred with ⟨⟨_, herr⟩, -⟩ | ⟨-, -, rfl⟩
      · cases herr
      · exact .cleared
  | retain i =>
    simp only [authStep] at h
    split at h
    · cases h
      exact .retained
    · cases h
  | touch token idle now =>
    cases h
    exact .ofSessions fun x hx => mem_touchSession hx
  | logout cookieHeader =>
    simp only [authStep] at h
    split at h
    · cases h
      exact .ofSessions fun x hx => ⟨x, mem_removeSession hx, rfl, rfl⟩
    · cases h
      exact .ofLoads (.refl _)
  | invalidate =>
    cases h
    exact .ofSessions fun x hx => ⟨x, (mem_retainOnlySession hx).1, rfl, rfl⟩
  | prune idle now =>
    cases h
    exact .ofSessions fun x hx => ⟨x, mem_of_mem_pruneSessions hx, rfl, rfl⟩

/-! ## Invariants -/

/-- A session is issued for a successful verification of a password with the hash
    of its version, or for writing that hash. -/
def SessionOrigin.Verified (verifyPassword : Text → Text → Except Text Bool)
    (history : List (Option Text)) : SessionOrigin → Prop
  | .login version stored password =>
    history[version]? = some (some stored) ∧ verifyPassword stored password = .ok true
  | .setup version => ∃ hash, history[version]? = some (some hash)

theorem SessionOrigin.Verified.append {history : List (Option Text)} {origin : SessionOrigin}
    (h : origin.Verified verifyPassword history) (hash : Option Text) :
    origin.Verified verifyPassword (history ++ [hash]) := by
  have hmono : ∀ {v : ℕ} {x : Option Text}, history[v]? = some x → (history ++ [hash])[v]? = some x :=
    fun hv => by rw [List.getElem?_append_left (List.getElem?_eq_some_iff.1 hv).1, hv]
  cases origin with
  | login version stored password => exact ⟨hmono h.1, h.2⟩
  | setup version =>
    obtain ⟨stored, hstored⟩ := h
    exact ⟨stored, hmono hstored⟩

/-- What a waiting call has read stands in the history. -/
def AuthCall.Sound (verifyPassword : Text → Text → Except Text Bool)
    (history : List (Option Text)) : AuthCall → Prop
  | .verify _ stored version => history[version]? = some (some stored)
  | .issue origin => origin.Verified verifyPassword history
  | .retain _ => True

theorem AuthCall.Sound.append {history : List (Option Text)} {call : AuthCall}
    (h : call.Sound verifyPassword history) (hash : Option Text) :
    call.Sound verifyPassword (history ++ [hash]) := by
  cases call with
  | verify password stored version =>
    have hv : history[version]? = some (some stored) := h
    show (history ++ [hash])[version]? = _
    rw [List.getElem?_append_left (List.getElem?_eq_some_iff.1 hv).1, hv]
  | issue origin => exact SessionOrigin.Verified.append h hash
  | retain keep => trivial

structure AuthInv (verifyPassword : Text → Text → Except Text Bool) (s : AuthState) : Prop where
  coherent : s.credentials.Coherent
  current : s.history[s.version]? = some (s.credentials.row.map (·.passwordHash))
  created : s.created ≤ 1
  createdRow : s.created = 1 → s.credentials.row ≠ none
  calls : ∀ call ∈ s.calls, call.Sound verifyPassword s.history
  sessions : ∀ session ∈ s.sessions, session.origin.Verified verifyPassword s.history

theorem AuthInv.init (row : Option WebAdminCredential) :
    AuthInv verifyPassword (authMachine verifyPassword tokenKey row).init where
  coherent h := nomatch h
  current := rfl
  created := Nat.zero_le _
  createdRow h := nomatch h
  calls _ h := nomatch h
  sessions _ h := nomatch h

theorem current_write (s : AuthState) (c : Credentials) :
    (s.history ++ [c.row.map (·.passwordHash)])[(s.write c).version]? =
      some (c.row.map (·.passwordHash)) := by
  simp [AuthState.version, AuthState.write]

theorem AuthInv.step (hi : AuthInv verifyPassword s)
    (h : authStep verifyPassword tokenKey s e = some s') : AuthInv verifyPassword s' := by
  have hcalls : ∀ hash, ∀ call ∈ s.calls, call.Sound verifyPassword (s.history ++ [hash]) :=
    fun hash call hcall => (hi.calls call hcall).append hash
  have hsessions : ∀ hash, ∀ session ∈ s.sessions,
      session.origin.Verified verifyPassword (s.history ++ [hash]) :=
    fun hash session hsession => (hi.sessions session hsession).append hash
  cases authStep_move hi.coherent h with
  | quiet hloads hss hcs =>
    refine ⟨hloads.coherent hi.coherent, ?_, hi.created, ?_, fun call hcall => hi.calls call
      (hcs hcall), fun session hsession => ?_⟩
    · show s.history[s.version]? = _
      rw [hi.current, hloads.row_eq]
    · show s.created = 1 → _
      rw [hloads.row_eq]
      exact hi.createdRow
    · obtain ⟨y, hy, -, horigin⟩ := hss session hsession
      show session.origin.Verified verifyPassword s.history
      rw [← horigin]
      exact hi.sessions y hy
  | @login password faults c stored hloads hhash =>
    refine ⟨hloads.coherent hi.coherent, ?_, hi.created, ?_, ?_, hi.sessions⟩
    · show s.history[s.version]? = some (c.row.map _)
      rw [hi.current, hloads.row_eq]
    · show s.created = 1 → c.row ≠ none
      rw [hloads.row_eq]
      exact hi.createdRow
    · intro call hcall
      rcases List.mem_append.1 hcall with hcall | hcall
      · exact hi.calls call hcall
      · obtain rfl := List.mem_singleton.1 hcall
        show s.history[s.version]? = _
        rw [hi.current, hhash]
  | @verified i lockout password stored version hcall hverify =>
    refine ⟨hi.coherent, hi.current, hi.created, hi.createdRow, ?_, hi.sessions⟩
    intro call hcall'
    rcases List.mem_append.1 hcall' with hcall' | hcall'
    · exact hi.calls call (List.mem_of_mem_eraseIdx hcall')
    · obtain rfl := List.mem_singleton.1 hcall'
      exact ⟨hi.calls _ hcall, hverify⟩
  | @issued i token idle now origin hcall =>
    refine ⟨hi.coherent, hi.current, hi.created, hi.createdRow,
      fun call hcall => hi.calls call (List.mem_of_mem_eraseIdx hcall), ?_⟩
    intro session hsession
    rcases mem_issueSession hsession with hsession | rfl
    · exact hi.sessions session hsession
    · exact hi.calls _ (List.mem_of_getElem? hcall)
  | @created web password phc unixNow faults hash calls hrow hcs =>
    have hcreated : s.created = 0 := by
      have := hi.created
      by_contra hne
      exact hi.createdRow (by omega) hrow
    refine ⟨Credentials.coherent_written _, current_write s _, by simp [hcreated],
      fun _ => Option.some_ne_none _, ?_, hsessions _⟩
    intro call hcall
    rcases List.mem_append.1 (hcs hcall) with hcall | hcall
    · exact hcalls _ call hcall
    · obtain rfl := List.mem_singleton.1 hcall
      exact ⟨hash, List.getElem?_concat_length⟩
  | @changed _ hash unixNow keep =>
    refine ⟨Credentials.coherent_written _, current_write s _, hi.created,
      fun _ => Option.some_ne_none _, ?_, hsessions _⟩
    intro call hcall
    rcases List.mem_append.1 hcall with hcall | hcall
    · exact hcalls _ call hcall
    · obtain rfl := List.mem_singleton.1 hcall
      trivial
  | cleared =>
    refine ⟨Credentials.coherent_written _, current_write s _, Nat.zero_le _,
      (fun h => nomatch h), ?_, hsessions _⟩
    intro call hcall
    rcases List.mem_append.1 hcall with hcall | hcall
    · exact hcalls _ call hcall
    · obtain rfl := List.mem_singleton.1 hcall
      trivial
  | retained =>
    exact ⟨hi.coherent, hi.current, hi.created, hi.createdRow,
      fun call hcall => hi.calls call (List.mem_of_mem_eraseIdx hcall),
      fun session hsession => hi.sessions session (mem_retainOnlySession hsession).1⟩

theorem authInv {row : Option WebAdminCredential}
    (h : (authMachine verifyPassword tokenKey row).Reachable s) : AuthInv verifyPassword s :=
  h.inv (AuthInv.init row) fun _ _ _ hi hs => hi.step hs

/-! ## Failed writes -/

/-- The error of the database write of a section. -/
def AuthEvent.writeFault : AuthEvent → Option Text
  | .create _ _ _ _ faults => faults.write
  | .change _ _ _ _ _ faults => faults.write
  | .setLocally _ _ _ faults => faults.write
  | .reset faults => faults.write
  | _ => none

theorem authStep_failed (hc : s.credentials.Coherent) (hw : e.writeFault.isSome)
    (h : authStep verifyPassword tokenKey s e = some s') :
    ∃ c, s.credentials.Loads c ∧ s' = s.keep c := by
  have hfault : ∀ {faults : DbFaults}, faults.write.isSome → faults.write ≠ none := by
    rintro faults hsome hnone
    rw [hnone] at hsome
    cases hsome
  cases e with
  | create web password phc unixNow faults =>
    simp only [authStep] at h
    split at h
    all_goals rename_i hcred; cases h
    all_goals rcases createInitialPassword_cases hc hcred with ⟨⟨_, hr⟩, hloads⟩ | ⟨hr, -, hok, -⟩
    · exact ⟨_, hloads, rfl⟩
    · exact absurd hok (hfault hw)
    · cases hr
    · exact absurd hok (hfault hw)
  | change cookieHeader currentPassword newPassword phc unixNow faults =>
    simp only [authStep] at h
    split at h
    all_goals rename_i hcred; cases h
    all_goals rcases changeCredential_cases hc hcred with ⟨⟨_, hr⟩, hloads⟩ | ⟨hr, -, hok, -⟩
    · exact ⟨_, hloads, rfl⟩
    · exact absurd hok (hfault hw)
    · cases hr
    · exact absurd hok (hfault hw)
  | setLocally password phc unixNow faults =>
    simp only [authStep] at h
    split at h
    all_goals rename_i hcred; cases h
    all_goals rcases storePassword_cases hcred with ⟨⟨_, hr⟩, rfl⟩ | ⟨hr, hok, -⟩
    · exact ⟨_, .refl _, rfl⟩
    · exact absurd hok (hfault hw)
    · cases hr
    · exact absurd hok (hfault hw)
  | reset faults =>
    simp only [authStep] at h
    split at h
    all_goals rename_i hcred; cases h
    all_goals rcases clearCredential_cases hcred with ⟨⟨_, hr⟩, rfl⟩ | ⟨⟨_, hr⟩, hok, -⟩
    · exact ⟨_, .refl _, rfl⟩
    · exact absurd hok (hfault hw)
    · cases hr
    · exact absurd hok (hfault hw)
  | _ => cases hw

/-- **The cache is the row, and there is one first setup**, in every interleaving
    and with every failure of the database. -/
theorem credentials_coherent {row : Option WebAdminCredential}
    (h : (authMachine verifyPassword tokenKey row).Reachable s) :
    (s.credentials.cache.loaded →
      s.credentials.cache.passwordHash = s.credentials.row.map (·.passwordHash)) ∧
    s.created ≤ 1 ∧
    ∀ e s', e.writeFault.isSome → authStep verifyPassword tokenKey s e = some s' →
      ∃ c, s.credentials.Loads c ∧ s' = s.keep c := by
  have hi := authInv h
  refine ⟨fun hloaded => ?_, hi.created, fun e s' hw hs => authStep_failed hi.coherent hw hs⟩
  rw [hi.coherent hloaded]
  rfl

end

/-! ## A small run -/

/-- A stand-in for the check of a hash: the hash of a password is the password
    behind a mark. -/
def markedPassword (stored password : Text) : Except Text Bool := .ok (stored == '#' :: password)

def noKey (_ : Text) : SessionKey := Vector.replicate 32 0

def firstPassword : Text := "longenough".toList

/-- After the first setup. -/
def afterSetup : AuthState :=
  ⟨⟨some ⟨'#' :: firstPassword, 5⟩, .ofRow (some ⟨'#' :: firstPassword, 5⟩)⟩, [], [],
    [none, some ('#' :: firstPassword)], [⟨1, none⟩], 1⟩

theorem afterSetup_coherent :
    (afterSetup.credentials.cache.loaded → afterSetup.credentials.cache.passwordHash =
      afterSetup.credentials.row.map (·.passwordHash)) ∧
    afterSetup.created ≤ 1 ∧
    ∀ e s', e.writeFault.isSome → authStep markedPassword noKey afterSetup e = some s' →
      ∃ c, afterSetup.credentials.Loads c ∧ s' = afterSetup.keep c :=
  @credentials_coherent markedPassword noKey _ none
    ⟨[.create false firstPassword (.ok ('#' :: firstPassword)) 5 {}], by decide⟩

/-- A first setup whose insertion fails has loaded the cache. -/
theorem failedSetup_loads :
    ((authMachine markedPassword noKey none).run (authMachine markedPassword noKey none).init
      [.create true firstPassword (.ok ('#' :: firstPassword)) 5 { write := some ['!'] }]).map
        (·.credentials) = some ⟨none, ⟨true, none, none⟩⟩ ∧
    (authMachine markedPassword noKey none).init.credentials = ⟨none, ⟨false, none, none⟩⟩ := by
  decide

end DnsBlackhole.Admin
