/-
  Logins after a password change (`web_auth.rs`).

  A login verifies its password with a hash it has read before, and a password
  change writes the hash before it drops the sessions; in between, other calls
  work.  As long as no session is issued for a password that a completed change
  has replaced, and no first setup finds sessions left over from before a reset,
  a completed change ends all logins before it (`sessions_verified`).  A login
  that was under way during the change does not end (`overtaken_login`).
-/
import DnsBlackhole.Admin.AuthRuns

namespace DnsBlackhole.Admin
open Lib

/-- The event `e` overtakes no password change in `s`: a session is issued for a
    password that was still in force when each completed change completed, and a
    first setup sets the password when no session is left. -/
def InOrder (s : AuthState) : AuthEvent → Prop
  | .issue i _ _ _ => ∀ origin, s.calls[i]? = some (.issue origin) →
      ∀ change ∈ s.completed, change.version ≤ origin.version
  | .create _ _ _ _ _ => s.credentials.row = none → s.sessions = []
  | _ => True

/-- After a password change, a session is for a password that was in force when
    the change completed or later, or it is the one that was kept. -/
def ChangesEnd (s : AuthState) : Prop :=
  ∀ change ∈ s.completed, ∀ session ∈ s.sessions,
    change.keep = some session.key ∨ change.version ≤ session.origin.version

section
variable {verifyPassword : Text → Text → Except Text Bool} {tokenKey : Text → SessionKey}
  {s s' : AuthState} {e : AuthEvent}

theorem ChangesEnd.step (hi : AuthInv verifyPassword s) (hs : ChangesEnd s) (hok : InOrder s e)
    (h : authStep verifyPassword tokenKey s e = some s') : ChangesEnd s' := by
  cases authStep_move hi.coherent h with
  | quiet _ hss _ =>
    intro change hchange session hsession
    obtain ⟨y, hy, hkey, horigin⟩ := hss session hsession
    rw [← hkey, ← horigin]
    exact hs change hchange y hy
  | login => exact hs
  | verified => exact hs
  | @issued i token idle now origin hcall =>
    intro change hchange session hsession
    rcases mem_issueSession hsession with hsession | rfl
    · exact hs change hchange session hsession
    · exact .inr (hok origin hcall change hchange)
  | @created web password phc unixNow faults hash calls hrow _ =>
    -- no session is left that the new password could meet
    intro change hchange session hsession
    have hnil : s.sessions = [] := hok hrow
    have hsession : session ∈ s.sessions := hsession
    rw [hnil] at hsession
    cases hsession
  | changed => exact hs
  | cleared => exact hs
  | @retained _ i keep =>
    intro change hchange session hsession
    obtain ⟨hmem, hkeep⟩ := mem_retainOnlySession hsession
    rcases List.mem_append.1 hchange with hchange | hchange
    · exact hs change hchange session hmem
    · obtain rfl := List.mem_singleton.1 hchange
      exact .inl hkeep

/-- **A password change ends old logins**: after it has completed, every session a
    request is accepted for was issued for a verification of the password in force
    then, or later, unless it is the one the change has kept. -/
theorem sessions_verified {row : Option WebAdminCredential} {es : List AuthEvent}
    (hg : (authMachine verifyPassword tokenKey row).Guarded InOrder
      (authMachine verifyPassword tokenKey row).init es)
    (h : (authMachine verifyPassword tokenKey row).run
      (authMachine verifyPassword tokenKey row).init es = some s) :
    ∀ change ∈ s.completed, ∀ key idle now session,
      acceptedSession key idle now s.sessions = some session →
      change.keep = some key ∨ change.version ≤ session.origin.version ∧
        session.origin.Verified verifyPassword s.history := by
  have hinv : AuthInv verifyPassword s ∧ ChangesEnd s :=
    Machine.Guarded.inv (P := fun s => AuthInv verifyPassword s ∧ ChangesEnd s)
      (fun s e s' hs hok hstep => ⟨hs.1.step hstep, hs.2.step hs.1 hok hstep⟩) es
      ⟨AuthInv.init row, fun _ h => nomatch h⟩ hg h
  intro change hchange key idle now session haccepted
  obtain ⟨hmem, rfl⟩ := mem_of_acceptedSession haccepted
  rcases hinv.2 change hchange session hmem with hkeep | hversion
  · exact .inl hkeep
  · exact .inr ⟨hversion, hinv.1.sessions session hmem⟩

end

/-! ## Small runs -/

def secondPassword : Text := "evenlonger".toList

/-- The origin of a session for the first password. -/
def firstLogin : SessionOrigin := .login 1 ('#' :: firstPassword) firstPassword

/-- After the first setup and a login. -/
def afterLogin : AuthState :=
  { afterSetup with sessions := [⟨noKey ['t'], 7, 7, firstLogin⟩] }

/-- One login after the first setup. -/
theorem afterLogin_verified :
    acceptedSession (noKey ['t']) 60 8 afterLogin.sessions =
      some ⟨noKey ['t'], 7, 7, firstLogin⟩ ∧
    ((⟨1, none⟩ : CompletedChange).keep = some (noKey ['t']) ∨
      1 ≤ firstLogin.version ∧ firstLogin.Verified markedPassword afterLogin.history) := by
  have haccepted : acceptedSession (noKey ['t']) 60 8 afterLogin.sessions =
      some ⟨noKey ['t'], 7, 7, firstLogin⟩ := by decide
  refine ⟨haccepted, @sessions_verified markedPassword noKey afterLogin none
    [.create false firstPassword (.ok ('#' :: firstPassword)) 5 {}, .login firstPassword {},
      .verify 0 none, .issue 0 (.ok ['t']) 60 7] ?_ (by decide) ⟨1, none⟩ (by decide) _ 60 8 _
    haccepted⟩
  refine ⟨fun _ => rfl, afterSetup, by decide, trivial, afterSetup.wait (.verify firstPassword
    ('#' :: firstPassword) 1), by decide, trivial, afterSetup.wait (.issue firstLogin), by decide,
    ?_, afterLogin, by decide, trivial⟩
  rintro _ ⟨⟩ change hchange
  obtain rfl := List.mem_singleton.1 hchange
  exact Nat.le_refl 1

/-- A login has read the hash and verified its password when the password is
    changed on the machine itself; the change completes, and the login issues its
    session. -/
def overtakingLogin : List AuthEvent :=
  [.create false firstPassword (.ok ('#' :: firstPassword)) 5 {}, .login firstPassword {},
    .verify 0 none, .setLocally secondPassword (.ok ('#' :: secondPassword)) 6 {}, .retain 1,
    .issue 0 (.ok ['t']) 60 7]

/-- **A login that is under way during the change does not end**: its session is
    accepted after the change, and it is for the password before. -/
theorem overtakingLogin_accepted :
    ((authMachine markedPassword noKey none).run (authMachine markedPassword noKey none).init
      overtakingLogin).map (fun s => (s.completed, s.credentials.row.map (·.passwordHash),
        (acceptedSession (noKey ['t']) 60 8 s.sessions).map (·.origin))) =
      some ([⟨1, none⟩, ⟨2, none⟩], some ('#' :: secondPassword), some firstLogin) ∧
    firstLogin.version = 1 := by
  decide

end DnsBlackhole.Admin
