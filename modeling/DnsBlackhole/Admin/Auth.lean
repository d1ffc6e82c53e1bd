/-
  Passwords and sessions of the web administration (`web_auth.rs`).

  A call works in sections under one lock each.  Under the lock of the credential
  it loads the cached row, checks it and writes the database and the cache
  (`createInitialPassword`, `changeCredential`, `storePassword`,
  `clearCredential`); under the lock of the sessions it issues, looks up or drops
  sessions.  A database call can fail, and has no effect then (`DbFaults`).

  What a section does to the credential is one of four things
  (`Credentials.Moves`): nothing, loading the cache, writing a hash, clearing it.
-/
import Mathlib.Data.List.FinRange
import DnsBlackhole.Text

namespace DnsBlackhole.Admin

/-! ## Failures and passwords -/

inductive AuthFailure
  | setupRequired
  | alreadyConfigured
  | unauthenticated
  | invalidPassword
  | locked (retryAfterSeconds : UInt64)
  | invalid (message : Text)
  | internal (message : Text)
  deriving DecidableEq

def minPasswordChars : ℕ := 8
def maxPasswordBytes : ℕ := 128

/-- `char::is_control`. -/
def isControl (c : Char) : Bool := c.toNat < 0x20 || (0x7F ≤ c.toNat && c.toNat < 0xA0)

def validatePassword (password : Text) : Except AuthFailure Unit :=
  if password.length < minPasswordChars then
    .error (.invalid ("管理密码至少需要 ".toList ++ Nat.toDigits 10 minPasswordChars ++
      " 个字符".toList))
  else if password.len > maxPasswordBytes then
    .error (.invalid ("管理密码不能超过 ".toList ++ Nat.toDigits 10 maxPasswordBytes ++
      " 字节".toList))
  else if password.any isControl then .error (.invalid "管理密码不能包含控制字符".toList)
  else .ok ()

/-! ## The credential -/

/-- The row of the database. -/
structure WebAdminCredential where
  passwordHash : Text
  updatedAt : UInt64
  deriving DecidableEq

structure CredentialCache where
  loaded : Bool := false
  passwordHash : Option Text := none
  updatedAt : Option UInt64 := none
  deriving DecidableEq

/-- The cache of a row. -/
def CredentialCache.ofRow (row : Option WebAdminCredential) : CredentialCache :=
  ⟨true, row.map (·.passwordHash), row.map (·.updatedAt)⟩

/-- What the lock of the credential guards. -/
structure Credentials where
  row : Option WebAdminCredential
  cache : CredentialCache := {}
  deriving DecidableEq

/-- The errors of the database calls of a section; `none` where one succeeds. -/
structure DbFaults where
  load : Option Text := none
  write : Option Text := none
  reload : Option Text := none
  deriving DecidableEq

def webAdminCredential (fault : Option Text) (row : Option WebAdminCredential) :
    Except Text (Option WebAdminCredential) :=
  match fault with
  | some error => .error error
  | none => .ok row

/-- Inserts the row if there is none. -/
def createWebAdminCredential (fault : Option Text) (row : Option WebAdminCredential)
    (passwordHash : Text) (now : UInt64) :
    Except Text (Option UInt64) × Option WebAdminCredential :=
  match fault, row with
  | some error, row => (.error error, row)
  | none, some stored => (.ok none, some stored)
  | none, none => (.ok (some now), some ⟨passwordHash, now⟩)

def saveWebAdminCredential (fault : Option Text) (row : Option WebAdminCredential)
    (passwordHash : Text) (now : UInt64) : Except Text UInt64 × Option WebAdminCredential :=
  match fault with
  | some error => (.error error, row)
  | none => (.ok now, some ⟨passwordHash, now⟩)

def clearWebAdminCredential (fault : Option Text) (row : Option WebAdminCredential) :
    Except Text Bool × Option WebAdminCredential :=
  match fault with
  | some error => (.error error, row)
  | none => (.ok row.isSome, none)

def loadCredentialCache (fault : Option Text) (row : Option WebAdminCredential)
    (cache : CredentialCache) : Except Text CredentialCache :=
  if cache.loaded then .ok cache
  else (webAdminCredential fault row).map .ofRow

def credentialHash (faults : DbFaults) (c : Credentials) :
    Except Text (Option Text) × Credentials :=
  match loadCredentialCache faults.load c.row c.cache with
  | .error error => (.error error, c)
  | .ok cache => (.ok cache.passwordHash, { c with cache := cache })

/-- `create_initial_password`; `phc` is the result of hashing the password. -/
def createInitialPassword (password : Text) (phc : Except Text Text) (now : UInt64)
    (faults : DbFaults) (c : Credentials) : Except AuthFailure Unit × Credentials :=
  match validatePassword password, phc with
  | .error failure, _ => (.error failure, c)
  | .ok (), .error error => (.error (.internal error), c)
  | .ok (), .ok phc =>
    match loadCredentialCache faults.load c.row c.cache with
    | .error error => (.error (.internal error), c)
    | .ok cache =>
      if cache.passwordHash.isSome then (.error .alreadyConfigured, { c with cache := cache })
      else match createWebAdminCredential faults.write c.row phc now with
        | (.error error, row) => (.error (.internal error), ⟨row, cache⟩)
        | (.ok none, row) =>
          match webAdminCredential faults.reload row with
          | .error error => (.error (.internal error), ⟨row, cache⟩)
          | .ok stored => (.error .alreadyConfigured, ⟨row, .ofRow stored⟩)
        | (.ok (some updatedAt), row) => (.ok (), ⟨row, ⟨true, some phc, some updatedAt⟩⟩)

section
variable (verifyPassword : Text → Text → Except Text Bool)

/-- `change_password` up to the end of the section of the credential. -/
def changeCredential (currentPassword newPassword : Text) (phc : Except Text Text) (now : UInt64)
    (faults : DbFaults) (c : Credentials) : Except AuthFailure Unit × Credentials :=
  match validatePassword newPassword, phc with
  | .error failure, _ => (.error failure, c)
  | .ok (), .error error => (.error (.internal error), c)
  | .ok (), .ok phc =>
    match loadCredentialCache faults.load c.row c.cache with
    | .error error => (.error (.internal error), c)
    | .ok cache =>
      match cache.passwordHash with
      | none => (.error .setupRequired, { c with cache := cache })
      | some stored =>
        match verifyPassword stored currentPassword with
        | .error error => (.error (.internal error), { c with cache := cache })
        | .ok false => (.error .invalidPassword, { c with cache := cache })
        | .ok true =>
          match saveWebAdminCredential faults.write c.row phc now with
          | (.error error, row) => (.error (.internal error), ⟨row, cache⟩)
          | (.ok updatedAt, row) => (.ok (), ⟨row, { cache with
              passwordHash := some phc, updatedAt := some updatedAt }⟩)

end

def storePassword (password : Text) (phc : Except Text Text) (now : UInt64) (faults : DbFaults)
    (c : Credentials) : Except AuthFailure Unit × Credentials :=
  match validatePassword password, phc with
  | .error failure, _ => (.error failure, c)
  | .ok (), .error error => (.error (.internal error), c)
  | .ok (), .ok phc =>
    match saveWebAdminCredential faults.write c.row phc now with
    | (.error error, row) => (.error (.internal error), { c with row := row })
    | (.ok updatedAt, row) => (.ok (), ⟨row, ⟨true, some phc, some updatedAt⟩⟩)

/-- `reset_password` up to the end of the section of the credential. -/
def clearCredential (faults : DbFaults) (c : Credentials) : Except AuthFailure Bool × Credentials :=
  match clearWebAdminCredential faults.write c.row with
  | (.error error, row) => (.error (.internal error), { c with row := row })
  | (.ok removed, row) => (.ok removed, ⟨row, ⟨true, none, none⟩⟩)

/-! ## Sessions -/

/-- A digest of a token. -/
abbrev SessionKey := Vector UInt8 32

def constantTimeEq (left right : SessionKey) : Bool :=
  (List.finRange 32).foldl (fun diff index => diff ||| (left[index] ^^^ right[index])) 0 == 0

/-- For whom a session is issued, by the number of credential writes before: a
    login has verified a password with the hash of that time; the first setup has
    written the hash itself. -/
inductive SessionOrigin
  | login (version : ℕ) (stored password : Text)
  | setup (version : ℕ)
  deriving DecidableEq

def SessionOrigin.version : SessionOrigin → ℕ
  | .login version _ _ => version
  | .setup version => version

/-- A session, with its origin, which the program does not keep.  Times count
    nanoseconds. -/
structure SessionEntry where
  key : SessionKey
  createdAt : ℕ
  lastSeenAt : ℕ
  origin : SessionOrigin
  deriving DecidableEq

def sessionAbsoluteLifetime : ℕ := 12 * 3600 * 1000000000
def maxSessions : ℕ := 16

def pruneSessions (idle now : ℕ) (sessions : List SessionEntry) : List SessionEntry :=
  sessions.filter fun session =>
    now - session.createdAt ≤ sessionAbsoluteLifetime && now - session.lastSeenAt ≤ idle

def issueSession (key : SessionKey) (origin : SessionOrigin) (idle now : ℕ)
    (sessions : List SessionEntry) : List SessionEntry :=
  let sessions := pruneSessions idle now sessions
  let sessions := if sessions.length ≥ maxSessions then sessions.tail else sessions
  sessions ++ [⟨key, now, now, origin⟩]

/-- The last place of a key. -/
def matchedSession (key : SessionKey) (sessions : List SessionEntry) : Option ℕ :=
  sessions.zipIdx.foldl (fun found session =>
    if constantTimeEq session.1.key key then some session.2 else found) none

def touchSession (key : SessionKey) (idle now : ℕ) (sessions : List SessionEntry) :
    Bool × List SessionEntry :=
  let sessions := pruneSessions idle now sessions
  match matchedSession key sessions with
  | some index =>
    (true, sessions.modify index fun session => { session with lastSeenAt := now })
  | none => (false, sessions)

def removeSession (key : SessionKey) (sessions : List SessionEntry) : List SessionEntry :=
  sessions.filter fun session => !constantTimeEq session.key key

def retainOnlySession (keep : Option SessionKey) (sessions : List SessionEntry) :
    List SessionEntry :=
  match keep with
  | some key => sessions.filter fun session => constantTimeEq session.key key
  | none => []

def sessionCookie : Text := "dnsblackhole_session".toList

def sessionTokenFromCookies (header : Text) : Option Text :=
  ((((header.split (· == ';')).filterMap (Text.splitOnce (· == '='))).find? fun cookie =>
    cookie.1.trim = sessionCookie).map fun cookie => cookie.2.trim).filter (· ≠ [])

/-! ## What a section does -/

namespace Credentials

/-- A loaded cache is the cache of the row. -/
def Coherent (c : Credentials) : Prop := c.cache.loaded → c.cache = .ofRow c.row

/-- At most the cache has been loaded. -/
def Loads (c d : Credentials) : Prop :=
  d = c ∨ c.cache.loaded = false ∧ d = { c with cache := .ofRow c.row }

/-- The credential after a row has been written. -/
def written (row : Option WebAdminCredential) : Credentials := ⟨row, .ofRow row⟩

variable {c d : Credentials}

theorem Loads.refl (c : Credentials) : c.Loads c := .inl rfl

theorem Loads.row_eq (h : c.Loads d) : d.row = c.row := by
  rcases h with rfl | ⟨-, rfl⟩ <;> rfl

theorem coherent_written (row : Option WebAdminCredential) : (written row).Coherent := fun _ => rfl

theorem Loads.coherent (h : c.Loads d) (hc : c.Coherent) : d.Coherent := by
  rcases h with rfl | ⟨-, rfl⟩
  · exact hc
  · exact fun _ => rfl

theorem Coherent.load {fault : Option Text} {cache : CredentialCache} (hc : c.Coherent)
    (h : loadCredentialCache fault c.row c.cache = .ok cache) :
    cache = .ofRow c.row ∧ c.Loads { c with cache := cache } := by
  unfold loadCredentialCache at h
  split_ifs at h with hloaded
  · cases h
    exact ⟨hc hloaded, .inl rfl⟩
  · cases fault with
    | some error => cases h
    | none =>
      cases h
      exact ⟨rfl, .inr ⟨by simpa using hloaded, rfl⟩⟩

end Credentials

section
variable {c d : Credentials} {faults : DbFaults} {password : Text} {phc : Except Text Text}
  {now : UInt64}

theorem credentialHash_cases {r : Except Text (Option Text)} (hc : c.Coherent)
    (h : credentialHash faults c = (r, d)) :
    c.Loads d ∧ ∀ hash, r = .ok hash → hash = c.row.map (·.passwordHash) := by
  unfold credentialHash at h
  split at h
  · cases h
    exact ⟨.refl c, fun _ h => nomatch h⟩
  · rename_i cache hload
    obtain ⟨rfl, hloads⟩ := hc.load hload
    cases h
    refine ⟨hloads, ?_⟩
    rintro hash ⟨⟩
    rfl

theorem createInitialPassword_cases {r : Except AuthFailure Unit} (hc : c.Coherent)
    (h : createInitialPassword password phc now faults c = (r, d)) :
    (∃ failure, r = .error failure) ∧ c.Loads d ∨
      r = .ok () ∧ c.row = none ∧ faults.write = none ∧
        ∃ hash, d = .written (some ⟨hash, now⟩) := by
  unfold createInitialPassword at h
  split at h
  · cases h
    exact .inl ⟨⟨_, rfl⟩, .refl c⟩
  · cases h
    exact .inl ⟨⟨_, rfl⟩, .refl c⟩
  rename_i hash _
  split at h
  · cases h
    exact .inl ⟨⟨_, rfl⟩, .refl c⟩
  rename_i cache hload
  obtain ⟨hcache, hloads⟩ := hc.load hload
  by_cases hset : cache.passwordHash.isSome
  · rw [if_pos hset] at h
    cases h
    exact .inl ⟨⟨_, rfl⟩, hloads⟩
  · rw [if_neg hset] at h
    have hrow : c.row = none := by
      rw [hcache] at hset
      simpa [CredentialCache.ofRow] using hset
    cases hw : faults.write with
    | some error =>
      simp only [hw, createWebAdminCredential] at h
      cases h
      exact .inl ⟨⟨_, rfl⟩, hloads⟩
    | none =>
      simp only [hw, hrow, createWebAdminCredential] at h
      cases h
      exact .inr ⟨rfl, hrow, rfl, hash, rfl⟩

theorem changeCredential_cases {verifyPassword : Text → Text → Except Text Bool}
    {currentPassword : Text} {r : Except AuthFailure Unit} (hc : c.Coherent)
    (h : changeCredential verifyPassword currentPassword password phc now faults c = (r, d)) :
    (∃ failure, r = .error failure) ∧ c.Loads d ∨
      r = .ok () ∧ c.row ≠ none ∧ faults.write = none ∧
        ∃ hash, d = .written (some ⟨hash, now⟩) := by
  unfold changeCredential at h
  split at h
  · cases h
    exact .inl ⟨⟨_, rfl⟩, .refl c⟩
  · cases h
    exact .inl ⟨⟨_, rfl⟩, .refl c⟩
  rename_i hash _
  split at h
  · cases h
    exact .inl ⟨⟨_, rfl⟩, .refl c⟩
  rename_i cache hload
  obtain ⟨hcache, hloads⟩ := hc.load hload
  split at h
  · cases h
    exact .inl ⟨⟨_, rfl⟩, hloads⟩
  rename_i stored hstored
  split at h
  · cases h
    exact .inl ⟨⟨_, rfl⟩, hloads⟩
  · cases h
    exact .inl ⟨⟨_, rfl⟩, hloads⟩
  cases hw : faults.write with
  | some error =>
    simp only [hw, saveWebAdminCredential] at h
    cases h
    exact .inl ⟨⟨_, rfl⟩, hloads⟩
  | none =>
    simp only [hw, saveWebAdminCredential, hcache] at h
    cases h
    refine .inr ⟨rfl, fun hrow => ?_, rfl, hash, rfl⟩
    rw [hcache, hrow] at hstored
    cases hstored

theorem storePassword_cases {r : Except AuthFailure Unit}
    (h : storePassword password phc now faults c = (r, d)) :
    (∃ failure, r = .error failure) ∧ d = c ∨
      r = .ok () ∧ faults.write = none ∧ ∃ hash, d = .written (some ⟨hash, now⟩) := by
  unfold storePassword at h
  split at h
  · cases h
    exact .inl ⟨⟨_, rfl⟩, rfl⟩
  · cases h
    exact .inl ⟨⟨_, rfl⟩, rfl⟩
  rename_i hash _
  cases hw : faults.write with
  | some error =>
    simp only [hw, saveWebAdminCredential] at h
    cases h
    exact .inl ⟨⟨_, rfl⟩, rfl⟩
  | none =>
    simp only [hw, saveWebAdminCredential] at h
    cases h
    exact .inr ⟨rfl, rfl, hash, rfl⟩

theorem clearCredential_cases {r : Except AuthFailure Bool}
    (h : clearCredential faults c = (r, d)) :
    (∃ failure, r = .error failure) ∧ d = c ∨
      (∃ removed, r = .ok removed) ∧ faults.write = none ∧ d = .written none := by
  unfold clearCredential at h
  cases hw : faults.write with
  | some error =>
    simp only [hw, clearWebAdminCredential] at h
    cases h
    exact .inl ⟨⟨_, rfl⟩, rfl⟩
  | none =>
    simp only [hw, clearWebAdminCredential] at h
    cases h
    exact .inr ⟨⟨_, rfl⟩, rfl, rfl⟩

end

/-! ## What the sessions are -/

section
variable {idle now : ℕ} {key : SessionKey} {sessions : List SessionEntry} {e : SessionEntry}

theorem foldl_or_eq_zero {ι : Type*} (f : ι → UInt8) (l : List ι) (acc : UInt8) :
    l.foldl (fun diff i => diff ||| f i) acc = 0 ↔ acc = 0 ∧ ∀ i ∈ l, f i = 0 := by
  induction l generalizing acc with
  | nil => simp
  | cons i l ih =>
    rw [List.foldl_cons, ih, UInt8.or_eq_zero_iff, List.forall_mem_cons, and_assoc]

theorem constantTimeEq_iff {left right : SessionKey} :
    constantTimeEq left right ↔ left = right := by
  rw [constantTimeEq, beq_iff_eq, foldl_or_eq_zero]
  simp only [true_and, List.mem_finRange, true_imp_iff, UInt8.xor_eq_zero_iff]
  constructor
  · exact fun h => Vector.ext fun i hi => h ⟨i, hi⟩
  · rintro rfl i
    rfl

theorem getElem?_matchedSession {i : ℕ} (h : matchedSession key sessions = some i) :
    ∃ e, sessions[i]? = some e ∧ e.key = key := by
  have hfold : ∀ (l : List (SessionEntry × ℕ)) (found : Option ℕ),
      l.foldl (fun found session =>
        if constantTimeEq session.1.key key then some session.2 else found) found = some i →
      found = some i ∨ ∃ e, (e, i) ∈ l ∧ e.key = key := by
    intro l
    induction l with
    | nil => exact fun found h => .inl h
    | cons session l ih =>
      intro found h
      rcases ih _ h with h | ⟨e, he, hkey⟩
      · dsimp only at h
        split_ifs at h with hkey
        · cases h
          exact .inr ⟨session.1, List.mem_cons_self, constantTimeEq_iff.1 hkey⟩
        · exact .inl h
      · exact .inr ⟨e, List.mem_cons_of_mem _ he, hkey⟩
  rcases hfold _ _ h with h | ⟨e, he, hkey⟩
  · cases h
  · exact ⟨e, List.mem_zipIdx_iff_getElem?.1 he, hkey⟩

theorem mem_of_mem_pruneSessions (h : e ∈ pruneSessions idle now sessions) : e ∈ sessions :=
  (List.mem_filter.1 h).1

theorem mem_issueSession {origin : SessionOrigin}
    (h : e ∈ issueSession key origin idle now sessions) :
    e ∈ sessions ∨ e = ⟨key, now, now, origin⟩ := by
  unfold issueSession at h
  rcases List.mem_append.1 h with h | h
  · suffices hmem : e ∈ pruneSessions idle now sessions from .inl (mem_of_mem_pruneSessions hmem)
    split_ifs at h
    · exact List.mem_of_mem_tail h
    · exact h
  · exact .inr (List.mem_singleton.1 h)

/-- The session a request with a key is accepted for. -/
def acceptedSession (key : SessionKey) (idle now : ℕ) (sessions : List SessionEntry) :
    Option SessionEntry :=
  (matchedSession key (pruneSessions idle now sessions)).bind fun i =>
    (pruneSessions idle now sessions)[i]?

theorem mem_of_acceptedSession (h : acceptedSession key idle now sessions = some e) :
    e ∈ sessions ∧ e.key = key := by
  obtain ⟨i, hi, he⟩ := Option.bind_eq_some_iff.1 h
  obtain ⟨e', he', hkey⟩ := getElem?_matchedSession hi
  rw [he] at he'
  cases he'
  exact ⟨mem_of_mem_pruneSessions (List.mem_of_getElem? he), hkey⟩

theorem mem_touchSession (h : e ∈ (touchSession key idle now sessions).2) :
    ∃ e' ∈ sessions, e'.key = e.key ∧ e'.origin = e.origin := by
  unfold touchSession at h
  dsimp only at h
  cases hm : matchedSession key (pruneSessions idle now sessions) with
  | none =>
    rw [hm] at h
    exact ⟨e, mem_of_mem_pruneSessions h, rfl, rfl⟩
  | some i =>
    rw [hm] at h
    obtain ⟨j, hj⟩ := List.mem_iff_getElem?.1 h
    dsimp only at hj
    rw [List.getElem?_modify, Option.map_eq_map, Option.map_eq_some_iff] at hj
    obtain ⟨e', he', rfl⟩ := hj
    refine ⟨e', mem_of_mem_pruneSessions (List.mem_of_getElem? he'), ?_⟩
    by_cases hij : i = j <;> simp [hij]

theorem mem_removeSession (h : e ∈ removeSession key sessions) : e ∈ sessions :=
  (List.mem_filter.1 h).1

theorem mem_retainOnlySession {keep : Option SessionKey}
    (h : e ∈ retainOnlySession keep sessions) : e ∈ sessions ∧ keep = some e.key := by
  cases keep with
  | none => cases h
  | some key =>
    obtain ⟨hmem, hkey⟩ := List.mem_filter.1 h
    exact ⟨hmem, congrArg some (constantTimeEq_iff.1 hkey).symm⟩

end

end DnsBlackhole.Admin
