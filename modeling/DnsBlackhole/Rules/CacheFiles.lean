/-
  The files of compiled rules (`save_rule_cache` and `clear_rule_cache` of
  `dns/rule_cache.rs`).

  Saves and a clearing take their steps in any order, each a file operation that may fail.
  A directory that is read shows what is there all the time; a file that comes or goes in
  between is shown or is not.

  * `Inv.step`: from the clearing on, a save that has passed its check has its temporary file
    still in front of the walk, or not at all;
  * **`staysCleared`**: along every run where saves have temporary files of their own, no
    fingerprint is that of no rules and discarding a temporary file does not fail, nothing
    is put back behind a clearing.
-/
import DnsBlackhole.Lib.Machine
import DnsBlackhole.Pieces

namespace DnsBlackhole.Rules.CacheFiles
open Lib

/-! ## Names -/

def ruleCacheFile : Text := ".compiled-rules-v3.postcard".toList

def legacyRuleCacheFiles : List Text :=
  [".compiled-rules-v1.postcard".toList, ".compiled-rules-v2.postcard".toList]

def temporaryFile (pid nonce : ℕ) : Text :=
  ruleCacheFile ++ '.' :: Nat.toDigits 10 pid ++ '.' :: Nat.toDigits 10 nonce ++ ".tmp".toList

def isRuleCacheFile (fileName : Text) : Bool :=
  (ruleCacheFile :: legacyRuleCacheFiles).any fun cacheFile =>
    fileName == cacheFile ||
      ((cacheFile ++ ['.']).isPrefixOf fileName && ".tmp".toList.isSuffixOf fileName)

/-! ## The directory -/

/-- The names of the files in the directory of the lists. -/
abbrev Files := List Text

def Files.remove (files : Files) (name : Text) : Files := files.filter (· ≠ name)

def Files.create (files : Files) (name : Text) : Files := name :: files.remove name

/-! ## Saves -/

inductive SaveStage
  | starting
  | creating
  | writing
  | checking
  | replacing
  | removing
  | enabling
  | tidying (legacy : List Text)
  | discarding
  | finished
  deriving DecidableEq

structure SaveTask where
  fingerprint : UInt64
  /-- The path of the temporary file, once it is made up. -/
  temporary : Option Text
  stage : SaveStage
  deriving DecidableEq

def SaveTask.removeTemporary (task : SaveTask) (files : Files) : Files :=
  match task.temporary with
  | some temporary => files.remove temporary
  | none => files

/-- The next file operation of `save_rule_cache`, for a cache that has to be the latest; `ok`
    if it succeeds. -/
def SaveTask.next (pid nonce : ℕ) (ok : Bool) (latest : UInt64) (files : Files)
    (task : SaveTask) : SaveTask × Files :=
  match task.stage with
  | .starting =>
    if ok then
      ({ task with temporary := some (temporaryFile pid nonce), stage := .creating }, files)
    else ({ task with stage := .finished }, files)
  | .creating =>
    match ok, task.temporary with
    | true, some temporary => ({ task with stage := .writing }, files.create temporary)
    | _, _ => ({ task with stage := .discarding }, files)
  | .writing => ({ task with stage := if ok then .checking else .discarding }, files)
  | .checking =>
    -- a cache that is not the latest is given up, without an error
    ({ task with stage := if latest ≠ task.fingerprint then .discarding else .replacing }, files)
  | .replacing =>
    ({ task with stage := if ok ∧ ruleCacheFile ∈ files then .removing else .enabling }, files)
  | .removing =>
    if ok ∧ ruleCacheFile ∈ files then
      ({ task with stage := .enabling }, files.remove ruleCacheFile)
    else ({ task with stage := .discarding }, files)
  | .enabling =>
    match ok, task.temporary with
    | true, some temporary =>
      if temporary ∈ files then
        ({ task with stage := .tidying legacyRuleCacheFiles },
          (files.remove temporary).create ruleCacheFile)
      else ({ task with stage := .discarding }, files)
    | _, _ => ({ task with stage := .discarding }, files)
  | .tidying (legacy :: rest) =>
    ({ task with stage := .tidying rest }, if ok then files.remove legacy else files)
  | .tidying [] => ({ task with stage := .finished }, files)
  | .discarding =>
    ({ task with stage := .finished }, if ok then task.removeTemporary files else files)
  | .finished => (task, files)

/-! ## The clearing -/

/-- `due` are the files that have been there since the directory was opened, and have not been
    shown. -/
inductive ClearStage
  | idle
  | started
  | walking (due : List Text)
  | inspecting (name : Text) (due : List Text)
  | removing (name : Text) (due : List Text)
  | finished (ok : Bool)
  deriving DecidableEq

/-- Files that are not there any more need not be shown. -/
def ClearStage.restrict (files : Files) : ClearStage → ClearStage
  | .walking due => .walking (due.filter (· ∈ files))
  | .inspecting name due => .inspecting name (due.filter (· ∈ files))
  | .removing name due => .removing name (due.filter (· ∈ files))
  | stage => stage

inductive ClearEvent
  | start
  /-- There is no directory. -/
  | absent
  | openDirectory
  | entry (name : Text)
  | metadata
  | remove
  | finish
  | fail

structure CacheState where
  /-- `LATEST_CACHE_FINGERPRINT` -/
  latest : UInt64
  files : Files
  saves : List SaveTask
  clear : ClearStage
  deriving DecidableEq

/-- The next step of `clear_rule_cache`. -/
def CacheState.clearStep (s : CacheState) : ClearEvent → Option CacheState
  | .start => if s.clear = .idle then some { s with latest := 0, clear := .started } else none
  | .absent =>
    if s.clear = .started ∧ s.files = [] then some { s with clear := .finished true } else none
  | .openDirectory =>
    if s.clear = .started then some { s with clear := .walking s.files } else none
  | .entry name =>
    match s.clear with
    | .walking due =>
      let due := due.filter (· ≠ name)
      some { s with clear := if isRuleCacheFile name then .inspecting name due else .walking due }
    | _ => none
  | .metadata =>
    match s.clear with
    | .inspecting name due =>
      some { s with clear := if name ∈ s.files then .removing name due else .finished false }
    | _ => none
  | .remove =>
    match s.clear with
    | .removing name due =>
      if name ∈ s.files then
        some { s with clear := .walking due, files := s.files.remove name }
      else some { s with clear := .finished false }
    | _ => none
  | .finish => if s.clear = .walking [] then some { s with clear := .finished true } else none
  | .fail =>
    match s.clear with
    | .idle | .finished _ => none
    | _ => some { s with clear := .finished false }

/-! ## Runs -/

inductive CacheEvent
  /-- A load makes its fingerprint the latest. -/
  | load (fingerprint : UInt64)
  /-- A load that had to compile starts a save. -/
  | persist (fingerprint : UInt64)
  | save (index nonce : ℕ) (ok : Bool)
  | clear (event : ClearEvent)

section
variable (pid : ℕ)

def CacheState.step (s : CacheState) : CacheEvent → Option CacheState
  | .load fingerprint => if s.clear = .idle then some { s with latest := fingerprint } else none
  | .persist fingerprint =>
    if s.clear = .idle then some { s with saves := s.saves ++ [⟨fingerprint, none, .starting⟩] }
    else none
  | .save index nonce ok =>
    match s.saves[index]? with
    | some task =>
      if task.stage = .finished then none
      else
        let (task, files) := task.next pid nonce ok s.latest s.files
        some { s with files, saves := s.saves.set index task, clear := s.clear.restrict files }
    | none => none
  | .clear event => s.clearStep event

/-- Saves and one clearing, from a directory with these files. -/
def cacheMachine (latest : UInt64) (files : Files) : Machine CacheState CacheEvent where
  init := { latest, files, saves := [], clear := .idle }
  step := CacheState.step pid

end

/-! ## Names of files -/

theorem Files.mem_remove {files : Files} {name other : Text} :
    other ∈ files.remove name ↔ other ∈ files ∧ other ≠ name := by
  rw [Files.remove, List.mem_filter, decide_eq_true_eq]

theorem Files.mem_create {files : Files} {name other : Text} :
    other ∈ files.create name ↔ other = name ∨ other ∈ files := by
  rw [Files.create, List.mem_cons, Files.mem_remove]
  by_cases h : other = name <;> simp [h]

theorem isRuleCacheFile_temporaryFile (pid nonce : ℕ) :
    isRuleCacheFile (temporaryFile pid nonce) = true := by
  have hstart : (ruleCacheFile ++ ['.']).isPrefixOf (temporaryFile pid nonce) = true := by
    rw [List.isPrefixOf_iff_prefix]
    refine ⟨Nat.toDigits 10 pid ++ '.' :: Nat.toDigits 10 nonce ++ ".tmp".toList, ?_⟩
    simp [temporaryFile]
  have hsuffix : ".tmp".toList.isSuffixOf (temporaryFile pid nonce) = true := by
    rw [List.isSuffixOf_iff_suffix]
    exact ⟨_, rfl⟩
  rw [isRuleCacheFile, List.any_cons, hstart, hsuffix]
  simp

theorem temporaryFile_ne_ruleCacheFile (pid nonce : ℕ) :
    temporaryFile pid nonce ≠ ruleCacheFile := by
  intro h
  have hlength := congrArg List.length h
  simp [temporaryFile] at hlength

/-! ## One step of a save -/

/-- The save has passed its check, and has not taken its file over. -/
def SaveStage.passed : SaveStage → Bool
  | .replacing | .removing | .enabling => true
  | _ => false

/-- The save has nothing more to do with its temporary file. -/
def SaveStage.over : SaveStage → Bool
  | .tidying _ | .finished => true
  | _ => false

section
variable (pid nonce : ℕ) (ok : Bool) (latest : UInt64) (files : Files) (task : SaveTask)

/-- What a step of a save can do. -/
inductive SaveMove : SaveTask → Files → Prop
  | named : task.stage = .starting →
      SaveMove { task with temporary := some (temporaryFile pid nonce), stage := .creating } files
  | notStarted : task.stage = .starting → SaveMove { task with stage := .finished } files
  | created (temporary : Text) : task.stage = .creating → task.temporary = some temporary →
      SaveMove { task with stage := .writing } (files.create temporary)
  | passed : task.stage = .checking → latest = task.fingerprint →
      SaveMove { task with stage := .replacing } files
  | enabled (temporary : Text) : task.stage = .enabling → task.temporary = some temporary →
      temporary ∈ files → SaveMove { task with stage := .tidying legacyRuleCacheFiles }
        ((files.remove temporary).create ruleCacheFile)
  | discarded : task.stage = .discarding → SaveMove { task with stage := .finished }
      (if ok then task.removeTemporary files else files)
  | tidied (stage : SaveStage) (files' : Files) : task.stage.over → stage.over →
      (∀ name ∈ files', name ∈ files) → SaveMove { task with stage := stage } files'
  | moved (stage : SaveStage) (files' : Files) : task.stage ≠ .starting → task.stage.over = false →
      stage ≠ .starting → stage.over = false → (stage.passed → task.stage.passed) →
      (∀ name ∈ files', name ∈ files) → SaveMove { task with stage := stage } files'

variable {pid nonce ok latest files task}

theorem saveMove_next (hstage : task.stage ≠ .finished) :
    SaveMove pid nonce ok latest files task (task.next pid nonce ok latest files).1
      (task.next pid nonce ok latest files).2 := by
  have hsame : ∀ name ∈ files, name ∈ files := fun _ h => h
  have hremove : ∀ other, ∀ name ∈ files.remove other, name ∈ files := fun _ _ h =>
    (Files.mem_remove.1 h).1
  -- where the stages are known, the conditions on them are decided
  have hmove : ∀ stage stage' files', task.stage = stage → stage ≠ .starting →
      stage.over = false → stage' ≠ .starting → stage'.over = false →
      (stage'.passed → stage.passed) → (∀ name ∈ files', name ∈ files) →
      SaveMove pid nonce ok latest files task { task with stage := stage' } files' := by
    rintro stage stage' files' rfl hne hover hne' hover' hpassed hfiles
    exact .moved stage' files' hne hover hne' hover' hpassed hfiles
  obtain ⟨fingerprint, temporary, stage⟩ := task
  cases stage with
  | starting =>
    cases ok with
    | true => exact .named rfl
    | false => exact .notStarted rfl
  | creating =>
    have hfail := hmove .creating .discarding files rfl (by decide) rfl (by decide) rfl (by decide)
      hsame
    cases ok with
    | false => exact hfail
    | true =>
      cases temporary with
      | none => exact hfail
      | some temporary => exact .created temporary rfl rfl
  | writing =>
    cases ok with
    | true =>
      exact hmove .writing .checking files rfl (by decide) rfl (by decide) rfl (by decide) hsame
    | false =>
      exact hmove .writing .discarding files rfl (by decide) rfl (by decide) rfl (by decide) hsame
  | checking =>
    unfold SaveTask.next
    dsimp only
    split_ifs with hlatest
    · exact hmove .checking .discarding files rfl (by decide) rfl (by decide) rfl (by decide) hsame
    · exact .passed rfl (not_not.1 hlatest)
  | replacing =>
    unfold SaveTask.next
    dsimp only
    split_ifs
    · exact hmove .replacing .removing files rfl (by decide) rfl (by decide) rfl (by decide) hsame
    · exact hmove .replacing .enabling files rfl (by decide) rfl (by decide) rfl (by decide) hsame
  | removing =>
    unfold SaveTask.next
    dsimp only
    split_ifs
    · exact hmove .removing .enabling _ rfl (by decide) rfl (by decide) rfl (by decide) (hremove _)
    · exact hmove .removing .discarding files rfl (by decide) rfl (by decide) rfl (by decide) hsame
  | enabling =>
    have hfail := hmove .enabling .discarding files rfl (by decide) rfl (by decide) rfl (by decide)
      hsame
    cases ok with
    | false => exact hfail
    | true =>
      cases temporary with
      | none => exact hfail
      | some temporary =>
        unfold SaveTask.next
        dsimp only
        split_ifs with hmem
        · exact .enabled temporary rfl rfl hmem
        · exact hfail
  | tidying legacy =>
    cases legacy with
    | nil => exact .tidied .finished files rfl rfl hsame
    | cons legacy rest =>
      cases ok with
      | true => exact .tidied (.tidying rest) _ rfl rfl (hremove legacy)
      | false => exact .tidied (.tidying rest) files rfl rfl hsame
  | discarding => exact .discarded rfl
  | finished => exact absurd rfl hstage

end

/-! ## The invariant -/

/-- A file that is there has still to be shown, or is the one that is looked at; it is
    not there behind a clearing without an error. -/
def ClearStage.Ahead (name : Text) : ClearStage → Prop
  | .idle | .started => True
  | .walking due => name ∈ due
  | .inspecting other due | .removing other due => name = other ∨ name ∈ due
  | .finished ok => ok = false

/-- The save does not take the temporary file of another, and does not fail to discard its
    own. -/
def SaveTask.KeepsOwn (pid nonce : ℕ) (ok : Bool) (saves : List SaveTask) (task : SaveTask) :
    Prop :=
  (task.stage = .starting →
    ∀ other ∈ saves, other.temporary ≠ some (temporaryFile pid nonce)) ∧
  (task.stage = .discarding → ok = true)

instance (pid nonce : ℕ) (ok : Bool) (saves : List SaveTask) (task : SaveTask) :
    Decidable (task.KeepsOwn pid nonce ok saves) :=
  inferInstanceAs (Decidable (_ ∧ _))

/-- Saves keep to their own files, and no fingerprint is the mark of a clearing. -/
def OwnFiles (pid : ℕ) (s : CacheState) : CacheEvent → Prop
  | .persist fingerprint => fingerprint ≠ 0
  | .save index nonce ok => ∀ task ∈ s.saves[index]?, task.KeepsOwn pid nonce ok s.saves
  | .load _ | .clear _ => True

instance (pid : ℕ) (s : CacheState) : ∀ e, Decidable (OwnFiles pid s e)
  | .persist fingerprint => inferInstanceAs (Decidable (fingerprint ≠ 0))
  | .save index nonce ok =>
    inferInstanceAs (Decidable (∀ task ∈ s.saves[index]?, task.KeepsOwn pid nonce ok s.saves))
  | .load _ | .clear _ => inferInstanceAs (Decidable True)

structure SaveTask.Fits (pid : ℕ) (s : CacheState) (task : SaveTask) : Prop where
  fingerprint : task.fingerprint ≠ 0
  unnamed : task.stage = .starting → task.temporary = none
  named : ∀ temporary, task.temporary = some temporary →
    ∃ nonce, temporary = temporaryFile pid nonce
  ahead : task.stage.passed → ∀ temporary, task.temporary = some temporary →
    temporary ∈ s.files → s.clear.Ahead temporary
  gone : task.stage.over → ∀ temporary, task.temporary = some temporary → temporary ∉ s.files

structure Inv (pid : ℕ) (s : CacheState) : Prop where
  saves : ∀ task ∈ s.saves, task.Fits pid s
  latest : s.clear ≠ .idle → s.latest = 0
  distinct : ∀ (i j : ℕ) (task task' : SaveTask), s.saves[i]? = some task →
    s.saves[j]? = some task' → ∀ temporary, task.temporary = some temporary →
      task'.temporary = some temporary → i = j

section
variable {pid : ℕ} {s s' : CacheState} {task task' : SaveTask} {files : Files} {name : Text}
  {stage : ClearStage}

theorem SaveTask.Fits.temporary_ne (h : task.Fits pid s) (htask : task.temporary = some name) :
    name ≠ ruleCacheFile ∧ isRuleCacheFile name = true := by
  obtain ⟨nonce, rfl⟩ := h.named name htask
  exact ⟨temporaryFile_ne_ruleCacheFile pid nonce, isRuleCacheFile_temporaryFile pid nonce⟩

theorem ClearStage.Ahead.restrict (h : stage.Ahead name) (hname : name ∈ files) :
    (stage.restrict files).Ahead name := by
  have hdue : ∀ due : List Text, name ∈ due → name ∈ due.filter (· ∈ files) := fun due hmem =>
    List.mem_filter.2 ⟨hmem, decide_eq_true hname⟩
  cases stage with
  | idle | started => trivial
  | walking due => exact hdue due h
  | inspecting other due | removing other due => exact h.imp_right (hdue due)
  | finished ok => exact h

theorem restrict_eq_idle : stage.restrict files = .idle ↔ stage = .idle := by
  cases stage <;> simp [ClearStage.restrict]

theorem SaveTask.Fits.frame (h : task.Fits pid s) (hfiles : ∀ temporary,
      task.temporary = some temporary → temporary ∈ files → temporary ∈ s.files)
    (hs' : s'.files = files ∧ s'.clear = s.clear.restrict files) : task.Fits pid s' := by
  refine ⟨h.fingerprint, h.unnamed, h.named, fun hpassed temporary htask hmem => ?_,
    fun hover temporary htask hmem => ?_⟩
  · rw [hs'.1] at hmem
    rw [hs'.2]
    exact (h.ahead hpassed temporary htask (hfiles temporary htask hmem)).restrict hmem
  · rw [hs'.1] at hmem
    exact h.gone hover temporary htask (hfiles temporary htask hmem)

/-! ## Steps of saves -/

/-- The state behind a step of the save with an index. -/
def CacheState.withSave (s : CacheState) (index : ℕ) (task : SaveTask) (files : Files) :
    CacheState :=
  { s with files, saves := s.saves.set index task, clear := s.clear.restrict files }

theorem step_save_cases {index nonce : ℕ} {ok : Bool}
    (h : s.step pid (.save index nonce ok) = some s') : ∃ task task' files,
      s.saves[index]? = some task ∧ SaveMove pid nonce ok s.latest s.files task task' files ∧
        s' = s.withSave index task' files := by
  unfold CacheState.step at h
  dsimp only at h
  cases htask : s.saves[index]? with
  | none =>
    rw [htask] at h
    cases h
  | some task =>
    rw [htask] at h
    dsimp only at h
    split_ifs at h with hstage
    cases h
    exact ⟨task, _, _, rfl, saveMove_next hstage, rfl⟩

theorem SaveMove.mem_files {nonce : ℕ} {ok : Bool} {latest : UInt64} {old : Files}
    (h : SaveMove pid nonce ok latest old task task' files) (hname : name ∈ files)
    (hcreated : task.stage = .creating → task.temporary ≠ some name)
    (henabled : ∀ temporary ∈ old, task.stage = .enabling → task.temporary = some temporary →
      name ≠ ruleCacheFile) : name ∈ old := by
  cases h with
  | named _ | notStarted _ | passed _ _ => exact hname
  | created temporary hstage htask =>
    exact (Files.mem_create.1 hname).resolve_left fun heq => hcreated hstage (heq ▸ htask)
  | enabled temporary hstage htask hmem =>
    have hne := henabled temporary hmem hstage htask
    exact (Files.mem_remove.1 ((Files.mem_create.1 hname).resolve_left hne)).1
  | discarded _ =>
    unfold SaveTask.removeTemporary at hname
    split at hname
    · split at hname
      · exact (Files.mem_remove.1 hname).1
      · exact hname
    · exact hname
  | tidied stage _ _ _ hfiles | moved stage _ _ _ _ _ _ hfiles => exact hfiles name hname

theorem SaveMove.temporary {nonce : ℕ} {ok : Bool} {latest : UInt64} {old : Files}
    (h : SaveMove pid nonce ok latest old task task' files) :
    task'.temporary = task.temporary ∨
      task.stage = .starting ∧ task'.temporary = some (temporaryFile pid nonce) := by
  cases h with
  | named hstage => exact .inr ⟨hstage, rfl⟩
  | notStarted _ | created _ _ _ | passed _ _ | enabled _ _ _ _ | discarded _ | tidied _ _ _ _ _
  | moved _ _ _ _ _ _ _ _ => exact .inl rfl

theorem SaveTask.Fits.of_pending (hfingerprint : task.fingerprint ≠ 0)
    (hstarting : task.stage ≠ .starting) (hnamed : ∀ temporary, task.temporary = some temporary →
      ∃ nonce, temporary = temporaryFile pid nonce)
    (hpassed : task.stage.passed = false) (hover : task.stage.over = false) : task.Fits pid s where
  fingerprint := hfingerprint
  unnamed hstage := absurd hstage hstarting
  named := hnamed
  ahead hpassed' := absurd (hpassed.symm.trans hpassed') Bool.false_ne_true
  gone hover' := absurd (hover.symm.trans hover') Bool.false_ne_true

theorem SaveStage.passed_eq_false {stage : SaveStage} (h : stage.over) : stage.passed = false := by
  cases stage <;> first | rfl | cases h

theorem SaveTask.Fits.of_over (hfingerprint : task.fingerprint ≠ 0)
    (hnamed : ∀ temporary, task.temporary = some temporary →
      ∃ nonce, temporary = temporaryFile pid nonce) (hover : task.stage.over)
    (hgone : ∀ temporary, task.temporary = some temporary → temporary ∉ s.files) :
    task.Fits pid s where
  fingerprint := hfingerprint
  unnamed hstage := by
    rw [hstage] at hover
    cases hover
  named := hnamed
  ahead hpassed := absurd ((SaveStage.passed_eq_false hover).symm.trans hpassed) Bool.false_ne_true
  gone _ := hgone

theorem SaveTask.Fits.move {nonce index : ℕ} {ok : Bool} (h : task.Fits pid s)
    (hlatest : s.clear ≠ .idle → s.latest = 0) (hkeeps : task.KeepsOwn pid nonce ok s.saves)
    (hmove : SaveMove pid nonce ok s.latest s.files task task' files) :
    task'.Fits pid (s.withSave index task' files) := by
  cases hmove with
  | named hstage =>
    refine .of_pending h.fingerprint (fun hfalse => by cases hfalse) (fun temporary htask => ?_)
      rfl rfl
    exact ⟨nonce, (Option.some.inj htask).symm⟩
  | notStarted hstage =>
    refine .of_over h.fingerprint h.named rfl fun temporary htask => ?_
    cases (h.unnamed hstage).symm.trans htask
  | created temporary hstage htask =>
    exact .of_pending h.fingerprint (fun hfalse => by cases hfalse) h.named rfl rfl
  | passed hstage heq =>
    -- what passes the check is not cleared
    have hidle : s.clear = .idle := by
      by_contra hclear
      exact h.fingerprint (heq.symm.trans (hlatest hclear))
    refine ⟨h.fingerprint, ?_, h.named, fun _ temporary _ _ => ?_, ?_⟩
    · exact fun hfalse => by cases hfalse
    · rw [CacheState.withSave, hidle]
      trivial
    · exact fun hfalse => by cases hfalse
  | enabled temporary hstage htask hmem =>
    refine .of_over h.fingerprint h.named rfl fun other hother hmem' => ?_
    cases htask.symm.trans hother
    rcases Files.mem_create.1 hmem' with heq | hmem'
    · exact (h.temporary_ne htask).1 heq
    · exact (Files.mem_remove.1 hmem').2 rfl
  | discarded hstage =>
    refine .of_over h.fingerprint h.named rfl fun temporary htask hmem => ?_
    dsimp only at htask
    rw [CacheState.withSave, hkeeps.2 hstage, if_pos rfl, SaveTask.removeTemporary, htask] at hmem
    exact (Files.mem_remove.1 hmem).2 rfl
  | tidied stage _ hover hover' hfiles =>
    exact .of_over h.fingerprint h.named hover' fun temporary htask hmem =>
      h.gone hover temporary htask (hfiles _ hmem)
  | moved stage _ hne hover hne' hover' hpassed hfiles =>
    refine ⟨h.fingerprint, fun hstage => absurd hstage hne', h.named,
      fun hpassed' temporary htask hmem => ?_, fun hover'' => ?_⟩
    · exact (h.ahead (hpassed hpassed') temporary htask (hfiles _ hmem)).restrict hmem
    · exact absurd (hover'.symm.trans hover'') Bool.false_ne_true

/-- **A step of a save** keeps the invariant. -/
theorem Inv.save {index nonce : ℕ} {ok : Bool} (h : Inv pid s)
    (hok : OwnFiles pid s (.save index nonce ok))
    (hstep : s.step pid (.save index nonce ok) = some s') : Inv pid s' := by
  obtain ⟨task, task', files, htask, hmove, rfl⟩ := step_save_cases hstep
  have hkeeps : task.KeepsOwn pid nonce ok s.saves := hok task htask
  have hmem := List.mem_of_getElem? htask
  have hfits := h.saves task hmem
  refine ⟨fun other hother => ?_, fun hclear => ?_, ?_⟩
  · rw [CacheState.withSave] at hother
    dsimp only at hother
    obtain ⟨i, hi⟩ := List.mem_iff_getElem?.1 hother
    rw [List.getElem?_set] at hi
    split_ifs at hi with hindex hlt
    · cases hi
      exact hfits.move h.latest hkeeps hmove
    · have hotherFits := h.saves other (List.mem_of_getElem? hi)
      refine hotherFits.frame (fun temporary htemporary hname => ?_) ⟨rfl, rfl⟩
      refine hmove.mem_files hname (fun _ hown => hindex ?_) fun _ _ _ _ =>
        (hotherFits.temporary_ne htemporary).1
      exact h.distinct index i task other htask hi temporary hown htemporary
  · exact h.latest fun hidle => hclear (restrict_eq_idle.2 hidle)
  · have hset : ∀ i other, (s.withSave index task' files).saves[i]? = some other →
        i = index ∧ other = task' ∨ s.saves[i]? = some other := by
      intro i other hi
      rw [CacheState.withSave, List.getElem?_set] at hi
      split_ifs at hi with hindex hlt
      · exact .inl ⟨hindex.symm, (Option.some.inj hi).symm⟩
      · exact .inr hi
    -- the save that moves, and another
    have hother : ∀ i other, s.saves[i]? = some other → ∀ temporary,
        task'.temporary = some temporary → other.temporary = some temporary → index = i := by
      intro i other hi temporary htask' hother
      rcases hmove.temporary with hsame | ⟨hstage, hfresh⟩
      · exact h.distinct index i task other htask hi temporary (hsame ▸ htask') hother
      · refine absurd ?_ (hkeeps.1 hstage other (List.mem_of_getElem? hi))
        rw [hother, ← hfresh, htask']
    intro i j a b hi hj temporary ha hb
    rcases hset i a hi with ⟨rfl, rfl⟩ | hi'
    · rcases hset j b hj with ⟨rfl, rfl⟩ | hj'
      · rfl
      · exact hother j b hj' temporary ha hb
    · rcases hset j b hj with ⟨rfl, rfl⟩ | hj'
      · exact (hother i a hi' temporary hb ha).symm
      · exact h.distinct i j a b hi' hj' temporary ha hb

/-! ## Steps of the clearing -/

/-- **A step of the clearing** leaves the files of saves that have passed their checks in front
    of the walk. -/
theorem ahead_clearStep {event : ClearEvent} (hstep : s.clearStep event = some s')
    (hname : isRuleCacheFile name = true) (hahead : name ∈ s.files → s.clear.Ahead name)
    (hmem : name ∈ s'.files) : s'.clear.Ahead name := by
  unfold CacheState.clearStep at hstep
  cases event with
  | start =>
    dsimp only at hstep
    split_ifs at hstep
    cases hstep
    trivial
  | absent =>
    dsimp only at hstep
    split_ifs at hstep with h
    cases hstep
    dsimp only at hmem
    rw [h.2] at hmem
    cases hmem
  | openDirectory =>
    dsimp only at hstep
    split_ifs at hstep
    cases hstep
    exact hmem
  | entry other =>
    dsimp only at hstep
    split at hstep
    · rename_i due hclear
      cases hstep
      rw [hclear] at hahead
      have hdue : name ≠ other → name ∈ due.filter (· ≠ other) := fun hne =>
        List.mem_filter.2 ⟨hahead hmem, decide_eq_true hne⟩
      dsimp only
      split_ifs with hother
      · exact or_iff_not_imp_left.2 hdue
      · exact hdue fun heq => hother (heq ▸ hname)
    · cases hstep
  | metadata =>
    dsimp only at hstep
    split at hstep
    · rename_i other due hclear
      cases hstep
      rw [hclear] at hahead
      dsimp only
      split_ifs
      · exact hahead hmem
      · rfl
    · cases hstep
  | remove =>
    dsimp only at hstep
    split at hstep
    · rename_i other due hclear
      rw [hclear] at hahead
      split_ifs at hstep
      · cases hstep
        obtain ⟨hmem, hne⟩ := Files.mem_remove.1 hmem
        exact (hahead hmem).resolve_left hne
      · cases hstep
        rfl
    · cases hstep
  | finish =>
    dsimp only at hstep
    split_ifs at hstep with hclear
    cases hstep
    rw [hclear] at hahead
    exact absurd (hahead hmem) List.not_mem_nil
  | fail =>
    dsimp only at hstep
    split at hstep
    · cases hstep
    · cases hstep
    · cases hstep
      rfl

theorem clearStep_frame {event : ClearEvent} (hstep : s.clearStep event = some s') :
    s'.saves = s.saves ∧ (∀ name ∈ s'.files, name ∈ s.files) ∧
      ((s.clear ≠ .idle → s.latest = 0) → s'.latest = 0) := by
  have hsame : ∀ name ∈ s.files, name ∈ s.files := fun _ h => h
  have hlatest : ∀ {stage : ClearStage}, s.clear = stage → stage ≠ .idle →
      (s.clear ≠ .idle → s.latest = 0) → s.latest = 0 := by
    rintro stage rfl hne h
    exact h hne
  unfold CacheState.clearStep at hstep
  cases event with
  | start =>
    dsimp only at hstep
    split_ifs at hstep
    cases hstep
    exact ⟨rfl, hsame, fun _ => rfl⟩
  | absent =>
    dsimp only at hstep
    split_ifs at hstep with h
    cases hstep
    exact ⟨rfl, hsame, hlatest h.1 fun hfalse => by cases hfalse⟩
  | openDirectory =>
    dsimp only at hstep
    split_ifs at hstep with h
    cases hstep
    exact ⟨rfl, hsame, hlatest h fun hfalse => by cases hfalse⟩
  | entry other =>
    dsimp only at hstep
    split at hstep
    · rename_i due hclear
      cases hstep
      exact ⟨rfl, hsame, hlatest hclear fun hfalse => by cases hfalse⟩
    · cases hstep
  | metadata =>
    dsimp only at hstep
    split at hstep
    · rename_i other due hclear
      cases hstep
      exact ⟨rfl, hsame, hlatest hclear fun hfalse => by cases hfalse⟩
    · cases hstep
  | remove =>
    dsimp only at hstep
    split at hstep
    · rename_i other due hclear
      split_ifs at hstep
      · cases hstep
        exact ⟨rfl, fun name hname => (Files.mem_remove.1 hname).1,
          hlatest hclear fun hfalse => by cases hfalse⟩
      · cases hstep
        exact ⟨rfl, hsame, hlatest hclear fun hfalse => by cases hfalse⟩
    · cases hstep
  | finish =>
    dsimp only at hstep
    split_ifs at hstep with hclear
    cases hstep
    exact ⟨rfl, hsame, hlatest hclear fun hfalse => by cases hfalse⟩
  | fail =>
    dsimp only at hstep
    split at hstep
    · cases hstep
    · cases hstep
    · rename_i hidle _
      cases hstep
      exact ⟨rfl, hsame, fun h => h hidle⟩

/-- **Every step keeps the invariant.** -/
theorem Inv.step {event : CacheEvent} (h : Inv pid s) (hok : OwnFiles pid s event)
    (hstep : s.step pid event = some s') : Inv pid s' := by
  cases event with
  | load fingerprint =>
    unfold CacheState.step at hstep
    dsimp only at hstep
    split_ifs at hstep with hidle
    cases hstep
    refine ⟨fun task htask => ?_, fun hne => absurd hidle hne, h.distinct⟩
    obtain ⟨hfingerprint, hunnamed, hnamed, hahead, hgone⟩ := h.saves task htask
    exact ⟨hfingerprint, hunnamed, hnamed, hahead, hgone⟩
  | persist fingerprint =>
    unfold CacheState.step at hstep
    dsimp only at hstep
    split_ifs at hstep with hidle
    cases hstep
    -- a save that starts has no file
    have hold : ∀ {i : ℕ} {task : SaveTask} {temporary : Text},
        (s.saves ++ [⟨fingerprint, none, .starting⟩])[i]? = some task →
          task.temporary = some temporary → s.saves[i]? = some task := by
      intro i task temporary hi htemporary
      rw [List.getElem?_append] at hi
      split_ifs at hi with hlt
      · exact hi
      · rw [List.mem_singleton.1 (List.mem_of_getElem? hi)] at htemporary
        cases htemporary
    refine ⟨fun task htask => ?_, fun hne => absurd hidle hne,
      fun i j a b hi hj temporary ha hb =>
        h.distinct i j a b (hold hi ha) (hold hj hb) temporary ha hb⟩
    rcases List.mem_append.1 htask with htask | htask
    · obtain ⟨hfingerprint, hunnamed, hnamed, hahead, hgone⟩ := h.saves task htask
      exact ⟨hfingerprint, hunnamed, hnamed, hahead, hgone⟩
    · cases List.mem_singleton.1 htask
      refine ⟨hok, fun _ => rfl, ?_, ?_, ?_⟩
      · exact fun _ hfalse => by cases hfalse
      · exact fun hfalse => by cases hfalse
      · exact fun hfalse => by cases hfalse
  | save index nonce ok => exact h.save hok hstep
  | clear event =>
    obtain ⟨hsaves, hfiles, hlatest⟩ := clearStep_frame hstep
    refine ⟨fun task htask => ?_, fun _ => hlatest h.latest, hsaves ▸ h.distinct⟩
    have hfits := h.saves task (hsaves ▸ htask)
    refine ⟨hfits.fingerprint, hfits.unnamed, hfits.named,
      fun hpassed temporary htemporary hmem => ?_,
      fun hover temporary htemporary hmem => ?_⟩
    · exact ahead_clearStep hstep (hfits.temporary_ne htemporary).2
        (hfits.ahead hpassed temporary htemporary) hmem
    · exact hfits.gone hover temporary htemporary (hfiles temporary hmem)

/-! ## Behind the clearing -/

theorem step_finished {event : CacheEvent} (h : Inv pid s) (hclear : s.clear = .finished true)
    (hstep : s.step pid event = some s') :
    s'.clear = .finished true ∧ (ruleCacheFile ∈ s'.files → ruleCacheFile ∈ s.files) := by
  cases event with
  | load fingerprint | persist fingerprint =>
    unfold CacheState.step at hstep
    dsimp only at hstep
    rw [hclear, if_neg (fun hfalse => by cases hfalse)] at hstep
    cases hstep
  | save index nonce ok =>
    obtain ⟨task, task', files, htask, hmove, rfl⟩ := step_save_cases hstep
    have hfits := h.saves task (List.mem_of_getElem? htask)
    refine ⟨by rw [CacheState.withSave, hclear]; rfl, fun hmem => ?_⟩
    refine hmove.mem_files hmem (fun _ htemporary => (hfits.temporary_ne htemporary).1 rfl)
      fun temporary hold hstage htemporary => ?_
    -- the file to take over is gone
    have hahead := hfits.ahead (by rw [hstage]; rfl) temporary htemporary hold
    rw [hclear] at hahead
    cases hahead
  | clear event =>
    have hnone : s.clearStep event = none := by
      unfold CacheState.clearStep
      cases event <;> simp [hclear]
    cases hnone.symm.trans hstep

theorem inv_init (latest : UInt64) (files : Files) :
    Inv pid (cacheMachine pid latest files).init where
  saves _ h := absurd h List.not_mem_nil
  latest h := absurd rfl h
  distinct _ _ _ _ h := by cases h

/-- What is so behind a clearing without an error, at the state `t` of a run that goes on from
    `s`: no cache was put back, and no save that is done has left its temporary file. -/
structure StaysCleared (s t : CacheState) : Prop where
  cache : ruleCacheFile ∈ t.files → ruleCacheFile ∈ s.files
  temporary : ∀ task ∈ t.saves, task.stage = .finished → ∀ temporary,
    task.temporary = some temporary → temporary ∉ t.files

/-- **A cleared cache stays cleared** along every run whose saves keep to their own files. -/
theorem staysCleared {latest : UInt64} {files : Files} {before after : List CacheEvent}
    {t : CacheState}
    (hbefore : (cacheMachine pid latest files).Guarded (OwnFiles pid)
      (cacheMachine pid latest files).init before)
    (hs : (cacheMachine pid latest files).run (cacheMachine pid latest files).init before = some s)
    (hclear : s.clear = .finished true)
    (hafter : (cacheMachine pid latest files).Guarded (OwnFiles pid) s after)
    (ht : (cacheMachine pid latest files).run s after = some t) : StaysCleared s t := by
  have hinv : Inv pid s := Machine.Guarded.inv (fun _ _ _ h hok hstep => h.step hok hstep) before
    (inv_init latest files) hbefore hs
  obtain ⟨hinv', -, hcache⟩ := Machine.Guarded.inv
    (P := fun u => Inv pid u ∧ u.clear = .finished true ∧
      (ruleCacheFile ∈ u.files → ruleCacheFile ∈ s.files))
    (fun u event u' ⟨h, hu, hcache⟩ hok hstep => by
      obtain ⟨hu', hstepCache⟩ := step_finished h hu hstep
      exact ⟨h.step hok hstep, hu', fun hmem => hcache (hstepCache hmem)⟩)
    after ⟨hinv, hclear, id⟩ hafter ht
  refine ⟨hcache, fun task htask hstage temporary htemporary => ?_⟩
  exact (hinv'.saves task htask).gone (by rw [hstage]; rfl) temporary htemporary

end

/-! ## Two runs -/

/-- The steps of a clearing that meets one temporary file. -/
def clearing (nonce : ℕ) : List CacheEvent :=
  [.clear .start, .clear .openDirectory, .clear (.entry (temporaryFile 1 nonce)),
    .clear .metadata, .clear .remove, .clear .finish]

/-- A save that has passed its check before the clearing. -/
def savedBefore : List CacheEvent :=
  [.load 7, .persist 7, .save 0 5 true, .save 0 5 true, .save 0 5 true, .save 0 5 true] ++
    clearing 5

/-- Behind a clearing, with these saves and files. -/
def clearedState (saves : List SaveStage) (files : Files) : CacheState where
  latest := 0
  files := files
  saves := saves.map fun stage => ⟨7, some (temporaryFile 1 5), stage⟩
  clear := .finished true

/-- The save goes on behind the clearing, and finds its file gone. -/
theorem staysCleared_savedBefore :
    (cacheMachine 1 0 []).run (cacheMachine 1 0 []).init savedBefore =
      some (clearedState [.replacing] []) ∧
    (cacheMachine 1 0 []).run (clearedState [.replacing] [])
      [.save 0 5 true, .save 0 5 true, .save 0 5 true] = some (clearedState [.finished] []) ∧
    StaysCleared (clearedState [.replacing] []) (clearedState [.finished] []) := by
  have hbefore : (cacheMachine 1 0 []).run (cacheMachine 1 0 []).init savedBefore =
      some (clearedState [.replacing] []) := by decide +kernel
  have hafter : (cacheMachine 1 0 []).run (clearedState [.replacing] [])
      [.save 0 5 true, .save 0 5 true, .save 0 5 true] = some (clearedState [.finished] []) := by
    decide +kernel
  have hguarded : (cacheMachine 1 0 []).Guarded (OwnFiles 1) (cacheMachine 1 0 []).init
      savedBefore := by decide +kernel
  have hguarded' : (cacheMachine 1 0 []).Guarded (OwnFiles 1) (clearedState [.replacing] [])
      [.save 0 5 true, .save 0 5 true, .save 0 5 true] := by decide +kernel
  exact ⟨hbefore, hafter, staysCleared hguarded hbefore rfl hguarded' hafter⟩

/-- Two saves make up the same temporary file, and one of them has passed its check. -/
def sameTemporary : List CacheEvent :=
  [.load 7, .persist 7, .persist 7, .save 0 5 true, .save 1 5 true, .save 0 5 true, .save 0 5 true,
    .save 0 5 true] ++ clearing 5

/-- The second save makes the file again behind the clearing, and the first takes it over. -/
theorem sameTemporary_back :
    (cacheMachine 1 0 []).run (cacheMachine 1 0 []).init sameTemporary =
      some (clearedState [.replacing, .creating] []) ∧
    (cacheMachine 1 0 []).run (clearedState [.replacing, .creating] [])
        [.save 1 5 true, .save 0 5 true, .save 0 5 true] =
      some (clearedState [.tidying legacyRuleCacheFiles, .writing] [ruleCacheFile]) ∧
    ¬ StaysCleared (clearedState [.replacing, .creating] [])
      (clearedState [.tidying legacyRuleCacheFiles, .writing] [ruleCacheFile]) := by
  refine ⟨by decide +kernel, by decide +kernel, fun h => ?_⟩
  exact List.not_mem_nil (h.cache (List.mem_singleton_self _))

end DnsBlackhole.Rules.CacheFiles
