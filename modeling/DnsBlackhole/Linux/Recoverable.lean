/-
  Restoring the system DNS keeps the originals (`linux_system_dns.rs`).

  * `Recoverable o w`: each file is the original one, `o`, or the managed one, and where
    they are not the originals, the state file says so and has their snapshots;
  * `restoreSystemDns_always`, `restoreSystemDnsOffline_always` and
    `restoreBeforeShutdown_always`: a restore keeps this wherever it ends, and where it
    returns, the files are the originals.

  An original that is a link is only restored if its target is UTF-8.
-/
import DnsBlackhole.Linux.Kept

namespace DnsBlackhole.Linux
open Admin (AppConfig)
open Config (Url migrateLegacyDefaults listenPort_migrateLegacyDefaults)
open Lib
open Service (enabledConfig)
open Steps

variable {parseUrl : Text → Except Text Url} {sha256Hex : List UInt8 → Text} {host : Host}
  {o : ManagedFile → Node}

/-! ## The invariant -/

/-- The file that a takeover puts at the path. -/
def managedNode : ManagedFile → Node
  | .dropIn => .regular managedDropIn.asBytes 0o644
  | .resolvConf => .symlink resolvedResolvConf.asBytes

/-- The files are the originals. -/
def World.Original (o : ManagedFile → Node) (w : World) : Prop := ∀ file, w.node file = o file

/-- The snapshots are those of the originals, and the rest says what a takeover writes. -/
structure Records (sha256Hex : List UInt8 → Text) (o : ManagedFile → Node)
    (state : SystemDnsState) : Prop where
  captured : ∀ file, captureFile file (o file) = .ok (state.original file)
  managedDropIn : state.managedDropInSha256 = sha256Hex managedDropIn.asBytes
  managedResolvConf : state.managedResolvConfTarget = resolvedResolvConf

structure Recoverable (sha256Hex : List UInt8 → Text) (o : ManagedFile → Node) (w : World) :
    Prop where
  node : ∀ file, w.node file = o file ∨ w.node file = managedNode file
  records : ∀ state, w.journal = some state → Records sha256Hex o state
  marked : w.Original o ∨
    ∃ state, w.journal = some state ∧ (state.effective = true ∨ state.pending = true)
  /-- A finished takeover is desired, and DNS is on its port. -/
  serving : ∀ state, w.journal = some state → state.effective = true → state.pending = false →
    state.desired = true ∧ w.Port53

/-- A transaction has begun. -/
structure Begun (sha256Hex : List UInt8 → Text) (o : ManagedFile → Node) (state : SystemDnsState)
    (w : World) : Prop where
  node : ∀ file, w.node file = o file ∨ w.node file = managedNode file
  journal : w.journal = some state
  records : Records sha256Hex o state
  pending : state.pending = true

theorem Begun.recoverable {state : SystemDnsState} {w : World} (h : Begun sha256Hex o state w) :
    Recoverable sha256Hex o w where
  node := h.node
  records state' hstate' := by
    cases h.journal.symm.trans hstate'
    exact h.records
  marked := .inr ⟨state, h.journal, .inr h.pending⟩
  serving state' hstate' _ hpending := by
    cases h.journal.symm.trans hstate'
    cases h.pending.symm.trans hpending

theorem Begun.sameFiles {state : SystemDnsState} {w w' : World} (h : Begun sha256Hex o state w)
    (hsame : w.SameFiles w') : Begun sha256Hex o state w' :=
  ⟨fun file => by rw [hsame.node]; exact h.node file, hsame.journal.trans h.journal, h.records,
    h.pending⟩

theorem Begun.write {state : SystemDnsState} {w : World} (h : Begun sha256Hex o state w)
    {file : ManagedFile} {node : Node} (hnode : node = o file ∨ node = managedNode file) :
    Begun sha256Hex o state (w.write file node) := by
  refine ⟨fun file' => ?_, (w.journal_write file node).trans h.journal, h.records, h.pending⟩
  by_cases hfile : file' = file
  · subst hfile
    rw [World.node_write_self]
    exact hnode
  · rw [World.node_write_of_ne _ _ _ hfile]
    exact h.node file'

theorem Recoverable.of_original {w : World}
    (hrecords : ∀ state, w.journal = some state → Records sha256Hex o state)
    (hidle : ∀ state, w.journal = some state → state.effective = true → state.pending = true)
    (h : w.Original o) : Recoverable sha256Hex o w where
  node file := .inl (h file)
  records := hrecords
  marked := .inl h
  serving state hstate heffective hpending := by
    cases hpending.symm.trans (hidle state hstate heffective)

theorem Recoverable.original_of_idle {w : World} (h : Recoverable sha256Hex o w)
    (hidle : ∀ state, w.journal = some state → state.effective = false ∧ state.pending = false) :
    w.Original o := by
  rcases h.marked with horiginal | ⟨state, hstate, heffective | hpending⟩
  · exact horiginal
  · cases heffective.symm.trans (hidle state hstate).1
  · cases hpending.symm.trans (hidle state hstate).2

/-! ## Ownership -/

theorem currentSymlinkTarget_managed :
    currentSymlinkTarget (managedNode .resolvConf) = some resolvedResolvConf :=
  congrArg some
    (by decide +kernel : fromUtf8Lossy resolvedResolvConf.asBytes = resolvedResolvConf)

/-- **The files of a recoverable state are owned**, whatever the links lead to. -/
theorem Recoverable.owned {w : World} (h : Recoverable sha256Hex o w) {state : SystemDnsState}
    (hstate : w.journal = some state) :
    transitionFilesAreOwned sha256Hex host state w = true := by
  have hrecords := h.records state hstate
  have hmatches : ∀ file, w.node file = o file →
      snapshotMatchesCurrent (w.node file) (state.original file) = true := fun file hfile =>
    hfile ▸ snapshotMatchesCurrent_captured (hrecords.captured file)
  unfold transitionFilesAreOwned
  rw [Bool.and_eq_true]
  constructor
  · rcases h.node .dropIn with hnode | hnode
    · exact Bool.or_eq_true_iff.2 (.inr (hmatches .dropIn hnode))
    · change w.dropIn = _ at hnode
      rw [hnode, hrecords.managedDropIn]
      exact Bool.or_eq_true_iff.2 (.inl (decide_eq_true rfl))
  · rcases h.node .resolvConf with hnode | hnode
    · exact Bool.or_eq_true_iff.2 (.inr (hmatches .resolvConf hnode))
    · change w.resolvConf = _ at hnode
      rw [resolvConfManaged, hnode, currentSymlinkTarget_managed, hrecords.managedResolvConf]
      exact Bool.or_eq_true_iff.2 (.inl (decide_eq_true rfl))

/-! ## Restoring the files -/

/-- The file is the original one, and the other one is as it was. -/
structure World.RestoredAt (o : ManagedFile → Node) (file : ManagedFile) (w w' : World) : Prop where
  original : w'.node file = o file
  other : ∀ file', file' ≠ file → w'.node file' = w.node file'

theorem World.restoredAt_write (w : World) (file : ManagedFile) :
    w.RestoredAt o file (w.write file (o file)) :=
  ⟨w.node_write_self file _, fun _ h => w.node_write_of_ne file _ h⟩

variable {state : SystemDnsState} {w : World} {file : ManagedFile}

theorem writeNode_always (h : Begun sha256Hex o state w) {node : Node} (hnode : node = o file) :
    Always (writeNode file node) w
      (fun _ w' => Begun sha256Hex o state w' ∧ w.RestoredAt o file w')
      (fun _ w' => Begun sha256Hex o state w') (Begun sha256Hex o state) := by
  have hdone : Begun sha256Hex o state (w.write file node) := h.write (.inl hnode)
  exact Always.step ⟨hdone, hnode ▸ w.restoredAt_write file⟩ (fun _ => ⟨h, hdone⟩) ⟨h, hdone⟩

theorem replaceFile_always (h : Begun sha256Hex o state w) {node : Node} (hnode : node = o file) :
    Always (replaceFile file node) w
      (fun _ w' => Begun sha256Hex o state w' ∧ w.RestoredAt o file w')
      (fun _ w' => Begun sha256Hex o state w') (Begun sha256Hex o state) := by
  unfold replaceFile
  refine Always.get_bind ?_
  split_ifs
  · exact Always.throw h
  · exact writeNode_always h hnode

theorem removeFileIfPresent_always (h : Begun sha256Hex o state w) (hnode : .missing = o file) :
    Always (removeFileIfPresent file) w
      (fun _ w' => Begun sha256Hex o state w' ∧ w.RestoredAt o file w')
      (fun _ w' => Begun sha256Hex o state w') (Begun sha256Hex o state) := by
  unfold removeFileIfPresent
  refine (probe_always h).andThen ?_
  rintro _ w rfl
  refine Always.get_bind ?_
  cases hcurrent : w.node file with
  | missing => exact Always.pure ⟨h, hcurrent.trans hnode, fun _ _ => rfl⟩
  | regular content mode => exact writeNode_always h hnode
  | symlink target => exact writeNode_always h hnode
  | directory => exact Always.throw h
  | special => exact Always.throw h

theorem restoreSnapshot_always (hutf8 : ∀ file, (o file).LinksUtf8)
    (h : Begun sha256Hex o state w) (file : ManagedFile) :
    Always (restoreSnapshot file (state.original file)) w
      (fun _ w' => Begun sha256Hex o state w' ∧ w.RestoredAt o file w')
      (fun _ w' => Begun sha256Hex o state w') (Begun sha256Hex o state) := by
  have hrestored := (restored_captureFile (h.records.captured file)).2 (hutf8 file)
  cases horiginal : state.original file with
  | missing =>
    rw [horiginal] at hrestored
    exact removeFileIfPresent_always h hrestored
  | regular content mode =>
    rw [horiginal] at hrestored
    exact replaceFile_always h hrestored
  | symlink target =>
    rw [horiginal] at hrestored
    exact replaceFile_always h hrestored

theorem World.RestoredAt.both {w' w'' : World} (h : w.RestoredAt o .dropIn w')
    (h' : w'.RestoredAt o .resolvConf w'') : w''.Original o := by
  intro file
  cases file with
  | dropIn => exact (h'.other .dropIn (by decide)).trans h.original
  | resolvConf => exact h'.original

theorem restoreFiles_always (hutf8 : ∀ file, (o file).LinksUtf8) (h : Begun sha256Hex o state w) :
    Always (restoreFiles state) w (fun _ w' => Begun sha256Hex o state w' ∧ w'.Original o)
      (fun _ w' => Begun sha256Hex o state w') (Begun sha256Hex o state) := by
  unfold restoreFiles
  refine (restoreSnapshot_always hutf8 h .dropIn).andThen fun _ w₁ h₁ => ?_
  exact (restoreSnapshot_always hutf8 h₁.1 .resolvConf).mono
    (fun _ _ h₂ => ⟨h₂.1, h₁.2.both h₂.2⟩) (fun _ _ h₂ => h₂) fun _ h₂ => h₂

/-! ## Restoring -/

/-- The files are the originals, and nothing is marked. -/
structure World.Restored (o : ManagedFile → Node) (w : World) : Prop where
  original : w.Original o
  idle : ∀ state, w.journal = some state → state.effective = false ∧ state.pending = false

theorem Records.of_eq {state' : SystemDnsState} (h : Records sha256Hex o state)
    (hdropIn : state'.originalDropIn = state.originalDropIn)
    (hresolvConf : state'.originalResolvConf = state.originalResolvConf)
    (hmanaged : state'.managedDropInSha256 = state.managedDropInSha256)
    (htarget : state'.managedResolvConfTarget = state.managedResolvConfTarget) :
    Records sha256Hex o state' := by
  refine ⟨fun file => ?_, hmanaged.trans h.managedDropIn, htarget.trans h.managedResolvConf⟩
  have := h.captured file
  cases file with
  | dropIn => exact this.trans (congrArg _ hdropIn.symm)
  | resolvConf => exact this.trans (congrArg _ hresolvConf.symm)

theorem Records.beginRestore (h : Records sha256Hex o state) (preserveDesired : Bool) :
    Records sha256Hex o (state.beginRestore preserveDesired) := h.of_eq rfl rfl rfl rfl

theorem World.sameNode_journal (w : World) (state : SystemDnsState) (file : ManagedFile) :
    ({ w with journal := some state } : World).node file = w.node file := by
  cases file <;> rfl

theorem World.Original.idle (h : w.Original o) (heffective : state.effective = false)
    (hpending : state.pending = false) : ({ w with journal := some state } : World).Restored o := by
  refine ⟨fun file => (w.sameNode_journal state file).trans (h file), fun state' hstate' => ?_⟩
  cases hstate'
  exact ⟨heffective, hpending⟩

theorem World.Original.recoverable (h : w.Original o)
    (hrecords : ∀ state, w.journal = some state → Records sha256Hex o state)
    (hidle : ∀ state, w.journal = some state → state.effective = false) :
    Recoverable sha256Hex o w :=
  .of_original hrecords (fun state hstate heffective => by
    cases heffective.symm.trans (hidle state hstate)) h

theorem World.Restored.recoverable (h : w.Restored o)
    (hrecords : ∀ state, w.journal = some state → Records sha256Hex o state) :
    Recoverable sha256Hex o w :=
  h.original.recoverable hrecords fun state hstate => (h.idle state hstate).1

/-- What a restore that returns leaves. -/
structure World.IsRestored (sha256Hex : List UInt8 → Text) (o : ManagedFile → Node) (w : World) :
    Prop where
  restored : w.Restored o
  recoverable : Recoverable sha256Hex o w

theorem World.Original.isRestored (h : w.Original o) (hrecords : Records sha256Hex o state)
    (heffective : state.effective = false) (hpending : state.pending = false) :
    ({ w with journal := some state } : World).IsRestored sha256Hex o := by
  have hrestored := h.idle heffective hpending
  refine ⟨hrestored, hrestored.recoverable fun state' hstate' => ?_⟩
  cases hstate'
  exact hrecords

theorem systemDnsStatus_always {P : World → Prop} (h : P w) :
    Always systemDnsStatus w (fun _ w' => P w') (fun _ w' => P w') P := by
  unfold systemDnsStatus
  refine (readState_always h).andThen ?_
  rintro _ w ⟨rfl, -⟩
  exact Always.pure h

theorem reloadAndVerifyResolver_always {P : World → Prop} (h : P w) :
    Always reloadAndVerifyResolver w (fun _ w' => P w') (fun _ w' => P w') P := by
  unfold reloadAndVerifyResolver
  refine (probe_always h).andThen ?_
  rintro _ w rfl
  exact Always.probe h (fun _ => h) h

theorem finishRestoring_always (hutf8 : ∀ file, (o file).LinksUtf8)
    (h : Begun sha256Hex o state w) :
    Always (finishRestoring state) w (fun _ w' => w'.IsRestored sha256Hex o)
      (fun _ w' => Recoverable sha256Hex o w') (Recoverable sha256Hex o) := by
  have hfinished : Records sha256Hex o state.finishRestore := h.records.of_eq rfl rfl rfl rfl
  unfold finishRestoring
  refine Always.bind (restoreFiles_always hutf8 h) (fun _ _ h => h.recoverable)
    (fun _ h => h.recoverable) ?_
  rintro _ w₁ ⟨hbegun, horiginal⟩
  have hwritten := horiginal.isRestored hfinished rfl rfl
  refine Always.andThen (Q := fun _ w₂ => w₂.Original o ∧ w₂.IsRestored sha256Hex o)
    (Always.step ⟨hwritten.restored.original, hwritten⟩
      (fun _ => ⟨hbegun.recoverable, hwritten.recoverable⟩)
      ⟨hbegun.recoverable, hwritten.recoverable⟩) ?_
  rintro _ w₂ ⟨horiginal, hrestored⟩
  refine Always.attempt_bind (reloadAndVerifyResolver_always (P := (· = w₂)) rfl |>.mono
    (fun _ _ h => h) (fun _ _ h => h) fun _ h => h ▸ hrestored.recoverable) ?_ ?_
  · rintro _ w₂ rfl
    exact (systemDnsStatus_always hrestored).mono (fun _ _ h => h) (fun _ _ h => h.recoverable)
      fun _ h => h.recoverable
  · rintro error w₂ rfl
    have hnoted : World.IsRestored sha256Hex o { w₂ with
        journal := some { state.finishRestore with
          lastError := some ("原系统 DNS 文件已恢复，但".toList ++ error) } } :=
      horiginal.isRestored (hfinished.of_eq rfl rfl rfl rfl) rfl rfl
    refine Always.andThen (Q := fun _ w₃ => w₃.IsRestored sha256Hex o)
      (Always.step hnoted (fun _ => ⟨hrestored.recoverable, hnoted.recoverable⟩)
        ⟨hrestored.recoverable, hnoted.recoverable⟩) fun _ w₃ h₃ => ?_
    exact (systemDnsStatus_always h₃).mono (fun _ _ h => h) (fun _ _ h => h.recoverable)
      fun _ h => h.recoverable

theorem Recoverable.begin (h : Recoverable sha256Hex o w) (hstate : w.journal = some state)
    (preserveDesired : Bool) : Begun sha256Hex o (state.beginRestore preserveDesired)
      { w with journal := some (state.beginRestore preserveDesired) } :=
  ⟨fun file => (w.sameNode_journal _ file).symm ▸ h.node file, rfl,
    (h.records state hstate).beginRestore preserveDesired, rfl⟩

theorem writeBegin_always (h : Recoverable sha256Hex o w) (hstate : w.journal = some state)
    (preserveDesired : Bool) : Always (writeState (state.beginRestore preserveDesired)) w
      (fun _ w' => Begun sha256Hex o (state.beginRestore preserveDesired) w')
      (fun _ w' => Recoverable sha256Hex o w') (Recoverable sha256Hex o) := by
  have hbegun := h.begin hstate preserveDesired
  exact Always.step hbegun (fun _ => ⟨h, hbegun.recoverable⟩) ⟨h, hbegun.recoverable⟩

theorem checkOwned_always (h : Recoverable sha256Hex o w) (hstate : w.journal = some state) :
    Always (checkOwned sha256Hex host state) w (fun _ w' => w' = w)
      (fun _ w' => Recoverable sha256Hex o w') (Recoverable sha256Hex o) := by
  unfold checkOwned
  refine Always.get_bind ?_
  rw [h.owned hstate, Bool.not_true, Bool.and_false]
  exact Always.pure rfl

theorem restoreSystemDns_always (hutf8 : ∀ file, (o file).LinksUtf8)
    (h : Recoverable sha256Hex o w) (preserveDesired : Bool) :
    Always (restoreSystemDns sha256Hex host preserveDesired) w
      (fun _ w' => w'.IsRestored sha256Hex o)
      (fun _ w' => Recoverable sha256Hex o w') (Recoverable sha256Hex o) := by
  unfold restoreSystemDns
  refine (probe_always h).andThen ?_
  rintro _ w rfl
  refine (readState_always h).andThen ?_
  rintro journal w ⟨rfl, hjournal⟩
  cases journal with
  | none =>
    have hidle : ∀ state, w.journal = some state → state.effective = false ∧ state.pending = false :=
      fun state hstate => by cases hjournal.trans hstate
    exact (systemDnsStatus_always (P := fun w' => w'.IsRestored sha256Hex o)
      ⟨⟨h.original_of_idle hidle, hidle⟩, h⟩).mono (fun _ _ h => h) (fun _ _ h => h.recoverable)
      fun _ h => h.recoverable
  | some state =>
    refine (checkOwned_always h hjournal.symm).andThen ?_
    rintro _ w rfl
    refine (writeBegin_always h hjournal.symm preserveDesired).andThen fun _ w₁ h₁ => ?_
    refine Always.bind (stopDnsBlocking_always w₁) (fun _ _ h => (h₁.sameFiles h.files).recoverable)
      (fun _ h => (h₁.sameFiles h.files).recoverable) fun _ w₂ h₂ => ?_
    exact finishRestoring_always hutf8 (h₁.sameFiles h₂.files)

theorem restoreSystemDnsOffline_always (hutf8 : ∀ file, (o file).LinksUtf8)
    (h : Recoverable sha256Hex o w) (preserveDesired : Bool) :
    Always (restoreSystemDnsOffline sha256Hex host preserveDesired) w
      (fun _ w' => w'.IsRestored sha256Hex o)
      (fun _ w' => Recoverable sha256Hex o w') (Recoverable sha256Hex o) := by
  have hstatus : ∀ w, Recoverable sha256Hex o w →
      (∀ state, w.journal = some state → state.effective = false ∧ state.pending = false) →
      Always systemDnsStatus w (fun _ w' => w'.IsRestored sha256Hex o)
        (fun _ w' => Recoverable sha256Hex o w') (Recoverable sha256Hex o) := fun w h hidle =>
    (systemDnsStatus_always (P := fun w' => w'.IsRestored sha256Hex o)
      ⟨⟨h.original_of_idle hidle, hidle⟩, h⟩).mono (fun _ _ h => h) (fun _ _ h => h.recoverable)
      fun _ h => h.recoverable
  unfold restoreSystemDnsOffline
  refine (probe_always h).andThen ?_
  rintro _ w rfl
  refine (readState_always h).andThen ?_
  rintro journal w ⟨rfl, hjournal⟩
  cases journal with
  | none => exact hstatus w h fun state hstate => by cases hjournal.trans hstate
  | some state =>
    dsimp only
    split_ifs with hmanaged
    · refine hstatus w h fun state' hstate' => ?_
      cases hjournal.trans hstate'
      rw [Bool.not_eq_true', SystemDnsState.managed, Bool.or_eq_false_iff, Bool.or_eq_false_iff]
        at hmanaged
      exact ⟨hmanaged.1.2, hmanaged.2⟩
    refine (checkOwned_always h hjournal.symm).andThen ?_
    rintro _ w rfl
    refine (probe_always h).andThen ?_
    rintro _ w rfl
    refine (writeBegin_always h hjournal.symm preserveDesired).andThen fun _ w₁ h₁ => ?_
    exact finishRestoring_always hutf8 h₁

/-- A shutdown that returns has restored the files, or nothing was effective and it has not
    done anything. -/
theorem restoreBeforeShutdown_always (hutf8 : ∀ file, (o file).LinksUtf8)
    (h : Recoverable sha256Hex o w) :
    Always (restoreBeforeShutdown sha256Hex host) w
      (fun _ w' => w'.IsRestored sha256Hex o ∨
        w' = w ∧ ∀ state, w.journal = some state → state.effective = false)
      (fun _ w' => Recoverable sha256Hex o w') (Recoverable sha256Hex o) := by
  unfold restoreBeforeShutdown
  refine (readState_always h).andThen ?_
  rintro journal w ⟨rfl, hjournal⟩
  cases journal with
  | none =>
    refine Always.pure (.inr ⟨rfl, fun state hstate => ?_⟩)
    cases hjournal.trans hstate
  | some state =>
    dsimp only
    split_ifs with heffective
    · exact (restoreSystemDns_always hutf8 h true).mono (fun _ _ h => .inl h) (fun _ _ h => h)
        fun _ h => h
    · refine Always.pure (.inr ⟨rfl, fun state' hstate' => ?_⟩)
      cases hjournal.trans hstate'
      exact Bool.eq_false_of_not_eq_true heffective

end DnsBlackhole.Linux
