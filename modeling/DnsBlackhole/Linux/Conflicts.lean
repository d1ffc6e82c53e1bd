/-
  Files that other programs have changed (`linux_system_dns.rs`).

  A file is `Foreign` if it is neither managed nor matches its snapshot.  The calls look
  for that by `transition_files_are_owned`, but only where the state file is marked, and
  what they ask of the drop-in lets some foreign ones pass:

  * `transitionFilesAreOwned_foreign`: which foreign files are taken for owned;
  * `foreign_respected`: along every run where the state file is marked whenever a restore
    meets a foreign file, and the file is not one of these, no call replaces one;
  * `restored_file_replaced`: a file that is changed behind a restore is replaced by the next.
-/
import DnsBlackhole.Linux.Originals

namespace DnsBlackhole.Linux
open Config (Url noUrl)
open Lib
open Steps

variable {parseUrl : Text → Except Text Url} {sha256Hex : List UInt8 → Text} {host : Host}
  {state : SystemDnsState} {w : World}

/-! ## Foreign files -/

/-- The file is the managed version. -/
def fileManaged (sha256Hex : List UInt8 → Text) (host : Host) (state : SystemDnsState) (w : World) :
    ManagedFile → Bool
  | .dropIn => dropInManaged sha256Hex host state w
  | .resolvConf => resolvConfManaged state w

/-- The file is neither the managed version nor the one that the snapshot is of. -/
def Foreign (sha256Hex : List UInt8 → Text) (host : Host) (state : SystemDnsState) (w : World)
    (file : ManagedFile) : Prop :=
  fileManaged sha256Hex host state w file = false ∧
    snapshotMatchesCurrent (w.node file) (state.original file) = false
  deriving Decidable

/-- There was no drop-in, and what is there now cannot be read: a link that leads nowhere, or
    something that is not a file. -/
def UnreadableDropIn (host : Host) (state : SystemDnsState) (w : World) : Prop :=
  state.originalDropIn = .missing ∧ readContent host w.dropIn = none

/-- **What the check of a transaction misses**: a foreign drop-in that cannot be read. -/
theorem transitionFilesAreOwned_foreign {file : ManagedFile}
    (h : Foreign sha256Hex host state w file) :
    transitionFilesAreOwned sha256Hex host state w = true ↔
      UnreadableDropIn host state w ∧ ¬Foreign sha256Hex host state w .resolvConf := by
  have hresolv : (resolvConfManaged state w ||
      snapshotMatchesCurrent w.resolvConf state.originalResolvConf) = true ↔
      ¬Foreign sha256Hex host state w .resolvConf := by
    unfold Foreign
    rw [← Bool.or_eq_false_iff, Bool.not_eq_false]
    rfl
  unfold transitionFilesAreOwned UnreadableDropIn
  rw [Bool.and_eq_true, hresolv]
  refine and_congr_left fun hnot => ?_
  cases file with
  | resolvConf => exact absurd h hnot
  | dropIn =>
    obtain ⟨hmanaged, hmatches⟩ := h
    change snapshotMatchesCurrent w.dropIn state.originalDropIn = false at hmatches
    change dropInManaged sha256Hex host state w = false at hmanaged
    rw [hmatches, Bool.or_false]
    unfold dropInManaged at hmanaged
    cases hcontent : readContent host w.dropIn with
    | none => simp
    | some content =>
      rw [hcontent] at hmanaged
      simpa using hmanaged

theorem World.SameFiles.foreign {w' : World} (h : w.SameFiles w') {file : ManagedFile}
    (hforeign : Foreign sha256Hex host state w file) : Foreign sha256Hex host state w' file := by
  have hmanaged : fileManaged sha256Hex host state w' file =
      fileManaged sha256Hex host state w file := by
    cases file with
    | dropIn =>
      have hnode : w'.dropIn = w.dropIn := h.node .dropIn
      unfold fileManaged dropInManaged
      rw [hnode]
    | resolvConf =>
      have hnode : w'.resolvConf = w.resolvConf := h.node .resolvConf
      unfold fileManaged resolvConfManaged
      rw [hnode]
  exact ⟨hmanaged.trans hforeign.1, h.node file ▸ hforeign.2⟩

/-- The state file says that a restore is due, and a foreign file is seen. -/
def Recognized (sha256Hex : List UInt8 → Text) (host : Host) (state : SystemDnsState) (w : World) :
    Prop :=
  (state.effective = true ∨ state.pending = true) ∧
    (UnreadableDropIn host state w → Foreign sha256Hex host state w .resolvConf)

theorem World.SameFiles.recognized {w' : World} (h : w.SameFiles w')
    (hrecognized : Recognized sha256Hex host state w) : Recognized sha256Hex host state w' := by
  have hnode : w'.dropIn = w.dropIn := h.node .dropIn
  refine ⟨hrecognized.1, fun hunreadable => h.foreign (hrecognized.2 ⟨hunreadable.1, ?_⟩)⟩
  rw [← hnode]
  exact hunreadable.2

theorem Recognized.not_owned (h : Recognized sha256Hex host state w) {file : ManagedFile}
    (hforeign : Foreign sha256Hex host state w file) :
    transitionFilesAreOwned sha256Hex host state w = false := by
  rw [← Bool.not_eq_true, transitionFilesAreOwned_foreign hforeign]
  exact fun howned => howned.2 (h.2 howned.1)

/-! ## Restores -/

/-- The state file makes the call restore. -/
def DnsCall.Restores (state : SystemDnsState) : DnsCall → Prop
  | .takeOver => state.pending = true
  | .restore _ => True
  | .restoreOffline _ => state.managed = true
  | .shutdown => state.effective = true
  | .start => state.desired = true ∧ state.pending = true

/-- The call does not do anything, and says so. -/
def DnsCall.Refuses (parseUrl : Text → Except Text Url) (sha256Hex : List UInt8 → Text)
    (host : Host) (w : World) : DnsCall → Prop
  | .takeOver => Always (takeOverSystemDns parseUrl sha256Hex host) w (fun _ _ => False)
      (fun _ w' => w' = w) (· = w)
  | .start => Always (startDaemon parseUrl sha256Hex host) w
      (fun reconciliation w' => reconciliation.error.isSome = true ∧ w.SameFiles w')
      (fun _ w' => w.SameFiles w') w.SameFiles
  | call => Always (call.run parseUrl sha256Hex host) w (fun _ _ => False) (fun _ w' => w' = w)
      (· = w) ∧ Fails (call.run parseUrl sha256Hex host) w conflictOnRestore w

theorem checkOwned_eq_throw (h : Recognized sha256Hex host state w) {file : ManagedFile}
    (hforeign : Foreign sha256Hex host state w file) :
    (if (state.effective || state.pending) && !transitionFilesAreOwned sha256Hex host state w then
      throw conflictOnRestore else pure ⟨⟩ : DnsM PUnit) = throw conflictOnRestore := by
  refine if_pos ?_
  rw [h.not_owned hforeign, Bool.not_false, Bool.and_true, Bool.or_eq_true]
  exact h.1

section
variable {file : ManagedFile} (hstate : w.journal = some state)
  (h : Recognized sha256Hex host state w) (hforeign : Foreign sha256Hex host state w file)
include h hforeign

theorem checkOwned_foreign : Always (checkOwned sha256Hex host state) w (fun _ _ => False)
    (fun _ w' => w' = w) (· = w) := by
  unfold checkOwned
  refine Always.get_bind ?_
  rw [checkOwned_eq_throw h hforeign]
  exact Always.throw rfl

theorem checkOwned_fails : Fails (checkOwned sha256Hex host state) w conflictOnRestore w := by
  unfold checkOwned
  refine Fails.get_bind ?_
  rw [checkOwned_eq_throw h hforeign]
  exact Fails.throw

include hstate

theorem restoreSystemDns_foreign (preserveDesired : Bool) :
    Always (restoreSystemDns sha256Hex host preserveDesired) w (fun _ _ => False)
      (fun _ w' => w' = w) (· = w) := by
  unfold restoreSystemDns
  refine (probe_always (P := (· = w)) rfl).andThen ?_
  rintro _ _ rfl
  refine (readState_always (P := (· = _)) rfl).andThen ?_
  rintro journal _ ⟨rfl, hjournal⟩
  rw [hstate] at hjournal
  subst hjournal
  exact (checkOwned_foreign h hforeign).andThen fun _ _ hfalse => hfalse.elim

theorem restoreSystemDns_fails (preserveDesired : Bool) :
    Fails (restoreSystemDns sha256Hex host preserveDesired) w conflictOnRestore w := by
  unfold restoreSystemDns
  refine Fails.bind_of_succeeds (Succeeds.probe (Q := fun _ w' => w' = w) rfl) ?_
  rintro _ _ rfl
  refine Fails.bind_of_succeeds (readState_succeeds _) ?_
  rintro journal _ ⟨rfl, hjournal⟩
  rw [hstate] at hjournal
  subst hjournal
  exact Fails.bind (checkOwned_fails h hforeign)

theorem restoreSystemDnsOffline_foreign (hmanaged : state.managed = true) (preserveDesired : Bool) :
    Always (restoreSystemDnsOffline sha256Hex host preserveDesired) w (fun _ _ => False)
      (fun _ w' => w' = w) (· = w) := by
  unfold restoreSystemDnsOffline
  refine (probe_always (P := (· = w)) rfl).andThen ?_
  rintro _ _ rfl
  refine (readState_always (P := (· = _)) rfl).andThen ?_
  rintro journal _ ⟨rfl, hjournal⟩
  rw [hstate] at hjournal
  subst hjournal
  dsimp only
  rw [hmanaged, Bool.not_true, if_neg Bool.false_ne_true]
  exact (checkOwned_foreign h hforeign).andThen fun _ _ hfalse => hfalse.elim

theorem restoreSystemDnsOffline_fails (hmanaged : state.managed = true) (preserveDesired : Bool) :
    Fails (restoreSystemDnsOffline sha256Hex host preserveDesired) w conflictOnRestore w := by
  unfold restoreSystemDnsOffline
  refine Fails.bind_of_succeeds (Succeeds.probe (Q := fun _ w' => w' = w) rfl) ?_
  rintro _ _ rfl
  refine Fails.bind_of_succeeds (readState_succeeds _) ?_
  rintro journal _ ⟨rfl, hjournal⟩
  rw [hstate] at hjournal
  subst hjournal
  dsimp only
  rw [hmanaged, Bool.not_true, if_neg Bool.false_ne_true]
  exact Fails.bind (checkOwned_fails h hforeign)

theorem restoreBeforeShutdown_foreign (heffective : state.effective = true) :
    Always (restoreBeforeShutdown sha256Hex host) w (fun _ _ => False) (fun _ w' => w' = w)
      (· = w) := by
  unfold restoreBeforeShutdown
  refine (readState_always (P := (· = w)) rfl).andThen ?_
  rintro journal _ ⟨rfl, hjournal⟩
  rw [hstate] at hjournal
  subst hjournal
  dsimp only
  rw [if_pos heffective]
  exact restoreSystemDns_foreign hstate h hforeign true

theorem restoreBeforeShutdown_fails (heffective : state.effective = true) :
    Fails (restoreBeforeShutdown sha256Hex host) w conflictOnRestore w := by
  unfold restoreBeforeShutdown
  refine Fails.bind_of_succeeds (readState_succeeds w) ?_
  rintro journal _ ⟨rfl, hjournal⟩
  rw [hstate] at hjournal
  subst hjournal
  dsimp only
  rw [if_pos heffective]
  exact restoreSystemDns_fails hstate h hforeign true

theorem takeOverSystemDns_foreign (hpending : state.pending = true) :
    Always (takeOverSystemDns parseUrl sha256Hex host) w (fun _ _ => False) (fun _ w' => w' = w)
      (· = w) := by
  unfold takeOverSystemDns
  refine (probe_always (P := (· = w)) rfl).andThen ?_
  rintro _ _ rfl
  refine (inspectEnvironment_always (P := (· = _)) rfl).andThen ?_
  rintro _ _ rfl
  refine (probe_always (P := (· = _)) rfl).andThen ?_
  rintro _ _ rfl
  refine Always.get_bind ((lift_always (P := (· = _)) rfl).andThen ?_)
  rintro _ _ ⟨rfl, -⟩
  refine (readState_always (P := (· = _)) rfl).andThen ?_
  rintro journal _ ⟨rfl, hjournal⟩
  rw [hstate] at hjournal
  subst hjournal
  refine Always.get_bind ?_
  rw [if_pos hpending]
  refine (lift_always (P := (· = _)) rfl).andThen ?_
  rintro _ _ ⟨rfl, howned⟩
  rw [h.not_owned hforeign] at howned
  cases howned

end

theorem startDaemon_foreign {file : ManagedFile} (hstate : w.journal = some state)
    (h : Recognized sha256Hex host state w) (hforeign : Foreign sha256Hex host state w file)
    (hdesired : state.desired = true) (hpending : state.pending = true) :
    Always (startDaemon parseUrl sha256Hex host) w
      (fun reconciliation w' => reconciliation.error.isSome = true ∧ w.SameFiles w')
      (fun _ w' => w.SameFiles w') w.SameFiles := by
  unfold startDaemon
  refine Always.bind (loadConfig_always w) (fun _ _ hkept => hkept.files) (fun _ hkept => hkept.files)
    ?_
  rintro _ w₁ ⟨hkept, -⟩
  have hstate₁ : w₁.journal = some state := hkept.files.journal.trans hstate
  unfold reconcileDesiredOnStart
  refine (readState_always hkept.files).andThen ?_
  rintro journal w₁ ⟨rfl, hjournal⟩
  rw [hstate₁] at hjournal
  subst hjournal
  dsimp only
  rw [hdesired, Bool.not_true, if_neg Bool.false_ne_true]
  have htaken : Always (takeOverSystemDns parseUrl sha256Hex host) w₁ (fun _ _ => False)
      (fun _ w' => w' = w₁) (· = w₁) := takeOverSystemDns_foreign hstate₁
    (hkept.files.recognized h) (hkept.files.foreign hforeign) hpending
  refine Always.attempt_bind (htaken.mono (fun _ _ h => h) (fun _ _ h => h)
    fun _ h => h ▸ hkept.files) (fun _ _ hfalse => hfalse.elim) ?_
  rintro error _ rfl
  exact Always.pure ⟨rfl, hkept.files⟩

/-- **A call that restores refuses**, where the foreign file is recognized. -/
theorem refuses_of_recognized {file : ManagedFile} (hstate : w.journal = some state)
    (h : Recognized sha256Hex host state w) (hforeign : Foreign sha256Hex host state w file)
    {call : DnsCall} (hcall : call.Restores state) : call.Refuses parseUrl sha256Hex host w := by
  cases call with
  | takeOver => exact takeOverSystemDns_foreign hstate h hforeign hcall
  | restore preserveDesired =>
    exact ⟨restoreSystemDns_foreign hstate h hforeign preserveDesired,
      restoreSystemDns_fails hstate h hforeign preserveDesired⟩
  | restoreOffline preserveDesired =>
    exact ⟨restoreSystemDnsOffline_foreign hstate h hforeign hcall preserveDesired,
      restoreSystemDnsOffline_fails hstate h hforeign hcall preserveDesired⟩
  | shutdown =>
    exact ⟨restoreBeforeShutdown_foreign hstate h hforeign hcall,
      restoreBeforeShutdown_fails hstate h hforeign hcall⟩
  | start => exact startDaemon_foreign hstate h hforeign hcall.1 hcall.2

theorem systemDnsStatus_same (w : World) :
    Always systemDnsStatus w (fun _ w' => w' = w) (fun _ w' => w' = w) (· = w) :=
  systemDnsStatus_always rfl

/-- The calls that may only restore. -/
def DnsCall.OnlyRestores : DnsCall → Prop
  | .restore _ | .restoreOffline _ | .shutdown => True
  | .takeOver | .start => False

theorem same_of_not_restores (hstate : w.journal = some state) {call : DnsCall}
    (hcall : ¬call.Restores state) (honly : call.OnlyRestores) (script : Script Text) :
    (call.run parseUrl sha256Hex host script w).state = w := by
  refine Always.state (I := (· = w)) ?_ script
  cases call with
  | takeOver => exact honly.elim
  | start => exact honly.elim
  | restore preserveDesired => exact absurd trivial hcall
  | restoreOffline preserveDesired =>
    have hmanaged : state.managed = false := Bool.eq_false_of_not_eq_true hcall
    unfold DnsCall.run restoreSystemDnsOffline
    refine (probe_always (P := (· = w)) rfl).andThen ?_
    rintro _ _ rfl
    refine (readState_always (P := (· = _)) rfl).andThen ?_
    rintro journal _ ⟨rfl, hjournal⟩
    rw [hstate] at hjournal
    subst hjournal
    dsimp only
    rw [hmanaged, Bool.not_false, if_pos rfl]
    exact systemDnsStatus_same _
  | shutdown =>
    change ¬state.effective = true at hcall
    unfold DnsCall.run restoreBeforeShutdown
    refine (readState_always (P := (· = w)) rfl).andThen ?_
    rintro journal _ ⟨rfl, hjournal⟩
    rw [hstate] at hjournal
    subst hjournal
    dsimp only
    rw [if_neg hcall]
    exact Always.pure rfl

/-! ## Runs -/

/-- A call that would restore over a foreign file refuses, and one that has nothing to restore
    does nothing. -/
def RespectsForeign (parseUrl : Text → Except Text Url) (sha256Hex : List UInt8 → Text)
    (w : World) : DnsEvent → Prop
  | .called call host script => ∀ state, w.journal = some state →
      (∃ file, Foreign sha256Hex host state w file) →
        (call.Restores state → call.Refuses parseUrl sha256Hex host w) ∧
        (¬call.Restores state → call.OnlyRestores →
          (call.run parseUrl sha256Hex host script w).state = w)
  | .wrote _ _ => True

/-- A restore that meets a foreign file recognizes it. -/
def RecognizesForeign (sha256Hex : List UInt8 → Text) (w : World) : DnsEvent → Prop
  | .called call host _ => ∀ state, w.journal = some state → call.Restores state →
      (∃ file, Foreign sha256Hex host state w file) → Recognized sha256Hex host state w
  | .wrote _ _ => True

/-- **Foreign changes are not overwritten**: in a run where every restore that meets a foreign
    file recognizes it, every such restore refuses. -/
theorem foreign_respected {init : World} {events : List DnsEvent}
    (hrecognizes : (systemDnsMachine parseUrl sha256Hex init).Guarded
      (RecognizesForeign sha256Hex) init events) :
    (systemDnsMachine parseUrl sha256Hex init).Guarded (RespectsForeign parseUrl sha256Hex) init
      events := by
  refine Machine.Guarded.mono (P := fun _ => True) (fun _ _ _ _ _ _ => trivial)
    (fun w event _ h => ?_) events trivial hrecognizes
  cases event with
  | wrote file node => trivial
  | called call host script =>
    rintro state hstate ⟨file, hforeign⟩
    exact ⟨fun hrestores => refuses_of_recognized hstate
      (h state hstate hrestores ⟨file, hforeign⟩) hforeign hrestores,
      fun hnot honly => same_of_not_restores hstate hnot honly script⟩

/-! ## A drop-in of another program -/

/-- A drop-in that another program writes. -/
def ownDropIn : Node := .regular (Text.asBytes "[Resolve]\nDNS=9.9.9.9\n".toList) 0o644

/-- It is written behind a takeover, and a restore follows. -/
def changedWhileManaged : List DnsEvent :=
  [.called .takeOver stubHost [], .wrote .dropIn ownDropIn, .called (.restore false) stubHost []]

theorem marked_changedWhileManaged :
    (((stubWorld.after noUrl sampleSha256 (.called .takeOver stubHost [])).after noUrl sampleSha256
      (.wrote .dropIn ownDropIn)).journal.all fun state => state.effective) = true := by
  decide +kernel

theorem respected_changedWhileManaged : (systemDnsMachine noUrl sampleSha256 stubWorld).Guarded
    (RespectsForeign noUrl sampleSha256) stubWorld changedWhileManaged := by
  refine foreign_respected ⟨fun state hstate => ?_, _, rfl, trivial, _, rfl, ?_, _, rfl, trivial⟩
  · cases hstate
  · intro state hstate _ _
    have hmarked := marked_changedWhileManaged
    rw [hstate] at hmarked
    refine ⟨.inl hmarked, fun hunreadable => ?_⟩
    cases hunreadable.2

theorem dropIn_restored_again :
    ((systemDnsMachine noUrl sampleSha256 stubWorld).run stubWorld
      (takenAndRestored ++ [.wrote .dropIn ownDropIn])).map (fun w => (w.dropIn,
        w.journal.map fun state => decide (Foreign sampleSha256 stubHost state w .dropIn),
        (w.after noUrl sampleSha256 (.called (.restore false) stubHost [])).dropIn)) =
      some (ownDropIn, some true, .missing) := by
  decide +kernel

/-- The second restore removes the file of the other program. -/
theorem restored_file_replaced : ∃ w,
    (systemDnsMachine noUrl sampleSha256 stubWorld).run stubWorld
        (takenAndRestored ++ [.wrote .dropIn ownDropIn]) = some w ∧
      w.dropIn = ownDropIn ∧
      (w.after noUrl sampleSha256 (.called (.restore false) stubHost [])).dropIn = .missing ∧
      ¬RespectsForeign noUrl sampleSha256 w (.called (.restore false) stubHost []) := by
  obtain ⟨w, hrun, hw⟩ := Option.map_eq_some_iff.1 dropIn_restored_again
  obtain ⟨hown, hforeign, hremoved⟩ : w.dropIn = ownDropIn ∧ _ ∧
      (w.after noUrl sampleSha256 (.called (.restore false) stubHost [])).dropIn = .missing :=
    ⟨congrArg (·.1) hw, congrArg (·.2.1) hw, congrArg (·.2.2) hw⟩
  refine ⟨w, hrun, hown, hremoved, fun hrespects => ?_⟩
  obtain ⟨state, hstate, hstateForeign⟩ := Option.map_eq_some_iff.1 hforeign
  have hrefuses := ((hrespects state hstate ⟨.dropIn, of_decide_eq_true hstateForeign⟩).1 trivial).1
  have hsame : (w.after noUrl sampleSha256 (.called (.restore false) stubHost [])) = w :=
    Always.state (I := (· = w)) (hrefuses.mono (fun _ _ h => h.elim) (fun _ _ h => h)
      fun _ h => h) []
  rw [hsame, hown] at hremoved
  cases hremoved

end DnsBlackhole.Linux
