/-
  A restore whose steps succeed brings the originals back (`linux_system_dns.rs`), from every
  state that a run without other programs reaches.

  * `restoreSystemDns_succeeds`, `restoreSystemDnsOffline_succeeds`;
  * `originals_recoverable`: what holds in every such state, if the targets of the links
    are UTF-8;
  * `lossy_link_lost`: a link whose target is not is lost.
-/
import DnsBlackhole.Linux.Takeover

namespace DnsBlackhole.Linux
open Admin (AppConfig)
open Config (Url noUrl)
open Lib
open Steps

variable {parseUrl : Text → Except Text Url} {sha256Hex : List UInt8 → Text} {host : Host}
  {o : ManagedFile → Node} {state : SystemDnsState} {w : World} {file : ManagedFile}

/-! ## Restoring the files -/

theorem captureFile_error {node : Node} (h : node = .directory ∨ node = .special) :
    captureFile file node = .error (file.path ++ " 既不是普通文件也不是符号链接".toList) := by
  rcases h with rfl | rfl <;> rfl

theorem Begun.usable (h : Begun sha256Hex o state w) (file : ManagedFile) :
    w.node file ≠ .directory ∧ w.node file ≠ .special := by
  have hnot : ¬(w.node file = .directory ∨ w.node file = .special) := by
    intro hnode
    rcases h.node file with horiginal | hmanaged
    · have herror := h.records.captured file
      rw [captureFile_error (horiginal ▸ hnode)] at herror
      cases herror
    · rw [hmanaged] at hnode
      cases file <;> rcases hnode with hnode | hnode <;> cases hnode
  exact not_or.1 hnot

theorem writeNode_succeeds (w : World) (file : ManagedFile) (node : Node) :
    Succeeds (writeNode file node) w fun _ _ => True := Succeeds.step trivial

theorem replaceFile_succeeds (h : w.node file ≠ .directory) (node : Node) :
    Succeeds (replaceFile file node) w fun _ _ => True := by
  unfold replaceFile
  refine Succeeds.get_bind ?_
  rw [if_neg h]
  exact writeNode_succeeds w file node

theorem removeFileIfPresent_succeeds (h : w.node file ≠ .directory ∧ w.node file ≠ .special) :
    Succeeds (removeFileIfPresent file) w fun _ _ => True := by
  unfold removeFileIfPresent
  refine Succeeds.bind (Succeeds.probe (Q := fun _ w' => w' = w) rfl) ?_
  rintro _ w rfl
  refine Succeeds.get_bind ?_
  cases hnode : w.node file with
  | missing => exact Succeeds.pure trivial
  | regular content mode => exact writeNode_succeeds w file .missing
  | symlink target => exact writeNode_succeeds w file .missing
  | directory => exact absurd hnode h.1
  | special => exact absurd hnode h.2

theorem restoreSnapshot_succeeds (hutf8 : ∀ file, (o file).LinksUtf8)
    (h : Begun sha256Hex o state w) (file : ManagedFile) :
    Succeeds (restoreSnapshot file (state.original file)) w
      fun _ w' => Begun sha256Hex o state w' ∧ w.RestoredAt o file w' := by
  refine Succeeds.of_always ?_ (restoreSnapshot_always hutf8 h file)
  cases state.original file with
  | missing => exact removeFileIfPresent_succeeds (h.usable file)
  | regular content mode => exact replaceFile_succeeds (h.usable file).1 _
  | symlink target => exact replaceFile_succeeds (h.usable file).1 _

theorem restoreFiles_succeeds (hutf8 : ∀ file, (o file).LinksUtf8)
    (h : Begun sha256Hex o state w) :
    Succeeds (restoreFiles state) w fun _ w' => Begun sha256Hex o state w' ∧ w'.Original o := by
  refine Succeeds.of_always ?_ (restoreFiles_always hutf8 h)
  unfold restoreFiles
  refine (restoreSnapshot_succeeds hutf8 h .dropIn).bind fun _ w₁ h₁ => ?_
  exact (restoreSnapshot_succeeds hutf8 h₁.1 .resolvConf).mono fun _ _ _ => trivial

/-! ## Restoring -/

theorem systemDnsStatus_succeeds (w : World) : Succeeds systemDnsStatus w fun _ _ => True := by
  unfold systemDnsStatus
  exact (readState_succeeds w).bind fun _ _ _ => Succeeds.pure trivial

theorem reloadAndVerifyResolver_succeeds (w : World) :
    Succeeds reloadAndVerifyResolver w fun _ _ => True := by
  unfold reloadAndVerifyResolver
  exact Succeeds.bind (Succeeds.probe (Q := fun _ _ => True) trivial) fun _ _ _ =>
    Succeeds.probe trivial

theorem stopDnsBlocking_succeeds (w : World) :
    Succeeds stopDnsBlocking w fun _ w' => w.Kept True w' := by
  refine Succeeds.of_always ?_ (stopDnsBlocking_always w)
  unfold stopDnsBlocking
  refine Succeeds.bind (Succeeds.probe (Q := fun _ _ => True) trivial) fun _ w₁ _ => ?_
  refine Succeeds.get_bind ?_
  refine Succeeds.bind (Succeeds.step (Q := fun _ _ => True) trivial) fun _ w₂ _ => ?_
  refine Succeeds.bind (Succeeds.step (Q := fun _ _ => True) trivial) fun _ w₃ _ => ?_
  exact Succeeds.probe trivial

theorem finishRestoring_succeeds (hutf8 : ∀ file, (o file).LinksUtf8)
    (h : Begun sha256Hex o state w) :
    Succeeds (finishRestoring state) w fun _ w' => w'.IsRestored sha256Hex o := by
  refine Succeeds.of_always ?_ (finishRestoring_always hutf8 h)
  unfold finishRestoring
  refine (restoreFiles_succeeds hutf8 h).bind fun _ w₁ _ => ?_
  refine Succeeds.bind (Succeeds.step (Q := fun _ _ => True) trivial) fun _ w₂ _ => ?_
  refine Succeeds.bind (Q := fun r _ => r = .ok ⟨⟩)
    (Succeeds.attempt ((reloadAndVerifyResolver_succeeds w₂).mono fun _ _ _ => rfl)) ?_
  rintro _ w₃ rfl
  exact systemDnsStatus_succeeds w₃

theorem checkOwned_succeeds (h : Recoverable sha256Hex o w) (hstate : w.journal = some state) :
    Succeeds (checkOwned sha256Hex host state) w fun _ w' => w' = w := by
  refine Succeeds.of_always ?_ (checkOwned_always h hstate)
  unfold checkOwned
  refine Succeeds.get_bind ?_
  rw [h.owned hstate, Bool.not_true, Bool.and_false]
  exact Succeeds.pure trivial

theorem restoreSystemDns_succeeds (hutf8 : ∀ file, (o file).LinksUtf8)
    (h : Recoverable sha256Hex o w) (preserveDesired : Bool) :
    Succeeds (restoreSystemDns sha256Hex host preserveDesired) w
      fun _ w' => w'.IsRestored sha256Hex o := by
  refine Succeeds.of_always ?_ (restoreSystemDns_always hutf8 h preserveDesired)
  unfold restoreSystemDns
  refine Succeeds.bind (Succeeds.probe (Q := fun _ w' => w' = w) rfl) ?_
  rintro _ w rfl
  refine (readState_succeeds w).bind ?_
  rintro journal w ⟨rfl, hjournal⟩
  cases journal with
  | none => exact systemDnsStatus_succeeds w
  | some state =>
    refine (checkOwned_succeeds h hjournal.symm).bind ?_
    rintro _ w rfl
    have hbegun := h.begin hjournal.symm preserveDesired
    refine Succeeds.bind (Succeeds.step (Q := fun _ w' => Begun sha256Hex o _ w') hbegun)
      fun _ w₁ h₁ => ?_
    refine (stopDnsBlocking_succeeds w₁).bind fun _ w₂ h₂ => ?_
    exact (finishRestoring_succeeds hutf8 (h₁.sameFiles h₂.files)).mono fun _ _ _ => trivial

theorem restoreSystemDnsOffline_succeeds (hutf8 : ∀ file, (o file).LinksUtf8)
    (h : Recoverable sha256Hex o w) (preserveDesired : Bool) :
    Succeeds (restoreSystemDnsOffline sha256Hex host preserveDesired) w
      fun _ w' => w'.IsRestored sha256Hex o := by
  refine Succeeds.of_always ?_ (restoreSystemDnsOffline_always hutf8 h preserveDesired)
  unfold restoreSystemDnsOffline
  refine Succeeds.bind (Succeeds.probe (Q := fun _ w' => w' = w) rfl) ?_
  rintro _ w rfl
  refine (readState_succeeds w).bind ?_
  rintro journal w ⟨rfl, hjournal⟩
  cases journal with
  | none => exact systemDnsStatus_succeeds w
  | some state =>
    dsimp only
    split_ifs
    · exact systemDnsStatus_succeeds w
    refine (checkOwned_succeeds h hjournal.symm).bind ?_
    rintro _ w rfl
    refine Succeeds.bind (Succeeds.probe (Q := fun _ w' => w' = w) rfl) ?_
    rintro _ w rfl
    have hbegun := h.begin hjournal.symm preserveDesired
    refine Succeeds.bind (Succeeds.step (Q := fun _ w' => Begun sha256Hex o _ w') hbegun)
      fun _ w₁ h₁ => ?_
    exact (finishRestoring_succeeds hutf8 h₁).mono fun _ _ _ => trivial

/-! ## Every reachable state -/

/-- What a state says about the originals. -/
structure World.KeepsOriginals (parseUrl : Text → Except Text Url)
    (sha256Hex : List UInt8 → Text) (o : ManagedFile → Node) (w : World) : Prop where
  node : ∀ file, w.node file = o file ∨ w.node file = managedNode file
  /-- A file that differs is accounted for by the state file, which has both originals. -/
  recorded : ¬w.Original o → ∃ state, w.journal = some state ∧
    (state.effective = true ∨ state.pending = true) ∧
    (∀ file, captureFile file (o file) = .ok (state.original file) ∧
      (state.original file).restored = o file) ∧
    ∀ host, transitionFilesAreOwned sha256Hex host state w = true
  desired : ∀ state, w.journal = some state → state.effective = true → state.pending = false →
    state.desired = true
  /-- A restore whose steps all succeed. -/
  restores : ∀ host preserveDesired,
    Succeeds ((DnsCall.restore preserveDesired).run parseUrl sha256Hex host) w
        (fun _ w' => w'.Restored o) ∧
      Succeeds ((DnsCall.restoreOffline preserveDesired).run parseUrl sha256Hex host) w
        (fun _ w' => w'.Restored o)

/-- **The originals are never lost**: in every state of a run without other programs, each
    file is the original or the managed one, where one is not the original the state file
    has both, and a restore whose steps succeed brings them back. -/
theorem originals_recoverable {init : World} (hinit : init.Untouched)
    (hutf8 : ∀ file, (init.node file).LinksUtf8) {events : List DnsEvent}
    (hcalls : ∀ event ∈ events, event.IsCall)
    (hrun : (systemDnsMachine parseUrl sha256Hex init).run init events = some w) :
    w.KeepsOriginals parseUrl sha256Hex init.node := by
  have h := recoverable_of_run hinit hutf8 hcalls hrun
  refine ⟨h.node, fun hdiffers => ?_, fun state hstate heffective hpending =>
    (h.serving state hstate heffective hpending).1, fun host preserveDesired => ⟨?_, ?_⟩⟩
  · rcases h.marked with horiginal | ⟨state, hstate, hmarked⟩
    · exact absurd horiginal hdiffers
    · have hcaptured := (h.records state hstate).captured
      exact ⟨state, hstate, hmarked, fun file => ⟨hcaptured file,
        (restored_captureFile (hcaptured file)).2 (hutf8 file)⟩, fun host => h.owned hstate⟩
  · exact (restoreSystemDns_succeeds hutf8 h preserveDesired).mono fun _ _ h => h.restored
  · exact (restoreSystemDnsOffline_succeeds hutf8 h preserveDesired).mono fun _ _ h => h.restored

/-! ## A machine -/

/-- SHA-256, as far as a run without other programs asks for it. -/
def sampleSha256 (content : List UInt8) : Text :=
  if content = managedDropIn.asBytes then
    "5ef10bf41643e75c701b07a7ba862441eb0a05b0c8c69171c3b7f70e17745b6e".toList
  else []

/-- All links lead to the file of the stub resolver. -/
def stubHost : Host where
  read _ := none
  canonicalize _ := some resolvedStubResolvConf.asBytes

/-- A server for the local host, which does not listen at the port of DNS yet. -/
def localConfig : AppConfig :=
  { Database.retainingConfig 24 with
    enabled := true
    listenHost := "127.0.0.1".toList
    listenPort := 5335 }

/-- There is no drop-in, and `/etc/resolv.conf` is a link with this target. -/
def linkedWorld (target : List UInt8) : World where
  dropIn := .missing
  resolvConf := .symlink target
  journal := none
  stored := localConfig
  memory := localConfig

def stubWorld : World := linkedWorld (Text.asBytes "../run/systemd/resolve/stub-resolv.conf".toList)

theorem linksUtf8_stubWorld (file : ManagedFile) : (stubWorld.node file).LinksUtf8 := by
  cases file
  · trivial
  · decide +kernel

/-- A takeover that dies with the drop-in in its place. -/
def cutTakeover : DnsEvent :=
  .called .takeOver stubHost [none, none, none, none, none, none, none, none, none, none, none,
    some (.dies true)]

/-- A takeover and a restore, all of whose steps succeed. -/
def takenAndRestored : List DnsEvent :=
  [.called .takeOver stubHost [], .called (.restore false) stubHost []]

theorem cutTakeover_recoverable : ∃ w,
    (systemDnsMachine noUrl sampleSha256 stubWorld).run stubWorld [cutTakeover] = some w ∧
      w.KeepsOriginals noUrl sampleSha256 stubWorld.node := by
  have hcalls : ∀ event ∈ [cutTakeover], event.IsCall := by
    intro event hmem
    rw [List.mem_singleton] at hmem
    subst hmem
    trivial
  have hrun : (systemDnsMachine noUrl sampleSha256 stubWorld).run stubWorld [cutTakeover] =
      some (stubWorld.after noUrl sampleSha256 cutTakeover) :=
    (Machine.run_cons_eq_some _).2 ⟨_, rfl, rfl⟩
  exact ⟨_, hrun, originals_recoverable rfl linksUtf8_stubWorld hcalls hrun⟩

/-- The link leads to a path that is not UTF-8. -/
def lossyWorld : World := linkedWorld [0x2F, 0xFF]

theorem resolvConf_takenAndRestored :
    ((systemDnsMachine noUrl sampleSha256 lossyWorld).run lossyWorld takenAndRestored).map
      (·.resolvConf) = some (.symlink [0x2F, 0xEF, 0xBF, 0xBD]) := by
  decide +kernel

/-- The target is noted as a text; what a restore puts back is another link. -/
theorem lossy_link_lost : lossyWorld.Untouched ∧ ∃ w,
    (systemDnsMachine noUrl sampleSha256 lossyWorld).run lossyWorld takenAndRestored = some w ∧
      w.resolvConf = .symlink [0x2F, 0xEF, 0xBF, 0xBD] ∧
      ¬w.KeepsOriginals noUrl sampleSha256 lossyWorld.node := by
  obtain ⟨w, hrun, hlink⟩ := Option.map_eq_some_iff.1 resolvConf_takenAndRestored
  refine ⟨rfl, w, hrun, hlink, fun hkeeps => ?_⟩
  have hnode := hkeeps.node .resolvConf
  rw [World.node, hlink] at hnode
  exact absurd hnode (by decide +kernel)

end DnsBlackhole.Linux
