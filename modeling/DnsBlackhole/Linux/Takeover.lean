/-
  The original files are never lost (`linux_system_dns.rs`, `linux_daemon.rs`).

  * every call keeps a state `Recoverable`, wherever it ends (`recoverable_after`);
  * `originals_recoverable`: along every run, the originals are in their places or in the
    state file, and a restore whose steps succeed brings them back.
-/
import DnsBlackhole.Linux.Recoverable

namespace DnsBlackhole.Linux
open Admin (AppConfig)
open Config (Url migrateLegacyDefaults listenPort_migrateLegacyDefaults)
open Lib
open Service (enabledConfig)
open Steps

variable {parseUrl : Text → Except Text Url} {sha256Hex : List UInt8 → Text} {host : Host}
  {o : ManagedFile → Node} {state : SystemDnsState} {w : World}

/-! ## Taking over -/

theorem writeAtomic_begun (h : Begun sha256Hex o state w) :
    Always (writeAtomic .dropIn managedDropIn.asBytes 0o644) w
      (fun _ w' => Begun sha256Hex o state w') (fun _ w' => Begun sha256Hex o state w')
      (Begun sha256Hex o state) := by
  have hdone : Begun sha256Hex o state (w.write .dropIn (managedNode .dropIn)) := h.write (.inr rfl)
  unfold writeAtomic replaceFile
  refine Always.get_bind ?_
  split_ifs
  · exact Always.throw h
  · exact Always.step hdone (fun _ => ⟨h, hdone⟩) ⟨h, hdone⟩

theorem replaceSymlinkAtomic_begun (h : Begun sha256Hex o state w) :
    Always (replaceSymlinkAtomic .resolvConf resolvedResolvConf) w
      (fun _ w' => Begun sha256Hex o state w') (fun _ w' => Begun sha256Hex o state w')
      (Begun sha256Hex o state) := by
  have hdone : Begun sha256Hex o state (w.write .resolvConf (managedNode .resolvConf)) :=
    h.write (.inr rfl)
  unfold replaceSymlinkAtomic replaceFile
  refine Always.get_bind ?_
  split_ifs
  · exact Always.throw h
  · exact Always.step hdone (fun _ => ⟨h, hdone⟩) ⟨h, hdone⟩

theorem stopDnsBlocking_begun (h : Begun sha256Hex o state w) :
    Always stopDnsBlocking w (fun _ w' => Begun sha256Hex o state w')
      (fun _ w' => Begun sha256Hex o state w') (Begun sha256Hex o state) :=
  (stopDnsBlocking_always w).mono (fun _ _ hkept => h.sameFiles hkept.files)
    (fun _ _ hkept => h.sameFiles hkept.files) fun _ hkept => h.sameFiles hkept.files

theorem applyListenPortBlocking_begun (h : Begun sha256Hex o state w) (port : UInt16) :
    Always (applyListenPortBlocking parseUrl port) w
      (fun _ w' => Begun sha256Hex o state w' ∧ w'.memory.listenPort = port)
      (fun _ w' => Begun sha256Hex o state w') (Begun sha256Hex o state) :=
  (applyListenPortBlocking_always w port).mono (fun _ _ hsame => ⟨h.sameFiles hsame.1, hsame.2⟩)
    (fun _ _ hsame => h.sameFiles hsame) fun _ hsame => h.sameFiles hsame

theorem switchFiles_begun (h : Begun sha256Hex o state w) : Always (switchFiles parseUrl) w
    (fun _ w' => Begun sha256Hex o state w' ∧ w'.memory.listenPort = 53)
    (fun _ w' => Begun sha256Hex o state w') (Begun sha256Hex o state) := by
  unfold switchFiles
  refine (stopDnsBlocking_begun h).andThen fun _ w h => ?_
  refine (probe_always h).andThen ?_
  rintro _ w rfl
  refine (writeAtomic_begun h).andThen fun _ w h => ?_
  refine (replaceSymlinkAtomic_begun h).andThen fun _ w h => ?_
  refine (probe_always h).andThen ?_
  rintro _ w rfl
  exact applyListenPortBlocking_begun h 53

theorem serveAndVerify_begun (h : Begun sha256Hex o state w) (hport : w.memory.listenPort = 53) :
    Always (serveAndVerify parseUrl) w
      (fun _ w' => Begun sha256Hex o state w' ∧ w'.Port53 ∧ w'.Serves53)
      (fun _ w' => Begun sha256Hex o state w') (Begun sha256Hex o state) := by
  have henabled := listenPort_enabledConfig hport
  unfold serveAndVerify
  refine Always.bind (startDnsBlocking_always w) (fun _ _ hkept => h.sameFiles hkept.files)
    (fun _ hkept => h.sameFiles hkept.files) ?_
  rintro _ w₁ ⟨hkept, hmemory, hstored⟩
  have h₁ := h.sameFiles hkept.files
  refine Always.probe ⟨h₁, ⟨?_, ?_⟩, ?_, ?_⟩ (fun _ => h₁) h₁
  · exact hstored ▸ henabled
  · exact hmemory ▸ henabled
  · exact hstored ▸ enabled_enabledConfig w.memory
  · exact hstored ▸ henabled

theorem rollback_begun (hutf8 : ∀ file, (o file).LinksUtf8) (h : Begun sha256Hex o state w) :
    Always (rollback state) w (fun _ w' => Begun sha256Hex o state w' ∧ w'.Original o)
      (fun _ w' => Begun sha256Hex o state w') (Begun sha256Hex o state) := by
  have hrestore : ∀ w, Begun sha256Hex o state w →
      Always (restoreFiles state >>= fun _ => reloadAndVerifyResolver) w
        (fun _ w' => Begun sha256Hex o state w' ∧ w'.Original o)
        (fun _ w' => Begun sha256Hex o state w') (Begun sha256Hex o state) := fun w h =>
    (restoreFiles_always hutf8 h).andThen fun _ w' h' => (reloadAndVerifyResolver_always h').mono
      (fun _ _ h => h) (fun _ _ h => h.1) fun _ h => h.1
  unfold rollback
  exact Always.attempt_bind (stopDnsBlocking_begun h) (fun _ w h => hrestore w h)
    fun _ w h => hrestore w h

theorem writeFailed_always {rolledBack : Except Text PUnit} {error : Text}
    (h : Begun sha256Hex o state w) (horiginal : ∀ a, rolledBack = .ok a → w.Original o) :
    Always (writeState (state.failed rolledBack error)) w
      (fun _ w' => Recoverable sha256Hex o w') (fun _ w' => Recoverable sha256Hex o w')
      (Recoverable sha256Hex o) := by
  have hrecords : Records sha256Hex o (state.failed rolledBack error) :=
    h.records.of_eq rfl rfl rfl rfl
  have hdone : Recoverable sha256Hex o { w with journal := some (state.failed rolledBack error) } := by
    cases rolledBack with
    | ok a => exact ((horiginal a rfl).isRestored hrecords rfl rfl).recoverable
    | error e =>
      exact Begun.recoverable ⟨fun file => (w.sameNode_journal _ file).symm ▸ h.node file, rfl,
        hrecords, rfl⟩
  exact Always.step hdone (fun _ => ⟨h.recoverable, hdone⟩) ⟨h.recoverable, hdone⟩

theorem failTakeover_always {Q : PUnit → World → Prop} (hutf8 : ∀ file, (o file).LinksUtf8)
    (h : Begun sha256Hex o state w) (restoredListenPort : Option UInt16) (error : Text) :
    Always (failTakeover parseUrl state restoredListenPort error) w Q
      (fun _ w' => Recoverable sha256Hex o w') (Recoverable sha256Hex o) := by
  have hnote : ∀ (w : World) (rolledBack : Except Text PUnit), Begun sha256Hex o state w →
      (∀ a, rolledBack = .ok a → w.Original o) →
      Always (attempt (writeState (state.failed rolledBack error)) >>= fun _ =>
          (throw ((state.failed rolledBack error).lastError.getD error) : DnsM PUnit)) w Q
        (fun _ w' => Recoverable sha256Hex o w') (Recoverable sha256Hex o) :=
    fun w rolledBack h horiginal => Always.attempt_bind (writeFailed_always h horiginal)
      (fun _ _ h => Always.throw h) fun _ _ h => Always.throw h
  have hrollback : ∀ w, Begun sha256Hex o state w →
      Always (attempt (rollback state) >>= fun rolledBack =>
          attempt (writeState (state.failed rolledBack error)) >>= fun _ =>
          (throw ((state.failed rolledBack error).lastError.getD error) : DnsM PUnit)) w Q
        (fun _ w' => Recoverable sha256Hex o w') (Recoverable sha256Hex o) := fun w h =>
    Always.attempt_bind ((rollback_begun hutf8 h).mono (fun _ _ h => h) (fun _ _ h => h)
      fun _ h => h.recoverable) (fun _ w h => hnote w _ h.1 fun _ _ => h.2)
      fun _ w h => hnote w _ h fun _ hok => by cases hok
  unfold failTakeover
  cases restoredListenPort with
  | none => exact hrollback w h
  | some port =>
    exact Always.attempt_bind ((applyListenPortBlocking_begun h port).mono (fun _ _ h => h.1)
      (fun _ _ h => h) fun _ h => h.recoverable) (fun _ w h => hrollback w h)
      fun _ w h => hrollback w h

theorem refuseUnknownDropIn_always {P : World → Prop} (h : P w) :
    Always (refuseUnknownDropIn host) w (fun _ w' => w' = w) (fun _ w' => P w') P := by
  unfold refuseUnknownDropIn
  refine Always.get_bind ?_
  split_ifs
  · refine (readState_always h).andThen ?_
    rintro journal w ⟨rfl, -⟩
    split_ifs
    · exact Always.throw h
    · exact Always.pure rfl
  · exact Always.pure rfl

/-- What a takeover that returns leaves. -/
structure World.TakenOver (sha256Hex : List UInt8 → Text) (o : ManagedFile → Node) (w : World) :
    Prop where
  recoverable : Recoverable sha256Hex o w
  serves : w.Serves53

theorem finishTakeover_always (h : Begun sha256Hex o state w) (hdesired : state.desired = true)
    (hport : w.Port53) (hserves : w.Serves53) :
    Always (finishTakeover state) w (fun _ w' => w'.TakenOver sha256Hex o)
      (fun _ w' => Recoverable sha256Hex o w') (Recoverable sha256Hex o) := by
  have hrecords : Records sha256Hex o
      { state with effective := true, pending := false, lastError := none } :=
    h.records.of_eq rfl rfl rfl rfl
  have hdone : World.TakenOver sha256Hex o { w with
      journal := some { state with effective := true, pending := false, lastError := none } } := by
    refine ⟨⟨fun file => (w.sameNode_journal _ file).symm ▸ h.node file, fun _ hstate => ?_,
      .inr ⟨_, rfl, .inl rfl⟩, fun _ hstate _ _ => ?_⟩, hserves⟩
    · cases hstate
      exact hrecords
    · cases hstate
      exact ⟨hdesired, hport⟩
  unfold finishTakeover
  refine Always.andThen (Q := fun _ w' => w'.TakenOver sha256Hex o)
    (Always.step hdone (fun _ => ⟨h.recoverable, hdone.recoverable⟩)
      ⟨h.recoverable, hdone.recoverable⟩) fun _ w' h' => ?_
  exact (systemDnsStatus_always h').mono (fun _ _ h => h) (fun _ _ h => h.recoverable)
    fun _ h => h.recoverable

theorem beginTakeover_begun {originalResolvConf originalDropIn : FileSnapshot}
    (horiginal : w.Original o)
    (hresolvConf : captureFile .resolvConf w.resolvConf = .ok originalResolvConf)
    (hdropIn : captureFile .dropIn w.dropIn = .ok originalDropIn) :
    Begun sha256Hex o (beginTakeover sha256Hex originalResolvConf originalDropIn)
      { w with journal := some (beginTakeover sha256Hex originalResolvConf originalDropIn) } := by
  refine ⟨fun file => (w.sameNode_journal _ file).symm ▸ .inl (horiginal file), rfl,
    ⟨fun file => ?_, rfl, rfl⟩, rfl⟩
  cases file with
  | dropIn => exact horiginal .dropIn ▸ hdropIn
  | resolvConf => exact horiginal .resolvConf ▸ hresolvConf

theorem beginAndTakeOver_always (hutf8 : ∀ file, (o file).LinksUtf8)
    (h : Recoverable sha256Hex o w) (horiginal : w.Original o) :
    Always (beginAndTakeOver parseUrl sha256Hex host) w (fun _ w' => w'.TakenOver sha256Hex o)
      (fun _ w' => Recoverable sha256Hex o w') (Recoverable sha256Hex o) := by
  unfold beginAndTakeOver
  refine (refuseUnknownDropIn_always h).andThen ?_
  rintro _ w rfl
  refine (probe_always h).andThen ?_
  rintro _ w rfl
  refine Always.get_bind ?_
  refine (lift_always h).andThen ?_
  rintro originalResolvConf w ⟨rfl, hresolvConf⟩
  refine (lift_always h).andThen ?_
  rintro originalDropIn w ⟨rfl, hdropIn⟩
  have hbegun : Begun sha256Hex o (beginTakeover sha256Hex originalResolvConf originalDropIn) _ :=
    beginTakeover_begun horiginal hresolvConf hdropIn
  refine Always.andThen (Q := fun _ w' => Begun sha256Hex o _ w') (Always.step hbegun
    (fun _ => ⟨h, hbegun.recoverable⟩) ⟨h, hbegun.recoverable⟩) fun _ w₁ h₁ => ?_
  refine Always.attempt_bind ((switchFiles_begun h₁).mono (fun _ _ h => h) (fun _ _ h => h)
    fun _ h => h.recoverable) ?_ fun error w₂ h₂ => failTakeover_always hutf8 h₂ none error
  rintro previousPort w₂ ⟨h₂, hport⟩
  refine Always.attempt_bind ((serveAndVerify_begun h₂ hport).mono (fun _ _ h => h)
    (fun _ _ h => h) fun _ h => h.recoverable) ?_ fun error w₃ h₃ =>
      failTakeover_always hutf8 h₃ _ error
  rintro _ w₃ ⟨h₃, hport, hserves⟩
  exact finishTakeover_always h₃ rfl hport hserves

/-- The service keeps a state recoverable: where a takeover stands, DNS stays on its port. -/
theorem Recoverable.kept {w' : World} (h : Recoverable sha256Hex o w) (hkept : w.Kept True w') :
    Recoverable sha256Hex o w' where
  node file := by
    rw [hkept.files.node]
    exact h.node file
  records state hstate := h.records state (hkept.files.journal ▸ hstate)
  marked := by
    rw [hkept.files.journal]
    exact h.marked.imp_left fun horiginal file => (hkept.files.node file).trans (horiginal file)
  serving state hstate heffective hpending := by
    have hserving := h.serving state (hkept.files.journal ▸ hstate) heffective hpending
    exact ⟨hserving.1, hkept.port trivial hserving.2⟩

theorem inspectEnvironment_always {P : World → Prop} (h : P w) :
    Always (inspectEnvironment host) w (fun _ w' => w' = w) (fun _ w' => P w') P := by
  unfold inspectEnvironment
  refine (probe_always h).andThen ?_
  rintro _ w rfl
  refine Always.get_bind ?_
  cases resolvedSymlinkTarget host w.resolvConf with
  | none => exact Always.throw h
  | some target => exact (lift_always h).mono (fun _ _ h => h.1) (fun _ _ h => h) fun _ h => h

theorem takeOverSystemDns_always (hutf8 : ∀ file, (o file).LinksUtf8)
    (h : Recoverable sha256Hex o w) :
    Always (takeOverSystemDns parseUrl sha256Hex host) w (fun _ w' => w'.TakenOver sha256Hex o)
      (fun _ w' => Recoverable sha256Hex o w') (Recoverable sha256Hex o) := by
  unfold takeOverSystemDns
  refine (probe_always h).andThen ?_
  rintro _ w rfl
  refine (inspectEnvironment_always h).andThen ?_
  rintro _ w rfl
  refine (probe_always h).andThen ?_
  rintro _ w rfl
  refine Always.get_bind ((lift_always h).andThen ?_)
  rintro _ w ⟨rfl, -⟩
  refine (readState_always h).andThen ?_
  rintro journal w ⟨rfl, hjournal⟩
  cases journal with
  | none =>
    exact beginAndTakeOver_always hutf8 h (h.original_of_idle fun state hstate => by
      cases hjournal.trans hstate)
  | some existing =>
    refine Always.get_bind ?_
    split_ifs with hpending heffective
    · refine (lift_always h).andThen ?_
      rintro _ w ⟨rfl, -⟩
      refine (restoreSystemDns_always hutf8 h true).andThen fun _ w₁ h₁ => ?_
      exact beginAndTakeOver_always hutf8 h₁.recoverable h₁.restored.original
    · refine (lift_always h).andThen ?_
      rintro _ w ⟨rfl, -⟩
      have hport := (h.serving existing hjournal.symm heffective
        (Bool.eq_false_of_not_eq_true hpending)).2
      refine Always.bind (startDnsBlocking_always w) (fun _ _ hkept => h.kept hkept)
        (fun _ hkept => h.kept hkept) ?_
      rintro _ w₁ ⟨hkept, -, hstored⟩
      have htaken : w₁.TakenOver sha256Hex o := by
        refine ⟨h.kept hkept, ?_, (hkept.port trivial hport).1⟩
        rw [hstored]
        exact enabled_enabledConfig w.memory
      exact (systemDnsStatus_always htaken).mono (fun _ _ h => h) (fun _ _ h => h.recoverable)
        fun _ h => h.recoverable
    · refine beginAndTakeOver_always hutf8 h (h.original_of_idle fun state hstate => ?_)
      cases hjournal.trans hstate
      exact ⟨Bool.eq_false_of_not_eq_true heffective, Bool.eq_false_of_not_eq_true hpending⟩

/-! ## The daemon -/

/-- What the start has found and left: without an error, DNS is served on its port, or the
    takeover is not desired and nothing was done. -/
structure World.Reconciled (sha256Hex : List UInt8 → Text) (o : ManagedFile → Node) (w : World)
    (reconciliation : StartupReconciliation) (w' : World) : Prop where
  recoverable : Recoverable sha256Hex o w'
  serves : reconciliation.desired = true → reconciliation.error = none → w'.Serves53
  untouched : reconciliation.desired = false → w.SameFiles w' ∧ w'.stored = w.stored ∧
    ∀ state, w.journal = some state → state.desired = false

theorem reconcileDesiredOnStart_always (hutf8 : ∀ file, (o file).LinksUtf8)
    (h : Recoverable sha256Hex o w) :
    Always (reconcileDesiredOnStart parseUrl sha256Hex host) w
      (fun reconciliation w' => w.Reconciled sha256Hex o reconciliation w')
      (fun _ w' => Recoverable sha256Hex o w') (Recoverable sha256Hex o) := by
  unfold reconcileDesiredOnStart
  refine (readState_always h).andThen ?_
  rintro journal w ⟨rfl, hjournal⟩
  cases journal with
  | none =>
    refine Always.pure ⟨h, fun hdesired => absurd hdesired (by decide), fun _ =>
      ⟨.refl w, rfl, fun state hstate => ?_⟩⟩
    cases hjournal.trans hstate
  | some existing =>
    dsimp only
    split_ifs with hdesired
    · refine Always.pure ⟨h, fun hdesired => absurd hdesired (by decide), fun _ =>
        ⟨.refl w, rfl, fun state hstate => ?_⟩⟩
      cases hjournal.trans hstate
      exact Bool.eq_false_of_not_eq_true' hdesired
    · refine Always.attempt_bind (takeOverSystemDns_always hutf8 h) (fun _ w' h' => ?_)
        fun error w' h' => ?_
      · refine Always.pure ⟨h'.recoverable, fun _ _ => h'.serves, fun hnot => ?_⟩
        cases hnot
      · refine Always.pure ⟨h', fun _ hnone => ?_, fun hnot => ?_⟩
        · cases hnone
        · cases hnot

theorem loadConfig_always (w : World) : Always (loadConfig parseUrl) w
    (fun _ w' => w.Kept True w' ∧ w'.stored = w.stored) (fun _ w' => w.Kept True w')
    (w.Kept True) := by
  unfold loadConfig
  refine Always.get_bind ?_
  refine (lift_always (.refl True w)).andThen ?_
  rintro _ w ⟨rfl, -⟩
  have hport : True → w.Port53 → (migrateLegacyDefaults w.stored).listenPort = 53 :=
    fun _ h => @listenPort_migrateLegacyDefaults w.stored h.1
  generalize migrateLegacyDefaults w.stored = config at hport ⊢
  exact (replaceConfig_always (.refl True w) hport).mono (fun _ _ h => ⟨h.1, h.2.2⟩)
    (fun _ _ h => h) fun _ h => h

theorem startDaemon_always (hutf8 : ∀ file, (o file).LinksUtf8) (h : Recoverable sha256Hex o w) :
    Always (startDaemon parseUrl sha256Hex host) w
      (fun reconciliation w' => w.Reconciled sha256Hex o reconciliation w')
      (fun _ w' => Recoverable sha256Hex o w') (Recoverable sha256Hex o) := by
  unfold startDaemon
  refine Always.bind (loadConfig_always w) (fun _ _ hkept => h.kept hkept)
    (fun _ hkept => h.kept hkept) ?_
  rintro _ w₁ ⟨hkept, hstored⟩
  refine (reconcileDesiredOnStart_always hutf8 (h.kept hkept)).mono (fun reconciliation w₂ h₂ => ?_)
    (fun _ _ h => h) fun _ h => h
  refine ⟨h₂.recoverable, h₂.serves, fun hdesired => ?_⟩
  obtain ⟨hfiles, hsame, hnone⟩ := h₂.untouched hdesired
  exact ⟨hkept.files.trans hfiles, hsame.trans hstored, hkept.files.journal ▸ hnone⟩

/-! ## Runs -/

/-- A call, not another program. -/
def DnsEvent.IsCall : DnsEvent → Prop
  | .called _ _ _ => True
  | .wrote _ _ => False

/-- **Every call keeps a state recoverable**, wherever it ends. -/
theorem recoverable_after (hutf8 : ∀ file, (o file).LinksUtf8) (h : Recoverable sha256Hex o w)
    {event : DnsEvent} (hcall : event.IsCall) :
    Recoverable sha256Hex o (w.after parseUrl sha256Hex event) := by
  cases event with
  | wrote file node => exact hcall.elim
  | called call host script =>
    refine Always.state (I := Recoverable sha256Hex o) ?_ script
    cases call with
    | takeOver =>
      exact (takeOverSystemDns_always hutf8 h).mono (fun _ _ h => h.recoverable) (fun _ _ h => h)
        fun _ h => h
    | restore preserveDesired =>
      exact (restoreSystemDns_always hutf8 h preserveDesired).mono (fun _ _ h => h.recoverable)
        (fun _ _ h => h) fun _ h => h
    | restoreOffline preserveDesired =>
      exact (restoreSystemDnsOffline_always hutf8 h preserveDesired).mono
        (fun _ _ h => h.recoverable) (fun _ _ h => h) fun _ h => h
    | shutdown =>
      refine (restoreBeforeShutdown_always hutf8 h).mono ?_ (fun _ _ h => h) fun _ h => h
      rintro _ w' (hrestored | ⟨rfl, -⟩)
      · exact hrestored.recoverable
      · exact h
    | start =>
      unfold DnsCall.run
      exact (startDaemon_always hutf8 h).andThen fun _ _ h => Always.pure h.recoverable

/-- Nothing has been taken over yet. -/
def World.Untouched (w : World) : Prop := w.journal = none

theorem World.Untouched.recoverable (h : w.Untouched) : Recoverable sha256Hex w.node w where
  node _ := .inl rfl
  records _ hstate := by cases h.symm.trans hstate
  marked := .inl fun _ => rfl
  serving _ hstate := by cases h.symm.trans hstate

theorem recoverable_of_run {init : World} (hinit : init.Untouched)
    (hutf8 : ∀ file, (init.node file).LinksUtf8) {events : List DnsEvent}
    (hcalls : ∀ event ∈ events, event.IsCall)
    (hrun : (systemDnsMachine parseUrl sha256Hex init).run init events = some w) :
    Recoverable sha256Hex init.node w := by
  have hguarded : (systemDnsMachine parseUrl sha256Hex init).Guarded (fun _ event => event.IsCall)
      init events := Machine.Guarded.of_run events (fun event hmem _ => hcalls event hmem) hrun
  refine Machine.Guarded.inv (fun w event w' h hcall hstep => ?_) events hinit.recoverable
    hguarded hrun
  cases hstep
  exact recoverable_after hutf8 h hcall

end DnsBlackhole.Linux
