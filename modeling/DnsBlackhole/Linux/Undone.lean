/-
  What a takeover that fails leaves (`take_over_system_dns_unlocked` and `rollback` of
  `linux_system_dns.rs`).

  Here the machine also has the server, which runs or does not.  A configuration in memory is
  replaced as a whole or not at all.  The error of a takeover is a value, with the results
  that the rollback drops.

  * `onWorld_always`: what is known of the files holds here too;
  * `fail_undoes`: what the steps of the failure branch bring back;
  * **`takeover_undone`**: behind a rollback that reports success the files are as before, and
    where no step that it ignores fails, so is the configuration, but for the server, which is
    stopped and disabled.
-/
import DnsBlackhole.Linux.Originals

namespace DnsBlackhole.Linux
open Admin (AppConfig)
open Config (ListensAtMdnsPort Url currentConfigSchemaVersion listenPort_migrateLegacyDefaults
  migrateLegacyDefaults migrateLegacyDefaults_of_le noUrl rewriteMdnsPort validate)
open Lib
open Service (enabledConfig)
open Steps

/-! ## The machine with its server -/

structure Daemon where
  world : World
  running : Bool

abbrev DaemonM := Steps Text Daemon

/-- A step that cannot fail. -/
def change (f : Daemon → Daemon) : DaemonM PUnit := fun script s => .returned ⟨⟩ script (f s)

/-- A computation that does not ask for the server. -/
def onWorld {α : Type} (x : DnsM α) : DaemonM α := fun script s =>
  match x script s.world with
  | .returned a rest w => .returned a rest { s with world := w }
  | .failed e rest w => .failed e rest { s with world := w }
  | .died w => .died { s with world := w }

namespace Daemon

/-- `AppState::replace_config`: only the lock may fail. -/
def replaceConfig (config : AppConfig) : DaemonM PUnit := do
  probe
  change fun s => { s with world := { s.world with memory := config } }

def stopCurrent : DaemonM PUnit := do
  probe
  change fun s => { s with running := false }

/-- The old server is stopped; what fails behind that leaves none. -/
def startCurrent : DaemonM PUnit := do
  stopCurrent
  probe
  change fun s => { s with running := true }

/-- The server is put back as it was. -/
def recoverServer (wasRunning : Bool) : DaemonM PUnit := do
  if wasRunning then startCurrent
  else
    stopCurrent
    probe

def recoverReplaced (wasRunning : Bool) : Except Text PUnit → DaemonM PUnit
  | .ok _ => do let _ ← attempt (recoverServer wasRunning)
  | .error _ => pure ⟨⟩

def restoreConfigAfterFailure (previous : AppConfig) (wasRunning : Bool) (error : Text) :
    DaemonM PUnit := do
  let _ ← attempt (onWorld (saveConfig previous))
  recoverReplaced wasRunning (← attempt (replaceConfig previous))
  throw error

/-- The configuration is put in memory, and the server is started. -/
def runConfig (config : AppConfig) : DaemonM PUnit := do
  replaceConfig config
  startCurrent

section
variable (parseUrl : Text → Except Text Url)

def startDnsBlocking : DaemonM PUnit := do
  probe
  let s ← get
  probe
  lift (validate parseUrl (enabledConfig s.world.memory))
  onWorld (saveConfig (enabledConfig s.world.memory))
  match ← attempt (runConfig (enabledConfig s.world.memory)) with
  | .ok _ => pure ⟨⟩
  | .error error => restoreConfigAfterFailure s.world.memory s.running error

def stopDnsBlocking : DaemonM PUnit := do
  probe
  let s ← get
  onWorld (saveConfig (disabledConfig s.world.memory))
  replaceConfig (disabledConfig s.world.memory)
  stopCurrent

def applyListenPortBlocking (port : UInt16) : DaemonM UInt16 := do
  probe
  let s ← get
  if s.world.memory.listenPort = port then return s.world.memory.listenPort
  else
    lift (validate parseUrl (withListenPort s.world.memory port))
    onWorld (saveConfig (withListenPort s.world.memory port))
    replaceConfig (withListenPort s.world.memory port)
    return s.world.memory.listenPort

/-! ## Taking over -/

/-- What the steps behind a failure came to; the rollback only looks at the files. -/
structure Undo where
  port : Except Text PUnit
  stopped : Except Text PUnit
  files : Except Text PUnit

/-- The error of a takeover that was begun. -/
structure TakeoverFailure where
  undo : Undo
  error : Text

/-- `rollback`, with the result of stopping the server, which it drops. -/
def rollback (transaction : SystemDnsState) : DaemonM (Except Text PUnit × Except Text PUnit) := do
  let stopped ← attempt stopDnsBlocking
  let files ← attempt (onWorld do
    restoreFiles transaction
    reloadAndVerifyResolver)
  return (stopped, files)

/-- The port goes back to what it was before the takeover changed it. -/
def restorePort (restoredListenPort : Option UInt16) : DaemonM (Except Text PUnit) :=
  match restoredListenPort with
  | some previousPort => attempt do let _ ← applyListenPortBlocking parseUrl previousPort
  | none => return .ok ⟨⟩

def failTakeover (transaction : SystemDnsState) (restoredListenPort : Option UInt16)
    (error : Text) : DaemonM (Option TakeoverFailure) := do
  let port ← restorePort parseUrl restoredListenPort
  let (stopped, files) ← rollback transaction
  let failed := transaction.failed files error
  let _ ← attempt (onWorld (writeState failed))
  return some { undo := { port, stopped, files }, error := failed.lastError.getD error }

def switchFiles : DaemonM UInt16 := do
  stopDnsBlocking
  onWorld do
    probe
    writeAtomic .dropIn managedDropIn.asBytes 0o644
    replaceSymlinkAtomic .resolvConf resolvedResolvConf
    probe
  applyListenPortBlocking parseUrl 53

def serveAndVerify : DaemonM PUnit := do
  startDnsBlocking parseUrl
  probe

variable (sha256Hex : List UInt8 → Text) (host : Host)

/-- What comes before the state file is written. -/
def captureFiles : DnsM SystemDnsState := do
  refuseUnknownDropIn host
  probe
  let w ← get
  let originalResolvConf ← lift (captureFile .resolvConf w.resolvConf)
  let originalDropIn ← lift (captureFile .dropIn w.dropIn)
  return beginTakeover sha256Hex originalResolvConf originalDropIn

def runTakeover (transaction : SystemDnsState) : DaemonM (Option TakeoverFailure) := do
  match ← attempt (switchFiles parseUrl) with
  | .error error => failTakeover parseUrl transaction none error
  | .ok previousPort =>
    match ← attempt (serveAndVerify parseUrl) with
    | .error error =>
      failTakeover parseUrl transaction (if previousPort ≠ 53 then some previousPort else none)
        error
    | .ok _ =>
      onWorld (finishTakeover transaction)
      return none

/-- The takeover of a machine without a transaction, behind the checks of the environment. -/
def beginAndTakeOver : DaemonM (Option TakeoverFailure) := do
  let transaction ← onWorld (captureFiles sha256Hex host)
  onWorld (writeState transaction)
  runTakeover parseUrl transaction

end

/-! ## What the steps do -/

section
variable {α : Type} {s : Daemon} {E : Text → Daemon → Prop} {D : Daemon → Prop}

theorem change_always {f : Daemon → Daemon} {Q : PUnit → Daemon → Prop} (h : Q ⟨⟩ (f s)) :
    Always (change f) s Q E D := ⟨fun _ => h⟩

/-- What is known of the world is known of the machine, and the server is left alone. -/
theorem onWorld_always {x : DnsM α} {Q : α → World → Prop} {E : Text → World → Prop}
    {D : World → Prop} (h : Always x s.world Q E D) : Always (onWorld x) s
      (fun a s' => s'.running = s.running ∧ Q a s'.world)
      (fun e s' => s'.running = s.running ∧ E e s'.world)
      (fun s' => s'.running = s.running ∧ D s'.world) := by
  refine ⟨fun script => ?_⟩
  have h := h.ends script
  unfold onWorld
  cases hx : x script s.world with
  | returned a rest w =>
    rw [hx] at h
    exact ⟨rfl, h⟩
  | failed e rest w =>
    rw [hx] at h
    exact ⟨rfl, h⟩
  | died w =>
    rw [hx] at h
    exact ⟨rfl, h⟩

end

/-- The files and the state file are the same, and this is the configuration in memory. -/
structure Holds (config : AppConfig) (s s' : Daemon) : Prop where
  files : s.world.SameFiles s'.world
  memory : s'.world.memory = config

/-- Both configurations are this one, and the server is stopped. -/
structure Stopped (config : AppConfig) (s s' : Daemon) : Prop extends Holds config s s' where
  stored : s'.world.stored = config
  server : s'.running = false

variable {s s₀ : Daemon} {config previous : AppConfig}

theorem Holds.refl (s : Daemon) : Holds s.world.memory s s := ⟨.refl _, rfl⟩

theorem probe_always (h : Holds config s₀ s) :
    Always (probe : DaemonM PUnit) s (fun _ s' => s' = s) (fun _ s' => Holds config s₀ s')
      fun _ => True :=
  Always.probe rfl (fun _ => h) trivial

theorem saveConfig_always (h : Holds config s₀ s) (config' : AppConfig) :
    Always (onWorld (saveConfig config')) s
      (fun _ s' => Holds config s₀ s' ∧ s'.world.stored = config')
      (fun _ s' => Holds config s₀ s') fun _ => True := by
  have hsame := h.files.trans (s.world.sameFiles_stored config')
  have hstep : Always (saveConfig config') s.world
      (fun _ w => (s₀.world.SameFiles w ∧ w.memory = config) ∧ w.stored = config')
      (fun _ w => s₀.world.SameFiles w ∧ w.memory = config) fun _ => True :=
    Always.step ⟨⟨hsame, h.memory⟩, rfl⟩ (fun _ => ⟨⟨h.files, h.memory⟩, hsame, h.memory⟩)
      ⟨trivial, trivial⟩
  refine (onWorld_always hstep).mono ?_ ?_ fun _ _ => trivial
  · rintro _ s' ⟨-, ⟨hfiles, hmemory⟩, hstored⟩
    exact ⟨⟨hfiles, hmemory⟩, hstored⟩
  · rintro _ s' ⟨-, hfiles, hmemory⟩
    exact ⟨hfiles, hmemory⟩

theorem replaceConfig_always (h : Holds config s₀ s) (config' : AppConfig) :
    Always (replaceConfig config') s
      (fun _ s' => Holds config' s₀ s' ∧ s'.world.stored = s.world.stored)
      (fun _ s' => Holds config s₀ s') fun _ => True := by
  unfold replaceConfig
  refine (probe_always h).andThen ?_
  rintro _ s rfl
  exact change_always ⟨⟨h.files.trans (s.world.sameFiles_memory config'), rfl⟩, rfl⟩

theorem stopCurrent_always (h : Holds config s₀ s) : Always stopCurrent s
    (fun _ s' => Holds config s₀ s' ∧ s'.world.stored = s.world.stored ∧ s'.running = false)
    (fun _ s' => Holds config s₀ s') fun _ => True := by
  unfold stopCurrent
  refine (probe_always h).andThen ?_
  rintro _ s rfl
  exact change_always ⟨⟨h.files, h.memory⟩, rfl, rfl⟩

theorem startCurrent_always (h : Holds config s₀ s) : Always startCurrent s
    (fun _ s' => Holds config s₀ s') (fun _ s' => Holds config s₀ s') fun _ => True := by
  unfold startCurrent
  refine (stopCurrent_always h).andThen fun _ s h => ?_
  refine (probe_always h.1).andThen ?_
  rintro _ s rfl
  exact change_always ⟨h.1.files, h.1.memory⟩

theorem recoverServer_always (h : Holds config s₀ s) (wasRunning : Bool) :
    Always (recoverServer wasRunning) s (fun _ s' => Holds config s₀ s')
      (fun _ s' => Holds config s₀ s') fun _ => True := by
  unfold recoverServer
  split_ifs
  · exact startCurrent_always h
  · exact (stopCurrent_always h).andThen fun _ s h =>
      (probe_always h.1).mono (fun _ _ heq => heq ▸ h.1) (fun _ _ h => h) fun _ h => h

theorem restoreConfigAfterFailure_always {Q : PUnit → Daemon → Prop} (h : Holds config s₀ s)
    (wasRunning : Bool) (error : Text) :
    Always (restoreConfigAfterFailure previous wasRunning error) s Q
      (fun _ s' => Holds previous s₀ s' ∨ Holds config s₀ s') fun _ => True := by
  have hthrow : ∀ s, Holds previous s₀ s ∨ Holds config s₀ s → Always (throw error : DaemonM PUnit)
      s Q (fun _ s' => Holds previous s₀ s' ∨ Holds config s₀ s') fun _ => True := fun s h =>
    Always.throw h
  have hreplace : ∀ s, Holds config s₀ s → Always (attempt (replaceConfig previous) >>= fun r =>
      recoverReplaced wasRunning r >>= fun _ => (throw error : DaemonM PUnit)) s Q
        (fun _ s' => Holds previous s₀ s' ∨ Holds config s₀ s') fun _ => True := by
    intro s h
    refine Always.attempt_bind (replaceConfig_always h previous) (fun _ s h => ?_)
      fun _ s h => hthrow s (.inr h)
    have hrecover : Always (recoverReplaced wasRunning (.ok ⟨⟩)) s
        (fun _ s' => Holds previous s₀ s')
        (fun _ s' => Holds previous s₀ s' ∨ Holds config s₀ s') fun _ => True :=
      Always.attempt_bind (recoverServer_always h.1 wasRunning) (fun _ _ h => Always.pure h)
        fun _ _ h => Always.pure h
    exact hrecover.andThen fun _ s h => hthrow s (.inl h)
  unfold restoreConfigAfterFailure
  exact Always.attempt_bind (saveConfig_always h previous) (fun _ s h => hreplace s h.1)
    fun _ s h => hreplace s h

theorem runConfig_always (h : Holds previous s₀ s) :
    Always (runConfig config) s (fun _ s' => Holds config s₀ s')
      (fun _ s' => Holds previous s₀ s' ∨ Holds config s₀ s') fun _ => True := by
  unfold runConfig
  refine (replaceConfig_always h config).bind (fun _ _ h => .inl h) (fun _ h => h) fun _ s h => ?_
  exact (startCurrent_always h.1).mono (fun _ _ h => h) (fun _ _ h => .inr h) fun _ h => h

variable {parseUrl : Text → Except Text Url}

theorem startDnsBlocking_always (s : Daemon) : Always (startDnsBlocking parseUrl) s
    (fun _ s' => Holds (enabledConfig s.world.memory) s s')
    (fun _ s' => Holds s.world.memory s s' ∨ Holds (enabledConfig s.world.memory) s s')
    fun _ => True := by
  have hrefl := Holds.refl s
  unfold startDnsBlocking
  refine (probe_always hrefl).bind (fun _ _ h => .inl h) (fun _ h => h) ?_
  rintro _ s rfl
  refine Always.get_bind ?_
  refine (probe_always hrefl).bind (fun _ _ h => .inl h) (fun _ h => h) ?_
  rintro _ s' rfl
  refine Always.andThen (Q := fun _ s'' => s'' = s') (Always.lift (fun _ _ => rfl)
    fun _ _ => .inl hrefl) ?_
  rintro _ s'' rfl
  refine (saveConfig_always hrefl _).bind (fun _ _ h => .inl h) (fun _ h => h) fun _ s₁ h₁ => ?_
  refine Always.attempt_bind (runConfig_always h₁.1) (fun _ s₂ h₂ => Always.pure h₂) ?_
  rintro error s₂ (h₂ | h₂)
  · exact (restoreConfigAfterFailure_always h₂ _ error).mono (fun _ _ h => h)
      (fun _ _ h => .inl (h.elim id id)) fun _ h => h
  · exact restoreConfigAfterFailure_always h₂ _ error

theorem stopDnsBlocking_always (s : Daemon) : Always stopDnsBlocking s
    (fun _ s' => Stopped (disabledConfig s.world.memory) s s')
    (fun _ s' => Holds s.world.memory s s' ∨ Holds (disabledConfig s.world.memory) s s')
    fun _ => True := by
  have hrefl := Holds.refl s
  unfold stopDnsBlocking
  refine (probe_always hrefl).bind (fun _ _ h => .inl h) (fun _ h => h) ?_
  rintro _ s rfl
  refine Always.get_bind ?_
  refine (saveConfig_always hrefl _).bind (fun _ _ h => .inl h) (fun _ h => h) ?_
  rintro _ s₁ ⟨h₁, hstored₁⟩
  refine (replaceConfig_always h₁ _).bind (fun _ _ h => .inl h) (fun _ h => h) ?_
  rintro _ s₂ ⟨h₂, hstored₂⟩
  refine (stopCurrent_always h₂).mono ?_ (fun _ _ h => .inr h) fun _ h => h
  rintro _ s₃ ⟨h₃, hstored₃, hserver⟩
  exact ⟨h₃, hstored₃.trans (hstored₂.trans hstored₁), hserver⟩

theorem withListenPort_self {port : UInt16} (h : config.listenPort = port) :
    withListenPort config port = config := by
  rw [← h]
  rfl

theorem applyListenPortBlocking_always (s : Daemon) (port : UInt16) :
    Always (applyListenPortBlocking parseUrl port) s
      (fun previousPort s' => previousPort = s.world.memory.listenPort ∧
        Holds (withListenPort s.world.memory port) s s')
      (fun _ s' => Holds s.world.memory s s') fun _ => True := by
  have hrefl := Holds.refl s
  unfold applyListenPortBlocking
  refine (probe_always hrefl).andThen ?_
  rintro _ s rfl
  refine Always.get_bind ?_
  split_ifs with hport
  · exact Always.pure ⟨rfl, by rw [withListenPort_self hport]; exact hrefl⟩
  · refine Always.andThen (Q := fun _ s' => s' = s) (Always.lift (fun _ _ => rfl)
      fun _ _ => hrefl) ?_
    rintro _ s' rfl
    refine (saveConfig_always hrefl _).andThen fun _ s₁ h₁ => ?_
    exact (replaceConfig_always h₁.1 _).andThen fun _ s₂ h₂ => Always.pure ⟨rfl, h₂.1⟩

/-! ## The files -/

end Daemon

/-- The configurations are the same. -/
structure World.SameConfigs (w w' : World) : Prop where
  stored : w'.stored = w.stored
  memory : w'.memory = w.memory

theorem World.SameConfigs.refl (w : World) : w.SameConfigs w := ⟨rfl, rfl⟩

theorem World.SameConfigs.trans {w w' w'' : World} (h : w.SameConfigs w')
    (h' : w'.SameConfigs w'') : w.SameConfigs w'' :=
  ⟨h'.stored.trans h.stored, h'.memory.trans h.memory⟩

/-- A computation on the files leaves the configurations alone, wherever it ends. -/
def KeepsConfigs {α : Type} (x : DnsM α) : Prop :=
  ∀ w, Always x w (fun _ w' => w.SameConfigs w') (fun _ w' => w.SameConfigs w') w.SameConfigs

namespace KeepsConfigs
variable {α β : Type} {x : DnsM α} {f : α → DnsM β}

theorem pure (a : α) : KeepsConfigs (Pure.pure a) := fun w => Always.pure (.refl w)

theorem throw (e : Text) : KeepsConfigs (Steps.throw e : DnsM α) := fun w => Always.throw (.refl w)

theorem bind (h : KeepsConfigs x) (hf : ∀ a, KeepsConfigs (f a)) : KeepsConfigs (x >>= f) :=
  fun w => (h w).andThen fun a w' hw => (hf a w').mono (fun _ _ h => hw.trans h)
    (fun _ _ h => hw.trans h) fun _ h => hw.trans h

theorem get_bind {f : World → DnsM α} (hf : ∀ w, KeepsConfigs (f w)) :
    KeepsConfigs (Steps.get >>= f) := fun w => Always.get_bind (hf w w)

theorem step {f : World → World} (h : ∀ w : World, w.SameConfigs (f w)) :
    KeepsConfigs (Steps.step f) := fun w =>
  Always.step (h w) (fun _ => ⟨.refl w, h w⟩) ⟨.refl w, h w⟩

theorem probe : KeepsConfigs Steps.probe := step .refl

theorem writeNode (file : ManagedFile) (node : Node) : KeepsConfigs (writeNode file node) :=
  step fun w => by cases file <;> exact ⟨rfl, rfl⟩

theorem replaceFile (file : ManagedFile) (node : Node) : KeepsConfigs (replaceFile file node) := by
  refine get_bind fun w => ?_
  split_ifs
  · exact throw _
  · exact writeNode file node

theorem removeFileIfPresent (file : ManagedFile) : KeepsConfigs (removeFileIfPresent file) := by
  refine bind probe fun _ => get_bind fun w => ?_
  cases w.node file with
  | missing => exact pure _
  | regular content mode => exact writeNode file .missing
  | symlink target => exact writeNode file .missing
  | directory => exact throw _
  | special => exact throw _

theorem restoreSnapshot (file : ManagedFile) (snapshot : FileSnapshot) :
    KeepsConfigs (restoreSnapshot file snapshot) := by
  cases snapshot with
  | missing => exact removeFileIfPresent file
  | regular content mode => exact replaceFile file _
  | symlink target => exact replaceFile file _

theorem restoreFiles (transaction : SystemDnsState) : KeepsConfigs (restoreFiles transaction) :=
  bind (restoreSnapshot _ _) fun _ => restoreSnapshot _ _

theorem reloadAndVerifyResolver : KeepsConfigs reloadAndVerifyResolver :=
  bind probe fun _ => probe

end KeepsConfigs

/-! ## The failure branch -/

namespace Daemon

variable {parseUrl : Text → Except Text Url} {sha256Hex : List UInt8 → Text} {host : Host}
  {o : ManagedFile → Node} {state : SystemDnsState} {s s₀ : Daemon}

theorem restore_always (hutf8 : ∀ file, (o file).LinksUtf8)
    (h : Begun sha256Hex o state s.world) :
    Always (onWorld (restoreFiles state >>= fun _ => reloadAndVerifyResolver)) s
      (fun _ s' => (s'.world.Original o ∧ s.world.SameConfigs s'.world) ∧ s'.running = s.running)
      (fun _ s' => s.world.SameConfigs s'.world ∧ s'.running = s.running) fun _ => True := by
  have hfiles : Always (restoreFiles state >>= fun _ => reloadAndVerifyResolver) s.world
      (fun _ w' => w'.Original o) (fun _ _ => True) fun _ => True :=
    (restoreFiles_always hutf8 h).bind (fun _ _ _ => trivial) (fun _ _ => trivial) fun _ w' h' =>
      (reloadAndVerifyResolver_always h'.2).mono (fun _ _ h => h) (fun _ _ _ => trivial)
        fun _ _ => trivial
  have hconfigs := KeepsConfigs.bind (KeepsConfigs.restoreFiles state)
    (fun _ => KeepsConfigs.reloadAndVerifyResolver) s.world
  exact (onWorld_always (hfiles.and hconfigs)).mono (fun _ _ h => ⟨h.2, h.1⟩)
    (fun _ _ h => ⟨h.2.2, h.1⟩) fun _ _ => trivial

/-- What the rollback leaves: the files, where it reports success, and a stopped server, where
    stopping it succeeded. -/
structure RolledBack (o : ManagedFile → Node) (config : AppConfig)
    (results : Except Text PUnit × Except Text PUnit) (s : Daemon) : Prop where
  files : results.2 = .ok ⟨⟩ → s.world.Original o
  service : results.1 = .ok ⟨⟩ → s.running = false ∧ s.world.stored = disabledConfig config ∧
    s.world.memory = disabledConfig config

theorem rollback_always {E : Text → Daemon → Prop} (hutf8 : ∀ file, (o file).LinksUtf8)
    (h : Begun sha256Hex o state s.world) : Always (rollback state) s
      (fun results s' => RolledBack o s.world.memory results s') E fun _ => True := by
  have hfiles : ∀ (stopped : Except Text PUnit) (s' : Daemon), s.world.SameFiles s'.world →
      (stopped = .ok ⟨⟩ → Stopped (disabledConfig s.world.memory) s s') →
      Always (attempt (onWorld (restoreFiles state >>= fun _ => reloadAndVerifyResolver)) >>=
          fun files => (pure (stopped, files) : DaemonM _)) s'
        (fun results s'' => RolledBack o s.world.memory results s'') E fun _ => True := by
    intro stopped s' hsame hstopped
    have hservice : ∀ s'' : Daemon, s'.world.SameConfigs s''.world → s''.running = s'.running →
        stopped = .ok ⟨⟩ → s''.running = false ∧
          s''.world.stored = disabledConfig s.world.memory ∧
          s''.world.memory = disabledConfig s.world.memory := by
      intro s'' hconfigs hrunning hok
      have hs' := hstopped hok
      exact ⟨hrunning.trans hs'.server, hconfigs.stored.trans hs'.stored,
        hconfigs.memory.trans hs'.memory⟩
    refine Always.attempt_bind (restore_always hutf8 (h.sameFiles hsame)) ?_ ?_
    · rintro _ s'' ⟨⟨horiginal, hconfigs⟩, hrunning⟩
      exact Always.pure ⟨fun _ => horiginal, hservice s'' hconfigs hrunning⟩
    · rintro error s'' ⟨hconfigs, hrunning⟩
      exact Always.pure ⟨nofun, hservice s'' hconfigs hrunning⟩
  unfold rollback
  refine Always.attempt_bind (stopDnsBlocking_always s) (fun _ s' h' => hfiles _ s' h'.files
    fun _ => h') fun error s' h' => hfiles _ s' ?_ nofun
  rcases h' with h' | h'
  · exact h'.files
  · exact h'.files

/-- The configuration with its port put back. -/
def portBack (config : AppConfig) : Option UInt16 → AppConfig
  | some port => withListenPort config port
  | none => config

theorem restorePort_always {E : Text → Daemon → Prop} (s : Daemon) (port : Option UInt16) :
    Always (restorePort parseUrl port) s
      (fun result s' => s.world.SameFiles s'.world ∧
        (result = .ok ⟨⟩ → s'.world.memory = portBack s.world.memory port)) E fun _ => True := by
  cases port with
  | none => exact Always.pure ⟨.refl _, fun _ => rfl⟩
  | some port =>
    refine Always.attempt ((applyListenPortBlocking_always s port).bind ?_ (fun _ h => h) ?_)
    · exact fun _ s' h => ⟨h.files, nofun⟩
    · exact fun _ s' h => Always.pure ⟨h.2.files, fun _ => h.2.memory⟩

/-- What the failure branch brings back. -/
structure Undo.Undoes (undo : Undo) (o : ManagedFile → Node) (config : AppConfig) (s : Daemon) :
    Prop where
  files : undo.files = .ok ⟨⟩ → s.world.Original o
  service : undo.port = .ok ⟨⟩ → undo.stopped = .ok ⟨⟩ → s.running = false ∧
    s.world.stored = disabledConfig config ∧ s.world.memory = disabledConfig config

/-- **The failure branch brings the files back**, where the rollback reports success, and the
    configuration, where none of its other steps fails. -/
theorem fail_undoes {E : Text → Daemon → Prop} (hutf8 : ∀ file, (o file).LinksUtf8)
    (h : Begun sha256Hex o state s.world) (port : Option UInt16) (error : Text) :
    Always (failTakeover parseUrl state port error) s (fun failure s' =>
      ∃ undo text, failure = some ⟨undo, text⟩ ∧ undo.Undoes o (portBack s.world.memory port) s') E
      fun _ => True := by
  unfold failTakeover
  refine Always.andThen (restorePort_always s port) ?_
  rintro portResult s₁ ⟨hsame₁, hport⟩
  refine Always.andThen (rollback_always hutf8 (h.sameFiles hsame₁)) ?_
  rintro ⟨stopped, files⟩ s₂ h₂
  have hundoes : ∀ s₃ : Daemon, (s₂.world.Original o → s₃.world.Original o) →
      s₂.world.SameConfigs s₃.world → s₃.running = s₂.running →
      Undo.Undoes ⟨portResult, stopped, files⟩ o (portBack s.world.memory port) s₃ := by
    intro s₃ horiginal hconfigs hrunning
    refine ⟨fun hfiles => horiginal (h₂.files hfiles), fun hport' hstopped => ?_⟩
    obtain ⟨hserver, hstored, hmemory⟩ := h₂.service hstopped
    rw [hport hport'] at hstored hmemory
    exact ⟨hrunning.trans hserver, hconfigs.stored.trans hstored,
      hconfigs.memory.trans hmemory⟩
  have hnode : Always (writeState (state.failed files error)) s₂.world
      (fun _ w => (s₂.world.Original o → w.Original o) ∧ s₂.world.SameConfigs w)
      (fun _ w => (s₂.world.Original o → w.Original o) ∧ s₂.world.SameConfigs w)
      fun w => (s₂.world.Original o → w.Original o) ∧ s₂.world.SameConfigs w := by
    have hdone : s₂.world.Original o → ({ s₂.world with
        journal := some (state.failed files error) } : World).Original o := fun horiginal file =>
      (s₂.world.sameNode_journal _ file).trans (horiginal file)
    exact Always.step ⟨hdone, rfl, rfl⟩ (fun _ => ⟨⟨id, rfl, rfl⟩, hdone, rfl, rfl⟩)
      ⟨⟨id, rfl, rfl⟩, hdone, rfl, rfl⟩
  have hpure : ∀ s₃ : Daemon, s₃.running = s₂.running → (s₂.world.Original o →
      s₃.world.Original o) ∧ s₂.world.SameConfigs s₃.world →
      ∃ undo text, some (TakeoverFailure.mk ⟨portResult, stopped, files⟩
          ((state.failed files error).lastError.getD error)) = some ⟨undo, text⟩ ∧
        undo.Undoes o (portBack s.world.memory port) s₃ := fun s₃ hrunning h₃ =>
    ⟨_, _, rfl, hundoes s₃ h₃.1 h₃.2 hrunning⟩
  exact Always.attempt_bind ((onWorld_always hnode).mono (fun _ _ h => h) (fun _ _ h => h)
    fun _ _ => trivial) (fun _ s₃ h₃ => Always.pure (hpure s₃ h₃.1 h₃.2))
    fun _ s₃ h₃ => Always.pure (hpure s₃ h₃.1 h₃.2)

/-! ## The takeover -/

/-- The configuration behind the start of a takeover. -/
def takenConfig (config : AppConfig) : AppConfig :=
  enabledConfig (withListenPort (disabledConfig config) 53)

/-- What a failed takeover leaves of the service's configuration: it is disabled, and perhaps
    migrated where it is older than the service. -/
def LeftDisabled (config config' : AppConfig) : Prop :=
  config' = disabledConfig config ∨ config.schemaVersion ≠ currentConfigSchemaVersion ∧
    config' = disabledConfig (withListenPort (takenConfig config) config.listenPort)

theorem disabledConfig_takenConfig {config : AppConfig}
    (h : config.schemaVersion = currentConfigSchemaVersion) :
    disabledConfig (withListenPort (takenConfig config) config.listenPort) =
      disabledConfig config := by
  have hmdns : ¬ListensAtMdnsPort (withListenPort (disabledConfig config) 53) := by
    rintro ⟨-, hport⟩
    exact absurd (show (53 : UInt16) = 5353 from hport) (by decide)
  have hmigrated : migrateLegacyDefaults (withListenPort (disabledConfig config) 53) =
      withListenPort (disabledConfig config) 53 := by
    have hversion : (withListenPort (disabledConfig config) 53).schemaVersion =
        currentConfigSchemaVersion := h
    rw [migrateLegacyDefaults_of_le (hversion ▸ by decide), rewriteMdnsPort, if_neg hmdns,
      ← hversion]
  rw [takenConfig, enabledConfig, hmigrated]
  rfl

theorem leftDisabled_takenConfig (config : AppConfig) :
    LeftDisabled config
      (disabledConfig (withListenPort (takenConfig config) config.listenPort)) := by
  by_cases h : config.schemaVersion = currentConfigSchemaVersion
  · exact .inl (disabledConfig_takenConfig h)
  · exact .inr ⟨h, rfl⟩

theorem switchFiles_always (h : Begun sha256Hex o state s.world) :
    Always (switchFiles parseUrl) s
      (fun port s' => Begun sha256Hex o state s'.world ∧ port = s.world.memory.listenPort ∧
        s'.world.memory = withListenPort (disabledConfig s.world.memory) 53)
      (fun _ s' => Begun sha256Hex o state s'.world ∧
        (s'.world.memory = s.world.memory ∨ s'.world.memory = disabledConfig s.world.memory))
      fun _ => True := by
  unfold switchFiles
  refine (stopDnsBlocking_always s).bind ?_ (fun _ h => h) fun _ s₁ h₁ => ?_
  · rintro _ s' (h' | h')
    · exact ⟨h.sameFiles h'.files, .inl h'.memory⟩
    · exact ⟨h.sameFiles h'.files, .inr h'.memory⟩
  have hbegun₁ := h.sameFiles h₁.files
  have hfiles : Always (do
      probe
      writeAtomic .dropIn managedDropIn.asBytes 0o644
      replaceSymlinkAtomic .resolvConf resolvedResolvConf
      probe) s₁.world (fun _ w => Begun sha256Hex o state w) (fun _ w => Begun sha256Hex o state w)
      fun _ => True := by
    refine Always.andThen (Q := fun _ w => Begun sha256Hex o state w)
      (Always.probe hbegun₁ (fun _ => hbegun₁) trivial) fun _ w h => ?_
    refine (writeAtomic_begun h).bind (fun _ _ h => h) (fun _ _ => trivial) fun _ w h => ?_
    refine (replaceSymlinkAtomic_begun h).bind (fun _ _ h => h) (fun _ _ => trivial) fun _ w h => ?_
    exact Always.probe h (fun _ => h) trivial
  have hconfigs := (KeepsConfigs.bind KeepsConfigs.probe fun _ => KeepsConfigs.bind
    (KeepsConfigs.replaceFile .dropIn (.regular managedDropIn.asBytes 0o644)) fun _ =>
    KeepsConfigs.bind (KeepsConfigs.replaceFile .resolvConf (.symlink resolvedResolvConf.asBytes))
      fun _ => KeepsConfigs.probe) s₁.world
  refine (onWorld_always (hfiles.and hconfigs)).bind ?_ (fun _ _ => trivial) ?_
  · rintro _ s₂ ⟨-, hbegun₂, hsame⟩
    exact ⟨hbegun₂, .inr (hsame.memory.trans h₁.memory)⟩
  rintro _ s₂ ⟨-, hbegun₂, hsame⟩
  have hmemory₂ := hsame.memory.trans h₁.memory
  refine (applyListenPortBlocking_always s₂ 53).mono ?_ ?_ fun _ h => h
  · rintro port s₃ ⟨hport, h₃⟩
    refine ⟨hbegun₂.sameFiles h₃.files, ?_, ?_⟩
    · rw [hport, hmemory₂]
      rfl
    · rw [h₃.memory, hmemory₂]
  · intro _ s₃ h₃
    exact ⟨hbegun₂.sameFiles h₃.files, .inr (h₃.memory.trans hmemory₂)⟩

theorem serveAndVerify_always (h : Begun sha256Hex o state s.world) :
    Always (serveAndVerify parseUrl) s (fun _ _ => True)
      (fun _ s' => Begun sha256Hex o state s'.world ∧
        (s'.world.memory = s.world.memory ∨ s'.world.memory = enabledConfig s.world.memory))
      fun _ => True := by
  unfold serveAndVerify
  refine (startDnsBlocking_always s).bind ?_ (fun _ h => h) fun _ s₁ h₁ => ?_
  · rintro _ s' (h' | h')
    · exact ⟨h.sameFiles h'.files, .inl h'.memory⟩
    · exact ⟨h.sameFiles h'.files, .inr h'.memory⟩
  · exact Always.probe trivial (fun _ => ⟨h.sameFiles h₁.files, .inr h₁.memory⟩) trivial

/-- What a takeover that fails leaves, where it tells what came of its undoing. -/
structure Undone (s : Daemon) (undo : Undo) (s' : Daemon) : Prop where
  files : undo.files = .ok ⟨⟩ → ∀ file, s'.world.node file = s.world.node file
  service : undo.port = .ok ⟨⟩ → undo.stopped = .ok ⟨⟩ → s'.running = false ∧
    s'.world.stored = s'.world.memory ∧ LeftDisabled s.world.memory s'.world.memory

section
variable {config : AppConfig}

theorem Undo.Undoes.undone {undo : Undo} {s₀ s' : Daemon} {config : AppConfig}
    (h : undo.Undoes s₀.world.node config s')
    (hleft : LeftDisabled s₀.world.memory (disabledConfig config)) : Undone s₀ undo s' := by
  refine ⟨h.files, fun hport hstopped => ?_⟩
  obtain ⟨hserver, hstored, hmemory⟩ := h.service hport hstopped
  exact ⟨hserver, hstored.trans hmemory.symm, hmemory ▸ hleft⟩

theorem leftDisabled_portBack {before config : AppConfig}
    (h : config = withListenPort (disabledConfig before) 53 ∨ config = takenConfig before) :
    LeftDisabled before (disabledConfig (portBack config
      (if before.listenPort ≠ 53 then some before.listenPort else none))) := by
  have htaken : (takenConfig before).listenPort = 53 :=
    @listenPort_enabledConfig (withListenPort (disabledConfig before) 53) rfl
  have hport : portBack config (if before.listenPort ≠ 53 then some before.listenPort else none) =
      withListenPort config before.listenPort := by
    split_ifs with hne
    · rfl
    · have hsame := not_not.1 hne
      rw [portBack, withListenPort_self]
      rcases h with rfl | rfl
      · exact hsame.symm
      · exact htaken.trans hsame.symm
  rw [hport]
  rcases h with rfl | rfl
  · exact .inl rfl
  · exact leftDisabled_takenConfig before

theorem runTakeover_always (hutf8 : ∀ file, (s₀.world.node file).LinksUtf8)
    (h : Begun sha256Hex s₀.world.node state s.world) (hmemory : s.world.memory = s₀.world.memory) :
    Always (runTakeover parseUrl state) s
      (fun outcome s' => ∀ failure, outcome = some failure → Undone s₀ failure.undo s')
      (fun _ _ => True) fun _ => True := by
  have hfail : ∀ (s₁ : Daemon) (port : Option UInt16) (error : Text),
      Begun sha256Hex s₀.world.node state s₁.world →
      LeftDisabled s₀.world.memory (disabledConfig (portBack s₁.world.memory port)) →
      Always (failTakeover parseUrl state port error) s₁
        (fun outcome s' => ∀ failure, outcome = some failure → Undone s₀ failure.undo s')
        (fun _ _ => True) fun _ => True := by
    intro s₁ port error h₁ hleft
    refine (fail_undoes hutf8 h₁ port error).mono ?_ (fun _ _ h => h) fun _ h => h
    rintro outcome s' ⟨undo, text, rfl, hundoes⟩ failure hfailure
    cases hfailure
    exact hundoes.undone hleft
  unfold runTakeover
  refine Always.attempt_bind (switchFiles_always h) ?_ ?_
  · rintro port s₁ ⟨h₁, rfl, hmemory₁⟩
    rw [hmemory] at hmemory₁ ⊢
    refine Always.attempt_bind (serveAndVerify_always h₁) (fun _ s₂ _ => ?_) ?_
    · exact (Always.trivially _ s₂).andThen fun _ s₃ _ => Always.pure nofun
    · rintro error s₂ ⟨h₂, hmemory₂⟩
      refine hfail s₂ _ error h₂ ?_
      rw [hmemory₁] at hmemory₂
      exact leftDisabled_portBack hmemory₂
  · rintro error s₁ ⟨h₁, hmemory₁⟩
    refine hfail s₁ none error h₁ (.inl ?_)
    rw [hmemory] at hmemory₁
    rcases hmemory₁ with hmemory₁ | hmemory₁
    · rw [portBack, hmemory₁]
    · rw [portBack, hmemory₁]
      rfl

theorem captureFiles_always (w : World) : Always (captureFiles sha256Hex host) w
    (fun state w' => w' = w ∧
      ∀ w'', w''.journal = some state → (∀ file, w''.node file = w.node file) →
        Begun sha256Hex w.node state w'')
    (fun _ _ => True) fun _ => True := by
  unfold captureFiles
  refine (refuseUnknownDropIn_always (P := fun _ => True) trivial).andThen ?_
  rintro _ w rfl
  refine Always.andThen (Q := fun _ w' => w' = w) (Always.probe rfl (fun _ => trivial) trivial) ?_
  rintro _ w rfl
  refine Always.get_bind ?_
  refine (lift_always (P := fun _ => True) trivial).andThen ?_
  rintro originalResolvConf w ⟨rfl, hresolvConf⟩
  refine (lift_always (P := fun _ => True) trivial).andThen ?_
  rintro originalDropIn w ⟨rfl, hdropIn⟩
  refine Always.pure ⟨rfl, fun w'' hjournal hnode => ?_⟩
  exact (beginTakeover_begun (fun _ => rfl) hresolvConf hdropIn).sameFiles
    ⟨fun file => (hnode file).trans (w.sameNode_journal _ file).symm, hjournal⟩

end

/-- **A takeover that fails is undone**, where the steps of its undoing succeed: the files are
    as before, and so is the configuration, but that the server is stopped and disabled. -/
theorem takeover_undone (hutf8 : ∀ file, (s.world.node file).LinksUtf8) :
    Always (beginAndTakeOver parseUrl sha256Hex host) s
      (fun outcome s' => ∀ failure, outcome = some failure → Undone s failure.undo s')
      (fun _ _ => True) fun _ => True := by
  unfold beginAndTakeOver
  refine (onWorld_always (captureFiles_always s.world)).bind (fun _ _ _ => trivial)
    (fun _ _ => trivial) ?_
  rintro transaction s₁ ⟨-, hworld, hbegun⟩
  have hwrite : Always (writeState transaction) s₁.world
      (fun _ w => Begun sha256Hex s.world.node transaction w ∧ w.memory = s.world.memory)
      (fun _ _ => True) fun _ => True := by
    refine Always.step ⟨hbegun _ rfl fun file => ?_, hworld ▸ rfl⟩ (fun _ => ⟨trivial, trivial⟩)
      ⟨trivial, trivial⟩
    exact (s₁.world.sameNode_journal _ file).trans (hworld ▸ rfl)
  refine (onWorld_always hwrite).bind (fun _ _ _ => trivial) (fun _ _ => trivial) ?_
  rintro _ s₂ ⟨-, h₂, hmemory₂⟩
  exact runTakeover_always hutf8 h₂ hmemory₂

/-- A server that runs, on a machine that was never taken over. -/
def runningDaemon : Daemon where
  world := stubWorld
  running := true

/-- The drop-in cannot be written. -/
def fullDisk : Script Text := List.replicate 7 none ++ [some (.fails "disk full".toList false)]

theorem undone_runningDaemon :
    Always (beginAndTakeOver noUrl sampleSha256 stubHost) runningDaemon
      (fun outcome s' => ∀ failure, outcome = some failure → Undone runningDaemon failure.undo s')
      (fun _ _ => True) fun _ => True :=
  takeover_undone linksUtf8_stubWorld

/-- The server ran and was enabled, and behind a rollback that reports success it does not run
    and is disabled. -/
theorem runningDaemon_left_stopped :
    (runningDaemon.running = true ∧ runningDaemon.world.stored.enabled = true ∧
      runningDaemon.world.memory.enabled = true) ∧ ∃ failure s',
    beginAndTakeOver noUrl sampleSha256 stubHost fullDisk runningDaemon =
        .returned (some failure) [] s' ∧
      failure.undo.files = .ok ⟨⟩ ∧ s'.running = false ∧ s'.world.stored.enabled = false ∧
      s'.world.memory.enabled = false :=
  ⟨⟨rfl, rfl, rfl⟩, _, _, rfl, rfl, rfl, rfl, rfl⟩

end Daemon

end DnsBlackhole.Linux
