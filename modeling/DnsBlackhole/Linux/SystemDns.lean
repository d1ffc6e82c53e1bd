/-
  Taking over and restoring the system DNS on Linux (`linux_system_dns.rs`, with the
  start and the end of the daemon of `linux_daemon.rs`).

  A call is a sequence of atomic steps: writing a file or the state file, the two writes of
  a configuration, and probes of the machine that change nothing here.  Any step may fail,
  and the process may die at any step.

  What is not kept here: the status that the calls return, and how the service reports and
  recovers its own failures beyond the two configurations.
-/
import DnsBlackhole.Lib.Steps
import DnsBlackhole.Linux.Checks
import DnsBlackhole.Service.Save

namespace DnsBlackhole.Linux
open Admin (AppConfig)
open Config (Url require validate migrateLegacyDefaults)
open Lib
open Service (enabledConfig)
open Steps (attempt get lift probe step throw)

/-- A call of the system DNS, whose errors are texts. -/
abbrev DnsM := Steps Text World

/-! ## Files -/

/-- `read_state` -/
def readState : DnsM (Option SystemDnsState) := do
  probe
  return (← get).journal

/-- `write_state` -/
def writeState (state : SystemDnsState) : DnsM PUnit :=
  step fun w => { w with journal := some state }

def writeNode (file : ManagedFile) (node : Node) : DnsM PUnit := step (·.write file node)

/-- `fs::rename` over the path, which is refused where a directory is. -/
def replaceFile (file : ManagedFile) (node : Node) : DnsM PUnit := do
  if (← get).node file = .directory then throw ("原子替换 ".toList ++ file.path ++ " 失败".toList)
  else writeNode file node

/-- `write_atomic` -/
def writeAtomic (file : ManagedFile) (content : List UInt8) (mode : BitVec 12) : DnsM PUnit :=
  replaceFile file (.regular content mode)

/-- `replace_symlink_atomic` -/
def replaceSymlinkAtomic (file : ManagedFile) (target : Text) : DnsM PUnit :=
  replaceFile file (.symlink target.asBytes)

def removeFileIfPresent (file : ManagedFile) : DnsM PUnit := do
  probe
  match (← get).node file with
  | .missing => pure ⟨⟩
  | .regular _ _ | .symlink _ => writeNode file .missing
  | .directory | .special => throw ("拒绝删除不是文件的路径：".toList ++ file.path)

def restoreSnapshot (file : ManagedFile) : FileSnapshot → DnsM PUnit
  | .missing => removeFileIfPresent file
  | .regular content mode => writeAtomic file content mode
  | .symlink target => replaceSymlinkAtomic file target

def restoreFiles (transaction : SystemDnsState) : DnsM PUnit := do
  restoreSnapshot .dropIn transaction.originalDropIn
  restoreSnapshot .resolvConf transaction.originalResolvConf

/-- `restart_resolved` and `verify_system_resolver`. -/
def reloadAndVerifyResolver : DnsM PUnit := do
  probe
  probe

/-- `system_dns_status_unlocked` -/
def systemDnsStatus : DnsM PUnit := do
  let _ ← readState

/-! ## The service -/

def saveConfig (config : AppConfig) : DnsM PUnit := step fun w => { w with stored := config }

def replaceConfig (config : AppConfig) : DnsM PUnit := step fun w => { w with memory := config }

section
variable (parseUrl : Text → Except Text Url)

/-- The failures of the recovery are only reported. -/
def restoreConfigAfterFailure (previous : AppConfig) (error : Text) : DnsM PUnit := do
  let _ ← attempt (saveConfig previous)
  let _ ← attempt (replaceConfig previous)
  let _ ← attempt probe
  throw error

/-- The configuration is put in memory, and the server is started. -/
def runConfig (config : AppConfig) : DnsM PUnit := do
  replaceConfig config
  probe

def startDnsBlocking : DnsM PUnit := do
  probe
  let w ← get
  lift (validate parseUrl (enabledConfig w.memory))
  saveConfig (enabledConfig w.memory)
  match ← attempt (runConfig (enabledConfig w.memory)) with
  | .ok _ => pure ⟨⟩
  | .error error => restoreConfigAfterFailure w.memory error

/-- The configuration that `stop_dns_blocking` stores. -/
def disabledConfig (config : AppConfig) : AppConfig := { config with enabled := false }

def stopDnsBlocking : DnsM PUnit := do
  probe
  let w ← get
  saveConfig (disabledConfig w.memory)
  replaceConfig (disabledConfig w.memory)
  probe

def withListenPort (config : AppConfig) (port : UInt16) : AppConfig :=
  { config with listenPort := port }

/-- The port that was listened on is returned. -/
def applyListenPortBlocking (port : UInt16) : DnsM UInt16 := do
  probe
  let w ← get
  if w.memory.listenPort = port then return w.memory.listenPort
  else
    lift (validate parseUrl (withListenPort w.memory port))
    saveConfig (withListenPort w.memory port)
    replaceConfig (withListenPort w.memory port)
    return w.memory.listenPort

end

/-! ## Restoring -/

def conflictOnRestore : Text :=
  "系统 DNS 文件在接管后被外部修改，拒绝静默覆盖，请先人工检查".toList

section
variable (sha256Hex : List UInt8 → Text) (host : Host)

/-- The files are only checked where the state file says that they may be managed. -/
def checkOwned (transaction : SystemDnsState) : DnsM PUnit := do
  let w ← get
  if (transaction.effective || transaction.pending) &&
      !transitionFilesAreOwned sha256Hex host transaction w then
    throw conflictOnRestore

/-- The files are as before; a resolver that does not come back is only reported. -/
def finishRestoring (transaction : SystemDnsState) : DnsM PUnit := do
  restoreFiles transaction
  writeState transaction.finishRestore
  match ← attempt reloadAndVerifyResolver with
  | .ok _ => systemDnsStatus
  | .error error =>
    writeState { transaction.finishRestore with
      lastError := some ("原系统 DNS 文件已恢复，但".toList ++ error) }
    systemDnsStatus

/-- `restore_system_dns_unlocked` -/
def restoreSystemDns (preserveDesired : Bool) : DnsM PUnit := do
  probe
  match ← readState with
  | none => systemDnsStatus
  | some transaction =>
    checkOwned sha256Hex host transaction
    writeState (transaction.beginRestore preserveDesired)
    stopDnsBlocking
    finishRestoring (transaction.beginRestore preserveDesired)

def restoreSystemDnsOffline (preserveDesired : Bool) : DnsM PUnit := do
  probe
  match ← readState with
  | none => systemDnsStatus
  | some transaction =>
    if !transaction.managed then systemDnsStatus
    else
      checkOwned sha256Hex host transaction
      probe
      writeState (transaction.beginRestore preserveDesired)
      finishRestoring (transaction.beginRestore preserveDesired)

def restoreBeforeShutdown : DnsM PUnit := do
  match ← readState with
  | none => pure ⟨⟩
  | some transaction =>
    if transaction.effective then restoreSystemDns sha256Hex host true else pure ⟨⟩

end

/-! ## Taking over -/

/-- `/etc/resolv.conf` is a link that leads to a file of systemd-resolved. -/
def inspectEnvironment (host : Host) : DnsM PUnit := do
  probe
  match resolvedSymlinkTarget host (← get).resolvConf with
  | none => throw "/etc/resolv.conf 不是可识别的 systemd-resolved 符号链接，拒绝自动修改".toList
  | some target =>
    lift (require (target = resolvedStubResolvConf ∨ target = resolvedResolvConf)
      ("/etc/resolv.conf 指向未识别的目标 ".toList ++ target ++ "，拒绝自动修改".toList))

section
variable (parseUrl : Text → Except Text Url) (sha256Hex : List UInt8 → Text) (host : Host)

/-- The state file of a takeover that begins. -/
def beginTakeover (originalResolvConf originalDropIn : FileSnapshot) : SystemDnsState :=
  { desired := true
    effective := false
    pending := true
    originalResolvConf
    originalDropIn
    managedDropInSha256 := sha256Hex managedDropIn.asBytes
    managedResolvConfTarget := resolvedResolvConf
    lastError := none }

/-- The steps of the takeover up to that of the port, which returns the port before. -/
def switchFiles : DnsM UInt16 := do
  stopDnsBlocking
  probe
  writeAtomic .dropIn managedDropIn.asBytes 0o644
  replaceSymlinkAtomic .resolvConf resolvedResolvConf
  probe
  applyListenPortBlocking parseUrl 53

/-- The steps behind that of the port. -/
def serveAndVerify : DnsM PUnit := do
  startDnsBlocking parseUrl
  probe

def rollback (transaction : SystemDnsState) : DnsM PUnit := do
  let _ ← attempt stopDnsBlocking
  restoreFiles transaction
  reloadAndVerifyResolver

/-- What is noted behind a failed takeover. -/
def SystemDnsState.failed (transaction : SystemDnsState) (rolledBack : Except Text PUnit)
    (error : Text) : SystemDnsState :=
  { transaction with
    desired := false
    effective := false
    pending := rolledBack matches .error _
    lastError := some (match rolledBack with
      | .error rollback => "接管失败：".toList ++ error ++ "；回滚失败：".toList ++ rollback
      | .ok _ => "接管失败，已恢复原系统 DNS：".toList ++ error) }

def failTakeover (transaction : SystemDnsState) (restoredListenPort : Option UInt16)
    (error : Text) : DnsM PUnit := do
  match restoredListenPort with
  | some previousPort => let _ ← attempt (applyListenPortBlocking parseUrl previousPort)
  | none => pure ⟨⟩
  let rolledBack ← attempt (rollback transaction)
  let failed := transaction.failed rolledBack error
  let _ ← attempt (writeState failed)
  throw (failed.lastError.getD error)

def finishTakeover (transaction : SystemDnsState) : DnsM PUnit := do
  writeState { transaction with effective := true, pending := false, lastError := none }
  systemDnsStatus

/-- A drop-in that no state file accounts for is not overwritten. -/
def refuseUnknownDropIn : DnsM PUnit := do
  if pathExists host (← get).dropIn then
    if (← readState).isNone then
      throw ("发现没有事务状态的现有文件 ".toList ++ ManagedFile.dropIn.path ++ "，拒绝覆盖".toList)

/-- The takeover behind the check of the state file. -/
def beginAndTakeOver : DnsM PUnit := do
  refuseUnknownDropIn host
  probe
  let w ← get
  let originalResolvConf ← lift (captureFile .resolvConf w.resolvConf)
  let originalDropIn ← lift (captureFile .dropIn w.dropIn)
  let transaction := beginTakeover sha256Hex originalResolvConf originalDropIn
  writeState transaction
  match ← attempt (switchFiles parseUrl) with
  | .error error => failTakeover parseUrl transaction none error
  | .ok previousPort =>
    let restoredListenPort := if previousPort ≠ 53 then some previousPort else none
    match ← attempt (serveAndVerify parseUrl) with
    | .error error => failTakeover parseUrl transaction restoredListenPort error
    | .ok _ => finishTakeover transaction

def conflictOnPending : Text :=
  "上次系统 DNS 事务未完成且相关文件已被外部修改，请先人工检查".toList

def conflictOnEffective : Text := "系统 DNS 接管状态发生冲突，拒绝覆盖外部修改，请先人工检查".toList

/-- `take_over_system_dns_unlocked` -/
def takeOverSystemDns : DnsM PUnit := do
  probe
  inspectEnvironment host
  probe
  lift (validateTakeoverConfig (← get).memory)
  match ← readState with
  | none => beginAndTakeOver parseUrl sha256Hex host
  | some existing =>
    let w ← get
    if existing.pending then
      lift (require (transitionFilesAreOwned sha256Hex host existing w) conflictOnPending)
      restoreSystemDns sha256Hex host true
      beginAndTakeOver parseUrl sha256Hex host
    else if existing.effective then
      lift (require (managedFilesMatch sha256Hex host existing w) conflictOnEffective)
      startDnsBlocking parseUrl
      systemDnsStatus
    else beginAndTakeOver parseUrl sha256Hex host

/-! ## The daemon -/

structure StartupReconciliation where
  desired : Bool
  error : Option Text

def reconcileDesiredOnStart : DnsM StartupReconciliation := do
  match ← readState with
  | none => return { desired := false, error := none }
  | some existing =>
    if !existing.desired then return { desired := false, error := none }
    else
      match ← attempt (takeOverSystemDns parseUrl sha256Hex host) with
      | .ok _ => return { desired := true, error := none }
      | .error error => return { desired := true, error := some error }

/-- The stored configuration, as it is loaded at a start. -/
def loadConfig : DnsM PUnit := do
  let w ← get
  lift (validate parseUrl (migrateLegacyDefaults w.stored))
  replaceConfig (migrateLegacyDefaults w.stored)

/-- The configuration is loaded, then the state file is looked at; the tasks that are started
    behind that change no configuration. -/
def startDaemon : DnsM StartupReconciliation := do
  loadConfig parseUrl
  reconcileDesiredOnStart parseUrl sha256Hex host

/-! ## Runs -/

/-- The entry points; `restore` and `restoreOffline` may keep that the takeover is desired. -/
inductive DnsCall
  | takeOver
  | restore (preserveDesired : Bool)
  | restoreOffline (preserveDesired : Bool)
  | shutdown
  | start
  deriving DecidableEq

def DnsCall.run : DnsCall → DnsM PUnit
  | takeOver => takeOverSystemDns parseUrl sha256Hex host
  | restore preserveDesired => restoreSystemDns sha256Hex host preserveDesired
  | restoreOffline preserveDesired => restoreSystemDnsOffline sha256Hex host preserveDesired
  | shutdown => restoreBeforeShutdown sha256Hex host
  | start => do let _ ← startDaemon parseUrl sha256Hex host

end

inductive DnsEvent
  /-- A call, with the other files as it finds them and what happens at its steps. -/
  | called (call : DnsCall) (host : Host) (script : Script Text)
  /-- Another program writes one of the two files. -/
  | wrote (file : ManagedFile) (node : Node)

section
variable (parseUrl : Text → Except Text Url) (sha256Hex : List UInt8 → Text)

def World.after (w : World) : DnsEvent → World
  | .called call host script => (call.run parseUrl sha256Hex host script w).state
  | .wrote file node => w.write file node

def systemDnsMachine (init : World) : Machine World DnsEvent where
  init
  step w event := some (w.after parseUrl sha256Hex event)

end

end DnsBlackhole.Linux
