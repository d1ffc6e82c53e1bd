/-
  The data directory and the directories it is moved to (`storage.rs`).

  A directory is one canonical path.  A call is a sequence of atomic steps: one operation on a
  file each, some of which change nothing that is kept here.  Any step may fail, and the
  process may die at any step.

  What is not kept here: which directories exist, the temporary locator, the backups of adopted
  databases, and the sizes that the calls return.  A directory that is refused for where it lies
  (a relative path, a network volume) is a failing step, and so is a link in the filter cache.
-/
import DnsBlackhole.Lib.Steps
import DnsBlackhole.Text
import Mathlib.Data.List.AList

namespace DnsBlackhole.Storage
open Lib
open Steps (attempt get probe step throw)

/-- The files of a directory, by their names. -/
abbrev Files (φ : Type) := AList fun _ : Text => φ

/-- A database file holds what was written to it, in order. -/
inductive Copy (ω : Type)
  | torn
  | complete (writes : List ω)
  deriving DecidableEq

/-- The paths of a data directory.  A database has its write-ahead log in it. -/
structure Directory (ω φ : Type) where
  database : Option (Copy ω)
  wal : Bool
  shm : Bool
  filters : Option (Files φ)
  temporaryDatabase : Option (Copy ω)
  /-- For every process. -/
  temporaryFilters : ℕ → Option (Files φ)

/-- `StorageTargetAction` -/
inductive StorageTargetAction
  | current | migrate | useExisting
  deriving DecidableEq

structure StorageLocator (δ : Type) where
  dataDir : Option δ
  pendingDataDir : Option δ
  pendingAction : Option StorageTargetAction
  cleanupDataDir : Option δ
  lastMigrationError : Option Text
  deriving DecidableEq

instance (δ : Type) : Inhabited (StorageLocator δ) := ⟨none, none, none, none, none⟩

structure Disk (δ ω φ : Type) where
  locator : Option (StorageLocator δ)
  directory : δ → Directory ω φ

variable {δ ω φ : Type}

namespace Directory

def empty : Directory ω φ := ⟨none, false, false, none, none, fun _ => none⟩

/-- A path that `ensure_target_available` looks for is there. -/
def isManaged (d : Directory ω φ) : Bool :=
  d.database.isSome || d.wal || d.shm || d.filters.isSome

/-- `Database::open` -/
def opened (d : Directory ω φ) : Directory ω φ :=
  { d with database := some (d.database.getD (.complete [])), wal := true, shm := true }

def closed (d : Directory ω φ) : Directory ω φ := { d with wal := false, shm := false }

def withTemporaryDatabase (d : Directory ω φ) (database : Option (Copy ω)) : Directory ω φ :=
  { d with temporaryDatabase := database }

def withTemporaryFilters (d : Directory ω φ) (pid : ℕ) (files : Option (Files φ)) :
    Directory ω φ :=
  { d with temporaryFilters := Function.update d.temporaryFilters pid files }

/-- A renaming takes the place of what was there. -/
def renamedDatabase (d : Directory ω φ) : Directory ω φ :=
  { d with database := d.temporaryDatabase, temporaryDatabase := none }

def renamedFilters (d : Directory ω φ) (pid : ℕ) : Directory ω φ :=
  { d.withTemporaryFilters pid none with filters := d.temporaryFilters pid }

def withoutDatabase (d : Directory ω φ) : Directory ω φ := { d with database := none }

def withoutFilters (d : Directory ω φ) : Directory ω φ := { d with filters := none }

end Directory

section
variable [DecidableEq δ]

def Disk.update (disk : Disk δ ω φ) (d : δ) (f : Directory ω φ → Directory ω φ) : Disk δ ω φ :=
  { disk with directory := Function.update disk.directory d (f (disk.directory d)) }

/-- `read_locator`, where the file can be read. -/
def Disk.readLocator (disk : Disk δ ω φ) : StorageLocator δ := disk.locator.getD default

/-- The data directory that the locator names. -/
def StorageLocator.named (locator : StorageLocator δ) (defaultDir : δ) : δ :=
  locator.dataDir.getD defaultDir

abbrev StorageM (δ ω φ : Type) := Steps Text (Disk δ ω φ)

/-! ## Files -/

def modify (d : δ) (f : Directory ω φ → Directory ω φ) : StorageM δ ω φ PUnit := step (·.update d f)

def readLocator : StorageM δ ω φ (StorageLocator δ) := do
  probe
  return (← get).readLocator

/-- The temporary file is made, written and synchronised, and takes the place of the locator. -/
def replaceLocator (locator : StorageLocator δ) : StorageM δ ω φ PUnit := do
  probe
  probe
  probe
  step fun disk => { disk with locator := some locator }

/-- `write_locator`, which removes the temporary file of a failure. -/
def writeLocator (locator : StorageLocator δ) : StorageM δ ω φ PUnit := do
  probe
  match ← attempt (replaceLocator locator) with
  | .ok _ => pure ⟨⟩
  | .error error =>
    let _ ← attempt probe
    throw error

/-! ## Directories that are chosen -/

section
variable (nested : δ → δ → Bool)

/-- `validate_storage_directory`, whose last steps make and remove a file. -/
def validateStorageDirectory (currentDataDir selectedDir : δ) : StorageM δ ω φ PUnit := do
  probe
  probe
  if selectedDir ≠ currentDataDir ∧ nested selectedDir currentDataDir then
    throw "新旧数据目录不能互相嵌套".toList
  if selectedDir ≠ currentDataDir then
    probe
    probe

def targetConflict : Text := "目标目录中已经存在 DnsBlackhole 数据，请选择其他目录".toList

def ensureTargetAvailable (targetDir : δ) : StorageM δ ω φ PUnit := do
  if ((← get).directory targetDir).isManaged then throw targetConflict

def validateTargetDirectory (currentDataDir selectedDir : δ) : StorageM δ ω φ PUnit := do
  validateStorageDirectory nested currentDataDir selectedDir
  if selectedDir ≠ currentDataDir then ensureTargetAvailable selectedDir

variable (validDatabase : List ω → Except Text Unit)

/-- `validate_existing_database` -/
def validateExistingDatabase : Copy ω → Except Text Unit
  | .torn => .error "现有数据库完整性校验未通过".toList
  | .complete writes => validDatabase writes

def resolveStorageTarget (currentDataDir selectedDir : δ) :
    StorageM δ ω φ StorageTargetAction := do
  validateStorageDirectory nested currentDataDir selectedDir
  if currentDataDir = selectedDir then return .current
  else
    match ((← get).directory selectedDir).database with
    | some database =>
      probe
      Steps.lift (validateExistingDatabase validDatabase database)
      return .useExisting
    | none =>
      ensureTargetAvailable selectedDir
      return .migrate

/-! ## Migration -/

/-- `backup_database`: the copy is opened, and written to. -/
def backupDatabase (targetDir : δ) (source : Copy ω) : StorageM δ ω φ PUnit := do
  probe
  modify targetDir fun d => d.withTemporaryDatabase (some (d.temporaryDatabase.getD .torn))
  modify targetDir (·.withTemporaryDatabase (some .torn))
  modify targetDir (·.withTemporaryDatabase (some source))

/-- `verify_database` -/
def verifyDatabase : Option (Copy ω) → StorageM δ ω φ PUnit
  | some (.complete _) => probe
  | some .torn | none => do
    probe
    throw "迁移后的数据库完整性校验未通过".toList

def copyFiles (pid : ℕ) (targetDir : δ) : List (Σ _ : Text, φ) → StorageM δ ω φ PUnit
  | [] => pure ⟨⟩
  | ⟨name, content⟩ :: files => do
    modify targetDir fun d =>
      d.withTemporaryFilters pid ((d.temporaryFilters pid).map (·.insert name content))
    copyFiles pid targetDir files

/-- `copy_directory` of the filter cache. -/
def copyDirectory (pid : ℕ) (targetDir : δ) (files : Files φ) : StorageM δ ω φ PUnit := do
  modify targetDir fun d =>
    d.withTemporaryFilters pid (some ((d.temporaryFilters pid).getD ∅))
  copyFiles pid targetDir files.entries

def copyFilters (pid : ℕ) (targetDir : δ) : Option (Files φ) → StorageM δ ω φ PUnit
  | some files => copyDirectory pid targetDir files
  | none => pure ⟨⟩

def renameDatabase (targetDir : δ) : StorageM δ ω φ PUnit := do
  if ((← get).directory targetDir).temporaryDatabase.isSome then
    modify targetDir Directory.renamedDatabase

def renameFilters (pid : ℕ) (targetDir : δ) : StorageM δ ω φ PUnit := do
  if (((← get).directory targetDir).temporaryFilters pid).isSome then
    modify targetDir (·.renamedFilters pid)

/-- The steps of `migrate_data` whose failure is cleaned up. -/
def transferData (pid : ℕ) (targetDir : δ) (sourceDatabase : Copy ω)
    (sourceFilters : Option (Files φ)) : StorageM δ ω φ PUnit := do
  backupDatabase targetDir sourceDatabase
  verifyDatabase ((← get).directory targetDir).temporaryDatabase
  copyFilters pid targetDir sourceFilters
  renameDatabase targetDir
  renameFilters pid targetDir

/-- The clean-up of `migrate_data`. -/
def removeTransferred (pid : ℕ) (targetDir : δ) : StorageM δ ω φ PUnit := do
  let _ ← attempt (modify targetDir (·.withTemporaryDatabase none))
  let _ ← attempt (modify targetDir Directory.withoutDatabase)
  let _ ← attempt (modify targetDir (·.withTemporaryFilters pid none))
  let _ ← attempt (modify targetDir Directory.withoutFilters)

def migrateData (pid : ℕ) (sourceDir targetDir : δ) : StorageM δ ω φ PUnit := do
  validateTargetDirectory nested sourceDir targetDir
  let source := (← get).directory sourceDir
  match source.database with
  | none => throw "原数据库不存在或存储目录不可用".toList
  | some database =>
    match ← attempt (transferData pid targetDir database source.filters) with
    | .ok _ => pure ⟨⟩
    | .error error =>
      removeTransferred pid targetDir
      throw error

/-! ## Adoption -/

/-- A backup whose step fails is removed. -/
def orRemoved (message : Text) : StorageM δ ω φ PUnit := do
  match ← attempt probe with
  | .ok _ => pure ⟨⟩
  | .error error =>
    let _ ← attempt probe
    throw (message ++ error)

/-- The database is opened, its configuration is read, and it is closed again. -/
def openExisting (targetDir : δ) : StorageM δ ω φ PUnit := do
  modify targetDir Directory.opened
  match ← attempt probe with
  | .ok _ =>
    let _ ← attempt (modify targetDir Directory.closed)
  | .error error =>
    let _ ← attempt (modify targetDir Directory.closed)
    throw error

/-- `prepare_existing_data_for_adoption`: the database is backed up, the backup verified, and
    the database upgraded. -/
def prepareExistingDataForAdoption (currentDataDir targetDir : δ) : StorageM δ ω φ PUnit := do
  let action ← resolveStorageTarget nested validDatabase currentDataDir targetDir
  if action ≠ .useExisting then throw "所选目录中没有可使用的 DnsBlackhole 数据".toList
  else
    orRemoved "备份现有数据库失败：".toList
    orRemoved "校验现有数据库备份失败：".toList
    openExisting targetDir

/-! ## Starting -/

/-- The error that is kept in the locator. -/
def migrationError (action : StorageTargetAction) (error : Text) : Text :=
  (if action = .useExisting then "使用现有数据目录".toList else "数据目录迁移".toList) ++
    "失败，已继续使用原目录：".toList ++ error

variable (defaultDir : δ)

def customDataDir (dataDir : δ) : Option δ := if defaultDir = dataDir then none else some dataDir

/-- The change that was pending when the process started. -/
def changeDirectory (pid : ℕ) (action : StorageTargetAction) (dataDir pendingDir : δ) :
    StorageM δ ω φ PUnit :=
  match action with
  | .migrate => migrateData nested pid dataDir pendingDir
  | .useExisting => prepareExistingDataForAdoption nested validDatabase dataDir pendingDir
  | .current => throw "数据目录切换类型无效".toList

/-- The locator that is written behind a change. -/
def changedLocator (action : StorageTargetAction)
    (dataDir pendingDir : δ) : StorageLocator δ :=
  { dataDir := customDataDir defaultDir pendingDir
    pendingDataDir := none
    pendingAction := none
    cleanupDataDir := if action = .migrate then some dataDir else none
    lastMigrationError := none }

/-- The part of `initialize_at` for the change in the locator, if there is one. -/
def applyPending (pid : ℕ) (locator : StorageLocator δ) (dataDir : δ) :
    StorageM δ ω φ (δ × Option Text) :=
  match locator.pendingDataDir with
  | none => pure (dataDir, none)
  | some pendingDir =>
    let action := locator.pendingAction.getD .migrate
    let taken := { locator with pendingDataDir := none, pendingAction := none }
    if dataDir = pendingDir then do
      writeLocator { taken with dataDir := customDataDir defaultDir pendingDir }
      return (dataDir, none)
    else do
      match ← attempt (changeDirectory nested validDatabase pid action dataDir pendingDir) with
      | .ok _ =>
        writeLocator (changedLocator defaultDir action dataDir pendingDir)
        return (pendingDir, none)
      | .error error =>
        writeLocator { taken with lastMigrationError := some (migrationError action error) }
        return (dataDir, some (migrationError action error))

/-- `initialize_at`: the data directory, and the error of a change. -/
def initializeAt (pid : ℕ) : StorageM δ ω φ (δ × Option Text) := do
  probe
  let locator ← readLocator
  let dataDir := locator.named defaultDir
  if locator.dataDir.isSome ∧ ((← get).directory dataDir).database = none then
    throw "自定义数据目录不可用或数据库不存在".toList
  else
    let result ← applyPending nested validDatabase defaultDir pid locator dataDir
    probe
    return result

end

/-! ## The clean-up of the directory that was left -/

/-- A path is removed if it is there. -/
def removePath (dataDir : δ) (present : Directory ω φ → Bool)
    (removed : Directory ω φ → Directory ω φ) : StorageM δ ω φ PUnit := do
  if present ((← get).directory dataDir) then modify dataDir removed

/-- The empty directory is removed at the end, if that is possible. -/
def removeManagedData (dataDir : δ) : StorageM δ ω φ PUnit := do
  removePath dataDir (·.database.isSome) Directory.withoutDatabase
  removePath dataDir (·.wal) fun d => { d with wal := false }
  removePath dataDir (·.shm) fun d => { d with shm := false }
  removePath dataDir (·.filters.isSome) Directory.withoutFilters
  let _ ← attempt probe

def finishPendingCleanup (currentDataDir : δ) : StorageM δ ω φ PUnit := do
  let locator ← readLocator
  match locator.cleanupDataDir with
  | none => pure ⟨⟩
  | some cleanupDir =>
    if cleanupDir = currentDataDir then writeLocator { locator with cleanupDataDir := none }
    else
      removeManagedData cleanupDir
      writeLocator { locator with cleanupDataDir := none }

/-- The database is opened, and the directory that was left is cleaned up. -/
def openStorage (result : δ × Option Text) : StorageM δ ω φ (δ × Option Text) := do
  modify result.1 Directory.opened
  finishPendingCleanup result.1
  return result

/-- What a start of the service does in the data directory. -/
def startStorage (nested : δ → δ → Bool) (validDatabase : List ω → Except Text Unit)
    (defaultDir : δ) (pid : ℕ) : StorageM δ ω φ (δ × Option Text) := do
  let result ← initializeAt nested validDatabase defaultDir pid
  openStorage result

/-! ## Requests -/

/-- The locator that is written for a request. -/
def requestedLocator (locator : StorageLocator δ) (action : StorageTargetAction) (selectedDir : δ) :
    StorageLocator δ :=
  { locator with
    pendingDataDir := if action = .current then none else some selectedDir
    pendingAction := if action = .current then none else some action
    lastMigrationError := none }

/-- `request_storage_change`, which reads the sizes of the directory at the end. -/
def requestStorageChange (nested : δ → δ → Bool) (validDatabase : List ω → Except Text Unit)
    (currentDataDir selectedDir : δ) : StorageM δ ω φ PUnit := do
  let action ← resolveStorageTarget nested validDatabase currentDataDir selectedDir
  let locator ← readLocator
  writeLocator (requestedLocator locator action selectedDir)
  probe

end

end DnsBlackhole.Storage
