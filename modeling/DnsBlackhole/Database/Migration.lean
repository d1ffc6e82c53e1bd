/-
  The migration of the statistics from the names of the filter lists to their
  tags (`migrate_blocklist_source_to_id`), with interruptions.

  * `initSchema` runs the earlier migrations and then the `migrateStatements`,
    one after the other and without a transaction; `interrupt` stops it after
    some of them;
  * `initSchema_again_iff`: when it is run again, the tables become those of an
    uninterrupted run if the second run finds the rows `Resumable`; if no list
    is named like a tag, only then.  They are not where the first run was
    stopped between copying the rows of a list and deleting them, and these
    count something.
-/
import DnsBlackhole.Database.Retention
import DnsBlackhole.Lib.TableMove

namespace DnsBlackhole.Database
open Admin (AppConfig filterSourceTag)
open Lib

/-! ## The schema -/

/-- The keys of `database_meta` that the migrations set when they are done. -/
structure DatabaseMeta where
  hourlyStatisticsInitialized : Bool := false
  lifetimeStatisticsInitialized : Bool := false
  clientBlockedStatisticsInitialized : Bool := false
  blocklistSourceId : Bool := false

structure DatabaseFile where
  db : Database
  databaseMeta : DatabaseMeta := {}

/-- What the migrations before this one make of the tables. -/
structure EarlierMigrations where
  initializeHourlyStatistics : Database → Database
  initializeLifetimeStatistics : Database → Database
  initializeClientBlockedStatistics : Database → Database

inductive MigrationStatement
  | copyHourly (name tag : Text)
  | deleteHourly (name : Text)
  | copySummary (name tag : Text)
  | deleteSummary (name : Text)
  | updateQueryLogs (name tag : Text)
  | setBlocklistSourceId
  deriving DecidableEq

/-- The columns that `INSERT INTO dashboard_summary_stats` names. -/
def SummaryColumns.withoutTraffic (columns : SummaryColumns) : SummaryColumns :=
  { columns with counts := columns.counts.withoutTraffic }

def isBlocklistHour (name : Text) (key : HourlyStatKey) : Bool :=
  key.dimension = .blocklist ∧ key.value = name

def isBlocklistSummary (name : Text) (key : SummaryKey) : Bool :=
  key.dimension = .blocklist ∧ key.value = name

def QueryLogRow.moveRuleSource (name tag : Text) (row : QueryLogRow) : QueryLogRow :=
  if row.ruleSource = some name then { row with ruleSource := some tag } else row

/-- `INSERT INTO statistics_hourly .. SELECT .. ON CONFLICT .. DO UPDATE`. -/
def copyHourlySource (name tag : Text) (statistics : Table HourlyStatKey StatDelta) :
    Table HourlyStatKey StatDelta :=
  statistics.copyWhere (· + ·) (fun key => { key with value := tag }) StatDelta.withoutTraffic
    (isBlocklistHour name)

/-- `INSERT INTO dashboard_summary_stats .. SELECT .. ON CONFLICT .. DO UPDATE`. -/
def copySummarySource (name tag : Text) (statistics : Table SummaryKey SummaryColumns) :
    Table SummaryKey SummaryColumns :=
  statistics.copyWhere SummaryColumns.merge (fun key => { key with value := tag })
    SummaryColumns.withoutTraffic (isBlocklistSummary name)

def MigrationStatement.executeDb (db : Database) : MigrationStatement → Database
  | copyHourly name tag =>
    { db with statisticsHourly := copyHourlySource name tag db.statisticsHourly }
  | deleteHourly name =>
    { db with statisticsHourly := db.statisticsHourly.deleteWhere (isBlocklistHour name) }
  | copySummary name tag =>
    { db with dashboardSummaryStats := copySummarySource name tag db.dashboardSummaryStats }
  | deleteSummary name =>
    { db with dashboardSummaryStats :=
        db.dashboardSummaryStats.deleteWhere (isBlocklistSummary name) }
  | updateQueryLogs name tag =>
    { db with queryLogs := db.queryLogs.map (QueryLogRow.moveRuleSource name tag) }
  | setBlocklistSourceId => db

def MigrationStatement.execute (file : DatabaseFile) (statement : MigrationStatement) :
    DatabaseFile where
  db := statement.executeDb file.db
  databaseMeta := { file.databaseMeta with
    blocklistSourceId := file.databaseMeta.blocklistSourceId || statement = .setBlocklistSourceId }

/-- The names to replace, and the tags that replace them. -/
def sourceMoves (config : AppConfig) : List (Text × Text) :=
  (config.filters.filter fun filter =>
    filter.name ≠ [] ∧ filter.name ≠ filterSourceTag filter.id).map fun filter =>
      (filter.name, filterSourceTag filter.id)

/-- The moves that the stored configuration asks for. -/
def movesOf (db : Database) : List (Text × Text) :=
  match db.appConfig with
  | some (config, _) => sourceMoves config
  | none => []

/-- The statements for one list. -/
def moveStatements (move : Text × Text) : List MigrationStatement :=
  [.copyHourly move.1 move.2, .deleteHourly move.1, .copySummary move.1 move.2,
    .deleteSummary move.1, .updateQueryLogs move.1 move.2]

/-- The statements of `migrate_blocklist_source_to_id`, in its order. -/
def migrateStatements (file : DatabaseFile) : List MigrationStatement :=
  if file.databaseMeta.blocklistSourceId then []
  else (movesOf file.db).flatMap moveStatements ++ [.setBlocklistSourceId]

def executeAll (statements : List MigrationStatement) (file : DatabaseFile) : DatabaseFile :=
  statements.foldl MigrationStatement.execute file

section
variable (earlier : EarlierMigrations)

/-- The migrations before this one; each is done once. -/
def initializeStatistics (file : DatabaseFile) : DatabaseFile :=
  let file := if file.databaseMeta.hourlyStatisticsInitialized then file
    else { db := earlier.initializeHourlyStatistics file.db
           databaseMeta := { file.databaseMeta with hourlyStatisticsInitialized := true } }
  let file := if file.databaseMeta.lifetimeStatisticsInitialized then file
    else { db := earlier.initializeLifetimeStatistics file.db
           databaseMeta := { file.databaseMeta with lifetimeStatisticsInitialized := true } }
  if file.databaseMeta.clientBlockedStatisticsInitialized then file
  else { db := earlier.initializeClientBlockedStatistics file.db
         databaseMeta := { file.databaseMeta with clientBlockedStatisticsInitialized := true } }

def initSchema (file : DatabaseFile) : DatabaseFile :=
  let file := initializeStatistics earlier file
  executeAll (migrateStatements file) file

/-- `init_schema` up to an interruption after `done` statements of the migration. -/
def interrupt (done : ℕ) (file : DatabaseFile) : DatabaseFile :=
  let file := initializeStatistics earlier file
  executeAll ((migrateStatements file).take done) file

end

/-! ## The statements as moves -/

/-- The columns that are copied, together. -/
def StatDelta.copiedCounts (delta : StatDelta) : ℕ :=
  delta.queries + delta.blocked + delta.forwarded + delta.failed + delta.requests +
    delta.latencyTotalMs + delta.latencySamples

theorem copiedCounts_add (a b : StatDelta) :
    (a + b).copiedCounts = a.copiedCounts + b.copiedCounts := by
  change (a.queries + b.queries) + (a.blocked + b.blocked) + (a.forwarded + b.forwarded) +
    (a.failed + b.failed) + (a.requests + b.requests) + (a.latencyTotalMs + b.latencyTotalMs) +
      (a.latencySamples + b.latencySamples) = _
  unfold StatDelta.copiedCounts
  omega

theorem withoutTraffic_eq_zero {delta : StatDelta} (h : delta.copiedCounts = 0) :
    delta.withoutTraffic = 0 := by
  unfold StatDelta.copiedCounts at h
  refine StatDelta.ext ?_ ?_ ?_ ?_ ?_ ?_ ?_ rfl
  all_goals
    change _ = 0
    simp only [StatDelta.withoutTraffic]
    omega

def hourlyNaming : Table.Naming Text HourlyStatKey where
  isNamed := isBlocklistHour
  rename tag key := { key with value := tag }
  isNamed_rename h := decide_eq_true ⟨(of_decide_eq_true h).1, rfl⟩
  rename_rename {old _ key} h := by
    obtain ⟨-, rfl⟩ := of_decide_eq_true h
    rfl
  eq_of_isNamed ha hb := (of_decide_eq_true ha).2.symm.trans (of_decide_eq_true hb).2

def summaryNaming : Table.Naming Text SummaryKey where
  isNamed := isBlocklistSummary
  rename tag key := { key with value := tag }
  isNamed_rename h := decide_eq_true ⟨(of_decide_eq_true h).1, rfl⟩
  rename_rename {old _ key} h := by
    obtain ⟨-, rfl⟩ := of_decide_eq_true h
    rfl
  eq_of_isNamed ha hb := (of_decide_eq_true ha).2.symm.trans (of_decide_eq_true hb).2

def hourlyMerging : Table.Merging StatDelta where
  merge := (· + ·)
  copied := StatDelta.withoutTraffic
  measure := StatDelta.copiedCounts
  measure_merge := copiedCounts_add
  measure_copied _ := rfl
  merge_self h := by rw [withoutTraffic_eq_zero h, add_zero]
  merge_again h := by rw [withoutTraffic_eq_zero h, add_zero]

theorem summary_merge_again (a b : SummaryColumns) (h : b.counts.copiedCounts = 0) :
    (a.merge b.withoutTraffic).merge b.withoutTraffic = a.merge b.withoutTraffic := by
  simp only [SummaryColumns.merge, SummaryColumns.withoutTraffic, withoutTraffic_eq_zero h,
    add_zero, min_assoc, min_self, max_assoc, max_self]

def summaryMerging : Table.Merging SummaryColumns where
  merge := SummaryColumns.merge
  copied := SummaryColumns.withoutTraffic
  measure columns := columns.counts.copiedCounts
  measure_merge a b := copiedCounts_add a.counts b.counts
  measure_copied _ := rfl
  merge_self {b} h := by
    simp only [SummaryColumns.merge, SummaryColumns.withoutTraffic, withoutTraffic_eq_zero h,
      add_zero, min_self, max_self]
  merge_again {a b} h := summary_merge_again a b h

/-- A table whose rows the migration moves, and what each statement does to it. -/
structure MovedTable (κ α : Type) [DecidableEq κ] where
  naming : Table.Naming Text κ
  merging : Table.Merging α
  table : Database → Table κ α
  step : MigrationStatement → Option (Table.Step Text)
  table_executeDb : ∀ db statement, table (MigrationStatement.executeDb db statement) =
    (step statement).elim (table db) fun s => s.run naming merging (table db)
  step_moveStatements : ∀ move, (moveStatements move).filterMap step =
    [.copy move.1 move.2, .delete move.1]
  step_setBlocklistSourceId : step .setBlocklistSourceId = none

def hourlyTable : MovedTable HourlyStatKey StatDelta where
  naming := hourlyNaming
  merging := hourlyMerging
  table := (·.statisticsHourly)
  step
    | .copyHourly name tag => some (.copy name tag)
    | .deleteHourly name => some (.delete name)
    | _ => none
  table_executeDb _ statement := by cases statement <;> rfl
  step_moveStatements _ := rfl
  step_setBlocklistSourceId := rfl

def summaryTable : MovedTable SummaryKey SummaryColumns where
  naming := summaryNaming
  merging := summaryMerging
  table := (·.dashboardSummaryStats)
  step
    | .copySummary name tag => some (.copy name tag)
    | .deleteSummary name => some (.delete name)
    | _ => none
  table_executeDb _ statement := by cases statement <;> rfl
  step_moveStatements _ := rfl
  step_setBlocklistSourceId := rfl

/-! ## Interruptions -/

theorem migrateStatements_of_not {file : DatabaseFile} (h : ¬ file.databaseMeta.blocklistSourceId) :
    migrateStatements file = (movesOf file.db).flatMap moveStatements ++ [.setBlocklistSourceId] :=
  if_neg h

theorem ne_of_mem_movesOf {db : Database} {move : Text × Text} (h : move ∈ movesOf db) :
    move.1 ≠ move.2 := by
  unfold movesOf at h
  split at h
  · obtain ⟨filter, hfilter, rfl⟩ := List.mem_map.1 h
    exact (of_decide_eq_true (List.mem_filter.1 hfilter).2).2
  · cases h

theorem executeAll_append (statements statements' : List MigrationStatement) (file : DatabaseFile) :
    executeAll (statements ++ statements') file =
      executeAll statements' (executeAll statements file) :=
  List.foldl_append ..

theorem appConfig_executeDb (db : Database) (statement : MigrationStatement) :
    (statement.executeDb db).appConfig = db.appConfig := by
  cases statement <;> rfl

section
variable {file : DatabaseFile}

theorem appConfig_executeAll (statements : List MigrationStatement) :
    (executeAll statements file).db.appConfig = file.db.appConfig := by
  induction statements generalizing file with
  | nil => rfl
  | cons statement statements ih =>
    change (executeAll statements (statement.execute file)).db.appConfig = _
    rw [ih]
    exact appConfig_executeDb file.db statement

theorem databaseMeta_executeAll (statements : List MigrationStatement) :
    (executeAll statements file).databaseMeta = { file.databaseMeta with
      blocklistSourceId :=
        file.databaseMeta.blocklistSourceId || .setBlocklistSourceId ∈ statements } := by
  induction statements generalizing file with
  | nil => simp [executeAll]
  | cons statement statements ih =>
    change (executeAll statements (statement.execute file)).databaseMeta = _
    rw [ih]
    simp only [MigrationStatement.execute, Bool.or_assoc, List.mem_cons, Bool.decide_or, eq_comm]

variable (earlier : EarlierMigrations)

theorem initializeStatistics_executeAll (statements : List MigrationStatement) :
    initializeStatistics earlier (executeAll statements (initializeStatistics earlier file)) =
      executeAll statements (initializeStatistics earlier file) := by
  have hmeta : (executeAll statements (initializeStatistics earlier file)).databaseMeta = _ :=
    databaseMeta_executeAll statements
  have hinit : (initializeStatistics earlier file).databaseMeta =
      ⟨true, true, true, file.databaseMeta.blocklistSourceId⟩ := by
    unfold initializeStatistics
    obtain ⟨db, a, b, c, d⟩ := file
    cases a <;> cases b <;> cases c <;> rfl
  rw [hinit] at hmeta
  unfold initializeStatistics at hmeta ⊢
  simp only [hmeta, if_true]

theorem initializeStatistics_interrupt (done : ℕ) :
    initializeStatistics earlier (interrupt earlier done file) = interrupt earlier done file :=
  initializeStatistics_executeAll earlier _

variable {earlier} {done : ℕ}

theorem interrupt_eq_of_done
    (h : (interrupt earlier done file).databaseMeta.blocklistSourceId) :
    interrupt earlier done file = initSchema earlier file := by
  unfold interrupt initSchema
  dsimp only
  refine congrArg (executeAll · _) ?_
  by_cases hbefore : (initializeStatistics earlier file).databaseMeta.blocklistSourceId
  · rw [migrateStatements, if_pos hbefore, List.take_nil]
  · rw [interrupt, databaseMeta_executeAll, Bool.or_eq_true_iff, decide_eq_true_iff] at h
    have hmem := h.resolve_left hbefore
    rw [migrateStatements_of_not hbefore] at hmem ⊢
    refine List.take_of_length_le ?_
    by_contra hlt
    rw [List.length_append, List.length_singleton, Nat.not_le, Nat.lt_succ_iff] at hlt
    rw [List.take_append_of_le_length hlt] at hmem
    -- no earlier statement sets the key
    obtain ⟨move, -, hstatement⟩ := List.mem_flatMap.1 (List.mem_of_mem_take hmem)
    simp [moveStatements] at hstatement

theorem migrateStatements_interrupt
    (h : ¬ (interrupt earlier done file).databaseMeta.blocklistSourceId) :
    ¬ (initializeStatistics earlier file).databaseMeta.blocklistSourceId ∧
      migrateStatements (interrupt earlier done file) =
        migrateStatements (initializeStatistics earlier file) := by
  have hbefore : ¬ (initializeStatistics earlier file).databaseMeta.blocklistSourceId := by
    intro hset
    refine h ?_
    rw [interrupt, databaseMeta_executeAll, hset]
    rfl
  refine ⟨hbefore, ?_⟩
  rw [migrateStatements_of_not h, migrateStatements_of_not hbefore, movesOf, movesOf, interrupt,
    appConfig_executeAll]

end

/-! ## What the second run makes of a table -/

namespace MovedTable
variable {κ α : Type} [DecidableEq κ] (M : MovedTable κ α)

theorem table_executeAll (statements : List MigrationStatement) (file : DatabaseFile) :
    M.table (executeAll statements file).db =
      Table.runSteps M.naming M.merging (statements.filterMap M.step) (M.table file.db) := by
  induction statements generalizing file with
  | nil => rfl
  | cons statement statements ih =>
    refine (ih (statement.execute file)).trans ?_
    have htable := M.table_executeDb file.db statement
    rw [List.filterMap_cons]
    cases hstep : M.step statement with
    | none =>
      rw [hstep] at htable
      exact congrArg (Table.runSteps _ _ _) htable
    | some step =>
      rw [hstep] at htable
      exact congrArg (Table.runSteps _ _ _) htable

theorem filterMap_migrateStatements {file : DatabaseFile}
    (h : ¬ file.databaseMeta.blocklistSourceId) :
    (migrateStatements file).filterMap M.step = Table.moveSteps (movesOf file.db) := by
  rw [migrateStatements_of_not h, List.filterMap_append, List.filterMap_flatMap,
    List.filterMap_cons_none M.step_setBlocklistSourceId, List.filterMap_nil, List.append_nil]
  exact congrArg (List.flatMap · _) (funext M.step_moveStatements)

variable (earlier : EarlierMigrations) (done : ℕ) (file : DatabaseFile)

/-- The steps of the table before the interruption. -/
def stepsDone : List (Table.Step Text) :=
  ((migrateStatements (initializeStatistics earlier file)).take done).filterMap M.step

/-- The second run finds no row under a name whose rows it copies again, but rows that the
    first run has just copied and that count nothing. -/
def FindsSettled : Prop :=
  Table.Settled M.naming M.merging (M.stepsDone earlier done file)
    (M.table (interrupt earlier done file).db)

variable {earlier done file}

/-- The tables after both runs, by the steps done before the interruption and the others. -/
theorem table_runs (h : ¬ (interrupt earlier done file).databaseMeta.blocklistSourceId) :
    ∃ rest, M.stepsDone earlier done file ++ rest =
        Table.moveSteps (movesOf (initializeStatistics earlier file).db) ∧
      M.table (interrupt earlier done file).db = Table.runSteps M.naming M.merging
        (M.stepsDone earlier done file) (M.table (initializeStatistics earlier file).db) ∧
      M.table (initSchema earlier file).db = Table.runSteps M.naming M.merging rest
        (M.table (interrupt earlier done file).db) ∧
      M.table (initSchema earlier (interrupt earlier done file)).db =
        Table.runSteps M.naming M.merging (M.stepsDone earlier done file ++ rest)
          (M.table (interrupt earlier done file).db) := by
  obtain ⟨hbefore, hstatements⟩ := migrateStatements_interrupt h
  have hsplit : M.stepsDone earlier done file ++
      ((migrateStatements (initializeStatistics earlier file)).drop done).filterMap M.step =
        (migrateStatements (initializeStatistics earlier file)).filterMap M.step := by
    rw [stepsDone, ← List.filterMap_append, List.take_append_drop]
  refine ⟨_, hsplit.trans (M.filterMap_migrateStatements hbefore), M.table_executeAll _ _, ?_, ?_⟩
  · rw [← M.table_executeAll, interrupt, ← executeAll_append, List.take_append_drop]
    rfl
  · rw [hsplit, ← M.table_executeAll, initSchema, initializeStatistics_interrupt, hstatements]

theorem sameRows_of_findsSettled
    (h : ¬ (interrupt earlier done file).databaseMeta.blocklistSourceId)
    (hs : M.FindsSettled earlier done file) :
    (M.table (initSchema earlier (interrupt earlier done file)).db).SameRows
      (M.table (initSchema earlier file).db) := by
  obtain ⟨rest, hsplit, hfirst, hwhole, hagain⟩ := M.table_runs h
  rw [FindsSettled, hfirst] at hs
  rw [hagain, hwhole, Table.runSteps_append, hfirst]
  exact (Table.runSteps_again (fun move => ne_of_mem_movesOf) ⟨rest, hsplit⟩ hs).runSteps rest

theorem findsSettled_of_sameRows
    (hnames : ∀ move ∈ movesOf (initializeStatistics earlier file).db,
      ∀ move' ∈ movesOf (initializeStatistics earlier file).db, move.1 ≠ move'.2)
    (h : ¬ (interrupt earlier done file).databaseMeta.blocklistSourceId)
    (hsame : (M.table (initSchema earlier (interrupt earlier done file)).db).SameRows
      (M.table (initSchema earlier file).db)) : M.FindsSettled earlier done file := by
  obtain ⟨rest, hsplit, hfirst, hwhole, hagain⟩ := M.table_runs h
  rw [hagain, hwhole] at hsame
  exact Table.settled_of_sameRows hnames hsplit hfirst hsame

theorem total_initSchema {count : α → ℕ} {p : κ → Bool}
    (hmerge : ∀ a b, count (M.merging.merge a b) = count a + count b)
    (hcopied : ∀ a, count (M.merging.copied a) = count a)
    (hp : ∀ tag key, p (M.naming.rename tag key) = p key) :
    (M.table (initSchema earlier file).db).total count p =
      (M.table (initializeStatistics earlier file).db).total count p := by
  rw [initSchema, M.table_executeAll]
  by_cases h : (initializeStatistics earlier file).databaseMeta.blocklistSourceId
  · rw [migrateStatements, if_pos h]
    rfl
  · rw [M.filterMap_migrateStatements h]
    exact Table.total_moveSteps hmerge hcopied hp fun move => ne_of_mem_movesOf

end MovedTable

/-! ## The migration -/

section
variable (earlier : EarlierMigrations) (done : ℕ) (file : DatabaseFile)

/-- The second run has nothing to do, or does nothing again. -/
def Resumable : Prop :=
  (interrupt earlier done file).databaseMeta.blocklistSourceId ∨
    hourlyTable.FindsSettled earlier done file ∧ summaryTable.FindsSettled earlier done file

/-- No list is named like the tag of a list. -/
def NamesNoTag : Prop :=
  ∀ move ∈ movesOf (initializeStatistics earlier file).db,
    ∀ move' ∈ movesOf (initializeStatistics earlier file).db, move.1 ≠ move'.2

end

/-- The same rows in both tables. -/
def SameStatistics (db db' : Database) : Prop :=
  db.statisticsHourly.SameRows db'.statisticsHourly ∧
    db.dashboardSummaryStats.SameRows db'.dashboardSummaryStats

def hourlyBlockedHits (db : Database) : ℕ :=
  db.statisticsHourly.total (·.blocked) fun key => key.dimension = .blocklist

def summaryBlockedHits (db : Database) : ℕ :=
  db.dashboardSummaryStats.total (·.counts.blocked) fun key => key.dimension = .blocklist

/-- **A migration that is interrupted and run again** gives the tables of an uninterrupted
    one, with the hits that were there before, if the rows are `Resumable`, and, if no list
    is named like a tag, only if they are. -/
theorem initSchema_again_iff (earlier : EarlierMigrations) (file : DatabaseFile) (done : ℕ) :
    (Resumable earlier done file →
      SameStatistics (initSchema earlier (interrupt earlier done file)).db
        (initSchema earlier file).db ∧
      hourlyBlockedHits (initSchema earlier (interrupt earlier done file)).db =
        hourlyBlockedHits (initializeStatistics earlier file).db ∧
      summaryBlockedHits (initSchema earlier (interrupt earlier done file)).db =
        summaryBlockedHits (initializeStatistics earlier file).db) ∧
    (NamesNoTag earlier file →
      SameStatistics (initSchema earlier (interrupt earlier done file)).db
        (initSchema earlier file).db → Resumable earlier done file) := by
  constructor
  · intro hres
    have hsame : SameStatistics (initSchema earlier (interrupt earlier done file)).db
        (initSchema earlier file).db := by
      by_cases hdone : (interrupt earlier done file).databaseMeta.blocklistSourceId
      · -- the second run finds the key
        have hnothing : initSchema earlier (interrupt earlier done file) =
            interrupt earlier done file := by
          rw [initSchema, initializeStatistics_interrupt, migrateStatements, if_pos hdone]
          rfl
        rw [hnothing, interrupt_eq_of_done hdone]
        exact ⟨.refl _, .refl _⟩
      · obtain ⟨hhourly, hsummary⟩ := hres.resolve_left hdone
        exact ⟨hourlyTable.sameRows_of_findsSettled hdone hhourly,
          summaryTable.sameRows_of_findsSettled hdone hsummary⟩
    refine ⟨hsame, hsame.1.total_eq.trans ?_, hsame.2.total_eq.trans ?_⟩
    · exact hourlyTable.total_initSchema (fun _ _ => rfl) (fun _ => rfl) fun _ _ => rfl
    · exact summaryTable.total_initSchema (fun _ _ => rfl) (fun _ => rfl) fun _ _ => rfl
  · intro hnames hsame
    by_cases hdone : (interrupt earlier done file).databaseMeta.blocklistSourceId
    · exact .inl hdone
    · exact .inr ⟨hourlyTable.findsSettled_of_sameRows hnames hdone hsame.1,
        summaryTable.findsSettled_of_sameRows hnames hdone hsame.2⟩

/-! ## An interruption that counts twice -/

/-- Three hits of one list, recorded under its name. -/
def namedHits : DatabaseFile where
  db :=
    { appConfig := some ({ retainingConfig 0 with filters := [{
          id := "1".toList, name := "ads".toList, url := "https://a.example".toList, enabled := true, ruleCount := 0
          blockRuleCount := 0, allowRuleCount := 0, ignoredRuleCount := 0, ignoredCommentCount := 0
          ignoredRegexCount := 0, ignoredUnsupportedCount := 0, ignoredInvalidCount := 0
          lastUpdated := none, lastError := none }] }, 0)
      statisticsHourly := Table.upsert ∅ (· + ·) ⟨1, .blocklist, "ads".toList⟩ { blocked := 3 } }
  databaseMeta := ⟨true, true, true, false⟩

/-- Earlier migrations that find nothing to do. -/
def noEarlier : EarlierMigrations := ⟨id, id, id⟩

/-- Stopped after the first statement, the migration counts the hits twice. -/
theorem initSchema_again_doubles :
    hourlyBlockedHits (initSchema noEarlier (interrupt noEarlier 1 namedHits)).db = 6 ∧
      hourlyBlockedHits (initSchema noEarlier namedHits).db = 3 ∧
      ¬ SameStatistics (initSchema noEarlier (interrupt noEarlier 1 namedHits)).db
        (initSchema noEarlier namedHits).db := by
  have htwice : hourlyBlockedHits (initSchema noEarlier (interrupt noEarlier 1 namedHits)).db = 6 := by
    decide
  have honce : hourlyBlockedHits (initSchema noEarlier namedHits).db = 3 := by decide
  refine ⟨htwice, honce, fun hsame => ?_⟩
  have htotal : hourlyBlockedHits _ = hourlyBlockedHits _ := hsame.1.total_eq
  rw [htwice, honce] at htotal
  cases htotal

end DnsBlackhole.Database
