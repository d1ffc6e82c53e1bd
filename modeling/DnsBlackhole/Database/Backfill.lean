/-
  The statistics of versions without hourly rows (`backfill_hourly_statistics_if_empty` of
  `database.rs`).

  Their totals have one row for every local day.  A row becomes the row of the hour in which
  the day was first seen, so that two rows may ask for the same key.

  * `backfill_ok_iff`: the statements succeed if the rows have different keys;
  * `totals_backfill`: then the totals of the hours are those of the days;
  * **`backfillHourlyStatistics_iff`**: all of it happens unless two successive days were
    first seen in the same hour;
  * `not_sharesHour_of_wholeHours`: which needs an offset that is not a number of hours.
-/
import DnsBlackhole.Database.Store
import DnsBlackhole.Lib.Fallible
import DnsBlackhole.Lib.TableCopy

namespace DnsBlackhole.Database
open Lib Lib.Table

/-! ## The statements -/

/-- The statistics of every minute, by their values: `query_log_minute_stats` and its
    kin. -/
structure MinuteTables where
  minuteStats : List (ℕ × Text × StatDelta) := []
  domainStats : List (ℕ × Text × StatDelta) := []
  clientStats : List (ℕ × Text × StatDelta) := []
  blocklistStats : List (ℕ × Text × StatDelta) := []
  upstreamStats : List (ℕ × Text × StatDelta) := []

/-- The total row of a day, at the hour in which it was first seen. -/
def dailyRow (row : Row SummaryKey SummaryColumns) : Row HourlyStatKey StatDelta :=
  ⟨⟨row.2.firstSeenAt / 3600, .total, []⟩,
    { queries := row.2.counts.queries
      blocked := row.2.counts.blocked
      forwarded := row.2.counts.forwarded
      failed := row.2.counts.failed }⟩

def isDaily (key : SummaryKey) : Bool :=
  key.dimension = .total ∧ key.value = [] ∧ key.scope ≠ .all

/-- The row of a value, at the hour in which it was last seen. -/
def lifetimeRow (row : Row SummaryKey SummaryColumns) : Row HourlyStatKey StatDelta :=
  ⟨⟨row.2.lastSeenAt / 3600, row.1.dimension, row.1.value⟩, { row.2.counts with traffic := {} }⟩

def isLifetime (key : SummaryKey) : Bool := key.scope = .all ∧ key.dimension ≠ .total

/-- The sums of the columns of a group. -/
def minuteColumns (deltas : List StatDelta) : Except SqlError StatDelta := do
  let queries ← sqlSum (deltas.map (·.queries))
  let blocked ← sqlSum (deltas.map (·.blocked))
  let forwarded ← sqlSum (deltas.map (·.forwarded))
  let failed ← sqlSum (deltas.map (·.failed))
  let requests ← sqlSum (deltas.map (·.requests))
  let latencyTotalMs ← sqlSum (deltas.map (·.latencyTotalMs))
  let latencySamples ← sqlSum (deltas.map (·.latencySamples))
  return { queries, blocked, forwarded, failed, requests, latencyTotalMs, latencySamples }

/-- `INSERT INTO statistics_hourly .. SELECT .. GROUP BY minute / 60, value`. -/
def insertMinutes (dimension : Dimension) (rows : List (ℕ × Text × StatDelta))
    (hourly : Table HourlyStatKey StatDelta) : Except SqlError (Table HourlyStatKey StatDelta) := do
  let groups := groupBy (fun row => (⟨row.1 / 60, dimension, row.2.1⟩ : HourlyStatKey)) rows
  let rows ← groups.mapM fun group => do
    let columns ← minuteColumns (group.2.map (·.2.2))
    return (⟨group.1, columns⟩ : Row HourlyStatKey StatDelta)
  insertAll .uniqueConstraint hourly rows

def dailyRows (summary : Table SummaryKey SummaryColumns) : List (Row HourlyStatKey StatDelta) :=
  (summary.entries.filter fun row => isDaily row.1).map dailyRow

def migratedRows (summary : Table SummaryKey SummaryColumns) : List (Row HourlyStatKey StatDelta) :=
  (summary.entries.filter fun row => isLifetime row.1).map lifetimeRow

/-- The statements of the migration, by the tables that have rows. -/
def migratedHourly (minutes : MinuteTables) (db : Database) :
    Except DatabaseError (Table HourlyStatKey StatDelta) :=
  if db.dashboardSummaryStats.entries ≠ [] then
    Except.mapError (.sql "迁移旧仪表盘统计".toList) do
      let hourly ← insertAll .uniqueConstraint db.statisticsHourly
        (dailyRows db.dashboardSummaryStats)
      insertAll .uniqueConstraint hourly (migratedRows db.dashboardSummaryStats)
  else if minutes.minuteStats ≠ [] then
    Except.mapError (.sql "迁移旧分钟统计".toList) do
      let hourly ← insertMinutes .total minutes.minuteStats db.statisticsHourly
      let hourly ← insertMinutes .domain minutes.domainStats hourly
      let hourly ← insertMinutes .client minutes.clientStats hourly
      let hourly ← insertMinutes .blocklist minutes.blocklistStats hourly
      insertMinutes .upstream minutes.upstreamStats hourly
  else .ok db.statisticsHourly

/-- `backfill_hourly_statistics_if_empty`, in one transaction. -/
def backfillHourlyStatistics (minutes : MinuteTables) (db : Database) :
    Except DatabaseError Database :=
  if db.statisticsHourly.entries ≠ [] then .ok db
  else do
    let statisticsHourly ← migratedHourly minutes db
    return { db with statisticsHourly }

/-! ## What older versions have written -/

/-- The local day of a time, in days since 1970, at a fixed offset from UTC. -/
def localDay (offset : ℤ) (time : ℕ) : ℤ := (time + offset) / 86400

/-- The days have a total row each, first seen on that day; every other row is of the scope
    `all`. -/
structure LegacySummary (dateOf : ℤ → Text) (offset : ℤ) (summary : Table SummaryKey SummaryColumns) :
    Prop where
  ne_nil : summary.entries ≠ []
  keys : ∀ row ∈ summary.entries, row.1.scope ≠ .all →
    row.1 = ⟨.day (dateOf (localDay offset row.2.firstSeenAt)), .total, []⟩

/-- Two successive days were first seen in the same hour of UTC. -/
def SharesHour (offset : ℤ) (summary : Table SummaryKey SummaryColumns) : Prop :=
  ∃ row ∈ summary.entries, ∃ next ∈ summary.entries, isDaily row.1 ∧ isDaily next.1 ∧
    localDay offset next.2.firstSeenAt = localDay offset row.2.firstSeenAt + 1 ∧
    next.2.firstSeenAt / 3600 = row.2.firstSeenAt / 3600

/-- The columns whose totals are kept. -/
def totalColumns : List (StatDelta → ℕ) := [(·.queries), (·.blocked), (·.forwarded), (·.failed)]

/-- The migration succeeds, and the hours have the totals of the days. -/
def Migrates (minutes : MinuteTables) (db : Database) : Prop :=
  ∃ db', backfillHourlyStatistics minutes db = .ok db' ∧ ∀ column ∈ totalColumns,
    (db'.statisticsHourly.total column fun key => key.dimension = .total) =
      db.dashboardSummaryStats.total (column ·.counts) isDaily

/-! ## The keys of the rows -/

section
variable {summary : Table SummaryKey SummaryColumns}

theorem eq_of_key_eq {row row' : Row SummaryKey SummaryColumns} (h : row ∈ summary.entries)
    (h' : row' ∈ summary.entries) (hkey : row.1 = row'.1) : row = row' := by
  obtain ⟨key, columns⟩ := row
  obtain ⟨key', columns'⟩ := row'
  obtain rfl : key = key' := hkey
  have hlookup := (mem_entries_iff _).1 h
  rw [(mem_entries_iff _).1 h'] at hlookup
  cases hlookup
  rfl

theorem nodup_migratedRows : ((migratedRows summary).map (·.1)).Nodup := by
  rw [migratedRows, List.map_map]
  refine List.Nodup.map_on ?_ (summary.nodupKeys.nodup.filter _)
  intro row hrow next hnext hkey
  obtain ⟨hrow, hlife⟩ := List.mem_filter.1 hrow
  obtain ⟨hnext, hlife'⟩ := List.mem_filter.1 hnext
  have hscope : row.1.scope = .all := (of_decide_eq_true hlife).1
  have hscope' : next.1.scope = .all := (of_decide_eq_true hlife').1
  injection hkey with _ hdimension hvalue
  refine eq_of_key_eq hrow hnext ?_
  obtain ⟨⟨scope, dimension, value⟩, columns⟩ := row
  obtain ⟨⟨scope', dimension', value'⟩, columns'⟩ := next
  cases hscope
  cases hscope'
  cases hdimension
  cases hvalue
  rfl

theorem dimension_of_mem_dailyRows {row : Row HourlyStatKey StatDelta}
    (h : row ∈ dailyRows summary) : row.1.dimension = .total := by
  obtain ⟨row, -, rfl⟩ := List.mem_map.1 h
  rfl

theorem dimension_of_mem_migratedRows {row : Row HourlyStatKey StatDelta}
    (h : row ∈ migratedRows summary) : row.1.dimension ≠ .total := by
  obtain ⟨row, hrow, rfl⟩ := List.mem_map.1 h
  exact (of_decide_eq_true (List.mem_filter.1 hrow).2).2

theorem localDay_of_same_hour (offset : ℤ) {time time' : ℕ} (h : time / 3600 = time' / 3600) :
    localDay offset time' = localDay offset time ∨
      localDay offset time' = localDay offset time + 1 ∨
      localDay offset time = localDay offset time' + 1 := by
  simp only [localDay]
  omega

/-- **The rows of the days have different keys** unless two of them share an hour. -/
theorem nodup_dailyRows_iff {dateOf : ℤ → Text} {offset : ℤ}
    (hlegacy : LegacySummary dateOf offset summary) :
    ((dailyRows summary).map (·.1)).Nodup ↔ ¬ SharesHour offset summary := by
  rw [dailyRows, List.map_map]
  constructor
  · rintro hnodup ⟨row, hrow, next, hnext, hdaily, hdaily', hday, hhour⟩
    have hsame := List.inj_on_of_nodup_map hnodup (List.mem_filter.2 ⟨hrow, hdaily⟩)
      (List.mem_filter.2 ⟨hnext, hdaily'⟩) (by
        change (dailyRow row).1 = (dailyRow next).1
        simp only [dailyRow, hhour])
    rw [hsame] at hday
    omega
  · intro hshares
    refine List.Nodup.map_on ?_ (summary.nodupKeys.nodup.filter _)
    intro row hrow next hnext hkey
    obtain ⟨hrow, hdaily⟩ := List.mem_filter.1 hrow
    obtain ⟨hnext, hdaily'⟩ := List.mem_filter.1 hnext
    injection hkey with hhour _ _
    rcases localDay_of_same_hour offset hhour with hday | hday | hday
    · refine eq_of_key_eq hrow hnext ?_
      rw [hlegacy.keys row hrow (of_decide_eq_true hdaily).2.2,
        hlegacy.keys next hnext (of_decide_eq_true hdaily').2.2, hday]
    · exact absurd ⟨row, hrow, next, hnext, hdaily, hdaily', hday, hhour.symm⟩ hshares
    · exact absurd ⟨next, hnext, row, hrow, hdaily', hdaily, hday, hhour⟩ hshares

theorem not_sharesHour_of_wholeHours {offset : ℤ} (h : offset % 3600 = 0) :
    ¬ SharesHour offset summary := by
  rintro ⟨row, -, next, -, -, -, hday, hhour⟩
  simp only [localDay] at hday
  omega

end

/-! ## The migration -/

section
variable {minutes : MinuteTables} {db db' : Database}

theorem backfill_eq_ok (hempty : db.statisticsHourly.entries = [])
    (hsummary : db.dashboardSummaryStats.entries ≠ []) :
    backfillHourlyStatistics minutes db = .ok db' ↔ ∃ daily hourly,
      insertAll SqlError.uniqueConstraint db.statisticsHourly
        (dailyRows db.dashboardSummaryStats) = .ok daily ∧
      insertAll SqlError.uniqueConstraint daily
        (migratedRows db.dashboardSummaryStats) = .ok hourly ∧
      { db with statisticsHourly := hourly } = db' := by
  rw [backfillHourlyStatistics, if_neg (not_not.2 hempty), bind_eq_ok]
  simp only [migratedHourly, if_pos hsummary, mapError_eq_ok, bind_eq_ok, pure_eq_ok]
  constructor
  · rintro ⟨hourly, ⟨daily, hdaily, hlifetime⟩, hdb⟩
    exact ⟨daily, hourly, hdaily, hlifetime, hdb⟩
  · rintro ⟨daily, hourly, hdaily, hlifetime, hdb⟩
    exact ⟨hourly, ⟨daily, hdaily, hlifetime⟩, hdb⟩

/-- The statements succeed if the rows of the days have different keys: those of the values
    always do. -/
theorem backfill_ok_iff (minutes : MinuteTables) (hempty : db.statisticsHourly.entries = [])
    (hsummary : db.dashboardSummaryStats.entries ≠ []) :
    (∃ db', backfillHourlyStatistics minutes db = .ok db') ↔
      ((dailyRows db.dashboardSummaryStats).map (·.1)).Nodup := by
  have hnone : ∀ key, key ∉ db.statisticsHourly := fun key hkey => by
    rw [AList.mem_keys, AList.keys, hempty] at hkey
    cases hkey
  simp only [backfill_eq_ok hempty hsummary]
  constructor
  · rintro ⟨db', daily, hourly, hdaily, -, -⟩
    exact (insertAll_ok_iff.1 ⟨daily, hdaily⟩).1
  · intro hnodup
    obtain ⟨daily, hdaily⟩ := insertAll_ok_iff.2 ⟨hnodup, fun row _ => hnone row.1⟩
    have hdisjoint : ∀ row ∈ migratedRows db.dashboardSummaryStats, row.1 ∉ daily := by
      intro row hrow hmem
      rcases (mem_insertAll hdaily).1 hmem with hmem | ⟨first, hfirst, hkey⟩
      · exact hnone _ hmem
      · refine dimension_of_mem_migratedRows hrow ?_
        rw [← hkey, dimension_of_mem_dailyRows hfirst]
    obtain ⟨hourly, hlifetime⟩ := insertAll_ok_iff.2 ⟨nodup_migratedRows, hdisjoint⟩
    exact ⟨_, daily, hourly, hdaily, hlifetime, rfl⟩

theorem totals_backfill (hempty : db.statisticsHourly.entries = [])
    (hsummary : db.dashboardSummaryStats.entries ≠ [])
    (h : backfillHourlyStatistics minutes db = .ok db') {column : StatDelta → ℕ}
    (hcolumn : column ∈ totalColumns) :
    (db'.statisticsHourly.total column fun key => key.dimension = .total) =
      db.dashboardSummaryStats.total (column ·.counts) isDaily := by
  obtain ⟨daily, hourly, hdaily, hlifetime, rfl⟩ := (backfill_eq_ok hempty hsummary).1 h
  have hnone : db.statisticsHourly.total column (fun key => key.dimension = .total) = 0 := by
    rw [total, hempty]
    rfl
  have hfirst : (dailyRows db.dashboardSummaryStats).filter
      (fun row => decide (row.1.dimension = .total)) = dailyRows db.dashboardSummaryStats :=
    List.filter_eq_self.2 fun row hrow => decide_eq_true (dimension_of_mem_dailyRows hrow)
  have hlast : (migratedRows db.dashboardSummaryStats).filter
      (fun row => decide (row.1.dimension = .total)) = [] :=
    List.filter_eq_nil_iff.2 fun row hrow h =>
      dimension_of_mem_migratedRows hrow (of_decide_eq_true h)
  dsimp only
  rw [total_insertAll hlifetime, total_insertAll hdaily, hnone, hfirst, hlast, List.map_nil,
    List.sum_nil, add_zero, zero_add, dailyRows, List.map_map, total]
  refine congrArg List.sum (List.map_congr_left fun row _ => ?_)
  simp only [totalColumns, List.mem_cons, List.not_mem_nil, or_false] at hcolumn
  rcases hcolumn with rfl | rfl | rfl | rfl <;> rfl

end

/-- **The migration of the legacy statistics** succeeds and keeps the totals unless two
    successive days were first seen in the same hour of UTC. -/
theorem backfillHourlyStatistics_iff (minutes : MinuteTables) (db : Database)
    (dateOf : ℤ → Text) (offset : ℤ)
    (hlegacy : LegacySummary dateOf offset db.dashboardSummaryStats)
    (hempty : db.statisticsHourly.entries = []) :
    Migrates minutes db ↔ ¬ SharesHour offset db.dashboardSummaryStats := by
  rw [← nodup_dailyRows_iff hlegacy, ← backfill_ok_iff minutes hempty hlegacy.ne_nil]
  constructor
  · rintro ⟨db', h, -⟩
    exact ⟨db', h⟩
  · rintro ⟨db', h⟩
    exact ⟨db', h, fun column => totals_backfill hempty hlegacy.ne_nil h⟩

/-- Dates, as far as the samples below go. -/
def sampleDate (day : ℤ) : Text :=
  if day = 20000 then "2024-10-04".toList else "2024-10-03".toList

/-- Two days with the midnight at 18:30 UTC between them, the later one first seen a minute
    behind it. -/
def sampleDays (first : ℕ) : Database where
  dashboardSummaryStats :=
    (AList.insert ⟨.day (sampleDate 19999), .total, []⟩
      { counts := { queries := 2 }, firstSeenAt := first, lastSeenAt := first }
      (AList.insert ⟨.day (sampleDate 20000), .total, []⟩
        { counts := { queries := 3 }, firstSeenAt := 1727980260, lastSeenAt := 1727980260 } ∅) :
      Table SummaryKey SummaryColumns)

theorem backfillHourlyStatistics_iff_sample :
    LegacySummary sampleDate 19800 (sampleDays 1727940000).dashboardSummaryStats ∧
      (Migrates {} (sampleDays 1727940000) ↔
        ¬ SharesHour 19800 (sampleDays 1727940000).dashboardSummaryStats) := by
  have hlegacy : LegacySummary sampleDate 19800 (sampleDays 1727940000).dashboardSummaryStats :=
    ⟨by decide, by decide⟩
  exact ⟨hlegacy, backfillHourlyStatistics_iff {} _ sampleDate 19800 hlegacy rfl⟩

/-- At half an hour of offset, a day that was first seen in the twenty minutes before midnight
    shares an hour with the next one, and the database does not open. -/
theorem sharedHour_not_migrated :
    ¬ ∀ (minutes : MinuteTables) (db : Database) (dateOf : ℤ → Text) (offset : ℤ),
      LegacySummary dateOf offset db.dashboardSummaryStats →
        db.statisticsHourly.entries = [] → Migrates minutes db := by
  intro h
  obtain ⟨db', hdb, -⟩ := h {} (sampleDays 1727979000) sampleDate 19800
    ⟨by decide, by decide⟩ rfl
  have herror : (backfillHourlyStatistics {} (sampleDays 1727979000)).toOption = none := rfl
  rw [hdb] at herror
  cases herror

end DnsBlackhole.Database
