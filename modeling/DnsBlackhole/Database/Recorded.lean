/-
  The figures of the dashboard, and the entries that were recorded.

  A batch is summed up in rows, the rows are pruned, rebuilt and cleared, and the dashboard sums
  those of its window.

  * `ShowsRecorded.step`: what a call does to the entries that a window shows;
  * **`dashboard_recorded`**: after every run that takes nothing from a window, its totals and its
    domains count the entries that were recorded in it since the last clearing, in whatever
    batches these came.
-/
import DnsBlackhole.Database.Aggregated
import DnsBlackhole.Database.Pruning
import DnsBlackhole.Database.Windows

namespace DnsBlackhole.Database
open Admin (AppConfig)
open Lib

/-! ## Entries of a window -/

/-- The entries for the statistics with their hours, since the statistics were cleared. -/
def DatabaseEvent.recordInto (since : ℕ) (recorded : List (ℕ × QueryPersistenceEntry)) :
    DatabaseEvent → List (ℕ × QueryPersistenceEntry)
  | .insertQueryEvents entries timestamp =>
    if since ≤ timestamp / 3600 then
      recorded ++ (entries.filter (·.persistStatistics)).map fun entry => (timestamp / 3600, entry)
    else recorded
  | .saveConfig _ _ _ | .pruneExpired _ _ _ _ => recorded
  | .clearStatistics => []

def recordedSince (since : ℕ) (events : List DatabaseEvent) : List (ℕ × QueryPersistenceEntry) :=
  events.foldl (DatabaseEvent.recordInto since) []

/-- No column of a batch is saturated, and no row of the window is taken away: the retention
    reaches back to its start, and is permanent for the window of all time. -/
def DatabaseEvent.KeepsWindow (since : ℕ) : DatabaseEvent → Prop
  | .insertQueryEvents entries timestamp => Unsaturated (timestamp / 3600) entries
  | .saveConfig config _ _ => since = 0 → config.statisticsRetentionHours = 0
  | .pruneExpired _ statistics _ now => since ≠ 0 → detailSince statistics now ≤ since
  | .clearStatistics => True

/-- The rows of a dimension and a value. -/
def isFor (dimension : Dimension) (value : Text) (key : HourlyStatKey) : Bool :=
  key.dimension = dimension ∧ key.value = value

/-- What an entry adds to the rows of a dimension and a value. -/
def entrySum (dimension : Dimension) (value : Text) (recorded : ℕ × QueryPersistenceEntry) :
    StatDelta :=
  sumOver (isFor dimension value) (entryDeltas recorded.1 recorded.2)

section
variable {dimension : Dimension} {value : Text} {since : ℕ}

theorem sumOver_congr {p q : HourlyStatKey → Bool} {deltas : List (HourlyStatKey × StatDelta)}
    (h : ∀ delta ∈ deltas, p delta.1 = q delta.1) : sumOver p deltas = sumOver q deltas := by
  rw [sumOver, sumOver, List.filter_congr h]

/-- What a batch adds to the rows of a window. -/
theorem sumWhere_batch {entries : List QueryPersistenceEntry} {timestamp : ℕ}
    {p : HourlyStatKey → Bool} (h : Unsaturated (timestamp / 3600) entries)
    (hp : ∀ key, p key = (isFor dimension value key && decide (since ≤ key.hour))) :
    sumWhere p (aggregateHourlyStats entries timestamp).entries =
      if since ≤ timestamp / 3600 then
        (((entries.filter (·.persistStatistics)).map fun entry => (timestamp / 3600, entry)).map
          (entrySum dimension value)).sum
      else 0 := by
  rw [aggregateHourlyStats_eq h, sumWhere, sum_collect, batchDeltas]
  split_ifs with hsince
  · rw [sumOver_flatMap, List.map_map]
    refine congrArg List.sum (List.map_congr_left fun entry _ => ?_)
    refine sumOver_congr fun delta hdelta => ?_
    rw [hp, (traffic_entryDeltas hdelta).1, decide_eq_true hsince, Bool.and_true]
  · refine sumOver_eq_zero fun delta hdelta => ?_
    obtain ⟨entry, -, hentry⟩ := List.mem_flatMap.1 hdelta
    rw [hp, (traffic_entryDeltas hentry).1, decide_eq_false hsince, Bool.and_false]

/-! ## Runs -/

/-- The figures of a window are the sums of the entries. -/
structure ShowsRecorded (since : ℕ) (recorded : List (ℕ × QueryPersistenceEntry))
    (db : Database) : Prop where
  permanent : since = 0 → db.statisticsRetentionHours = 0
  counts : ∀ dimension value, shownCounts db dimension value since =
    (recorded.map (entrySum dimension value)).sum

variable {recorded : List (ℕ × QueryPersistenceEntry)} {db db' : Database}
  {validate : AppConfig → Except DatabaseError Unit}

theorem shownCounts_batch {entries : List QueryPersistenceEntry} {timestamp : ℕ}
    (hpermanent : since = 0 → db.statisticsRetentionHours = 0)
    (h : Unsaturated (timestamp / 3600) entries)
    (hinsert : insertQueryEvents db entries timestamp = .ok db') :
    shownCounts db' dimension value since = shownCounts db dimension value since +
      if since ≤ timestamp / 3600 then
        (((entries.filter (·.persistStatistics)).map fun entry => (timestamp / 3600, entry)).map
          (entrySum dimension value)).sum
      else 0 := by
  have hadded := insertQueryEvents_eq_ok hinsert
  unfold shownCounts
  by_cases hsince : since = 0
  · rw [if_pos hsince, if_pos hsince, hadded.lifetime (hpermanent hsince), sumWhere_batch h]
    intro key
    rw [hsince, decide_eq_true (Nat.zero_le _), Bool.and_true, isFor]
  · rw [if_neg hsince, if_neg hsince, windowCounts_of_hourlyCounts hadded.hourly,
      sumWhere_batch h]
    intro key
    rw [isFor, ← Bool.decide_and]
    exact decide_eq_decide.2 (by tauto)

theorem shownCounts_congr (hsummary : since = 0 →
      db'.dashboardSummaryStats = db.dashboardSummaryStats)
    (hhourly : since ≠ 0 → hourlyRows db' dimension since = hourlyRows db dimension since) :
    shownCounts db' dimension value since = shownCounts db dimension value since := by
  unfold shownCounts
  split_ifs with hsince
  · rw [lifetimeCounts, lifetimeCounts, hsummary hsince]
  · rw [windowCounts, windowCounts, hourlyRowsOf, hourlyRowsOf, hhourly hsince]

theorem ShowsRecorded.step {event : DatabaseEvent} (h : ShowsRecorded since recorded db)
    (hkeeps : event.KeepsWindow since)
    (hstep : (databaseMachine validate).step db event = some db') :
    ShowsRecorded since (event.recordInto since recorded) db' := by
  cases event with
  | insertQueryEvents entries timestamp =>
    have hinsert := toOption_eq_some.1 hstep
    refine ⟨fun hsince => (insertQueryEvents_eq_ok hinsert).retention.trans (h.permanent hsince),
      fun dimension value => ?_⟩
    rw [shownCounts_batch h.permanent hkeeps hinsert, h.counts, DatabaseEvent.recordInto]
    split_ifs
    · rw [List.map_append, List.sum_append]
    · exact add_zero _
  | saveConfig config updatedAt now =>
    obtain ⟨hretention, hhourly, hsummary⟩ := saveConfig_eq_ok (toOption_eq_some.1 hstep)
    refine ⟨fun hsince => hretention.trans (hkeeps hsince), fun dimension value => ?_⟩
    refine (shownCounts_congr (fun hsince => ?_) fun _ => ?_).trans (h.counts dimension value)
    · rwa [if_neg fun hswitch => hswitch.2 (h.permanent hsince)] at hsummary
    · rw [hourlyRows, hourlyRows, hhourly]
  | pruneExpired queryLog statistics securityEvent now =>
    have hagree := (pruneExpired_keeps (toOption_eq_some.1 hstep)).1
    refine ⟨fun hsince => hagree.retention.symm.trans (h.permanent hsince),
      fun dimension value => ?_⟩
    refine (shownCounts_congr (fun _ => hagree.summary.symm) fun hsince => ?_).trans
      (h.counts dimension value)
    refine (hourlyRows_eq hagree fun key _ hkey => ?_).symm
    have hdetail : detailSince statistics now ≤ key.hour := (hkeeps hsince).trans hkey
    rw [keptSince]
    split_ifs
    · exact decide_eq_true ((min_le_left _ _).trans hdetail)
    · exact decide_eq_true hdetail
  | clearStatistics =>
    cases hstep
    refine ⟨h.permanent, fun dimension value => ?_⟩
    unfold shownCounts
    split_ifs <;> rfl

theorem showsRecorded_run {events : List DatabaseEvent} (h : ShowsRecorded since recorded db)
    (hkeeps : ∀ event ∈ events, event.KeepsWindow since)
    (hrun : (databaseMachine validate).run db events = some db') :
    ShowsRecorded since (events.foldl (DatabaseEvent.recordInto since) recorded) db' := by
  induction events generalizing db recorded with
  | nil =>
    cases hrun
    exact h
  | cons event events ih =>
    obtain ⟨between, hstep, hrest⟩ := (databaseMachine validate).run_cons_eq_some.1 hrun
    exact ih (h.step (hkeeps event List.mem_cons_self) hstep)
      (fun e he => hkeeps e (List.mem_cons_of_mem _ he)) hrest

/-! ## Figures -/

theorem sum_toNat {α : Type} (p : α → Bool) (l : List α) :
    (l.map fun a => (p a).toNat).sum = l.countP p := by
  induction l with
  | nil => rfl
  | cons a l ih =>
    rw [List.map_cons, List.sum_cons, ih, List.countP_cons]
    cases p a with
    | true => exact Nat.add_comm _ _
    | false => exact Nat.zero_add _

theorem entrySum_total (recorded : ℕ × QueryPersistenceEntry) :
    entrySum .total [] recorded = (totalDelta recorded.1 recorded.2).2 := by
  have hrankings : sumOver (isFor .total []) (if recorded.2.trafficOnly then []
      else rankingDeltas recorded.1 recorded.2) = 0 := by
    refine sumOver_eq_zero fun delta hdelta => decide_eq_false fun hkey => ?_
    split_ifs at hdelta
    · cases hdelta
    · exact dimension_ne_total recorded.1 recorded.2 hdelta hkey.1
  have htotal : isFor .total [] (totalDelta recorded.1 recorded.2).1 = true :=
    decide_eq_true ⟨rfl, rfl⟩
  rw [entrySum, entryDeltas, sumOver_cons, if_pos htotal, hrankings, add_zero]

theorem entrySum_domain (domain : Text) (recorded : ℕ × QueryPersistenceEntry) :
    entrySum .domain domain recorded =
      if recorded.2.entry.domain = domain ∧ recorded.2.trafficOnly = false then
        domainDelta recorded.2
      else 0 := by
  obtain ⟨others, source, hothers, hrankings⟩ := rankingDeltas_eq recorded.1 recorded.2
  have hrest : sumOver (isFor .domain domain) (others ++
      if recorded.2.entry.blocked then [(⟨recorded.1, .blocklist, source⟩, { blocked := 1 })]
      else []) = 0 := by
    refine sumOver_eq_zero fun delta hdelta => decide_eq_false fun hkey => ?_
    rcases List.mem_append.1 hdelta with hdelta | hdelta
    · rcases hothers _ hdelta with hdim | hdim <;> cases hdim.symm.trans hkey.1
    · split_ifs at hdelta
      · rw [List.mem_singleton.1 hdelta] at hkey
        cases hkey.1
      · cases hdelta
  have htotal : ¬ isFor .domain domain (totalDelta recorded.1 recorded.2).1 = true := fun h =>
    Dimension.noConfusion (of_decide_eq_true h).1
  rw [entrySum, entryDeltas, sumOver_cons, if_neg htotal, zero_add]
  cases recorded.2.trafficOnly with
  | true => rw [if_pos rfl, if_neg fun h => Bool.noConfusion h.2]; rfl
  | false =>
    rw [if_neg Bool.false_ne_true, hrankings, sumOver_cons, hrest, add_zero]
    refine if_congr ?_ rfl rfl
    simp [isFor]

theorem column_shown {M : Type} [AddMonoid M] (h : ShowsRecorded since recorded db)
    (column : StatDelta → M) (h0 : column 0 = 0)
    (ha : ∀ a b, column (a + b) = column a + column b) {amount : ℕ × QueryPersistenceEntry → M}
    (hamount : ∀ entry, column (entrySum dimension value entry) = amount entry) :
    column (shownCounts db dimension value since) = (recorded.map amount).sum := by
  rw [h.counts, column_sum column h0 ha, List.map_map]
  exact congrArg List.sum (List.map_congr_left fun entry _ => hamount entry)

/-- **The dashboard counts what was recorded**: in every run that takes nothing from a window, its
    totals and its domains are those of the entries recorded in it. -/
theorem dashboard_recorded {events : List DatabaseEvent}
    (hkeeps : ∀ event ∈ events, event.KeepsWindow since)
    (hrun : (databaseMachine validate).run (databaseMachine validate).init events = some db) :
    (∀ totals, totalLogCounts db since = .ok totals →
      totals.queries = (recordedSince since events).countP (fun entry => !entry.2.trafficOnly) ∧
      totals.blocked = (recordedSince since events).countP (fun entry =>
        entry.2.entry.blocked && !entry.2.trafficOnly) ∧
      totals.forwarded = (recordedSince since events).countP (fun entry =>
        entry.2.entry.forwarded && !entry.2.trafficOnly) ∧
      totals.failed = (recordedSince since events).countP (fun entry =>
        entry.2.entry.failed && !entry.2.trafficOnly) ∧
      totals.traffic = ((recordedSince since events).map (·.2.entry.traffic)).sum) ∧
    ∀ rows, selectRows db .domain since (fun delta => (delta.queries, delta.blocked))
        (sumPair (·.queries) (·.blocked)) = .ok rows →
      ∀ row ∈ rows,
        row.2.1 = (recordedSince since events).countP (fun entry =>
          entry.2.entry.domain = row.1 ∧ entry.2.trafficOnly = false) ∧
        row.2.2 = (recordedSince since events).countP (fun entry =>
          entry.2.entry.blocked ∧ entry.2.entry.domain = row.1 ∧ entry.2.trafficOnly = false) := by
  have hnew : ShowsRecorded since [] (databaseMachine validate).init :=
    ⟨fun _ => rfl, fun dimension value => by unfold shownCounts; split_ifs <;> rfl⟩
  have hshows : ShowsRecorded since (recordedSince since events) db :=
    showsRecorded_run hnew hkeeps hrun
  constructor
  · intro totals htotals
    obtain ⟨hqueries, hblocked, hforwarded, hfailed, htraffic⟩ := totals_totalLogCounts htotals
    refine ⟨hqueries.trans ?_, hblocked.trans ?_, hforwarded.trans ?_, hfailed.trans ?_,
      htraffic.trans ?_⟩
    · exact (column_shown hshows (·.queries) rfl (fun _ _ => rfl) fun entry => by
        rw [entrySum_total]; rfl).trans (sum_toNat _ _)
    · exact (column_shown hshows (·.blocked) rfl (fun _ _ => rfl) fun entry => by
        rw [entrySum_total]; rfl).trans (sum_toNat _ _)
    · exact (column_shown hshows (·.forwarded) rfl (fun _ _ => rfl) fun entry => by
        rw [entrySum_total]; rfl).trans (sum_toNat _ _)
    · exact (column_shown hshows (·.failed) rfl (fun _ _ => rfl) fun entry => by
        rw [entrySum_total]; rfl).trans (sum_toNat _ _)
    · exact column_shown hshows (·.traffic) rfl (fun _ _ => rfl) fun entry => by
        rw [entrySum_total]; rfl
  · intro rows hrows row hrow
    have hsums (deltas : List StatDelta) (sum : ℕ × ℕ)
        (h : sumPair (·.queries) (·.blocked) deltas = .ok sum) :
        sum = (deltas.sum.queries, deltas.sum.blocked) := by
      obtain ⟨queries, hqueries, h⟩ := bind_eq_ok.1 h
      obtain ⟨blocked, hblocked, h⟩ := bind_eq_ok.1 h
      cases pure_eq_ok.1 h
      exact Prod.ext (eq_column_sum (·.queries) rfl (fun _ _ => rfl) hqueries)
        (eq_column_sum (·.blocked) rfl (fun _ _ => rfl) hblocked)
    rw [counts_selectRows hsums hrows row hrow]
    constructor
    · refine (column_shown hshows (·.queries) rfl (fun _ _ => rfl) fun entry => ?_).trans
        (sum_toNat _ _)
      rw [entrySum_domain]
      split_ifs with hcounted
      · rw [decide_eq_true hcounted]
        rfl
      · rw [decide_eq_false hcounted]
        rfl
    · refine (column_shown hshows (·.blocked) rfl (fun _ _ => rfl) fun entry => ?_).trans
        (sum_toNat _ _)
      rw [entrySum_domain, Bool.decide_and]
      split_ifs with hcounted
      · rw [decide_eq_true hcounted, Bool.and_true, Bool.decide_eq_true]
        rfl
      · rw [decide_eq_false hcounted, Bool.and_false]
        rfl

end

/-- The query of a day is counted, and it was blocked. -/
theorem retainedDay_recorded : ∃ totals,
    totalLogCounts (retainedDay true) (sampleTime / 3600) = .ok totals ∧ totals.queries = 1 ∧
      totals.blocked = 1 := by
  have hsome : (totalLogCounts (retainedDay true) (sampleTime / 3600)).toOption.isSome = true := by
    decide +kernel
  obtain ⟨totals, htotals⟩ := Option.isSome_iff_exists.1 hsome
  have hkeeps : ∀ event ∈ [DatabaseEvent.saveConfig (retainingConfig 24) sampleTime sampleTime,
      .insertQueryEvents [blockedQuery true] sampleTime],
        event.KeepsWindow (sampleTime / 3600) := by
    refine List.forall_mem_cons.2 ⟨fun hsince => absurd hsince (by decide),
      List.forall_mem_singleton.2 (unsaturated_of_sum ?_)⟩
    constructor
    case traffic => constructor <;> decide
    all_goals decide
  have hrecorded := (dashboard_recorded hkeeps (run_retainedDay true)).1 totals
    (toOption_eq_some.1 htotals)
  exact ⟨totals, toOption_eq_some.1 htotals, hrecorded.1.trans (by decide),
    hrecorded.2.1.trans (by decide)⟩

end DnsBlackhole.Database
