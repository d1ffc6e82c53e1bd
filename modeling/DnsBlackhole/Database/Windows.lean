/-
  The windows of the statistics (`resolve_statistics_hours` and what
  `log_stats` shows of a window).

  A window of some hours adds up hourly rows, and the window of all time, which
  is asked for with 0 hours, shows the permanent rows.

  * `AtMost`: no figure that adds up is larger;
  * `windowsMonotone_iff`: no window shows more than a longer one, and every
    window shows its last hour, if and only if the permanent rows cover the
    longest of the windows (`Covers`);
  * `covers_maintained`: they do after every run in which nothing is recorded
    while the retention is finite, and in which it becomes permanent only when
    the hourly rows that are left lie in its window and carry no traffic.
-/
import Mathlib.Algebra.BigOperators.Group.Finset.Piecewise
import DnsBlackhole.Database.Retention

namespace DnsBlackhole.Database
open Admin (AppConfig)
open Lib

/-! ## Requests -/

/-- `resolve_statistics_hours` -/
def resolveStatisticsHours (requested : Option UInt32) (configured : UInt32) : UInt32 :=
  match requested with
  | none => configured
  | some hours =>
    if hours = 0 then 0
    else if configured > 0 then min hours configured
    else min hours (.ofNat maxStatisticsRetentionHours)

/-- The hours of the longest window of finite length. -/
def longestHours (configured : UInt32) : ℕ :=
  if configured = 0 then maxStatisticsRetentionHours else configured.toNat

section
variable {hours configured : UInt32}

theorem toNat_min (a b : UInt32) : (min a b).toNat = min a.toNat b.toNat := by
  show (if a ≤ b then a else b).toNat = _
  rw [min_def, apply_ite UInt32.toNat]
  exact if_congr UInt32.le_iff_toNat_le rfl rfl

theorem toNat_ne_zero (h : hours ≠ 0) : hours.toNat ≠ 0 := fun h0 =>
  h (UInt32.toNat_inj.1 h0)

theorem toNat_resolveStatisticsHours (h : hours ≠ 0) :
    (resolveStatisticsHours (some hours) configured).toNat =
      min hours.toNat (longestHours configured) := by
  unfold resolveStatisticsHours longestHours
  dsimp only
  rw [if_neg h]
  by_cases hc : configured = 0
  · rw [if_neg fun hlt => absurd (hc ▸ hlt) (by decide), if_pos hc, toNat_min]
    rfl
  · rw [if_pos (UInt32.pos_iff_ne_zero.2 hc), if_neg hc, toNat_min]

theorem longestHours_pos : 0 < longestHours configured := by
  unfold longestHours
  split_ifs with hc
  · decide
  · exact Nat.pos_of_ne_zero (toNat_ne_zero hc)

variable (now : ℕ)

theorem sinceHourOf_resolve (h : hours ≠ 0) :
    sinceHourOf now (resolveStatisticsHours (some hours) configured) =
      now / 3600 - min hours.toNat (longestHours configured) := by
  have hlen : (resolveStatisticsHours (some hours) configured).toNat =
      min hours.toNat (longestHours configured) := toNat_resolveStatisticsHours h
  have hne : resolveStatisticsHours (some hours) configured ≠ 0 := by
    intro h0
    rw [h0] at hlen
    have hpos := Nat.pos_of_ne_zero (toNat_ne_zero h)
    have hlongest := @longestHours_pos configured
    have hzero : (0 : UInt32).toNat = 0 := rfl
    omega
  rw [sinceHourOf, if_neg hne, hlen, div_sub_hours]

end

/-! ## Figures that add up -/

/-- No column of `a` is larger than that of `b`, and no sum of columns. -/
def AtMost (a b : StatDelta) : Prop := ∀ column : StatDelta →+ ℕ, column a ≤ column b

theorem AtMost.refl (a : StatDelta) : AtMost a a := fun _ => le_rfl

theorem AtMost.trans {a b c : StatDelta} (hab : AtMost a b) (hbc : AtMost b c) : AtMost a c :=
  fun column => (hab column).trans (hbc column)

theorem AtMost.add {a b c d : StatDelta} (hab : AtMost a b) (hcd : AtMost c d) :
    AtMost (a + c) (b + d) := by
  intro column
  rw [map_add, map_add]
  exact Nat.add_le_add (hab column) (hcd column)

theorem atMost_add (a b : StatDelta) : AtMost a (b + a) := by
  intro column
  rw [map_add]
  exact Nat.le_add_left ..

theorem zero_atMost (a : StatDelta) : AtMost 0 a := by
  intro column
  rw [map_zero]
  exact Nat.zero_le _

section
variable {p q : HourlyStatKey → Bool} {rows : List (Row HourlyStatKey StatDelta)}

theorem atMost_sumWhere (h : ∀ key, p key → q key) :
    AtMost (sumWhere p rows) (sumWhere q rows) := by
  induction rows with
  | nil => exact .refl _
  | cons row rows ih =>
    rw [sumWhere_cons, sumWhere_cons]
    refine AtMost.add ?_ ih
    by_cases hp : p row.1
    · rw [if_pos hp, if_pos (h _ hp)]
      exact .refl _
    · rw [if_neg hp]
      exact zero_atMost _

theorem sumWhere_eq_sum {keys : Finset HourlyStatKey} (h : ∀ row ∈ rows, row.1 ∈ keys) :
    sumWhere p rows =
      ∑ key ∈ keys, if p key then sumWhere (fun key' => key = key') rows else 0 := by
  induction rows with
  | nil =>
    refine (Finset.sum_eq_zero fun key _ => ?_).symm
    exact ite_self _
  | cons row rows ih =>
    have hrow : ∀ key, (if p key then sumWhere (fun key' => key = key') (row :: rows) else 0) =
        (if key = row.1 then if p row.1 then row.2 else 0 else 0) +
          if p key then sumWhere (fun key' => key = key') rows else 0 := by
      intro key
      rw [sumWhere_cons]
      by_cases hkey : key = row.1
      · by_cases hp : p row.1 <;> simp [hkey, hp]
      · by_cases hp : p key <;> simp [hkey, hp]
    rw [sumWhere_cons, ih fun other hother => h other (List.mem_cons_of_mem _ hother)]
    rw [Finset.sum_congr rfl fun key _ => hrow key, Finset.sum_add_distrib]
    rw [Finset.sum_ite_eq' keys row.1 fun _ => if p row.1 then row.2 else 0]
    rw [if_pos (h row List.mem_cons_self)]

theorem sumWhere_key (t : Table HourlyStatKey StatDelta) (key : HourlyStatKey) :
    sumWhere (fun key' => key = key') t.entries = t.amount id key := by
  have hlist : ∀ rows : List (Row HourlyStatKey StatDelta), rows.NodupKeys →
      sumWhere (fun key' => key = key') rows = ((rows.dlookup key).map id).getD 0 := by
    intro rows
    induction rows with
    | nil => exact fun _ => rfl
    | cons row rows ih =>
      obtain ⟨key', delta⟩ := row
      intro hn
      obtain ⟨hnew, hn⟩ := List.nodupKeys_cons.1 hn
      rw [sumWhere_cons, ih hn]
      by_cases hkey : key = key'
      · subst hkey
        rw [if_pos (decide_eq_true rfl), List.dlookup_cons_eq, List.dlookup_eq_none.2 hnew]
        exact add_zero _
      · rw [if_neg (by simpa using hkey), List.dlookup_cons_ne _ _ hkey]
        exact zero_add _
  exact hlist t.entries t.nodupKeys

end

/-! ## Windows -/

/-- What `log_stats` reads of a dimension and a value: the permanent row if `since` is 0, and
    the sum of the hourly rows otherwise. -/
def shownCounts (db : Database) (dimension : Dimension) (value : Text) (since : ℕ) : StatDelta :=
  if since = 0 then lifetimeCounts db dimension value else windowCounts db dimension value since

section
variable {db : Database} {since : ℕ}

/-- **The totals** are those of the one row that has no value. -/
theorem totals_totalLogCounts {totals : DashboardTotals}
    (h : totalLogCounts db since = .ok totals) :
    totals.queries = (shownCounts db .total [] since).queries ∧
    totals.blocked = (shownCounts db .total [] since).blocked ∧
    totals.forwarded = (shownCounts db .total [] since).forwarded ∧
    totals.failed = (shownCounts db .total [] since).failed ∧
    totals.traffic = (shownCounts db .total [] since).traffic := by
  unfold shownCounts
  split_ifs with hsince
  · subst hsince
    unfold totalLogCounts runQuery at h
    rw [if_pos rfl, if_pos rfl] at h
    replace h := mapError_eq_ok.1 h
    unfold lifetimeCounts
    cases hrow : db.dashboardSummaryStats.lookup ⟨.all, .total, []⟩ with
    | none =>
      rw [hrow] at h
      cases h
      rw [Table.amount, hrow]
      exact ⟨rfl, rfl, rfl, rfl, rfl⟩
    | some row =>
      rw [hrow] at h
      rw [Table.amount_of_lookup hrow]
      refine ⟨?_, ?_, ?_, ?_, traffic_readDashboardTotals h⟩
      all_goals
        simp only [readDashboardTotals, bind_eq_ok, pure_eq_ok] at h
        obtain ⟨_, h1, _, h2, _, h3, _, h4, _, -, _, -, _, -, _, -, _, -, _, -, _, -, rfl⟩ := h
      · exact eq_of_readU64 h1
      · exact eq_of_readU64 h2
      · exact eq_of_readU64 h3
      · exact eq_of_readU64 h4
  · refine ⟨?_, ?_, ?_, ?_, traffic_totalLogCounts hsince h⟩
    all_goals
      unfold totalLogCounts runQuery at h
      rw [if_neg hsince, if_neg hsince] at h
      simp only [totalSums, readDashboardTotals, mapError_eq_ok, bind_eq_ok, pure_eq_ok,
        filter_hourlyRows_total] at h
      obtain ⟨_, -, _, ⟨_, s1, _, s2, _, s3, _, s4, _, -, _, -, _, -, _, -, _, -, rfl⟩,
        _, h1, _, h2, _, h3, _, h4, _, -, _, -, _, -, _, -, _, -, _, -, _, -, rfl⟩ := h
    · exact (eq_of_readU64 h1).trans (eq_column_sum (·.queries) rfl (fun _ _ => rfl) s1)
    · exact (eq_of_readU64 h2).trans (eq_column_sum (·.blocked) rfl (fun _ _ => rfl) s2)
    · exact (eq_of_readU64 h3).trans (eq_column_sum (·.forwarded) rfl (fun _ _ => rfl) s3)
    · exact (eq_of_readU64 h4).trans (eq_column_sum (·.failed) rfl (fun _ _ => rfl) s4)

/-- **The rows of a ranking** have the columns of their value. -/
theorem counts_selectRows {γ : Type} {dimension : Dimension} {columns : StatDelta → γ}
    {sums : List StatDelta → Except SqlError γ} {rows : List (Text × γ)}
    (hsums : ∀ deltas sum, sums deltas = .ok sum → sum = columns deltas.sum)
    (h : selectRows db dimension since columns sums = .ok rows) :
    ∀ row ∈ rows, row.2 = columns (shownCounts db dimension row.1 since) := by
  intro row hrow
  unfold selectRows at h
  unfold shownCounts
  split_ifs with hsince
  · rw [if_pos hsince] at h
    cases h
    obtain ⟨⟨value, counts⟩, hmem, rfl⟩ := List.mem_map.1 hrow
    obtain ⟨columns, hlookup, rfl⟩ := mem_lifetimeRows.1 hmem
    rw [lifetimeCounts, Table.amount_of_lookup hlookup]
  · rw [if_neg hsince] at h
    obtain ⟨⟨value, deltas⟩, hmem, hgroup⟩ := exists_of_mem_mapM h hrow
    obtain ⟨-, rfl⟩ := mem_hourlyGroups.1 hmem
    cases hsum : sums (List.map (·.2) (hourlyRowsOf db dimension value since)) with
    | error e =>
      rw [hsum] at hgroup
      cases hgroup
    | ok sum =>
      rw [hsum] at hgroup
      cases hgroup
      exact hsums _ _ hsum

end

/-- What is shown of a requested window. -/
def requestedCounts (db : Database) (configured : UInt32) (now : ℕ) (hours : UInt32)
    (dimension : Dimension) (value : Text) : StatDelta :=
  shownCounts db dimension value
    (sinceHourOf now (resolveStatisticsHours (some hours) configured))

/-- `shorter ≤ longer`, where 0 hours stand for all time. -/
def NoLonger (shorter longer : UInt32) : Prop :=
  longer = 0 ∨ (shorter ≠ 0 ∧ shorter ≤ longer)

/-- No window shows more than a longer one. -/
def WindowsMonotone (db : Database) (configured : UInt32) (now : ℕ) : Prop :=
  ∀ shorter longer, NoLonger shorter longer → ∀ dimension value,
    AtMost (requestedCounts db configured now shorter dimension value)
      (requestedCounts db configured now longer dimension value)

/-- Every window shows what was recorded in the last hour, which lies in this hour and the one
    before. -/
def ShowsLastHour (db : Database) (configured : UInt32) (now : ℕ) : Prop :=
  ∀ hours dimension value, AtMost (windowCounts db dimension value (now / 3600 - 1))
    (requestedCounts db configured now hours dimension value)

/-- The permanent rows cover the hourly rows since an hour. -/
def Covers (db : Database) (since : ℕ) : Prop :=
  ∀ dimension value,
    AtMost (windowCounts db dimension value since) (lifetimeCounts db dimension value)

/-- The first hour of the longest window that adds up hourly rows. -/
def longestWindowSince (configured : UInt32) (now : ℕ) : ℕ :=
  min (max 1 (now / 3600 - longestHours configured)) (now / 3600 - 1)

section
variable {db : Database} {dimension : Dimension} {value : Text} {since since' : ℕ}

theorem windowCounts_eq (db : Database) (dimension : Dimension) (value : Text) (since : ℕ) :
    windowCounts db dimension value since = sumWhere (fun key =>
      key.value = value ∧ key.dimension = dimension ∧ since ≤ key.hour)
        db.statisticsHourly.entries := by
  unfold windowCounts hourlyRowsOf hourlyRows sumWhere
  rw [List.filter_filter]
  simp only [Bool.decide_and]

theorem windowCounts_antitone (h : since ≤ since') :
    AtMost (windowCounts db dimension value since') (windowCounts db dimension value since) := by
  rw [windowCounts_eq, windowCounts_eq]
  refine atMost_sumWhere fun key hkey => ?_
  obtain ⟨hvalue, hdimension, hhour⟩ := of_decide_eq_true hkey
  exact decide_eq_true ⟨hvalue, hdimension, h.trans hhour⟩

theorem Covers.anti (h : since ≤ since') (hcovers : Covers db since) : Covers db since' :=
  fun dimension value => (windowCounts_antitone h).trans (hcovers dimension value)

end

section
variable {db : Database} {configured hours : UInt32} {now : ℕ} {dimension : Dimension}
  {value : Text}

theorem requestedCounts_of_ne (h : hours ≠ 0) :
    requestedCounts db configured now hours dimension value =
      shownCounts db dimension value (now / 3600 - min hours.toNat (longestHours configured)) := by
  rw [requestedCounts, sinceHourOf_resolve now h]

/-- A window that covers everything since `longestWindowSince` shows at most the permanent rows. -/
theorem requestedCounts_atMost (hcovers : Covers db (longestWindowSince configured now)) :
    AtMost (requestedCounts db configured now hours dimension value)
      (lifetimeCounts db dimension value) := by
  by_cases h : hours = 0
  · rw [h]
    exact .refl _
  rw [requestedCounts_of_ne h, shownCounts]
  split_ifs with hsince
  · exact .refl _
  · refine hcovers.anti ?_ dimension value
    have hpos := Nat.pos_of_ne_zero (toNat_ne_zero h)
    have hlongest := @longestHours_pos configured
    unfold longestWindowSince
    omega

/-- **Windows are monotone and show their last hour if the permanent rows cover the longest
    of them.** -/
theorem windowsMonotone_of_covers (hcovers : Covers db (longestWindowSince configured now)) :
    WindowsMonotone db configured now ∧ ShowsLastHour db configured now := by
  constructor
  · intro shorter longer hle dimension value
    rcases hle with rfl | ⟨hshorter, hle⟩
    · exact requestedCounts_atMost hcovers
    have hlonger : longer ≠ 0 := by
      rintro rfl
      exact hshorter (UInt32.le_zero_iff.1 hle)
    rw [requestedCounts_of_ne hlonger, shownCounts]
    split_ifs with hsince
    · exact requestedCounts_atMost hcovers
    · have hle := UInt32.le_iff_toNat_le.1 hle
      rw [requestedCounts_of_ne hshorter, shownCounts, if_neg (by omega)]
      exact windowCounts_antitone (by omega)
  · intro hours dimension value
    have hlast : AtMost (windowCounts db dimension value (now / 3600 - 1))
        (lifetimeCounts db dimension value) :=
      hcovers.anti (min_le_right _ _) dimension value
    by_cases h : hours = 0
    · rw [h]
      exact hlast
    rw [requestedCounts_of_ne h, shownCounts]
    split_ifs with hsince
    · exact hlast
    · have hpos := Nat.pos_of_ne_zero (toNat_ne_zero h)
      have hlongest := @longestHours_pos configured
      exact windowCounts_antitone (by omega)

theorem longestHours_lt : longestHours configured < 2 ^ 32 := by
  unfold longestHours
  split_ifs
  · decide
  · exact configured.toNat_lt

/-- **The longest window compared with all time.** -/
theorem covers_of_windowsMonotone (hmono : WindowsMonotone db configured now)
    (hlast : ShowsLastHour db configured now) : Covers db (longestWindowSince configured now) := by
  intro dimension value
  by_cases hnow : now / 3600 ≤ 1
  · -- every window starts with the first hour of all
    have hsince : longestWindowSince configured now = now / 3600 - 1 := by
      unfold longestWindowSince
      omega
    rw [hsince]
    exact hlast 0 dimension value
  · have hlongest := @longestHours_pos configured
    have hlt := @longestHours_lt configured
    let hours : UInt32 := .ofNat (min (longestHours configured) (now / 3600 - 1))
    have htoNat : hours.toNat = min (longestHours configured) (now / 3600 - 1) :=
      UInt32.toNat_ofNat_of_lt (lt_of_le_of_lt (min_le_left _ _) hlt)
    have hne : hours ≠ 0 := by
      intro h0
      have hzero : hours.toNat = 0 := congrArg UInt32.toNat h0
      omega
    have hall := hmono hours 0 (.inl rfl) dimension value
    rw [requestedCounts_of_ne hne, shownCounts, if_neg (by omega)] at hall
    have hsince : longestWindowSince configured now =
        now / 3600 - min hours.toNat (longestHours configured) := by
      unfold longestWindowSince
      omega
    rw [hsince]
    exact hall

end

/-! ## Runs that keep the permanent rows complete -/

/-- Every hourly row lies in the window of the retention and carries no traffic. -/
def CleanSwitch (db : Database) (now : ℕ) : Prop :=
  ∀ row ∈ db.statisticsHourly.entries,
    (now - db.statisticsRetentionHours.toNat * 3600) / 3600 ≤ row.1.hour ∧ row.2.traffic = 0

/-- Nothing is recorded while the retention is finite, and it becomes permanent only where the
    permanent rows can be rebuilt in full. -/
def DatabaseEvent.KeepsCover (db : Database) : DatabaseEvent → Prop
  | .insertQueryEvents entries _ => db.statisticsRetentionHours = 0 ∨
      ∀ entry ∈ entries, entry.persistStatistics = false
  | .saveConfig config _ now => config.statisticsRetentionHours = 0 →
      db.statisticsRetentionHours ≠ 0 → CleanSwitch db now
  | .pruneExpired _ _ _ _ => True
  | .clearStatistics => True

/-- The calls after which the permanent rows are complete, whatever was there. -/
def DatabaseEvent.RestoresCover (db : Database) : DatabaseEvent → Prop
  | .saveConfig config _ now => config.statisticsRetentionHours = 0 ∧
      db.statisticsRetentionHours ≠ 0 ∧ CleanSwitch db now
  | .clearStatistics => True
  | _ => False

/-- The databases after such calls, from a new one or from a restored one. -/
inductive Maintained (validate : AppConfig → Except DatabaseError Unit) : Database → Prop
  | new : Maintained validate (databaseMachine validate).init
  | restored {db db' : Database} {event : DatabaseEvent} : event.RestoresCover db →
      (databaseMachine validate).step db event = some db' → Maintained validate db'
  | kept {db db' : Database} {event : DatabaseEvent} : Maintained validate db →
      event.KeepsCover db → (databaseMachine validate).step db event = some db' →
      Maintained validate db'

section
variable {validate : AppConfig → Except DatabaseError Unit} {db db' : Database}

theorem windowCounts_of_hourlyCounts {rows : List (Row HourlyStatKey StatDelta)}
    (h : ∀ key, hourlyCounts db' key =
      hourlyCounts db key + sumWhere (fun key' => key = key') rows)
    (dimension : Dimension) (value : Text) (since : ℕ) :
    windowCounts db' dimension value since = windowCounts db dimension value since +
      sumWhere (fun key => key.value = value ∧ key.dimension = dimension ∧ since ≤ key.hour)
        rows := by
  let keys : Finset HourlyStatKey := ((db'.statisticsHourly.entries ++
    (db.statisticsHourly.entries ++ rows)).map (·.1)).toFinset
  have hkeys : ∀ row ∈ db'.statisticsHourly.entries ++ (db.statisticsHourly.entries ++ rows),
      row.1 ∈ keys := fun row hrow => List.mem_toFinset.2 (List.mem_map_of_mem hrow)
  rw [windowCounts_eq, windowCounts_eq,
    sumWhere_eq_sum fun row hrow => hkeys row (List.mem_append_left _ hrow),
    sumWhere_eq_sum fun row hrow =>
      hkeys row (List.mem_append_right _ (List.mem_append_left _ hrow)),
    sumWhere_eq_sum fun row hrow =>
      hkeys row (List.mem_append_right _ (List.mem_append_right _ hrow)),
    ← Finset.sum_add_distrib]
  refine Finset.sum_congr rfl fun key _ => ?_
  rw [sumWhere_key, sumWhere_key]
  split_ifs
  · exact h key
  · exact (add_zero _).symm

theorem windowCounts_of_kept {kept : HourlyStatKey → Prop} [DecidablePred kept]
    (h : ∀ key, hourlyCounts db' key = if kept key then hourlyCounts db key else 0)
    (dimension : Dimension) (value : Text) (since : ℕ) :
    AtMost (windowCounts db' dimension value since) (windowCounts db dimension value since) := by
  have hback : ∀ key, hourlyCounts db key = hourlyCounts db' key + sumWhere
      (fun key' => key = key')
        (db.statisticsHourly.entries.filter fun row => ¬ kept row.1) := by
    intro key
    rw [h, sumWhere, List.filter_filter]
    split_ifs with hkey
    · rw [List.filter_eq_nil_iff.2, List.map_nil, List.sum_nil, add_zero]
      intro row _ hrow
      obtain ⟨hsame, hnot⟩ := Bool.and_eq_true_iff.1 hrow
      exact of_decide_eq_true hnot (of_decide_eq_true hsame ▸ hkey)
    · rw [zero_add]
      refine (sumWhere_key _ _).symm.trans (congrArg _ (congrArg _ (List.filter_congr ?_)))
      intro row _
      by_cases hsame : key = row.1
      · rw [← hsame, decide_eq_true hkey, Bool.and_true]
      · rw [decide_eq_false hsame, Bool.false_and]
        exact decide_eq_false hsame
  rw [windowCounts_of_hourlyCounts hback, add_comm]
  exact atMost_add _ _

theorem aggregateHourlyStats_nil {entries : List QueryPersistenceEntry} {timestamp : ℕ}
    (h : ∀ entry ∈ entries, entry.persistStatistics = false) :
    (aggregateHourlyStats entries timestamp).entries = [] := by
  have hnil : entries.filter (·.persistStatistics) = [] :=
    List.filter_eq_nil_iff.2 fun entry hentry => by rw [h entry hentry]; exact Bool.false_ne_true
  rw [aggregateHourlyStats, hnil]
  rfl

theorem summary_insertQueryEvents {entries : List QueryPersistenceEntry} {timestamp : ℕ}
    (hfinite : db.statisticsRetentionHours ≠ 0)
    (h : insertQueryEvents db entries timestamp = .ok db') :
    db'.dashboardSummaryStats = db.dashboardSummaryStats := by
  unfold insertQueryEvents at h
  split_ifs at h with hnil
  · cases pure_eq_ok.1 h
    rfl
  let Same (d : Database) : Prop := d.statisticsRetentionHours = db.statisticsRetentionHours ∧
    d.dashboardSummaryStats = db.dashboardSummaryStats
  obtain ⟨db₁, hlogs, h⟩ := bind_eq_ok.1 h
  have hsame : Same db₁ := by
    refine foldlM_inv (P := Same) ?_ ⟨rfl, rfl⟩ hlogs
    intro d persisted _ d' hd hd'
    simp only [executeQueryLogInsert, bind_eq_ok, pure_eq_ok] at hd'
    obtain ⟨_, -, _, -, rfl⟩ := hd'
    exact hd
  refine (foldlM_inv (P := Same) ?_ hsame h).2
  intro d row _ d' hd hd'
  obtain ⟨t, -, hd'⟩ := bind_eq_ok.1 hd'
  rw [if_neg (hd.1 ▸ hfinite)] at hd'
  cases pure_eq_ok.1 hd'
  exact hd

/-- While the retention is permanent, a batch adds to the permanent rows at least what it adds
    to a window. -/
theorem covers_insertQueryEvents {entries : List QueryPersistenceEntry} {timestamp : ℕ}
    (hcovers : Covers db 0) (hkeeps : DatabaseEvent.KeepsCover db (.insertQueryEvents entries
      timestamp)) (h : insertQueryEvents db entries timestamp = .ok db') : Covers db' 0 := by
  have hadded := insertQueryEvents_eq_ok h
  intro dimension value
  rw [windowCounts_of_hourlyCounts hadded.hourly]
  by_cases hpermanent : db.statisticsRetentionHours = 0
  · rw [hadded.lifetime hpermanent]
    refine (hcovers dimension value).add (atMost_sumWhere fun key hkey => ?_)
    obtain ⟨hvalue, hdimension, -⟩ := of_decide_eq_true hkey
    exact decide_eq_true ⟨hdimension, hvalue⟩
  · have hnil := @aggregateHourlyStats_nil entries timestamp (hkeeps.resolve_left hpermanent)
    rw [hnil, lifetimeCounts, summary_insertQueryEvents hpermanent h]
    exact hcovers dimension value

/-- **A clean switch** rebuilds the permanent rows in full. -/
theorem covers_switch {config : AppConfig} {updatedAt now : ℕ} (hclean : CleanSwitch db now)
    (hfinite : db.statisticsRetentionHours ≠ 0) (hpermanent : config.statisticsRetentionHours = 0)
    (h : saveConfig validate db config updatedAt now = .ok db') : Covers db' 0 := by
  obtain ⟨-, hhourly, hsummary⟩ := saveConfig_eq_ok h
  rw [if_pos ⟨hpermanent, hfinite⟩] at hsummary
  intro dimension value
  have hall : windowCounts db' dimension value 0 = windowCounts db dimension value
      ((now - db.statisticsRetentionHours.toNat * 3600) / 3600) := by
    rw [windowCounts_eq, windowCounts_eq, hhourly]
    refine congrArg (fun rows : List (Row HourlyStatKey StatDelta) => (rows.map (·.2)).sum)
      (List.filter_congr fun row hrow => decide_eq_decide.2 ?_)
    exact and_congr_right fun _ => and_congr_right fun _ =>
      iff_of_true (Nat.zero_le _) (hclean row hrow).1
  rw [hall, lifetimeCounts_rebuilt hsummary,
    withoutTraffic_windowCounts fun row hrow _ => (hclean row hrow).2]
  exact .refl _

theorem covers_clearStatistics : Covers (clearStatistics db) 0 := by
  intro dimension value
  exact .refl _

theorem covers_of_restores {event : DatabaseEvent} (hrestores : event.RestoresCover db)
    (hstep : (databaseMachine validate).step db event = some db') : Covers db' 0 := by
  cases event with
  | insertQueryEvents entries timestamp => cases hrestores
  | saveConfig config updatedAt now =>
    obtain ⟨hpermanent, hfinite, hclean⟩ := hrestores
    exact covers_switch hclean hfinite hpermanent (toOption_eq_some.1 hstep)
  | pruneExpired queryLog statistics securityEvent now => cases hrestores
  | clearStatistics =>
    cases hstep
    exact covers_clearStatistics

theorem covers_step {event : DatabaseEvent} (hcovers : Covers db 0) (hkeeps : event.KeepsCover db)
    (hstep : (databaseMachine validate).step db event = some db') : Covers db' 0 := by
  cases event with
  | insertQueryEvents entries timestamp =>
    exact covers_insertQueryEvents hcovers hkeeps (toOption_eq_some.1 hstep)
  | saveConfig config updatedAt now =>
    have hsave := toOption_eq_some.1 hstep
    by_cases hswitch : config.statisticsRetentionHours = 0 ∧ db.statisticsRetentionHours ≠ 0
    · exact covers_switch (hkeeps hswitch.1 hswitch.2) hswitch.2 hswitch.1 hsave
    · obtain ⟨-, hhourly, hsummary⟩ := saveConfig_eq_ok hsave
      rw [if_neg hswitch] at hsummary
      intro dimension value
      rw [windowCounts_eq, hhourly, ← windowCounts_eq, lifetimeCounts, hsummary]
      exact hcovers dimension value
  | pruneExpired queryLog statistics securityEvent now =>
    obtain ⟨-, hsummary, detailSince, totalSince, -, hcounts⟩ :=
      pruneExpired_eq_ok (toOption_eq_some.1 hstep)
    intro dimension value
    rw [lifetimeCounts, hsummary]
    let kept : HourlyStatKey → Prop := fun key =>
      ¬ key.hour < if key.dimension = .total then totalSince else detailSince
    have hkept : ∀ key, hourlyCounts db' key = if kept key then hourlyCounts db key else 0 :=
      fun key => by rw [hcounts, ite_not]
    exact (windowCounts_of_kept hkept dimension value 0).trans (hcovers dimension value)
  | clearStatistics =>
    cases hstep
    exact covers_clearStatistics

/-- **Every maintained database** has complete permanent rows. -/
theorem covers_maintained (h : Maintained validate db) : Covers db 0 := by
  induction h with
  | new => exact fun _ _ => .refl _
  | restored hrestores hstep => exact covers_of_restores hrestores hstep
  | kept _ hkeeps hstep ih => exact covers_step ih hkeeps hstep

end

/-- **Windows are monotone and show their last hour** in a database if and only if its
    permanent rows cover the hourly rows of the longest window, and they do after every run
    that records nothing while the retention is finite and makes it permanent only where the
    hourly rows lie in its window and carry no traffic. -/
theorem windowsMonotone_iff (validate : AppConfig → Except DatabaseError Unit) :
    (∀ db configured now,
      (WindowsMonotone db configured now ∧ ShowsLastHour db configured now) ↔
        Covers db (longestWindowSince configured now)) ∧
    ∀ db, Maintained validate db → ∀ configured now,
      WindowsMonotone db configured now ∧ ShowsLastHour db configured now := by
  refine ⟨fun db configured now => ⟨?_, windowsMonotone_of_covers⟩, ?_⟩
  · rintro ⟨hmono, hlast⟩
    exact covers_of_windowsMonotone hmono hlast
  · intro db hdb configured now
    exact windowsMonotone_of_covers ((covers_maintained hdb).anti (Nat.zero_le _))

/-! ### A day of statistics, asked for as one hour and as all time -/

/-- The figure of a window. -/
def shownQueries (stats : Except DatabaseError LogStats) : Option ℕ :=
  stats.toOption.map fun stats => stats.queries

/-- While a day of statistics is kept, all time shows less than the last hour: nothing. -/
theorem allTime_shows_less :
    ∃ db shown shown', (databaseMachine accepts).Reachable db ∧ db.statisticsRetentionHours = 24 ∧
      NoLonger 1 0 ∧ ¬ WindowsMonotone db 24 sampleTime ∧
      logStats db sampleSqlite (resolveStatisticsHours (some 1) 24) sampleTime sampleTime =
        .ok shown ∧
      logStats db sampleSqlite (resolveStatisticsHours (some 0) 24) sampleTime sampleTime =
        .ok shown' ∧ shown.queries = 1 ∧ shown'.queries = 0 := by
  have hhour : shownQueries (logStats (retainedDay true) sampleSqlite
      (resolveStatisticsHours (some 1) 24) sampleTime sampleTime) = some 1 := by decide +kernel
  have hall : shownQueries (logStats (retainedDay true) sampleSqlite
      (resolveStatisticsHours (some 0) 24) sampleTime sampleTime) = some 0 := by decide +kernel
  obtain ⟨shown, hshown, h1⟩ := Option.map_eq_some_iff.1 hhour
  obtain ⟨shown', hshown', h0⟩ := Option.map_eq_some_iff.1 hall
  refine ⟨retainedDay true, shown, shown', ⟨_, run_retainedDay true⟩, rfl, .inl rfl, ?_,
    toOption_eq_some.1 hshown, toOption_eq_some.1 hshown', h1, h0⟩
  intro hmono
  let queries : StatDelta →+ ℕ := ⟨⟨(·.queries), rfl⟩, fun _ _ => rfl⟩
  have hle : (requestedCounts (retainedDay true) 24 sampleTime 1 .total []).queries ≤
      (requestedCounts (retainedDay true) 24 sampleTime 0 .total []).queries :=
    hmono 1 0 (.inl rfl) .total [] queries
  revert hle
  decide +kernel

/-- The first batch of a new database. -/
def firstBatch : Database :=
  ((databaseMachine accepts).step {} (.insertQueryEvents [blockedQuery true] sampleTime)).getD {}

/-- It is shown in every window. -/
theorem firstBatch_shown :
    (requestedCounts firstBatch 0 sampleTime 0 .total []).queries = 1 ∧
      WindowsMonotone firstBatch 0 sampleTime ∧ ShowsLastHour firstBatch 0 sampleTime := by
  have hstep : (databaseMachine accepts).step {}
      (.insertQueryEvents [blockedQuery true] sampleTime) = some firstBatch := rfl
  have hkeeps : DatabaseEvent.KeepsCover {} (.insertQueryEvents [blockedQuery true] sampleTime) :=
    Or.inl rfl
  exact ⟨by decide +kernel,
    (windowsMonotone_iff accepts).2 firstBatch (.kept .new hkeeps hstep) 0 sampleTime⟩

end DnsBlackhole.Database
