/-
  What a batch of queries adds to the statistics.

  * `insertQueryEvents_eq_ok`: to every hourly row the sum of the deltas of the
    batch for it and, while the retention is permanent, to every permanent row
    the sum of those for its dimension and value (`batchSum`);
  * `traffic_aggregateHourlyStats`: no delta of a batch has traffic unless the
    total one of its hour has.
-/
import DnsBlackhole.Database.Rebuilt

namespace DnsBlackhole.Database
open Admin (TrafficTotals)
open Cache (saturatingAdd64 u64Max)
open Lib

/-- The columns of an hourly row; 0 if there is none. -/
def hourlyCounts (db : Database) (key : HourlyStatKey) : StatDelta :=
  db.statisticsHourly.amount id key

/-- The columns of a permanent row; 0 if there is none. -/
def lifetimeCounts (db : Database) (dimension : Dimension) (value : Text) : StatDelta :=
  db.dashboardSummaryStats.amount SummaryColumns.counts ⟨.all, dimension, value⟩

/-- The sum of the deltas whose key meets the condition. -/
def sumWhere (p : HourlyStatKey → Bool) (rows : List (Row HourlyStatKey StatDelta)) : StatDelta :=
  ((rows.filter fun row => p row.1).map (·.2)).sum

theorem sumWhere_cons (p : HourlyStatKey → Bool) (row : Row HourlyStatKey StatDelta)
    (rows : List (Row HourlyStatKey StatDelta)) :
    sumWhere p (row :: rows) = (if p row.1 then row.2 else 0) + sumWhere p rows := by
  unfold sumWhere
  rw [List.filter_cons]
  split_ifs
  · rw [List.map_cons, List.sum_cons]
  · exact (zero_add _).symm

/-- What a batch adds to the permanent row of a dimension and a value. -/
def batchSum (entries : List QueryPersistenceEntry) (timestamp : ℕ) (dimension : Dimension)
    (value : Text) : StatDelta :=
  sumWhere (fun key => key.dimension = dimension ∧ key.value = value)
    (aggregateHourlyStats entries timestamp).entries

/-! ## Upserts -/

theorem deltaToDb_eq_ok {label : Text} {delta delta' : StatDelta}
    (h : deltaToDb label delta = .ok delta') : delta' = delta := by
  simp only [deltaToDb, bind_eq_ok, pure_eq_ok] at h
  obtain ⟨_, h1, _, h2, _, h3, _, h4, _, h5, _, h6, _, h7, _, h8, _, h9, _, h10, _, h11, _, h12,
    rfl⟩ := h
  rw [eq_of_u64ToDbI64 h1, eq_of_u64ToDbI64 h2, eq_of_u64ToDbI64 h3, eq_of_u64ToDbI64 h4,
    eq_of_u64ToDbI64 h5, eq_of_u64ToDbI64 h6, eq_of_u64ToDbI64 h7, eq_of_u64ToDbI64 h8,
    eq_of_u64ToDbI64 h9, eq_of_u64ToDbI64 h10, eq_of_u64ToDbI64 h11, eq_of_u64ToDbI64 h12]

theorem executeHourlyStatUpsert_eq_ok {t t' : Table HourlyStatKey StatDelta} {key : HourlyStatKey}
    {delta : StatDelta} (h : executeHourlyStatUpsert t key delta = .ok t') :
    t' = t.upsert (· + ·) key delta := by
  simp only [executeHourlyStatUpsert, bind_eq_ok, pure_eq_ok] at h
  obtain ⟨_, h1, _, h2, rfl⟩ := h
  rw [eq_of_u64ToDbI64 h1, deltaToDb_eq_ok h2]

theorem executeLifetimeStatUpsert_eq_ok {t t' : Table SummaryKey SummaryColumns}
    {key : HourlyStatKey} {delta : StatDelta} {observedAt : ℕ}
    (h : executeLifetimeStatUpsert t key delta observedAt = .ok t') :
    t' = t.upsert SummaryColumns.merge ⟨.all, key.dimension, key.value⟩
      ⟨delta, observedAt, observedAt⟩ := by
  simp only [executeLifetimeStatUpsert, bind_eq_ok, pure_eq_ok] at h
  obtain ⟨_, h1, _, h2, rfl⟩ := h
  rw [deltaToDb_eq_ok h1, eq_of_u64ToDbI64 h2]

/-- What the upserts of `rows` add. -/
structure Added (rows : List (Row HourlyStatKey StatDelta)) (db db' : Database) : Prop where
  retention : db'.statisticsRetentionHours = db.statisticsRetentionHours
  hourly : ∀ key, hourlyCounts db' key =
    hourlyCounts db key + sumWhere (fun key' => key = key') rows
  lifetime : db.statisticsRetentionHours = 0 → ∀ dimension value,
    lifetimeCounts db' dimension value = lifetimeCounts db dimension value +
      sumWhere (fun key => key.dimension = dimension ∧ key.value = value) rows

theorem executeStatUpserts_eq_ok {timestamp : ℕ} {row : Row HourlyStatKey StatDelta}
    {db db' : Database} (h : executeStatUpserts timestamp db row = .ok db') :
    Added [row] db db' := by
  have hsingle : ∀ p, sumWhere p [row] = if p row.1 then row.2 else 0 := fun p => by
    rw [sumWhere_cons]
    exact add_zero _
  obtain ⟨t, ht, h⟩ := bind_eq_ok.1 h
  obtain rfl := executeHourlyStatUpsert_eq_ok ht
  have hhourly : ∀ key, (db.statisticsHourly.upsert (· + ·) row.1 row.2).amount id key =
      hourlyCounts db key + sumWhere (fun key' => key = key') [row] := fun key => by
    rw [hsingle, Table.amount_upsert fun _ _ => rfl]
    exact congrArg _ (if_congr decide_eq_true_iff.symm rfl rfl)
  split_ifs at h with hpermanent
  · obtain ⟨t, ht, h⟩ := bind_eq_ok.1 h
    obtain rfl := executeLifetimeStatUpsert_eq_ok ht
    cases pure_eq_ok.1 h
    refine ⟨rfl, hhourly, fun _ dimension value => ?_⟩
    rw [hsingle, lifetimeCounts, Table.amount_upsert fun _ _ => rfl]
    refine congrArg _ (if_congr ?_ rfl rfl)
    rw [decide_eq_true_iff, SummaryKey.mk.injEq, eq_self, true_and]
    exact and_congr eq_comm eq_comm
  · cases pure_eq_ok.1 h
    exact ⟨rfl, hhourly, fun h0 => absurd h0 hpermanent⟩

theorem added_foldlM {timestamp : ℕ} {rows : List (Row HourlyStatKey StatDelta)}
    {db db' : Database} (h : rows.foldlM (executeStatUpserts timestamp) db = .ok db') :
    Added rows db db' := by
  induction rows generalizing db with
  | nil =>
    cases pure_eq_ok.1 h
    exact ⟨rfl, fun _ => (add_zero _).symm, fun _ _ _ => (add_zero _).symm⟩
  | cons row rows ih =>
    obtain ⟨db₁, hstep, hrest⟩ := foldlM_cons_eq_ok.1 h
    have hfirst := executeStatUpserts_eq_ok hstep
    have hadded := ih hrest
    have hsplit : ∀ p, sumWhere p (row :: rows) = sumWhere p [row] + sumWhere p rows := fun p => by
      rw [sumWhere_cons, sumWhere_cons, add_assoc]
      exact congrArg _ (zero_add _).symm
    refine ⟨hadded.retention.trans hfirst.retention, fun key => ?_, fun h0 dimension value => ?_⟩
    · rw [hadded.hourly, hfirst.hourly, hsplit, add_assoc]
    · rw [hadded.lifetime (hfirst.retention.trans h0), hfirst.lifetime h0, hsplit, add_assoc]

/-- **What a batch adds.** -/
theorem insertQueryEvents_eq_ok {entries : List QueryPersistenceEntry} {timestamp : ℕ}
    {db db' : Database} (h : insertQueryEvents db entries timestamp = .ok db') :
    Added (aggregateHourlyStats entries timestamp).entries db db' := by
  unfold insertQueryEvents at h
  split_ifs at h with hnil
  · cases pure_eq_ok.1 h
    rw [hnil]
    exact ⟨rfl, fun _ => (add_zero _).symm, fun _ _ _ => (add_zero _).symm⟩
  · obtain ⟨db₁, hlogs, h⟩ := bind_eq_ok.1 h
    -- the query log is another table
    have hsame : db₁.statisticsRetentionHours = db.statisticsRetentionHours ∧
        db₁.statisticsHourly = db.statisticsHourly ∧
        db₁.dashboardSummaryStats = db.dashboardSummaryStats := by
      refine foldlM_inv (P := fun d => d.statisticsRetentionHours = db.statisticsRetentionHours ∧
        d.statisticsHourly = db.statisticsHourly ∧
        d.dashboardSummaryStats = db.dashboardSummaryStats) ?_ ⟨rfl, rfl, rfl⟩ hlogs
      intro db₁ persisted _ db₂ hdb₁ hdb₂
      simp only [executeQueryLogInsert, bind_eq_ok, pure_eq_ok] at hdb₂
      obtain ⟨_, -, _, -, rfl⟩ := hdb₂
      exact hdb₁
    have hadded := added_foldlM h
    refine ⟨hadded.retention.trans hsame.1, fun key => ?_, fun h0 dimension value => ?_⟩
    · rw [hadded.hourly, hourlyCounts, hsame.2.1]
      rfl
    · rw [hadded.lifetime (hsame.1.trans h0), lifetimeCounts, hsame.2.2]
      rfl

/-! ## The traffic of a batch -/

theorem saturatingAdd64_eq_zero {a b : ℕ} : saturatingAdd64 a b = 0 ↔ a = 0 ∧ b = 0 := by
  have hmax : 0 < u64Max := by decide
  unfold saturatingAdd64
  omega

theorem traffic_saturatingAdd {a b : StatDelta} :
    (a.saturatingAdd b).traffic = 0 ↔ a.traffic = 0 ∧ b.traffic = 0 := by
  simp only [StatDelta.saturatingAdd, traffic_eq_zero, saturatingAdd64_eq_zero]
  constructor
  · rintro ⟨⟨a1, b1⟩, ⟨a2, b2⟩, ⟨a3, b3⟩, ⟨a4, b4⟩, ⟨a5, b5⟩⟩
    exact ⟨⟨a1, a2, a3, a4, a5⟩, ⟨b1, b2, b3, b4, b5⟩⟩
  · rintro ⟨⟨a1, a2, a3, a4, a5⟩, ⟨b1, b2, b3, b4, b5⟩⟩
    exact ⟨⟨a1, b1⟩, ⟨a2, b2⟩, ⟨a3, b3⟩, ⟨a4, b4⟩, ⟨a5, b5⟩⟩

theorem traffic_addStatDelta {stats : Table HourlyStatKey StatDelta} {key key' : HourlyStatKey}
    {delta : StatDelta} : (addStatDelta stats key delta).amount StatDelta.traffic key' = 0 ↔
      stats.amount StatDelta.traffic key' = 0 ∧ (key = key' → delta.traffic = 0) := by
  by_cases hkey : key' = key
  · have hrow : stats.amount StatDelta.traffic key = ((stats.lookup key).getD {}).traffic := by
      unfold Table.amount
      cases stats.lookup key <;> rfl
    rw [hkey, addStatDelta, Table.amount_of_lookup (AList.lookup_insert _),
      traffic_saturatingAdd, hrow]
    simp
  · rw [Table.amount, addStatDelta, AList.lookup_insert_ne hkey]
    exact ⟨fun h => ⟨h, fun heq => absurd heq.symm hkey⟩, fun h => h.1⟩

theorem traffic_foldl_addStatDelta {deltas : List (HourlyStatKey × StatDelta)}
    {stats : Table HourlyStatKey StatDelta} {key : HourlyStatKey} :
    (deltas.foldl (fun stats delta => addStatDelta stats delta.1 delta.2) stats).amount
      StatDelta.traffic key = 0 ↔
    stats.amount StatDelta.traffic key = 0 ∧ ∀ delta ∈ deltas, delta.1 = key →
      delta.2.traffic = 0 := by
  induction deltas generalizing stats with
  | nil => simp
  | cons delta deltas ih =>
    rw [List.foldl_cons, ih, traffic_addStatDelta, and_assoc, List.forall_mem_cons]

theorem traffic_entryDeltas {hour : ℕ} {persisted : QueryPersistenceEntry}
    {delta : HourlyStatKey × StatDelta} (h : delta ∈ entryDeltas hour persisted) :
    delta.1.hour = hour ∧ (persisted.entry.traffic = 0 → delta.2.traffic = 0) := by
  rcases List.mem_cons.1 h with rfl | h
  · exact ⟨rfl, id⟩
  split_ifs at h
  · cases h
  rcases List.mem_cons.1 h with rfl | h
  · exact ⟨rfl, id⟩
  rcases List.mem_append.1 h with h | h
  · rcases List.mem_append.1 h with h | h
    · split at h
      · split_ifs at h
        · cases h
        · cases List.mem_singleton.1 h
          exact ⟨rfl, id⟩
      · cases h
    · split at h
      · split_ifs at h
        · cases List.mem_singleton.1 h
          exact ⟨rfl, fun _ => rfl⟩
        · cases h
      · cases h
  · split_ifs at h
    · cases List.mem_singleton.1 h
      exact ⟨rfl, fun _ => rfl⟩
    · cases h

/-- **The totals of a batch have the traffic of every other row**: none has traffic in an
    hour unless the total one has. -/
theorem traffic_aggregateHourlyStats {entries : List QueryPersistenceEntry} {timestamp : ℕ}
    {key : HourlyStatKey} (h : (aggregateHourlyStats entries timestamp).amount StatDelta.traffic
      ⟨key.hour, .total, []⟩ = 0) :
    (aggregateHourlyStats entries timestamp).amount StatDelta.traffic key = 0 := by
  have htotal := (traffic_foldl_addStatDelta.1 h).2
  refine traffic_foldl_addStatDelta.2 ⟨rfl, fun delta hdelta hkey => ?_⟩
  obtain ⟨persisted, hpersisted, hmem⟩ := List.mem_flatMap.1 hdelta
  obtain ⟨hhour, htraffic⟩ := traffic_entryDeltas hmem
  refine htraffic (htotal (totalDelta (timestamp / 3600) persisted)
    (List.mem_flatMap.2 ⟨persisted, hpersisted, List.mem_cons_self⟩) ?_)
  rw [← hkey, hhour]
  rfl

theorem traffic_sumWhere_key {t : Table HourlyStatKey StatDelta} {key : HourlyStatKey} :
    (sumWhere (fun key' => key = key') t.entries).traffic = 0 ↔
      t.amount StatDelta.traffic key = 0 := by
  unfold sumWhere
  rw [traffic_sum_eq_zero]
  constructor
  · intro hnone
    cases hrow : t.lookup key with
    | none =>
      rw [Table.amount, hrow]
      rfl
    | some delta =>
      rw [Table.amount_of_lookup hrow]
      have hmem := (t.mem_entries_iff).2 hrow
      exact hnone delta (List.mem_map.2
        ⟨⟨key, delta⟩, List.mem_filter.2 ⟨hmem, decide_eq_true rfl⟩, rfl⟩)
  · intro hzero delta hdelta
    obtain ⟨⟨key', delta'⟩, hrow, rfl⟩ := List.mem_map.1 hdelta
    obtain ⟨hmem, hkey⟩ := List.mem_filter.1 hrow
    cases of_decide_eq_true hkey
    rwa [Table.amount_of_lookup ((t.mem_entries_iff).1 hmem)] at hzero

end DnsBlackhole.Database
