/-
  The permanent rows that `rebuild_lifetime_statistics` makes.

  * `lookup_rebuildLifetimeStatistics`: the row of a dimension and a value is the
    sum of its hourly rows since the given hour (`summed`), but for the traffic,
    which the statement leaves out;
  * `perm_lifetimeRows`: what a ranking reads of the rebuilt table are the groups
    it read of the hourly one.
-/
import DnsBlackhole.Database.Rankings
import DnsBlackhole.Lib.Fallible

namespace DnsBlackhole.Database
open Admin (TrafficTotals)
open Lib

/-! ## One group -/

/-- The sums of a group, without its traffic. -/
def StatDelta.withoutTraffic (delta : StatDelta) : StatDelta := { delta with traffic := 0 }

/-- The permanent row of a group. -/
def summed (rows : List (Row HourlyStatKey StatDelta)) : SummaryColumns where
  counts := StatDelta.withoutTraffic (rows.map (·.2)).sum
  firstSeenAt := (rows.map (·.1.hour)).min?.getD 0 * 3600
  lastSeenAt := (rows.map (·.1.hour)).max?.getD 0 * 3600

/-- SQLite can sum up every column but those of the traffic. -/
structure Summable (deltas : List StatDelta) : Prop where
  queries : sqlSum (deltas.map (·.queries)) = .ok deltas.sum.queries
  blocked : sqlSum (deltas.map (·.blocked)) = .ok deltas.sum.blocked
  forwarded : sqlSum (deltas.map (·.forwarded)) = .ok deltas.sum.forwarded
  failed : sqlSum (deltas.map (·.failed)) = .ok deltas.sum.failed
  requests : sqlSum (deltas.map (·.requests)) = .ok deltas.sum.requests
  latencyTotalMs : sqlSum (deltas.map (·.latencyTotalMs)) = .ok deltas.sum.latencyTotalMs
  latencySamples : sqlSum (deltas.map (·.latencySamples)) = .ok deltas.sum.latencySamples

theorem eq_column_sum (column : StatDelta → ℕ) (h0 : column 0 = 0)
    (ha : ∀ a b, column (a + b) = column a + column b) {deltas : List StatDelta} {sum : ℕ}
    (h : sqlSum (deltas.map column) = .ok sum) : sum = column deltas.sum := by
  rw [column_sum column h0 ha]
  exact eq_of_sqlSum h

theorem rebuiltColumns_eq_ok {rows : List (Row HourlyStatKey StatDelta)} {columns : SummaryColumns}
    (h : rebuiltColumns rows = .ok columns) :
    Summable (rows.map (·.2)) ∧ columns = summed rows := by
  unfold rebuiltColumns at h
  have hmap : ∀ f : StatDelta → ℕ, (rows.map fun row => f row.2) = (rows.map (·.2)).map f :=
    fun f => (List.map_map ..).symm
  simp only [bind_eq_ok, pure_eq_ok, hmap] at h
  obtain ⟨queries, h1, blocked, h2, forwarded, h3, failed, h4, requests, h5, total, h6, samples,
    h7, rfl⟩ := h
  obtain rfl := eq_column_sum (·.queries) rfl (fun _ _ => rfl) h1
  obtain rfl := eq_column_sum (·.blocked) rfl (fun _ _ => rfl) h2
  obtain rfl := eq_column_sum (·.forwarded) rfl (fun _ _ => rfl) h3
  obtain rfl := eq_column_sum (·.failed) rfl (fun _ _ => rfl) h4
  obtain rfl := eq_column_sum (·.requests) rfl (fun _ _ => rfl) h5
  obtain rfl := eq_column_sum (·.latencyTotalMs) rfl (fun _ _ => rfl) h6
  obtain rfl := eq_column_sum (·.latencySamples) rfl (fun _ _ => rfl) h7
  exact ⟨⟨h1, h2, h3, h4, h5, h6, h7⟩, rfl⟩

/-! ## All groups -/

/-- The key of the permanent row of a group. -/
def summaryKey (name : Dimension × Text) : SummaryKey := ⟨.all, name.1, name.2⟩

theorem summaryKey_injective : Function.Injective summaryKey := by
  rintro ⟨d, v⟩ ⟨d', v'⟩ h
  cases h
  rfl

section
variable {t t' : Table SummaryKey SummaryColumns}
  {groups : List ((Dimension × Text) × List (Row HourlyStatKey StatDelta))}

theorem insertRebuilt_eq_ok {group : (Dimension × Text) × List (Row HourlyStatKey StatDelta)}
    (h : insertRebuilt t group = .ok t') :
    Summable (group.2.map (·.2)) ∧ t' = t.insert (summaryKey group.1) (summed group.2) := by
  obtain ⟨columns, hcolumns, h⟩ := bind_eq_ok.1 h
  obtain ⟨hsums, rfl⟩ := rebuiltColumns_eq_ok hcolumns
  refine ⟨hsums, ?_⟩
  dsimp only at h
  split_ifs at h
  exact (pure_eq_ok.1 h).symm

theorem lookup_foldlM_insertRebuilt (hn : (groups.map Prod.fst).Nodup)
    (h : groups.foldlM insertRebuilt t = .ok t') :
    (∀ group ∈ groups, Summable (group.2.map (·.2)) ∧
      t'.lookup (summaryKey group.1) = some (summed group.2)) ∧
    ∀ key, (∀ group ∈ groups, key ≠ summaryKey group.1) → t'.lookup key = t.lookup key := by
  induction groups generalizing t with
  | nil =>
    cases pure_eq_ok.1 h
    exact ⟨fun group hgroup => absurd hgroup List.not_mem_nil, fun key _ => rfl⟩
  | cons group groups ih =>
    obtain ⟨t₁, hstep, hrest⟩ := foldlM_cons_eq_ok.1 h
    obtain ⟨hsums, rfl⟩ := insertRebuilt_eq_ok hstep
    rw [List.map_cons, List.nodup_cons] at hn
    obtain ⟨hin, hout⟩ := ih hn.2 hrest
    refine ⟨fun group' hgroup => ?_, fun key hkey => ?_⟩
    · rcases List.mem_cons.1 hgroup with rfl | hgroup
      · -- the later groups have other keys
        refine ⟨hsums, ?_⟩
        rw [hout _ fun other hother heq => hn.1 ?_, AList.lookup_insert]
        rw [summaryKey_injective heq]
        exact List.mem_map_of_mem hother
      · exact hin group' hgroup
    · rw [hout key fun other hother => hkey other (List.mem_cons_of_mem _ hother),
        AList.lookup_insert_ne (hkey group List.mem_cons_self)]

end

/-- The hourly rows of a dimension and a value. -/
def hourlyRowsOf (db : Database) (dimension : Dimension) (value : Text) (since : ℕ) :
    List (Row HourlyStatKey StatDelta) :=
  (hourlyRows db dimension since).filter fun row => row.1.value = value

/-- **The rebuilt table**: the row of a dimension and a value sums up its hourly rows, and
    there is no row where there are no hourly rows. -/
theorem lookup_rebuildLifetimeStatistics {db : Database} {since : ℕ}
    {summary : Table SummaryKey SummaryColumns}
    (h : rebuildLifetimeStatistics db.statisticsHourly (some since) db.dashboardSummaryStats =
      .ok summary) (dimension : Dimension) (value : Text) :
    summary.lookup ⟨.all, dimension, value⟩ =
      (if hourlyRowsOf db dimension value since = [] then none
        else some (summed (hourlyRowsOf db dimension value since))) ∧
    Summable ((hourlyRowsOf db dimension value since).map (·.2)) := by
  have hgroup : hourlyRowsOf db dimension value since =
      (db.statisticsHourly.entries.filter fun row => since ≤ row.1.hour).filter fun row =>
        (row.1.dimension, row.1.value) = (dimension, value) := by
    simp only [hourlyRowsOf, hourlyRows, List.filter_filter]
    refine List.filter_congr fun row _ => ?_
    simp only [Prod.mk.injEq, Bool.decide_and]
    rw [← Bool.and_assoc, Bool.and_comm (decide (row.1.value = value))]
  obtain ⟨hin, hout⟩ := lookup_foldlM_insertRebuilt (nodup_groupBy _ _) (mapError_eq_ok.1 h)
  split_ifs with hnil
  · refine ⟨?_, ?_⟩
    · have hdel := hout ⟨.all, dimension, value⟩ fun group hg heq => ?_
      · rw [hdel, Table.lookup_deleteWhere]
        rfl
      · -- a group has a row
        obtain ⟨hkey, -⟩ := mem_groupBy.1 hg
        obtain ⟨row, hrow, hname⟩ := List.mem_map.1 hkey
        have hmem : row ∈ hourlyRowsOf db dimension value since := by
          rw [hgroup, List.mem_filter]
          refine ⟨hrow, decide_eq_true ?_⟩
          rw [hname]
          exact summaryKey_injective heq.symm
        rw [hnil] at hmem
        cases hmem
    · rw [hnil]
      exact ⟨rfl, rfl, rfl, rfl, rfl, rfl, rfl⟩
  · obtain ⟨row, hrow⟩ := List.exists_mem_of_ne_nil _ hnil
    rw [hgroup, List.mem_filter] at hrow
    have hg := hin ((dimension, value), hourlyRowsOf db dimension value since)
      (mem_groupBy.2 ⟨List.mem_map.2 ⟨row, hrow.1, of_decide_eq_true hrow.2⟩, hgroup⟩)
    exact ⟨hg.2, hg.1⟩

/-! ## What the rankings read -/

section
variable {db : Database} {dimension : Dimension}

theorem mem_lifetimeRows {value : Text} {counts : StatDelta} :
    (value, counts) ∈ lifetimeRows db dimension ↔ ∃ row,
      db.dashboardSummaryStats.lookup ⟨.all, dimension, value⟩ = some row ∧
        row.counts = counts := by
  simp only [lifetimeRows, List.mem_filterMap]
  constructor
  · rintro ⟨⟨⟨scope, dimension', value'⟩, row⟩, hmem, h⟩
    split_ifs at h with hkey
    obtain ⟨rfl, rfl⟩ := hkey
    cases h
    exact ⟨row, (Table.mem_entries_iff _).1 hmem, rfl⟩
  · rintro ⟨row, hrow, rfl⟩
    exact ⟨⟨⟨.all, dimension, value⟩, row⟩, (Table.mem_entries_iff _).2 hrow, if_pos ⟨rfl, rfl⟩⟩

theorem nodup_lifetimeRows (db : Database) (dimension : Dimension) :
    ((lifetimeRows db dimension).map Prod.fst).Nodup := by
  rw [List.Nodup, List.pairwise_map, lifetimeRows, List.pairwise_filterMap]
  refine (List.nodupKeys_iff_pairwise.1 db.dashboardSummaryStats.nodupKeys).imp ?_
  rintro ⟨⟨scope, d, v⟩, row⟩ ⟨⟨scope', d', v'⟩, row'⟩ hne a ha b hb heq
  split_ifs at ha hb with hkey hkey'
  cases ha
  cases hb
  refine hne ?_
  dsimp only at hkey hkey' heq ⊢
  rw [hkey.1, hkey.2, hkey'.1, hkey'.2, heq]

variable {since : ℕ}

theorem mem_hourlyGroups {value : Text} {deltas : List StatDelta} :
    (value, deltas) ∈ hourlyGroups db dimension since ↔
      hourlyRowsOf db dimension value since ≠ [] ∧
        deltas = (hourlyRowsOf db dimension value since).map (·.2) := by
  simp only [hourlyGroups, List.mem_map, mem_groupBy, Prod.exists, Prod.mk.injEq]
  constructor
  · rintro ⟨_, group, ⟨⟨row, hrow, rfl⟩, hgroup⟩, rfl, rfl⟩
    rw [hgroup]
    exact ⟨List.ne_nil_of_mem (List.mem_filter.2 ⟨hrow, decide_eq_true rfl⟩), rfl⟩
  · rintro ⟨hne, rfl⟩
    obtain ⟨row, hrow⟩ := List.exists_mem_of_ne_nil _ hne
    rw [hourlyRowsOf, List.mem_filter] at hrow
    exact ⟨value, _, ⟨⟨row, hrow.1, of_decide_eq_true hrow.2⟩, rfl⟩, rfl, rfl⟩

theorem nodup_hourlyGroups (db : Database) (dimension : Dimension) (since : ℕ) :
    ((hourlyGroups db dimension since).map Prod.fst).Nodup := by
  rw [hourlyGroups, List.map_map]
  exact nodup_groupBy _ _

/-- **The rows of the rebuilt table are the groups of the hourly one**, without traffic. -/
theorem perm_lifetimeRows {db' : Database}
    (h : rebuildLifetimeStatistics db.statisticsHourly (some since) db.dashboardSummaryStats =
      .ok db'.dashboardSummaryStats) (dimension : Dimension) :
    ((hourlyGroups db dimension since).map fun group =>
      (group.1, group.2.sum.withoutTraffic)).Perm (lifetimeRows db' dimension) := by
  refine (List.perm_ext_iff_of_nodup ?_ (nodup_lifetimeRows db' dimension).of_map).2 ?_
  · refine List.Nodup.of_map Prod.fst ?_
    rw [List.map_map]
    exact nodup_hourlyGroups db dimension since
  · rintro ⟨value, counts⟩
    rw [mem_lifetimeRows, (lookup_rebuildLifetimeStatistics h dimension value).1, List.mem_map]
    constructor
    · rintro ⟨⟨value', deltas⟩, hgroup, heq⟩
      obtain ⟨rfl, rfl⟩ := Prod.mk.inj heq
      obtain ⟨hne, rfl⟩ := mem_hourlyGroups.1 hgroup
      exact ⟨_, if_neg hne, rfl⟩
    · rintro ⟨row, hrow, rfl⟩
      split_ifs at hrow with hnil
      cases hrow
      exact ⟨(value, _), mem_hourlyGroups.2 ⟨hnil, rfl⟩, rfl⟩

end

end DnsBlackhole.Database
