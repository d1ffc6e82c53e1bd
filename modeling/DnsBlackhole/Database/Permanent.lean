/-
  What is shown before and after the retention becomes permanent.

  Throughout, `db'` has the permanent rows that are built from the hourly rows
  of `db` since the hour `since`.

  * `returns_logStats`: if these hourly rows carry no traffic (`NoTraffic`), every
    figure of the window is shown by the permanent rows as well;
  * `traffic_eq_zero_of_shown`: if the totals are shown, there was no traffic to
    show, since the rebuilt rows have none.
-/
import DnsBlackhole.Database.Rebuilt

namespace DnsBlackhole.Database
open Admin (TrafficTotals)
open Lib

/-- No hourly row since the hour carries traffic. -/
def NoTraffic (db : Database) (since : ℕ) : Prop :=
  ∀ row ∈ db.statisticsHourly.entries, since ≤ row.1.hour → row.2.traffic = 0

instance (db : Database) (since : ℕ) : Decidable (NoTraffic db since) :=
  inferInstanceAs (Decidable (∀ row ∈ _, _))

/-! ## Queries -/

theorem div_sub_hours (now hours : ℕ) : (now - hours * 3600) / 3600 = now / 3600 - hours := by
  omega

theorem returns_runQuery {γ : Type} {since : ℕ} {field lifetimeAction hourlyAction : String}
    {x y : Except SqlError γ} (h0 : since ≠ 0) (h : Returns x y) :
    Returns (runQuery since field lifetimeAction hourlyAction x)
      (runQuery 0 field lifetimeAction hourlyAction y) := by
  intro a ha
  unfold runQuery at ha ⊢
  rw [if_neg h0] at ha
  rw [if_pos rfl]
  obtain ⟨_, -, ha⟩ := bind_eq_ok.1 ha
  exact mapError_eq_ok.2 (h a (mapError_eq_ok.1 ha))

section
variable {γ : Type} {rows rows' : List (Text × γ)}

theorem topBy_perm (count : γ → ℕ) (h : rows.Perm rows') (hn : (rows.map Prod.fst).Nodup) :
    topBy count rows = topBy count rows' := by
  unfold topBy
  rw [ranked_perm _ (h.filter _) (hn.sublist (List.filter_sublist.map _))]

theorem fastest_perm {ρ : Type} [LinearOrder ρ] (sqlite : Sqlite ρ)
    {rows rows' : List (Text × ℕ × ℕ)} (h : rows.Perm rows') (hn : (rows.map Prod.fst).Nodup) :
    fastest sqlite rows = fastest sqlite rows' := by
  unfold fastest
  rw [ranked_perm _ (h.filter _) (hn.sublist (List.filter_sublist.map _))]

end

theorem sqlSum_eq_zero {values : List ℕ} (h : ∀ value ∈ values, value = 0) :
    sqlSum values = .ok 0 := by
  have hsum : values.sum = 0 := List.sum_eq_zero h
  unfold sqlSum
  rw [hsum, if_neg fun hlt => absurd hlt.2 (Nat.not_lt_zero _)]

theorem totalSums_eq_ok {deltas : List StatDelta} (hs : Summable deltas)
    (hnone : ∀ delta ∈ deltas, delta.traffic = 0) :
    totalSums deltas = .ok {
      queries := deltas.sum.queries
      blocked := deltas.sum.blocked
      forwarded := deltas.sum.forwarded
      failed := deltas.sum.failed } := by
  have hzero : ∀ column : TrafficTotals → ℕ, column 0 = 0 →
      sqlSum (deltas.map fun delta => column delta.traffic) = .ok 0 := by
    intro column hcolumn
    refine sqlSum_eq_zero fun value hvalue => ?_
    obtain ⟨delta, hdelta, rfl⟩ := List.mem_map.1 hvalue
    rw [hnone delta hdelta, hcolumn]
  rw [totalSums, hs.queries, ok_bind, hs.blocked, ok_bind, hs.forwarded, ok_bind, hs.failed,
    ok_bind, hzero (·.clientBytesIn) rfl, ok_bind, hzero (·.clientBytesOut) rfl, ok_bind,
    hzero (·.upstreamBytesOut) rfl, ok_bind, hzero (·.upstreamBytesIn) rfl, ok_bind,
    hzero (·.cacheSavedBytes) rfl, ok_bind]
  rfl

theorem filter_hourlyRows_total (db : Database) (since : ℕ) :
    ((hourlyRows db .total since).filter fun row => row.1.value = []) =
      hourlyRowsOf db .total [] since :=
  List.filter_congr fun _ _ => decide_eq_decide.2 Iff.rfl

section
variable {db db' : Database} {since : ℕ}

theorem traffic_hourlyRowsOf (hnone : NoTraffic db since) {dimension : Dimension} {value : Text} :
    ∀ delta ∈ (hourlyRowsOf db dimension value since).map (·.2), delta.traffic = 0 := by
  intro delta hdelta
  obtain ⟨row, hrow, rfl⟩ := List.mem_map.1 hdelta
  simp only [hourlyRowsOf, hourlyRows, List.mem_filter, decide_eq_true_eq] at hrow
  exact hnone row hrow.1.1 hrow.1.2.2

theorem trafficBuckets_congr (hhourly : db'.statisticsHourly = db.statisticsHourly)
    {ρ : Type} (sqlite : Sqlite ρ) {now now' : ℕ} (hnow : now' / 3600 = now / 3600) :
    trafficBuckets db' sqlite now' = trafficBuckets db sqlite now := by
  have hrows : ∀ since, hourlyRows db' .total since = hourlyRows db .total since := fun since => by
    rw [hourlyRows, hourlyRows, hhourly]
  simp only [trafficBuckets, div_sub_hours, hnow, hrows]

variable (h : rebuildLifetimeStatistics db.statisticsHourly (some since)
  db.dashboardSummaryStats = .ok db'.dashboardSummaryStats)
include h

theorem summable_hourlyRowsOf (dimension : Dimension) (value : Text) :
    Summable ((hourlyRowsOf db dimension value since).map (·.2)) :=
  (lookup_rebuildLifetimeStatistics h dimension value).2

theorem sumPair_hourlyRowsOf (dimension : Dimension) (value : Text) :
    sumPair (·.queries) (·.blocked) ((hourlyRowsOf db dimension value since).map (·.2)) =
      .ok (StatDelta.queries ((hourlyRowsOf db dimension value since).map (·.2)).sum,
        StatDelta.blocked ((hourlyRowsOf db dimension value since).map (·.2)).sum) := by
  have hs := summable_hourlyRowsOf h dimension value
  rw [sumPair, hs.queries, ok_bind, hs.blocked]
  rfl

variable (h0 : since ≠ 0)
include h0

/-- The rows of a query before and after, if the sums of every group are those of the
    group without its traffic. -/
theorem selectRows_rebuilt {γ : Type} (dimension : Dimension) (columns : StatDelta → γ)
    (sums : List StatDelta → Except SqlError γ)
    (hsums : ∀ value, sums ((hourlyRowsOf db dimension value since).map (·.2)) =
      .ok (columns (StatDelta.withoutTraffic
        ((hourlyRowsOf db dimension value since).map (·.2)).sum))) :
    ∃ rows rows', selectRows db dimension since columns sums = .ok rows ∧
      selectRows db' dimension 0 columns sums = .ok rows' ∧ rows.Perm rows' ∧
      (rows.map Prod.fst).Nodup := by
  refine ⟨(hourlyGroups db dimension since).map fun group =>
      (group.1, columns group.2.sum.withoutTraffic), _, ?_, if_pos rfl, ?_, ?_⟩
  · rw [selectRows, if_neg h0]
    refine mapM_eq_ok fun group hgroup => ?_
    obtain ⟨-, hdeltas⟩ := mem_hourlyGroups.1 hgroup
    rw [hdeltas, hsums]
    rfl
  · have hperm := (perm_lifetimeRows h dimension).map fun row => (row.1, columns row.2)
    rwa [List.map_map] at hperm
  · rw [List.map_map]
    exact nodup_hourlyGroups db dimension since

/-- **Queries over the rebuilt rows**: a query whose sums are those without traffic, and
    whose result does not depend on the order of the rows, returns what it returned. -/
theorem returns_query {γ β : Type} {dimension : Dimension} {columns : StatDelta → γ}
    {sums : List StatDelta → Except SqlError γ} {rest : List (Text × γ) → Except SqlError β}
    {field lifetimeAction hourlyAction : String}
    (hsums : ∀ value, sums ((hourlyRowsOf db dimension value since).map (·.2)) =
      .ok (columns (StatDelta.withoutTraffic
        ((hourlyRowsOf db dimension value since).map (·.2)).sum)))
    (hrest : ∀ rows rows', rows.Perm rows' → (rows.map Prod.fst).Nodup → rest rows = rest rows') :
    Returns (runQuery since field lifetimeAction hourlyAction
        (selectRows db dimension since columns sums >>= rest))
      (runQuery 0 field lifetimeAction hourlyAction
        (selectRows db' dimension 0 columns sums >>= rest)) := by
  obtain ⟨rows, rows', hrows, hrows', hperm, hn⟩ :=
    selectRows_rebuilt h h0 dimension columns sums hsums
  refine returns_runQuery h0 ?_
  rw [hrows, hrows', ok_bind, ok_bind, hrest rows rows' hperm hn]
  exact .refl _

theorem returns_groupedDomainCounts :
    Returns (groupedDomainCounts db since) (groupedDomainCounts db' 0) := by
  refine returns_query h h0 (sumPair_hourlyRowsOf h .domain) fun rows rows' hperm hn => ?_
  rw [topBy_perm _ hperm hn, topBy_perm _ hperm hn]

theorem returns_clientCounts : Returns (clientCounts db since) (clientCounts db' 0) := by
  refine returns_query h h0 (sumPair_hourlyRowsOf h .client) fun rows rows' hperm hn => ?_
  rw [topBy_perm _ hperm hn]

theorem returns_blocklistHitCounts :
    Returns (blocklistHitCounts db since) (blocklistHitCounts db' 0) := by
  refine returns_query h h0 (fun value => (summable_hourlyRowsOf h .blocklist value).blocked)
    fun rows rows' hperm hn => ?_
  rw [topBy_perm _ hperm hn]

theorem returns_upstreamRequestCounts :
    Returns (upstreamRequestCounts db since) (upstreamRequestCounts db' 0) := by
  refine returns_query h h0 (fun value => (summable_hourlyRowsOf h .upstream value).requests)
    fun rows rows' hperm hn => ?_
  rw [topBy_perm _ hperm hn]

theorem returns_upstreamAvgLatency {ρ : Type} [LinearOrder ρ] (sqlite : Sqlite ρ) :
    Returns (upstreamAvgLatency db since sqlite) (upstreamAvgLatency db' 0 sqlite) := by
  refine returns_query h h0 (fun value => ?_) fun rows rows' hperm hn => ?_
  · have hs := summable_hourlyRowsOf h .upstream value
    rw [sumPair, hs.latencyTotalMs, ok_bind, hs.latencySamples]
    rfl
  · rw [fastest_perm sqlite hperm hn]

theorem returns_trafficRank (hnone : NoTraffic db since) (dimension : Dimension)
    (label : String) :
    Returns (trafficRank db since dimension label) (trafficRank db' 0 dimension label) := by
  obtain ⟨rows, rows', hrows, hrows', hperm, hn⟩ := selectRows_rebuilt h h0 dimension
    (·.bytes) (fun deltas => sqlSum (deltas.map (·.bytes))) fun value => by
      refine sqlSum_eq_zero fun bytes hbytes => ?_
      obtain ⟨delta, hdelta, rfl⟩ := List.mem_map.1 hbytes
      rw [StatDelta.bytes, traffic_hourlyRowsOf hnone delta hdelta]
      rfl
  intro counts hcounts
  unfold trafficRank at hcounts ⊢
  rw [hrows] at hcounts
  rw [hrows']
  obtain ⟨found, hfound, hcounts⟩ := bind_eq_ok.1 hcounts
  cases returns_runQuery h0 (.refl _) found hfound
  rw [topBy_perm _ hperm hn] at hcounts
  exact bind_eq_ok.2 ⟨rows', rfl, hcounts⟩

/-! ## The totals -/

theorem returns_totalLogCounts (hnone : NoTraffic db since) :
    Returns (totalLogCounts db since) (totalLogCounts db' 0) := by
  refine returns_runQuery h0 ?_
  obtain ⟨hlookup, hs⟩ := lookup_rebuildLifetimeStatistics h .total []
  rw [if_neg h0, if_pos rfl, hlookup, filter_hourlyRows_total]
  dsimp only
  rw [totalSums_eq_ok hs (traffic_hourlyRowsOf hnone), ok_bind]
  split_ifs with hnil
  · rw [hnil]
    exact .refl _
  · obtain ⟨row, rows, hrows⟩ := List.exists_cons_of_ne_nil hnil
    rw [hrows]
    exact .refl _

/-! ## All figures -/

/-- **Without traffic, the permanent rows show every figure of the window.** -/
theorem returns_logStats (hhourly : db'.statisticsHourly = db.statisticsHourly)
    (hnone : NoTraffic db since) {ρ : Type} [LinearOrder ρ] (sqlite : Sqlite ρ)
    {retentionHours : UInt32} {now now' trendNow trendNow' : ℕ}
    (hsince : sinceHourOf now retentionHours = since)
    (htrend : trendNow' / 3600 = trendNow / 3600) :
    Returns (logStats db sqlite retentionHours now trendNow)
      (logStats db' sqlite 0 now' trendNow') := by
  unfold logStats
  rw [hsince, show sinceHourOf now' 0 = 0 from rfl, trafficBuckets_congr hhourly sqlite htrend]
  refine (returns_totalLogCounts h h0 hnone).bind fun totals => ?_
  refine (returns_groupedDomainCounts h h0).bind fun domains => ?_
  refine (returns_clientCounts h h0).bind fun clients => ?_
  refine (returns_blocklistHitCounts h h0).bind fun blocklists => ?_
  refine (Returns.refl _).bind fun traffic => ?_
  refine (returns_trafficRank h h0 hnone .domain _).bind fun domainTraffic => ?_
  refine (returns_trafficRank h h0 hnone .client _).bind fun clientTraffic => ?_
  refine (returns_upstreamRequestCounts h h0).bind fun requests => ?_
  exact (returns_upstreamAvgLatency h h0 sqlite).bind fun latency => .refl _

end

/-! ## The traffic that was shown -/

section
variable {db db' : Database} {since : ℕ}

theorem traffic_readDashboardTotals {counts : StatDelta} {startedAt endedAt : Option ℕ}
    {totals : DashboardTotals} (ht : readDashboardTotals counts startedAt endedAt = .ok totals) :
    totals.traffic = counts.traffic := by
  simp only [readDashboardTotals, bind_eq_ok, pure_eq_ok] at ht
  obtain ⟨_, -, _, -, _, -, _, -, a, h1, b, h2, c, h3, d, h4, e, h5, _, -, _, -, rfl⟩ := ht
  exact TrafficTotals.ext (eq_of_readU64 h1) (eq_of_readU64 h2) (eq_of_readU64 h3)
    (eq_of_readU64 h4) (eq_of_readU64 h5)

theorem traffic_totalSums {deltas : List StatDelta} {sums : StatDelta}
    (hs : totalSums deltas = .ok sums) : sums.traffic = deltas.sum.traffic := by
  simp only [totalSums, bind_eq_ok, pure_eq_ok] at hs
  obtain ⟨_, -, _, -, _, -, _, -, a, h1, b, h2, c, h3, d, h4, e, h5, rfl⟩ := hs
  exact TrafficTotals.ext
    (eq_column_sum (·.traffic.clientBytesIn) rfl (fun _ _ => rfl) h1)
    (eq_column_sum (·.traffic.clientBytesOut) rfl (fun _ _ => rfl) h2)
    (eq_column_sum (·.traffic.upstreamBytesOut) rfl (fun _ _ => rfl) h3)
    (eq_column_sum (·.traffic.upstreamBytesIn) rfl (fun _ _ => rfl) h4)
    (eq_column_sum (·.traffic.cacheSavedBytes) rfl (fun _ _ => rfl) h5)

theorem traffic_totalLogCounts (h0 : since ≠ 0) {totals : DashboardTotals}
    (ht : totalLogCounts db since = .ok totals) :
    totals.traffic = (StatDelta.traffic ((hourlyRowsOf db .total [] since).map (·.2)).sum) := by
  unfold totalLogCounts runQuery at ht
  rw [if_neg h0, if_neg h0] at ht
  obtain ⟨_, -, ht⟩ := bind_eq_ok.1 ht
  obtain ⟨sums, hsums, ht⟩ := bind_eq_ok.1 (mapError_eq_ok.1 ht)
  rw [traffic_readDashboardTotals ht, traffic_totalSums hsums, filter_hourlyRows_total]

theorem traffic_totalLogCounts_rebuilt
    (h : rebuildLifetimeStatistics db.statisticsHourly (some since) db.dashboardSummaryStats =
      .ok db'.dashboardSummaryStats) {totals : DashboardTotals}
    (ht : totalLogCounts db' 0 = .ok totals) : totals.traffic = 0 := by
  unfold totalLogCounts runQuery at ht
  rw [if_pos rfl, if_pos rfl, (lookup_rebuildLifetimeStatistics h .total []).1] at ht
  replace ht := mapError_eq_ok.1 ht
  split_ifs at ht with hnil
  · cases ht
    rfl
  · exact traffic_readDashboardTotals ht

theorem totalLogCounts_of_logStats {ρ : Type} [LinearOrder ρ] {sqlite : Sqlite ρ}
    {retentionHours : UInt32} {now trendNow : ℕ} {shown : LogStats}
    (hl : logStats db sqlite retentionHours now trendNow = .ok shown) :
    ∃ totals, totalLogCounts db (sinceHourOf now retentionHours) = .ok totals ∧
      totals.traffic = shown.trafficTotals := by
  obtain ⟨totals, htotals, hl⟩ := bind_eq_ok.1 hl
  refine ⟨totals, htotals, ?_⟩
  simp only [bind_eq_ok, pure_eq_ok] at hl
  obtain ⟨_, -, _, -, _, -, _, -, _, -, _, -, _, -, _, -, rfl⟩ := hl
  rfl

/-- **Where the permanent rows show the totals of the window, it had no traffic.** -/
theorem traffic_eq_zero_of_shown
    (h : rebuildLifetimeStatistics db.statisticsHourly (some since) db.dashboardSummaryStats =
      .ok db'.dashboardSummaryStats) (h0 : since ≠ 0) {ρ : Type} [LinearOrder ρ]
    {sqlite : Sqlite ρ} {retentionHours : UInt32} {now now' trendNow trendNow' : ℕ}
    {shown : LogStats} (hsince : sinceHourOf now retentionHours = since)
    (hbefore : logStats db sqlite retentionHours now trendNow = .ok shown)
    (hafter : logStats db' sqlite 0 now' trendNow' = .ok shown) :
    ∀ row ∈ hourlyRowsOf db .total [] since, row.2.traffic = 0 := by
  obtain ⟨totals, htotals, heq⟩ := totalLogCounts_of_logStats hbefore
  obtain ⟨totals', htotals', heq'⟩ := totalLogCounts_of_logStats hafter
  rw [hsince] at htotals
  have hzero := traffic_totalLogCounts_rebuilt h htotals'
  rw [heq', ← heq, traffic_totalLogCounts h0 htotals] at hzero
  exact fun row hrow => traffic_sum_eq_zero.1 hzero _ (List.mem_map_of_mem hrow)

end

end DnsBlackhole.Database
