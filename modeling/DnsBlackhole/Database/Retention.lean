/-
  Statistics over the life of a database.

  * `databaseMachine`: its calls, each at some time.  A call that fails has
    changed nothing and is no event;
  * `reachable_totalsCover`: no hourly row of a reachable database has traffic
    unless the total row of its hour has;
  * `lifetimeCounts_run`: while the retention is permanent, every permanent row
    is what it was plus the sum of the batches since;
  * `permanentSwitch_keeps_iff`: making the retention permanent keeps what was
    shown if and only if the window carried no traffic.
-/
import DnsBlackhole.Database.Batches
import DnsBlackhole.Database.Permanent
import DnsBlackhole.Lib.Machine

namespace DnsBlackhole.Database
open Admin (AppConfig)
open Lib

inductive DatabaseEvent
  | insertQueryEvents (entries : List QueryPersistenceEntry) (timestamp : ℕ)
  | saveConfig (config : AppConfig) (updatedAt now : ℕ)
  | pruneExpired (queryLogRetentionHours statisticsRetentionHours
      securityEventRetentionHours : UInt32) (now : ℕ)
  | clearStatistics

variable (validate : AppConfig → Except DatabaseError Unit)

def databaseStep (db : Database) : DatabaseEvent → Option Database
  | .insertQueryEvents entries timestamp => (insertQueryEvents db entries timestamp).toOption
  | .saveConfig config updatedAt now => (saveConfig validate db config updatedAt now).toOption
  | .pruneExpired queryLog statistics securityEvent now =>
    (pruneExpired db queryLog statistics securityEvent now).toOption
  | .clearStatistics => some (clearStatistics db)

/-- A new database; until a configuration is saved the retention is permanent. -/
def databaseMachine : Machine Database DatabaseEvent where
  init := {}
  step := databaseStep validate

variable {validate}

/-! ## Calls -/

section
variable {db db' : Database}

theorem saveConfig_eq_ok {config : AppConfig} {updatedAt now : ℕ}
    (h : saveConfig validate db config updatedAt now = .ok db') :
    db'.statisticsRetentionHours = config.statisticsRetentionHours ∧
      db'.statisticsHourly = db.statisticsHourly ∧
      if config.statisticsRetentionHours = 0 ∧ db.statisticsRetentionHours ≠ 0 then
        rebuildLifetimeStatistics db.statisticsHourly
          (some ((now - db.statisticsRetentionHours.toNat * 3600) / 3600))
          db.dashboardSummaryStats = .ok db'.dashboardSummaryStats
      else db'.dashboardSummaryStats = db.dashboardSummaryStats := by
  obtain ⟨-, -, h⟩ := bind_eq_ok.1 h
  obtain ⟨_, -, h⟩ := bind_eq_ok.1 h
  split_ifs with hswitch
  · rw [if_pos hswitch] at h
    obtain ⟨since, hsince, h⟩ := bind_eq_ok.1 h
    cases eq_of_u64ToDbI64 hsince
    obtain ⟨summary, hsummary, h⟩ := bind_eq_ok.1 h
    cases pure_eq_ok.1 h
    exact ⟨rfl, rfl, hsummary⟩
  · rw [if_neg hswitch] at h
    obtain ⟨summary, hsummary, h⟩ := bind_eq_ok.1 h
    cases pure_eq_ok.1 hsummary
    cases pure_eq_ok.1 h
    exact ⟨rfl, rfl, rfl⟩

/-- Pruning keeps the total row of every hour of which it keeps another row, and it
    deletes no permanent row. -/
theorem pruneExpired_eq_ok {queryLog statistics securityEvent : UInt32} {now : ℕ}
    (h : pruneExpired db queryLog statistics securityEvent now = .ok db') :
    db'.statisticsRetentionHours = db.statisticsRetentionHours ∧
      db'.dashboardSummaryStats = db.dashboardSummaryStats ∧
      ∃ detailSince totalSince, totalSince ≤ detailSince ∧ ∀ key, hourlyCounts db' key =
        if key.hour < (if key.dimension = .total then totalSince else detailSince) then 0
        else hourlyCounts db key := by
  simp only [pruneExpired, bind_eq_ok, pure_eq_ok] at h
  obtain ⟨_, -, detailSince, -, trafficSince, -, _, -, _, -, rfl⟩ := h
  refine ⟨rfl, rfl, detailSince, min detailSince trafficSince, min_le_left _ _, fun key => ?_⟩
  by_cases htotal : key.dimension = .total
  · simp only [hourlyCounts, Table.amount, Table.lookup_deleteWhere, htotal, if_true]
    split_ifs <;> simp_all
  · simp only [hourlyCounts, Table.amount, Table.lookup_deleteWhere, htotal, if_false]
    split_ifs <;> simp_all

/-! ## The traffic of a reachable database -/

/-- No hourly row has traffic unless the total row of its hour has. -/
def TotalsCover (db : Database) : Prop :=
  ∀ key : HourlyStatKey, (hourlyCounts db ⟨key.hour, .total, []⟩).traffic = 0 →
    (hourlyCounts db key).traffic = 0

theorem traffic_hourlyCounts (db : Database) (key : HourlyStatKey) :
    (hourlyCounts db key).traffic = db.statisticsHourly.amount StatDelta.traffic key := by
  unfold hourlyCounts Table.amount
  cases db.statisticsHourly.lookup key <;> rfl

theorem totalsCover_insertQueryEvents {entries : List QueryPersistenceEntry} {timestamp : ℕ}
    (hc : TotalsCover db) (h : insertQueryEvents db entries timestamp = .ok db') :
    TotalsCover db' := by
  have hadded := insertQueryEvents_eq_ok h
  intro key htotal
  rw [hadded.hourly] at htotal ⊢
  obtain ⟨hbefore, hbatch⟩ := traffic_eq_zero_of_add htotal
  have hrow := traffic_aggregateHourlyStats (traffic_sumWhere_key.1 hbatch)
  have hadd : ∀ a b : StatDelta, a.traffic = 0 → b.traffic = 0 → (a + b).traffic = 0 :=
    fun a b ha hb => (congrArg₂ (· + ·) ha hb).trans (add_zero 0)
  exact hadd _ _ (hc key hbefore) (traffic_sumWhere_key.2 hrow)

theorem totalsCover_pruneExpired {queryLog statistics securityEvent : UInt32} {now : ℕ}
    (hc : TotalsCover db) (h : pruneExpired db queryLog statistics securityEvent now = .ok db') :
    TotalsCover db' := by
  obtain ⟨-, -, detailSince, totalSince, hle, hcounts⟩ := pruneExpired_eq_ok h
  intro key htotal
  rw [hcounts] at htotal ⊢
  have hbound : totalSince ≤ if key.dimension = .total then totalSince else detailSince := by
    split_ifs
    · exact le_rfl
    · exact hle
  by_cases hkey : key.hour < if key.dimension = .total then totalSince else detailSince
  · rw [if_pos hkey]
    rfl
  · rw [if_pos rfl, if_neg fun hlt => hkey (hlt.trans_le hbound)] at htotal
    rw [if_neg hkey]
    exact hc key htotal

end

/-- **In every reachable database the totals have the traffic of the other rows.** -/
theorem reachable_totalsCover {db : Database} (h : (databaseMachine validate).Reachable db) :
    TotalsCover db := by
  refine h.inv (P := TotalsCover) (fun key _ => rfl) fun db event db' hc hstep => ?_
  cases event with
  | insertQueryEvents entries timestamp =>
    exact totalsCover_insertQueryEvents hc (toOption_eq_some.1 hstep)
  | saveConfig config updatedAt now =>
    have hhourly := (saveConfig_eq_ok (toOption_eq_some.1 hstep)).2.1
    intro key
    unfold hourlyCounts
    rw [hhourly]
    exact hc key
  | pruneExpired queryLog statistics securityEvent now =>
    exact totalsCover_pruneExpired hc (toOption_eq_some.1 hstep)
  | clearStatistics =>
    cases hstep
    exact fun key _ => rfl

theorem noTraffic_of_totals {db : Database} {since : ℕ} (hc : TotalsCover db)
    (h : ∀ row ∈ hourlyRowsOf db .total [] since, row.2.traffic = 0) : NoTraffic db since := by
  rintro ⟨key, delta⟩ hmem hsince
  have htotal : (hourlyCounts db ⟨key.hour, .total, []⟩).traffic = 0 := by
    rw [traffic_hourlyCounts]
    cases hrow : db.statisticsHourly.lookup ⟨key.hour, .total, []⟩ with
    | none =>
      rw [Table.amount, hrow]
      rfl
    | some total =>
      rw [Table.amount_of_lookup hrow]
      refine h ⟨⟨key.hour, .total, []⟩, total⟩ (List.mem_filter.2 ⟨List.mem_filter.2
        ⟨(Table.mem_entries_iff _).2 hrow, ?_⟩, decide_eq_true rfl⟩)
      exact decide_eq_true ⟨rfl, hsince⟩
  have hzero := hc key htotal
  rwa [traffic_hourlyCounts, Table.amount_of_lookup ((Table.mem_entries_iff _).1 hmem)] at hzero

/-! ## Permanent statistics -/

/-- The calls that leave the retention permanent and the statistics in place. -/
def DatabaseEvent.KeepsPermanent : DatabaseEvent → Prop
  | .insertQueryEvents _ _ => True
  | .saveConfig config _ _ => config.statisticsRetentionHours = 0
  | .pruneExpired _ _ _ _ => True
  | .clearStatistics => False

/-- What a call adds to the permanent row of a dimension and a value. -/
def DatabaseEvent.batchDelta (dimension : Dimension) (value : Text) : DatabaseEvent → StatDelta
  | .insertQueryEvents entries timestamp => batchSum entries timestamp dimension value
  | _ => 0

theorem lifetimeCounts_step {db db' : Database} {event : DatabaseEvent}
    (h0 : db.statisticsRetentionHours = 0) (hkeeps : event.KeepsPermanent)
    (hstep : (databaseMachine validate).step db event = some db') :
    db'.statisticsRetentionHours = 0 ∧ ∀ dimension value,
      lifetimeCounts db' dimension value =
        lifetimeCounts db dimension value + event.batchDelta dimension value := by
  cases event with
  | insertQueryEvents entries timestamp =>
    have hadded := insertQueryEvents_eq_ok (toOption_eq_some.1 hstep)
    exact ⟨hadded.retention.trans h0, hadded.lifetime h0⟩
  | saveConfig config updatedAt now =>
    obtain ⟨hretention, -, hsummary⟩ := saveConfig_eq_ok (toOption_eq_some.1 hstep)
    rw [if_neg fun hswitch => hswitch.2 h0] at hsummary
    refine ⟨hretention.trans hkeeps, fun dimension value => ?_⟩
    rw [lifetimeCounts, hsummary]
    exact (add_zero _).symm
  | pruneExpired queryLog statistics securityEvent now =>
    obtain ⟨hretention, hsummary, -⟩ := pruneExpired_eq_ok (toOption_eq_some.1 hstep)
    refine ⟨hretention.trans h0, fun dimension value => ?_⟩
    rw [lifetimeCounts, hsummary]
    exact (add_zero _).symm
  | clearStatistics => exact absurd hkeeps id

/-- **Permanent rows add up the batches**, column by column. -/
theorem lifetimeCounts_run : ∀ (events : List DatabaseEvent) {db db' : Database},
    db.statisticsRetentionHours = 0 → (∀ event ∈ events, event.KeepsPermanent) →
    (databaseMachine validate).run db events = some db' → ∀ dimension value,
      lifetimeCounts db' dimension value = lifetimeCounts db dimension value +
        (events.map (DatabaseEvent.batchDelta dimension value)).sum
  | [], db, db', _, _, hr, dimension, value => by
    cases hr
    exact (add_zero _).symm
  | event :: events, db, db', h0, hkeeps, hr, dimension, value => by
    obtain ⟨db₁, hstep, hrest⟩ := (databaseMachine validate).run_cons_eq_some.1 hr
    obtain ⟨h1, hadds⟩ := lifetimeCounts_step h0 (hkeeps event List.mem_cons_self) hstep
    rw [lifetimeCounts_run events h1 (fun e he => hkeeps e (List.mem_cons_of_mem _ he)) hrest,
      hadds, List.map_cons, List.sum_cons, add_assoc]

/-! ## The switch to permanent statistics -/

/-- The columns a window shows of a dimension and a value. -/
def windowCounts (db : Database) (dimension : Dimension) (value : Text) (since : ℕ) : StatDelta :=
  ((hourlyRowsOf db dimension value since).map (·.2)).sum

theorem lifetimeCounts_rebuilt {db db' : Database} {since : ℕ}
    (h : rebuildLifetimeStatistics db.statisticsHourly (some since) db.dashboardSummaryStats =
      .ok db'.dashboardSummaryStats) (dimension : Dimension) (value : Text) :
    lifetimeCounts db' dimension value =
      (windowCounts db dimension value since).withoutTraffic := by
  have hlookup := (lookup_rebuildLifetimeStatistics h dimension value).1
  unfold lifetimeCounts windowCounts
  split_ifs at hlookup with hnil
  · rw [Table.amount, hlookup, hnil]
    rfl
  · rw [Table.amount_of_lookup hlookup]
    rfl

theorem withoutTraffic_windowCounts {db : Database} {since : ℕ} (hnone : NoTraffic db since)
    (dimension : Dimension) (value : Text) :
    (windowCounts db dimension value since).withoutTraffic =
      windowCounts db dimension value since :=
  StatDelta.ext rfl rfl rfl rfl rfl rfl rfl
    (traffic_sum_eq_zero.2 (traffic_hourlyRowsOf hnone)).symm

theorem sinceHourOf_congr {now now' : ℕ} {hours : UInt32} (h0 : hours ≠ 0)
    (hnow : now / 3600 = now' / 3600) : sinceHourOf now hours = sinceHourOf now' hours := by
  rw [sinceHourOf, sinceHourOf, if_neg h0, if_neg h0, div_sub_hours, div_sub_hours, hnow]

section
variable {ρ : Type} [LinearOrder ρ] (sqlite : Sqlite ρ) {db db' : Database} {config : AppConfig}
  {updatedAt now : ℕ}

/-- **The switch to permanent statistics** keeps every figure that was shown in its hour, and
    the permanent rows add the later batches to what the window showed, if and only if no
    row of the window carries traffic: the rebuilt rows leave the traffic out. -/
theorem permanentSwitch_keeps_iff (hr : (databaseMachine validate).Reachable db)
    (hfinite : db.statisticsRetentionHours ≠ 0) (hpermanent : config.statisticsRetentionHours = 0)
    (hsave : saveConfig validate db config updatedAt now = .ok db')
    {before trendBefore after trendAfter : ℕ}
    (hhour : ∀ time ∈ [before, trendBefore, after, trendAfter], time / 3600 = now / 3600)
    (hwindow : db.statisticsRetentionHours.toNat < now / 3600) {shown : LogStats}
    (hshown : logStats db sqlite db.statisticsRetentionHours before trendBefore = .ok shown) :
    (logStats db' sqlite 0 after trendAfter = .ok shown ∧
      ∀ events db'', (∀ event ∈ events, event.KeepsPermanent) →
        (databaseMachine validate).run db' events = some db'' → ∀ dimension value,
          lifetimeCounts db'' dimension value =
            windowCounts db dimension value (sinceHourOf now db.statisticsRetentionHours) +
              (events.map (DatabaseEvent.batchDelta dimension value)).sum) ↔
    NoTraffic db (sinceHourOf now db.statisticsRetentionHours) := by
  obtain ⟨hretention, hhourly, hsummary⟩ := saveConfig_eq_ok hsave
  rw [if_pos ⟨hpermanent, hfinite⟩] at hsummary
  have hnow : sinceHourOf now db.statisticsRetentionHours =
      (now - db.statisticsRetentionHours.toNat * 3600) / 3600 := if_neg hfinite
  have h0 : sinceHourOf now db.statisticsRetentionHours ≠ 0 := by
    rw [hnow, div_sub_hours]
    omega
  rw [← hnow] at hsummary
  have hbefore : sinceHourOf before db.statisticsRetentionHours =
      sinceHourOf now db.statisticsRetentionHours :=
    sinceHourOf_congr hfinite (hhour before (by simp))
  constructor
  · rintro ⟨hafter, -⟩
    exact noTraffic_of_totals (reachable_totalsCover hr)
      (traffic_eq_zero_of_shown hsummary h0 hbefore hshown hafter)
  · intro hnone
    refine ⟨returns_logStats hsummary h0 hhourly hnone sqlite hbefore ?_ shown hshown, ?_⟩
    · rw [hhour trendAfter (by simp), hhour trendBefore (by simp)]
    · intro events db'' hkeeps hrun dimension value
      rw [lifetimeCounts_run events (hretention.trans hpermanent) hkeeps hrun,
        lifetimeCounts_rebuilt hsummary, withoutTraffic_windowCounts hnone]

end

/-! ### A day of statistics -/

/-- The configuration of a resolver that keeps its statistics for some hours. -/
def retainingConfig (statisticsRetentionHours : UInt32) : AppConfig :=
  { (default : AppConfig) with
    enabled := true
    listenHost := "0.0.0.0".toList
    listenPort := 53
    upstreamDns := "223.5.5.5".toList
    bootstrapDns := "223.5.5.5".toList
    filterUpdateIntervalHours := 12
    filterMaxSizeMb := 200
    queryLogRetentionHours := 2160
    statisticsEnabled := true
    statisticsRetentionHours
    securityEventRetentionHours := 720
    dnsCacheOptimisticMaxStaleSeconds := 43200
    dnsCachePrefetchHitThreshold := 10
    runtimeWatchdogIntervalSeconds := 30
    monitoringApiListenHost := "127.0.0.1".toList
    monitoringApiPort := 9095
    webAdminSessionIdleMinutes := 60 }

/-- A blocked query of 40 bytes, with a response of 56, or one counted without bytes. -/
def blockedQuery (counted : Bool) : QueryPersistenceEntry where
  entry :=
    { domain := "ads.example".toList, queryType := 1, queryClass := 1, transport := "udp".toList
      responseSource := "blocked".toList, clientIp := some "10.0.0.7".toList, blocked := true
      forwarded := false, failed := false, upstreamServer := none, upstreamDurationMs := none
      error := none, matchedRule := none, ruleSource := some "list".toList, ruleType := none
      importantOverrode := false, allowlistRule := none
      traffic := if counted then { clientBytesIn := 40, clientBytesOut := 56 } else {} }
  anonymizeClientIp := false
  persistLog := true
  persistStatistics := true
  trafficOnly := false

def accepts : AppConfig → Except DatabaseError Unit := fun _ => .ok ()

def sampleTime : ℕ := 1700000000

/-- Statistics of a day are kept, and a query comes in. -/
def retainedDay (counted : Bool) : Database :=
  ((databaseMachine accepts).run {} [
    .saveConfig (retainingConfig 24) sampleTime sampleTime,
    .insertQueryEvents [blockedQuery counted] sampleTime]).getD {}

/-- The statistics are made permanent a minute later. -/
def permanentDay (counted : Bool) : Database :=
  ((saveConfig accepts (retainedDay counted) (retainingConfig 0) (sampleTime + 60)
    (sampleTime + 60)).toOption).getD {}

def sampleSqlite : Sqlite ℕ where
  quotient total samples := total / samples
  rounded := id
  localDate hour := hour / 24
  dayStart hour := hour / 24 * 1440

/-- What a window shows of the bytes of the clients. -/
def shownBytes (stats : Except DatabaseError LogStats) : Option ℕ :=
  stats.toOption.map fun stats => stats.trafficTotals.clientBytesIn

theorem run_retainedDay (counted : Bool) : (databaseMachine accepts).run {} [
    .saveConfig (retainingConfig 24) sampleTime sampleTime,
    .insertQueryEvents [blockedQuery counted] sampleTime] = some (retainedDay counted) := by
  cases counted <;> rfl

theorem saveConfig_retainedDay (counted : Bool) :
    saveConfig accepts (retainedDay counted) (retainingConfig 0) (sampleTime + 60)
      (sampleTime + 60) = .ok (permanentDay counted) := by
  have hsome : (saveConfig accepts (retainedDay counted) (retainingConfig 0) (sampleTime + 60)
      (sampleTime + 60)).toOption.isSome = true := by
    cases counted <;> decide +kernel
  obtain ⟨db, hdb⟩ := Option.isSome_iff_exists.1 hsome
  rw [permanentDay, hdb]
  exact toOption_eq_some.1 hdb

/-- The bytes that were shown are gone. -/
theorem permanentSwitch_loses_traffic :
    ∃ db db' shown, (databaseMachine accepts).Reachable db ∧ db.statisticsRetentionHours = 24 ∧
      saveConfig accepts db (retainingConfig 0) (sampleTime + 60) (sampleTime + 60) = .ok db' ∧
      logStats db sampleSqlite 24 sampleTime sampleTime = .ok shown ∧
      logStats db' sampleSqlite 0 (sampleTime + 60) (sampleTime + 60) ≠ .ok shown := by
  have hbefore : shownBytes (logStats (retainedDay true) sampleSqlite 24 sampleTime sampleTime) =
      some 40 := by decide +kernel
  have hafter : shownBytes (logStats (permanentDay true) sampleSqlite 0 (sampleTime + 60)
      (sampleTime + 60)) = some 0 := by decide +kernel
  obtain ⟨shown, hshown, h40⟩ := Option.map_eq_some_iff.1 hbefore
  refine ⟨retainedDay true, permanentDay true, shown, ⟨_, run_retainedDay true⟩, rfl,
    saveConfig_retainedDay true, toOption_eq_some.1 hshown, fun heq => ?_⟩
  rw [heq] at hafter
  cases Option.some.inj (hafter.symm.trans (congrArg some h40))

/-- Without bytes nothing is lost. -/
theorem permanentSwitch_keeps_counts :
    ∃ shown, logStats (retainedDay false) sampleSqlite 24 sampleTime sampleTime = .ok shown ∧
      logStats (permanentDay false) sampleSqlite 0 (sampleTime + 60) (sampleTime + 60) =
        .ok shown := by
  have hbefore : shownBytes (logStats (retainedDay false) sampleSqlite 24 sampleTime sampleTime) =
      some 0 := by decide +kernel
  obtain ⟨shown, hshown, -⟩ := Option.map_eq_some_iff.1 hbefore
  have hshown := toOption_eq_some.1 hshown
  have hhour : ∀ time ∈ [sampleTime, sampleTime, sampleTime + 60, sampleTime + 60],
      time / 3600 = (sampleTime + 60) / 3600 := by decide
  have hiff := permanentSwitch_keeps_iff sampleSqlite ⟨_, run_retainedDay false⟩ (by decide) rfl
    (saveConfig_retainedDay false) hhour (by decide) hshown
  exact ⟨shown, hshown, (hiff.2 (by decide +kernel)).1⟩

end DnsBlackhole.Database
