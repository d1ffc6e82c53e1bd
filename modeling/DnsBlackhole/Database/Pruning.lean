/-
  What pruning takes away is not shown.

  * `AgreeOn kept`: two databases with the same permanent rows, and the
    same hourly rows under the keys that are `kept`; `logStats_eq`: they show the
    same if all that is read is kept;
  * `pruneExpired_agreeOn`: pruning keeps the rows of its windows;
  * `run_agreeOn`: whatever is called later, the rows since the start of
    the longest window stay the same as if nothing had been pruned;
  * `pruneExpired_invisible` puts these together.
-/
import DnsBlackhole.Database.QueryLogs
import DnsBlackhole.Database.Retention

namespace DnsBlackhole.Database
open Admin (AppConfig)
open Lib

/-- The databases agree on the permanent rows and on the hourly rows that are kept. -/
structure AgreeOn (kept : HourlyStatKey → Bool) (db db' : Database) : Prop where
  retention : db.statisticsRetentionHours = db'.statisticsRetentionHours
  summary : db.dashboardSummaryStats = db'.dashboardSummaryStats
  hourly : Table.SameOn kept db.statisticsHourly db'.statisticsHourly

/-- The keys since an hour: one for the totals, one for the others. -/
def keptSince (detailSince totalSince : ℕ) (key : HourlyStatKey) : Bool :=
  if key.dimension = .total then totalSince ≤ key.hour else detailSince ≤ key.hour

variable {kept : HourlyStatKey → Bool} {db db' : Database}

/-! ## What is read -/

theorem hourlyRows_eq (h : AgreeOn kept db db') {dimension : Dimension} {since : ℕ}
    (hkept : ∀ key : HourlyStatKey, key.dimension = dimension → since ≤ key.hour → kept key) :
    hourlyRows db dimension since = hourlyRows db' dimension since := by
  have hmono : Table.SameOn (fun key => key.dimension = dimension ∧ since ≤ key.hour)
      db.statisticsHourly db'.statisticsHourly := by
    refine h.hourly.mono fun key hkey => ?_
    obtain ⟨hdimension, hsince⟩ := of_decide_eq_true hkey
    exact hkept key hdimension hsince
  exact hmono

/-- The window is kept, or the permanent rows are read. -/
def Reads (kept : HourlyStatKey → Bool) (since : ℕ) : Prop :=
  since ≠ 0 → ∀ key : HourlyStatKey, since ≤ key.hour → kept key

section
variable {since : ℕ} (h : AgreeOn kept db db') (hreads : Reads kept since)
include h hreads

theorem selectRows_eq {γ : Type} (dimension : Dimension) (columns : StatDelta → γ)
    (sums : List StatDelta → Except SqlError γ) :
    selectRows db dimension since columns sums = selectRows db' dimension since columns sums := by
  unfold selectRows
  split_ifs with h0
  · rw [lifetimeRows, lifetimeRows, h.summary]
  · rw [hourlyGroups, hourlyGroups, hourlyRows_eq h fun key _ => hreads h0 key]

theorem totalLogCounts_eq : totalLogCounts db since = totalLogCounts db' since := by
  unfold totalLogCounts
  split_ifs with h0
  · rw [h.summary]
  · rw [hourlyRows_eq h fun key _ => hreads h0 key]

theorem groupedDomainCounts_eq : groupedDomainCounts db since = groupedDomainCounts db' since := by
  unfold groupedDomainCounts
  rw [selectRows_eq h hreads]

theorem clientCounts_eq : clientCounts db since = clientCounts db' since := by
  unfold clientCounts
  rw [selectRows_eq h hreads]

theorem blocklistHitCounts_eq : blocklistHitCounts db since = blocklistHitCounts db' since := by
  unfold blocklistHitCounts
  rw [selectRows_eq h hreads]

theorem trafficRank_eq (dimension : Dimension) (label : String) :
    trafficRank db since dimension label = trafficRank db' since dimension label := by
  unfold trafficRank
  rw [selectRows_eq h hreads]

theorem upstreamRequestCounts_eq :
    upstreamRequestCounts db since = upstreamRequestCounts db' since := by
  unfold upstreamRequestCounts
  rw [selectRows_eq h hreads]

theorem upstreamAvgLatency_eq {ρ : Type} [LinearOrder ρ] (sqlite : Sqlite ρ) :
    upstreamAvgLatency db since sqlite = upstreamAvgLatency db' since sqlite := by
  unfold upstreamAvgLatency
  rw [selectRows_eq h hreads]

end

theorem trafficBuckets_eq {ρ : Type} (sqlite : Sqlite ρ) (h : AgreeOn kept db db') {now : ℕ}
    (htrend : ∀ key : HourlyStatKey, key.dimension = .total →
      (now - trafficRetentionHours * 3600) / 3600 ≤ key.hour → kept key) :
    trafficBuckets db sqlite now = trafficBuckets db' sqlite now := by
  unfold trafficBuckets
  by_cases hle : (now - trafficRetentionHours * 3600) / 3600 ≤ i64Max
  · rw [u64ToDbI64, if_pos hle, ok_bind, ok_bind, hourlyRows_eq h htrend]
  · rw [u64ToDbI64, if_neg hle]
    rfl

/-- **Databases that agree on what is read show the same.** -/
theorem logStats_eq {ρ : Type} [LinearOrder ρ] (sqlite : Sqlite ρ) {retentionHours : UInt32}
    {now trendNow : ℕ} (h : AgreeOn kept db db')
    (hreads : Reads kept (sinceHourOf now retentionHours))
    (htrend : ∀ key : HourlyStatKey, key.dimension = .total →
      (trendNow - trafficRetentionHours * 3600) / 3600 ≤ key.hour → kept key) :
    logStats db sqlite retentionHours now trendNow =
      logStats db' sqlite retentionHours now trendNow := by
  unfold logStats domainTrafficCounts clientTrafficCounts
  simp only [totalLogCounts_eq h hreads, groupedDomainCounts_eq h hreads, clientCounts_eq h hreads,
    blocklistHitCounts_eq h hreads, trafficBuckets_eq sqlite h htrend, trafficRank_eq h hreads,
    upstreamRequestCounts_eq h hreads, upstreamAvgLatency_eq h hreads]

/-! ## Later calls -/

section
variable {validate : AppConfig → Except DatabaseError Unit}

theorem executeHourlyStatUpsert_sameOn {t t' : Table HourlyStatKey StatDelta}
    (h : Table.SameOn kept t t') (key : HourlyStatKey) (delta : StatDelta) :
    Parallel (Table.SameOn kept) (executeHourlyStatUpsert t key delta)
      (executeHourlyStatUpsert t' key delta) :=
  .bind_left fun _ => .bind_left fun _ => .ok (h.upsert ..)

theorem executeStatUpserts_agreeOn (timestamp : ℕ) (h : AgreeOn kept db db')
    (row : Row HourlyStatKey StatDelta) : Parallel (AgreeOn kept)
      (executeStatUpserts timestamp db row) (executeStatUpserts timestamp db' row) := by
  refine (executeHourlyStatUpsert_sameOn h.hourly row.1 row.2).bind fun t t' ht => ?_
  rw [h.retention, h.summary]
  split_ifs
  · exact .bind_left fun _ => .ok ⟨rfl, rfl, ht⟩
  · exact .ok ⟨rfl, rfl, ht⟩

theorem executeQueryLogInsert_agreeOn (h : AgreeOn kept db db') (entry : QueryLogEntry)
    (anonymizeClientIp : Bool) (timestamp : ℕ) : Parallel (AgreeOn kept)
      (executeQueryLogInsert db entry anonymizeClientIp timestamp)
      (executeQueryLogInsert db' entry anonymizeClientIp timestamp) :=
  .bind_left fun _ => .bind_left fun _ => .ok ⟨h.retention, h.summary, h.hourly⟩

theorem insertQueryEvents_agreeOn (h : AgreeOn kept db db')
    (entries : List QueryPersistenceEntry) (timestamp : ℕ) : Parallel (AgreeOn kept)
      (insertQueryEvents db entries timestamp) (insertQueryEvents db' entries timestamp) := by
  unfold insertQueryEvents
  split_ifs
  · exact .ok h
  · have hlogs := Parallel.foldlM (l := entries.filter (·.persistLog))
      (fun db db' persisted (h : AgreeOn kept db db') => executeQueryLogInsert_agreeOn h
        persisted.entry persisted.anonymizeClientIp timestamp) h
    exact hlogs.bind fun db db' h =>
      .foldlM (fun db db' row h => executeStatUpserts_agreeOn timestamp h row) h

theorem saveConfig_agreeOn (h : AgreeOn kept db db') (config : AppConfig) (updatedAt now : ℕ)
    (hkept : ∀ key : HourlyStatKey,
      (now - db.statisticsRetentionHours.toNat * 3600) / 3600 ≤ key.hour → kept key) :
    Parallel (AgreeOn kept) (saveConfig validate db config updatedAt now)
      (saveConfig validate db' config updatedAt now) := by
  have hrows : ∀ statistics, rebuildLifetimeStatistics db.statisticsHourly
      (some ((now - db.statisticsRetentionHours.toNat * 3600) / 3600)) statistics =
        rebuildLifetimeStatistics db'.statisticsHourly
          (some ((now - db.statisticsRetentionHours.toNat * 3600) / 3600)) statistics := by
    intro statistics
    have hsame : Table.SameOn (fun key =>
        (now - db.statisticsRetentionHours.toNat * 3600) / 3600 ≤ key.hour)
          db.statisticsHourly db'.statisticsHourly :=
      h.hourly.mono fun key hkey => hkept key (of_decide_eq_true hkey)
    unfold rebuildLifetimeStatistics
    dsimp only
    rw [hsame]
  unfold saveConfig
  rw [← h.retention, ← h.summary]
  refine .bind_left fun _ => .bind_left fun _ => ?_
  dsimp only
  split_ifs with hswitch
  · unfold u64ToDbI64
    split_ifs
    · rw [ok_bind, ok_bind, hrows]
      exact .bind_left fun _ => .ok ⟨rfl, rfl, h.hourly⟩
    · exact .error _
  · exact .ok ⟨rfl, rfl, h.hourly⟩

theorem pruneExpired_agreeOn (h : AgreeOn kept db db') (queryLog statistics securityEvent : UInt32)
    (now : ℕ) : Parallel (AgreeOn kept) (pruneExpired db queryLog statistics securityEvent now)
      (pruneExpired db' queryLog statistics securityEvent now) := by
  unfold pruneExpired
  refine .bind_left fun _ => .bind_left fun detailSince => .bind_left fun trafficSince =>
    .bind_left fun _ => .bind_left fun _ => .ok ⟨h.retention, h.summary, ?_⟩
  exact (h.hourly.deleteWhere _).deleteWhere _

/-- A call at `now` or later, with a retention that may be configured. -/
def DatabaseEvent.LaterThan (now : ℕ) : DatabaseEvent → Prop
  | .insertQueryEvents _ _ => True
  | .saveConfig config _ later =>
    now ≤ later ∧ config.statisticsRetentionHours.toNat ≤ maxStatisticsRetentionHours
  | .pruneExpired _ _ _ _ => True
  | .clearStatistics => True

/-- The first hour of the longest window. -/
def longestSince (now : ℕ) : ℕ := (now - maxStatisticsRetentionHours * 3600) / 3600

theorem longestSince_le {now later hours : ℕ} (hnow : now ≤ later)
    (hhours : hours ≤ maxStatisticsRetentionHours) :
    longestSince now ≤ (later - hours * 3600) / 3600 :=
  Nat.div_le_div_right ((Nat.sub_le_sub_right hnow _).trans
    (Nat.sub_le_sub_left (Nat.mul_le_mul_right 3600 hhours) later))

theorem step_agreeOn (h : AgreeOn kept db db') {now : ℕ} {event : DatabaseEvent}
    (hlater : event.LaterThan now)
    (hretention : db.statisticsRetentionHours.toNat ≤ maxStatisticsRetentionHours)
    (hkept : ∀ key : HourlyStatKey, longestSince now ≤ key.hour → kept key) :
    Option.Rel (AgreeOn kept) ((databaseMachine validate).step db event)
      ((databaseMachine validate).step db' event) := by
  cases event with
  | insertQueryEvents entries timestamp =>
    exact (insertQueryEvents_agreeOn h entries timestamp).toOption
  | saveConfig config updatedAt later =>
    refine (saveConfig_agreeOn h config updatedAt later fun key hkey => hkept key ?_).toOption
    exact (longestSince_le hlater.1 hretention).trans hkey
  | pruneExpired queryLog statistics securityEvent later =>
    exact (pruneExpired_agreeOn h queryLog statistics securityEvent later).toOption
  | clearStatistics => exact .some ⟨h.retention, rfl, rfl⟩

theorem retention_step {now : ℕ} {event : DatabaseEvent} (hlater : event.LaterThan now)
    (hretention : db.statisticsRetentionHours.toNat ≤ maxStatisticsRetentionHours)
    (hstep : (databaseMachine validate).step db event = some db') :
    db'.statisticsRetentionHours.toNat ≤ maxStatisticsRetentionHours := by
  cases event with
  | insertQueryEvents entries timestamp =>
    rw [(insertQueryEvents_eq_ok (toOption_eq_some.1 hstep)).retention]
    exact hretention
  | saveConfig config updatedAt later =>
    rw [(saveConfig_eq_ok (toOption_eq_some.1 hstep)).1]
    exact hlater.2
  | pruneExpired queryLog statistics securityEvent later =>
    rw [(pruneExpired_eq_ok (toOption_eq_some.1 hstep)).1]
    exact hretention
  | clearStatistics =>
    cases hstep
    exact hretention

/-- **Whatever is called later**, the databases agree on the rows that are kept. -/
theorem run_agreeOn {now : ℕ} {events : List DatabaseEvent}
    (hlater : ∀ event ∈ events, event.LaterThan now) (h : AgreeOn kept db db')
    (hretention : db.statisticsRetentionHours.toNat ≤ maxStatisticsRetentionHours)
    (hkept : ∀ key : HourlyStatKey, longestSince now ≤ key.hour → kept key) :
    Option.Rel (AgreeOn kept) ((databaseMachine validate).run db events)
      ((databaseMachine validate).run db' events) := by
  induction events generalizing db db' with
  | nil => exact .some h
  | cons event events ih =>
    have hevent := hlater event List.mem_cons_self
    rw [Machine.run_cons, Machine.run_cons]
    have hstep : Option.Rel (AgreeOn kept) ((databaseMachine validate).step db event)
        ((databaseMachine validate).step db' event) := step_agreeOn h hevent hretention hkept
    have hnext : ∀ t, (databaseMachine validate).step db event = some t →
        t.statisticsRetentionHours.toNat ≤ maxStatisticsRetentionHours :=
      fun t ht => retention_step hevent hretention ht
    generalize (databaseMachine validate).step db event = x at hstep hnext ⊢
    generalize (databaseMachine validate).step db' event = y at hstep ⊢
    cases hstep with
    | none => exact .none
    | some hagree =>
      exact ih (fun event' hevent' => hlater event' (List.mem_cons_of_mem _ hevent')) hagree
        (hnext _ rfl)

end

/-! ## Pruning -/

section
variable {q r s : UInt32} {now : ℕ}

/-- The first hours that pruning keeps, of the totals and of the others. -/
def detailSince (r : UInt32) (now : ℕ) : ℕ :=
  if r = 0 then longestSince now else sinceHourOf now r

def totalSince (r : UInt32) (now : ℕ) : ℕ :=
  min (detailSince r now) ((now - trafficRetentionHours * 3600) / 3600)

theorem pruneExpired_keeps (h : pruneExpired db q r s now = .ok db') :
    AgreeOn (keptSince (detailSince r now) (totalSince r now)) db db' ∧
      db'.queryLogs = db.queryLogs.filter fun row => now - q.toNat * 3600 ≤ row.timestamp := by
  have hdetailSince : (now - (if r = 0 then maxStatisticsRetentionHours else r.toNat) * 3600) / 3600 =
      detailSince r now := by
    unfold detailSince longestSince sinceHourOf
    split_ifs <;> rfl
  simp only [pruneExpired, bind_eq_ok, pure_eq_ok, hdetailSince] at h
  obtain ⟨_, hquery, _, hdetail, _, htraffic, _, -, _, -, rfl⟩ := h
  cases eq_of_u64ToDbI64 hquery
  cases eq_of_u64ToDbI64 hdetail
  cases eq_of_u64ToDbI64 htraffic
  refine ⟨⟨rfl, rfl, ?_⟩, rfl⟩
  rw [Table.SameOn, Table.deleteWhere, Table.deleteWhere, List.filter_filter, List.filter_filter]
  refine List.filter_congr fun row _ => ?_
  rw [keptSince]
  by_cases htotal : row.1.dimension = .total
  · simp [htotal, totalSince]
  · simp [htotal]

theorem querySince_ge {query : QueryLogQuery} (hq : query.retentionHours ≠ 0)
    (hhours : query.hours ≠ some 0) :
    now - query.retentionHours.toNat * 3600 ≤ querySince query now := by
  have heffective : effectiveHours query.retentionHours query.hours ≠ 0 ∧
      (effectiveHours query.retentionHours query.hours).toNat ≤ query.retentionHours.toNat := by
    unfold effectiveHours
    cases hrequested : query.hours with
    | none => exact ⟨hq, le_rfl⟩
    | some requested =>
      have hmin : min query.retentionHours requested =
          if query.retentionHours ≤ requested then query.retentionHours else requested := rfl
      dsimp only
      rw [if_neg hq, hmin]
      split_ifs with hle
      · exact ⟨hq, le_rfl⟩
      · refine ⟨fun hzero => hhours (hrequested.trans (congrArg some hzero)), ?_⟩
        rw [UInt32.le_iff_toNat_le] at hle
        exact Nat.le_of_not_le hle
  rw [querySince, if_neg heffective.1]
  exact Nat.sub_le_sub_left (Nat.mul_le_mul_right 3600 heffective.2) now

theorem queryLogsAdvanced_eq (slowest : List QueryLogRow → List QueryLogRow) {query : QueryLogQuery}
    (h : db'.queryLogs = db.queryLogs.filter fun row =>
      now - query.retentionHours.toNat * 3600 ≤ row.timestamp)
    (hq : query.retentionHours ≠ 0) (hhours : query.hours ≠ some 0) :
    queryLogsAdvanced slowest db' query now = queryLogsAdvanced slowest db query now := by
  have hfound : db'.queryLogs.filter (fun row => baseWhere row query (querySince query now)) =
      db.queryLogs.filter fun row => baseWhere row query (querySince query now) := by
    rw [h, List.filter_filter]
    refine List.filter_congr fun row _ => ?_
    cases hrow : baseWhere row query (querySince query now)
    · rfl
    · have hsince := (of_decide_eq_true hrow).1
      exact decide_eq_true ((querySince_ge hq hhours).trans hsince)
  unfold queryLogsAdvanced
  by_cases hle : querySince query now ≤ i64Max
  · rw [u64ToDbI64, if_pos hle, ok_bind, ok_bind]
    dsimp only
    rw [hfound]
  · rw [u64ToDbI64, if_neg hle]
    rfl

/-- **Pruning is not seen**: not in the statistics, with the retention it was given, not in
    the query log, and after it with permanent statistics not later either, whatever is called
    and whichever retention is configured. -/
theorem pruneExpired_invisible (validate : AppConfig → Except DatabaseError Unit)
    (slowest : List QueryLogRow → List QueryLogRow) {ρ : Type} [LinearOrder ρ] (sqlite : Sqlite ρ)
    (hq : q ≠ 0) (h : pruneExpired db q r s now = .ok db') :
    logStats db' sqlite r now now = logStats db sqlite r now now ∧
    (∀ query : QueryLogQuery, query.retentionHours = q → query.hours ≠ some 0 →
      queryLogsAdvanced slowest db' query now = queryLogsAdvanced slowest db query now) ∧
    (r = 0 → db.statisticsRetentionHours.toNat ≤ maxStatisticsRetentionHours →
      ∀ events : List DatabaseEvent, (∀ event ∈ events, event.LaterThan now) →
      ∀ (retention : UInt32) (later trendLater : ℕ),
        retention.toNat ≤ maxStatisticsRetentionHours → now ≤ later → now ≤ trendLater →
        (((databaseMachine validate).run db' events).map fun db' =>
          logStats db' sqlite retention later trendLater) =
            ((databaseMachine validate).run db events).map fun db =>
              logStats db sqlite retention later trendLater) := by
  obtain ⟨hagree, hlogs⟩ := pruneExpired_keeps h
  have htrend : ∀ {later : ℕ}, now ≤ later → ∀ key : HourlyStatKey, key.dimension = .total →
      (later - trafficRetentionHours * 3600) / 3600 ≤ key.hour →
        keptSince (detailSince r now) (totalSince r now) key := by
    intro later hlater key htotal hsince
    rw [keptSince, if_pos htotal]
    refine decide_eq_true ((min_le_right _ _).trans (le_trans ?_ hsince))
    exact Nat.div_le_div_right (Nat.sub_le_sub_right hlater _)
  have hdetail : ∀ {since : ℕ}, detailSince r now ≤ since →
      Reads (keptSince (detailSince r now) (totalSince r now)) since := by
    intro since hle h0 key hkey
    unfold keptSince
    split_ifs
    · exact decide_eq_true ((min_le_left _ _).trans (hle.trans hkey))
    · exact decide_eq_true (hle.trans hkey)
  refine ⟨(logStats_eq sqlite hagree ?_ (htrend le_rfl)).symm, fun query hquery hhours => ?_, ?_⟩
  · by_cases h0 : r = 0
    · -- permanent statistics are not read from the hourly rows
      rw [sinceHourOf, if_pos h0]
      exact fun hne => absurd rfl hne
    · exact hdetail (if_neg h0).le
  · subst hquery
    exact queryLogsAdvanced_eq slowest hlogs hq hhours
  · intro h0 hretention events hevents retention later trendLater hmax hlater htrendLater
    have hsince : detailSince r now = longestSince now := if_pos h0
    have hkept : ∀ key : HourlyStatKey, longestSince now ≤ key.hour →
        keptSince (detailSince r now) (totalSince r now) key := by
      intro key hkey
      unfold keptSince totalSince
      rw [hsince]
      split_ifs
      · exact decide_eq_true ((min_le_left _ _).trans hkey)
      · exact decide_eq_true hkey
    have hrun : Option.Rel (AgreeOn (keptSince (detailSince r now) (totalSince r now)))
        ((databaseMachine validate).run db events) ((databaseMachine validate).run db' events) :=
      run_agreeOn hevents hagree hretention hkept
    have hreads : Reads (keptSince (detailSince r now) (totalSince r now))
        (sinceHourOf later retention) := by
      by_cases hzero : retention = 0
      · rw [sinceHourOf, if_pos hzero]
        exact fun hne => absurd rfl hne
      · refine hdetail ?_
        rw [hsince, sinceHourOf, if_neg hzero]
        exact longestSince_le hlater hmax
    generalize (databaseMachine validate).run db events = x at hrun ⊢
    generalize (databaseMachine validate).run db' events = y at hrun ⊢
    cases hrun with
    | none => rfl
    | some hagree =>
      exact congrArg some (logStats_eq sqlite hagree hreads (htrend htrendLater)).symm

end

/-! ### An old row -/

/-- A row of the domains at hour 0, and one at hour 50. -/
def twoHours : Database where
  queryLogs := [sampleRow 1]
  statisticsHourly := (Table.upsert ∅ (· + ·) ⟨50, .domain, "a".toList⟩ { queries := 2 }).upsert
    (· + ·) ⟨0, .domain, "a".toList⟩ { queries := 1 }

/-- At hour 60 a day is kept: the row of hour 0 goes. -/
theorem pruneExpired_invisible_sample :
    ∃ db', pruneExpired twoHours 24 24 24 (60 * 3600) = .ok db' ∧
      db'.statisticsHourly.keys = [⟨50, .domain, "a".toList⟩] ∧
      logStats db' sampleSqlite 24 (60 * 3600) (60 * 3600) =
        logStats twoHours sampleSqlite 24 (60 * 3600) (60 * 3600) := by
  have hkeys : ((pruneExpired twoHours 24 24 24 (60 * 3600)).toOption.map fun db' =>
      db'.statisticsHourly.keys) = some [⟨50, .domain, "a".toList⟩] := by decide +kernel
  obtain ⟨db', hdb', hkeys⟩ := Option.map_eq_some_iff.1 hkeys
  have hprune := toOption_eq_some.1 hdb'
  exact ⟨db', hprune, hkeys,
    (pruneExpired_invisible accepts id sampleSqlite (by decide) hprune).1⟩

end DnsBlackhole.Database
