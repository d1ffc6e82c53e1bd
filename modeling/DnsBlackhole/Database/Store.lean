/-
  What the program writes into the statistics (`database.rs`).

  A function that fails has rolled its transaction back: it gives an error and
  no database.  The times are arguments, one for each reading of the clock.

  * `insertQueryEvents` adds the sums of a batch (`aggregateHourlyStats`) to the
    hourly rows and, while the retention is permanent, to the permanent ones;
  * `saveConfig` builds the permanent rows anew from the hourly ones
    (`rebuildLifetimeStatistics`) when the retention becomes permanent;
  * `pruneExpired` and `clearStatistics` delete.
-/
import DnsBlackhole.Cache.Store
import DnsBlackhole.Database.Tables

namespace DnsBlackhole.Database
open Admin (AppConfig TrafficTotals)
open Cache (saturatingAdd64)
open Lib (Row Table groupBy)

def maxStatisticsRetentionHours : ℕ := 24 * 365
def trafficRetentionHours : ℕ := 30 * 24

/-! ## The sums of a batch -/

/-- The address without its last part, as it is written out; other texts stay. -/
def anonymizeIp (value : Text) : Text :=
  match parseIpAddr value with
  | some (.v4 addr) => Ipv4Addr.display { addr with fourth := 0 }
  | some (.v6 addr) => segmentsText (addr.segments.take 4 ++ [0, 0, 0, 0])
  | none => value

def storedClientIp (entry : QueryLogEntry) (anonymizeClientIp : Bool) : Option Text :=
  entry.clientIp.map fun ip => if anonymizeClientIp then anonymizeIp ip else ip

def StatDelta.saturatingAdd (a b : StatDelta) : StatDelta where
  queries := saturatingAdd64 a.queries b.queries
  blocked := saturatingAdd64 a.blocked b.blocked
  forwarded := saturatingAdd64 a.forwarded b.forwarded
  failed := saturatingAdd64 a.failed b.failed
  requests := saturatingAdd64 a.requests b.requests
  latencyTotalMs := saturatingAdd64 a.latencyTotalMs b.latencyTotalMs
  latencySamples := saturatingAdd64 a.latencySamples b.latencySamples
  traffic :=
    { clientBytesIn := saturatingAdd64 a.traffic.clientBytesIn b.traffic.clientBytesIn
      clientBytesOut := saturatingAdd64 a.traffic.clientBytesOut b.traffic.clientBytesOut
      upstreamBytesOut := saturatingAdd64 a.traffic.upstreamBytesOut b.traffic.upstreamBytesOut
      upstreamBytesIn := saturatingAdd64 a.traffic.upstreamBytesIn b.traffic.upstreamBytesIn
      cacheSavedBytes := saturatingAdd64 a.traffic.cacheSavedBytes b.traffic.cacheSavedBytes }

def addStatDelta (stats : Table HourlyStatKey StatDelta) (key : HourlyStatKey)
    (delta : StatDelta) : Table HourlyStatKey StatDelta :=
  stats.insert key (((stats.lookup key).getD {}).saturatingAdd delta)

section
variable (hour : ℕ) (persisted : QueryPersistenceEntry)

def totalDelta : HourlyStatKey × StatDelta :=
  let entry := persisted.entry
  let counted := !persisted.trafficOnly
  (⟨hour, .total, []⟩,
    { queries := counted.toNat
      blocked := (entry.blocked && counted).toNat
      forwarded := (entry.forwarded && counted).toNat
      failed := (entry.failed && counted).toNat
      traffic := entry.traffic })

/-- The rankings an entry takes part in, in the order of the source. -/
def rankingDeltas : List (HourlyStatKey × StatDelta) :=
  let entry := persisted.entry
  let counts : StatDelta :=
    { queries := 1, blocked := entry.blocked.toNat, traffic := entry.traffic }
  let client := match storedClientIp entry persisted.anonymizeClientIp with
    | some clientIp => if clientIp = [] then [] else [(⟨hour, .client, clientIp⟩, counts)]
    | none => []
  let upstream := match entry.upstreamServer with
    | some upstreamServer =>
      if entry.forwarded then
        [(⟨hour, .upstream, upstreamServer⟩,
          { requests := 1
            latencyTotalMs := entry.upstreamDurationMs.getD 0
            latencySamples := entry.upstreamDurationMs.isSome.toNat })]
      else []
    | none => []
  let blocklist :=
    if entry.blocked then
      let ruleSource := (entry.ruleSource.filter (· ≠ [])).getD "未知来源".toList
      [(⟨hour, .blocklist, ruleSource⟩, { blocked := 1 })]
    else []
  (⟨hour, .domain, entry.domain⟩, counts) :: (client ++ upstream ++ blocklist)

/-- What `aggregate_hourly_stats` adds for one entry. -/
def entryDeltas : List (HourlyStatKey × StatDelta) :=
  totalDelta hour persisted ::
    if persisted.trafficOnly then [] else rankingDeltas hour persisted

end

/-- The table stands for the hash map the deltas are collected in. -/
def aggregateHourlyStats (entries : List QueryPersistenceEntry) (timestamp : ℕ) :
    Table HourlyStatKey StatDelta :=
  ((entries.filter (·.persistStatistics)).flatMap (entryDeltas (timestamp / 3600))).foldl
    (fun stats delta => addStatDelta stats delta.1 delta.2) ∅

/-! ## Statements -/

/-- The columns of a delta, each in the range of INTEGER. -/
def deltaToDb (label : Text) (delta : StatDelta) : Except DatabaseError StatDelta := do
  let field (name : String) : Text := label ++ name.toList
  let queries ← u64ToDbI64 delta.queries (field "查询数")
  let blocked ← u64ToDbI64 delta.blocked (field "拦截数")
  let forwarded ← u64ToDbI64 delta.forwarded (field "转发数")
  let failed ← u64ToDbI64 delta.failed (field "失败数")
  let requests ← u64ToDbI64 delta.requests (field "上游请求数")
  let latencyTotalMs ← u64ToDbI64 delta.latencyTotalMs (field "上游总耗时")
  let latencySamples ← u64ToDbI64 delta.latencySamples (field "上游耗时样本数")
  let clientBytesIn ← u64ToDbI64 delta.traffic.clientBytesIn (field "客户端上行字节")
  let clientBytesOut ← u64ToDbI64 delta.traffic.clientBytesOut (field "客户端下行字节")
  let upstreamBytesOut ← u64ToDbI64 delta.traffic.upstreamBytesOut (field "上游发送字节")
  let upstreamBytesIn ← u64ToDbI64 delta.traffic.upstreamBytesIn (field "上游接收字节")
  let cacheSavedBytes ← u64ToDbI64 delta.traffic.cacheSavedBytes (field "缓存节省字节")
  let traffic : TrafficTotals :=
    { clientBytesIn, clientBytesOut, upstreamBytesOut, upstreamBytesIn, cacheSavedBytes }
  return { queries, blocked, forwarded, failed, requests, latencyTotalMs, latencySamples, traffic }

def executeHourlyStatUpsert (statistics : Table HourlyStatKey StatDelta) (key : HourlyStatKey)
    (delta : StatDelta) : Except DatabaseError (Table HourlyStatKey StatDelta) := do
  let hour ← u64ToDbI64 key.hour "统计小时".toList
  let delta ← deltaToDb "统计".toList delta
  return statistics.upsert (· + ·) { key with hour } delta

/-- What `UPSERT_LIFETIME_STAT_SQL` makes of the row it finds. -/
def SummaryColumns.merge (a b : SummaryColumns) : SummaryColumns where
  counts := a.counts + b.counts
  firstSeenAt := min a.firstSeenAt b.firstSeenAt
  lastSeenAt := max a.lastSeenAt b.lastSeenAt

def executeLifetimeStatUpsert (statistics : Table SummaryKey SummaryColumns) (key : HourlyStatKey)
    (delta : StatDelta) (observedAt : ℕ) :
    Except DatabaseError (Table SummaryKey SummaryColumns) := do
  let delta ← deltaToDb "永久统计".toList delta
  let observedAt ← u64ToDbI64 observedAt "永久统计观测时间".toList
  return statistics.upsert SummaryColumns.merge ⟨.all, key.dimension, key.value⟩
    ⟨delta, observedAt, observedAt⟩

def optionalU64ToDbI64 (value : Option ℕ) (field : Text) : Except DatabaseError (Option ℕ) :=
  match value with
  | some value => (u64ToDbI64 value field).map some
  | none => .ok none

def executeQueryLogInsert (db : Database) (entry : QueryLogEntry) (anonymizeClientIp : Bool)
    (timestamp : ℕ) : Except DatabaseError Database := do
  let timestamp ← u64ToDbI64 timestamp "查询日志时间戳".toList
  let upstreamDurationMs ← optionalU64ToDbI64 entry.upstreamDurationMs "上游响应时间".toList
  let clientIp := storedClientIp entry anonymizeClientIp
  let id := db.queryLogsSequence + 1
  let row : QueryLogRow :=
    { id, timestamp, domain := entry.domain, clientIp
      blocked := entry.blocked, forwarded := entry.forwarded, failed := entry.failed
      upstreamServer := entry.upstreamServer, upstreamDurationMs, error := entry.error
      matchedRule := entry.matchedRule, ruleSource := entry.ruleSource, ruleType := entry.ruleType
      importantOverrode := entry.importantOverrode, allowlistRule := entry.allowlistRule
      queryType := some entry.queryType, queryClass := some entry.queryClass
      transport := some entry.transport, responseSource := some entry.responseSource }
  return { db with queryLogs := db.queryLogs ++ [row], queryLogsSequence := id }

/-- Both upserts of one row of a batch. -/
def executeStatUpserts (timestamp : ℕ) (db : Database) (row : Row HourlyStatKey StatDelta) :
    Except DatabaseError Database := do
  let statisticsHourly ← executeHourlyStatUpsert db.statisticsHourly row.1 row.2
  if db.statisticsRetentionHours = 0 then
    let dashboardSummaryStats ←
      executeLifetimeStatUpsert db.dashboardSummaryStats row.1 row.2 timestamp
    return { db with statisticsHourly, dashboardSummaryStats }
  else return { db with statisticsHourly }

def insertQueryEvents (db : Database) (entries : List QueryPersistenceEntry) (timestamp : ℕ) :
    Except DatabaseError Database := do
  if entries = [] then return db
  let hourlyStats := aggregateHourlyStats entries timestamp
  let db ← (entries.filter (·.persistLog)).foldlM (fun db persisted =>
    executeQueryLogInsert db persisted.entry persisted.anonymizeClientIp timestamp) db
  hourlyStats.entries.foldlM (executeStatUpserts timestamp) db

/-! ## Retention -/

/-- One row of the `SELECT` in `rebuild_lifetime_statistics`; the columns it does
    not name have the default 0. -/
def rebuiltColumns (rows : List (Row HourlyStatKey StatDelta)) :
    Except SqlError SummaryColumns := do
  let queries ← sqlSum (rows.map (·.2.queries))
  let blocked ← sqlSum (rows.map (·.2.blocked))
  let forwarded ← sqlSum (rows.map (·.2.forwarded))
  let failed ← sqlSum (rows.map (·.2.failed))
  let requests ← sqlSum (rows.map (·.2.requests))
  let latencyTotalMs ← sqlSum (rows.map (·.2.latencyTotalMs))
  let latencySamples ← sqlSum (rows.map (·.2.latencySamples))
  let hours := rows.map (·.1.hour)
  return {
    counts := { queries, blocked, forwarded, failed, requests, latencyTotalMs, latencySamples }
    firstSeenAt := hours.min?.getD 0 * 3600
    lastSeenAt := hours.max?.getD 0 * 3600 }

/-- Insert the row of a group, whose key must be new. -/
def insertRebuilt (statistics : Table SummaryKey SummaryColumns)
    (group : (Dimension × Text) × List (Row HourlyStatKey StatDelta)) :
    Except SqlError (Table SummaryKey SummaryColumns) := do
  let columns ← rebuiltColumns group.2
  let key : SummaryKey := ⟨.all, group.1.1, group.1.2⟩
  if key ∈ statistics then .error .uniqueConstraint
  else return statistics.insert key columns

def rebuildLifetimeStatistics (statisticsHourly : Table HourlyStatKey StatDelta)
    (sinceHour : Option ℕ) (dashboardSummaryStats : Table SummaryKey SummaryColumns) :
    Except DatabaseError (Table SummaryKey SummaryColumns) :=
  let rest := dashboardSummaryStats.deleteWhere fun key => key.scope = .all
  let rows := match sinceHour with
    | some since => statisticsHourly.entries.filter fun row => since ≤ row.1.hour
    | none => statisticsHourly.entries
  ((groupBy (fun row => (row.1.dimension, row.1.value)) rows).foldlM insertRebuilt rest).mapError
    (.sql "汇总永久统计".toList)

/-- `save_config`, with the checks of `AppConfig::validate`. -/
def saveConfig (validate : AppConfig → Except DatabaseError Unit) (db : Database)
    (config : AppConfig) (updatedAt now : ℕ) : Except DatabaseError Database := do
  validate config
  let updatedAt ← u64ToDbI64 updatedAt "配置更新时间".toList
  let previous := db.statisticsRetentionHours
  let dashboardSummaryStats ←
    if config.statisticsRetentionHours = 0 ∧ previous ≠ 0 then do
      let since ← u64ToDbI64 ((now - previous.toNat * 3600) / 3600) "永久统计切换小时".toList
      rebuildLifetimeStatistics db.statisticsHourly (some since) db.dashboardSummaryStats
    else pure db.dashboardSummaryStats
  return { db with
    dashboardSummaryStats
    appConfig := some (config, updatedAt)
    statisticsRetentionHours := config.statisticsRetentionHours }

/-- Permanent totals need the hourly rows only for a later finite retention, and the
    trend needs the total ones of its own window. -/
def pruneExpired (db : Database) (queryLogRetentionHours statisticsRetentionHours
    securityEventRetentionHours : UInt32) (now : ℕ) : Except DatabaseError Database := do
  let querySince ← u64ToDbI64 (now - queryLogRetentionHours.toNat * 3600) "日志清理时间戳".toList
  let detailRetentionHours :=
    if statisticsRetentionHours = 0 then maxStatisticsRetentionHours
    else statisticsRetentionHours.toNat
  let statisticsSinceRaw := now - detailRetentionHours * 3600
  let statisticsSinceHour ← u64ToDbI64 (statisticsSinceRaw / 3600) "统计清理小时".toList
  let trafficSinceHour ←
    u64ToDbI64 ((now - trafficRetentionHours * 3600) / 3600) "趋势清理小时".toList
  let totalSinceHour := min statisticsSinceHour trafficSinceHour
  let _ ← u64ToDbI64 (statisticsSinceRaw / 60) "旧统计清理分钟".toList
  let _ ← u64ToDbI64 (now - securityEventRetentionHours.toNat * 3600) "安全事件清理时间戳".toList
  return { db with
    queryLogs := db.queryLogs.filter fun row => querySince ≤ row.timestamp
    statisticsHourly := (db.statisticsHourly.deleteWhere fun key =>
        key.dimension ≠ .total ∧ key.hour < statisticsSinceHour).deleteWhere fun key =>
          key.dimension = .total ∧ key.hour < totalSinceHour }

def clearStatistics (db : Database) : Database :=
  { db with statisticsHourly := ∅, dashboardSummaryStats := ∅ }

end DnsBlackhole.Database
