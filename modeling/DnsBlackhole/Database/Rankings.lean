/-
  What the program shows of the statistics (`log_stats` of `database.rs` and
  `database/rankings.rs`).

  * Every figure has two sources: the permanent rows if `sinceHour` is 0, and
    otherwise the sums of the hourly rows since that hour.
  * A hash map of a ranking is a finite map (`Counts`).
  * What SQLite computes outside of the integers is a parameter (`Sqlite`): the
    quotients of doubles that order the upstreams by latency, and the local
    calendar of the trend.
  * The four connections of `parallel_log_stats` read the same tables as the one
    connection of `log_stats_with_connection`.
-/
import Mathlib.Data.Char
import DnsBlackhole.Database.Store

namespace DnsBlackhole.Database
open Admin (Counts TrafficBucket TrafficTotals UpstreamLatencyStat UpstreamRequestStat)
open Lib (Row Table groupBy ranked)

/-- The numbers `ρ` stand for the doubles. -/
structure Sqlite (ρ : Type) where
  /-- `CAST(total AS REAL) / samples` -/
  quotient : ℕ → ℕ → ρ
  /-- `CAST(ROUND(..) AS INTEGER)` -/
  rounded : ρ → ℕ
  /-- `date(hour * 3600, 'unixepoch', 'localtime')`, as a number. -/
  localDate : ℕ → ℕ
  /-- The minute at which the local day of an hour starts. -/
  dayStart : ℕ → ℕ

def rankingLimit : ℕ := 200

structure DashboardTotals where
  queries : ℕ := 0
  blocked : ℕ := 0
  forwarded : ℕ := 0
  failed : ℕ := 0
  traffic : TrafficTotals := {}
  startedAt : Option ℕ := none
  endedAt : Option ℕ := none

structure LogStats where
  queries : ℕ
  blocked : ℕ
  forwarded : ℕ
  failed : ℕ
  queryDomains : Counts
  blockedDomains : Counts
  clientRequests : Counts
  clientBlocked : Counts
  blocklistHits : Counts
  traffic : List TrafficBucket
  trafficTotals : TrafficTotals
  domainTraffic : Counts
  clientTraffic : Counts
  upstreamRequests : List UpstreamRequestStat
  upstreamAvgLatency : List UpstreamLatencyStat
  dashboardStartedAt : Option ℕ
  dashboardEndedAt : Option ℕ

/-! ## Rows -/

section
variable {γ : Type}

/-- The names are different. -/
def toCounts (rows : List (Text × ℕ)) : Counts :=
  rows.foldl (fun counts row => counts.insert row.1 row.2) ∅

/-- The permanent rows of a dimension. -/
def lifetimeRows (db : Database) (dimension : Dimension) : List (Text × StatDelta) :=
  db.dashboardSummaryStats.entries.filterMap fun row =>
    if row.1.scope = .all ∧ row.1.dimension = dimension then some (row.1.value, row.2.counts)
    else none

def hourlyRows (db : Database) (dimension : Dimension) (since : ℕ) :
    List (Row HourlyStatKey StatDelta) :=
  db.statisticsHourly.entries.filter fun row =>
    row.1.dimension = dimension ∧ since ≤ row.1.hour

/-- The hourly rows of a dimension, `GROUP BY value`. -/
def hourlyGroups (db : Database) (dimension : Dimension) (since : ℕ) :
    List (Text × List StatDelta) :=
  (groupBy (fun row => row.1.value) (hourlyRows db dimension since)).map fun group =>
    (group.1, group.2.map (·.2))

/-- Select the same columns of every group. -/
def selectSums (sums : List StatDelta → Except SqlError γ) (groups : List (Text × List StatDelta)) :
    Except SqlError (List (Text × γ)) :=
  groups.mapM fun group => (sums group.2).map (group.1, ·)

/-- `WHERE count > 0 ORDER BY count DESC, value ASC LIMIT 200`. -/
def topBy (count : γ → ℕ) (rows : List (Text × γ)) : List (Text × γ) :=
  (ranked (fun columns => OrderDual.toDual (count columns))
    (rows.filter fun row => 0 < count row.2)).take rankingLimit

/-- Read one counter of every row. -/
def readCounts (count : γ → ℕ) (rows : List (Text × γ)) : Except SqlError (List (Text × ℕ)) :=
  rows.mapM fun row => (readU64 (count row.2)).map (row.1, ·)

end

/-- The sums of two columns. -/
def sumPair (first second : StatDelta → ℕ) (deltas : List StatDelta) : Except SqlError (ℕ × ℕ) := do
  let a ← sqlSum (deltas.map first)
  let b ← sqlSum (deltas.map second)
  return (a, b)

/-- The rows of a query: of the permanent table if `sinceHour` is 0, and sums of the
    hourly ones otherwise. -/
def selectRows {γ : Type} (db : Database) (dimension : Dimension) (sinceHour : ℕ)
    (columns : StatDelta → γ) (sums : List StatDelta → Except SqlError γ) :
    Except SqlError (List (Text × γ)) :=
  if sinceHour = 0 then
    .ok ((lifetimeRows db dimension).map fun row => (row.1, columns row.2))
  else selectSums sums (hourlyGroups db dimension sinceHour)

/-- The errors of a query over either table.  The start of the window is checked
    before the hourly rows are read. -/
def runQuery {γ : Type} (sinceHour : ℕ) (field lifetimeAction hourlyAction : String)
    (query : Except SqlError γ) : Except DatabaseError γ := do
  if sinceHour = 0 then query.mapError (.sql lifetimeAction.toList)
  else
    let _ ← u64ToDbI64 sinceHour field.toList
    query.mapError (.sql hourlyAction.toList)

/-! ## The figures -/

section
variable (db : Database) (sinceHour : ℕ)

def readDashboardTotals (counts : StatDelta) (startedAt endedAt : Option ℕ) :
    Except SqlError DashboardTotals := do
  let queries ← readU64 counts.queries
  let blocked ← readU64 counts.blocked
  let forwarded ← readU64 counts.forwarded
  let failed ← readU64 counts.failed
  let clientBytesIn ← readU64 counts.traffic.clientBytesIn
  let clientBytesOut ← readU64 counts.traffic.clientBytesOut
  let upstreamBytesOut ← readU64 counts.traffic.upstreamBytesOut
  let upstreamBytesIn ← readU64 counts.traffic.upstreamBytesIn
  let cacheSavedBytes ← readU64 counts.traffic.cacheSavedBytes
  let startedAt ← readOptionalU64 startedAt
  let endedAt ← readOptionalU64 endedAt
  let traffic : TrafficTotals :=
    { clientBytesIn, clientBytesOut, upstreamBytesOut, upstreamBytesIn, cacheSavedBytes }
  return { queries, blocked, forwarded, failed, traffic, startedAt, endedAt }

/-- The sums of the columns that `total_log_counts` reads. -/
def totalSums (deltas : List StatDelta) : Except SqlError StatDelta := do
  let queries ← sqlSum (deltas.map (·.queries))
  let blocked ← sqlSum (deltas.map (·.blocked))
  let forwarded ← sqlSum (deltas.map (·.forwarded))
  let failed ← sqlSum (deltas.map (·.failed))
  let clientBytesIn ← sqlSum (deltas.map (·.traffic.clientBytesIn))
  let clientBytesOut ← sqlSum (deltas.map (·.traffic.clientBytesOut))
  let upstreamBytesOut ← sqlSum (deltas.map (·.traffic.upstreamBytesOut))
  let upstreamBytesIn ← sqlSum (deltas.map (·.traffic.upstreamBytesIn))
  let cacheSavedBytes ← sqlSum (deltas.map (·.traffic.cacheSavedBytes))
  let traffic : TrafficTotals :=
    { clientBytesIn, clientBytesOut, upstreamBytesOut, upstreamBytesIn, cacheSavedBytes }
  return { queries, blocked, forwarded, failed, traffic }

def totalLogCounts : Except DatabaseError DashboardTotals :=
  runQuery sinceHour "统计起始小时" "读取永久累计统计" "读取仪表盘累计统计" <|
    if sinceHour = 0 then
      match db.dashboardSummaryStats.lookup ⟨.all, .total, []⟩ with
      | some row => readDashboardTotals row.counts (some row.firstSeenAt) (some row.lastSeenAt)
      | none => .ok {}
    else do
      let rows := (hourlyRows db .total sinceHour).filter fun row => row.1.value = []
      let hours := rows.map (·.1.hour)
      let sums ← totalSums (rows.map (·.2))
      readDashboardTotals sums (hours.min?.map (· * 3600)) (hours.max?.map (· * 3600))

/-- The two rankings of the domains are read from one query. -/
def groupedDomainCounts : Except DatabaseError (Counts × Counts) :=
  runQuery sinceHour "域名统计起始小时" "解析永久域名排行" "解析域名排行" do
    let rows ← selectRows db .domain sinceHour (fun delta => (delta.queries, delta.blocked))
      (sumPair (·.queries) (·.blocked))
    let queryCounts ← readCounts Prod.fst (topBy Prod.fst rows)
    let blockedCounts ← readCounts Prod.snd (topBy Prod.snd rows)
    return (toCounts queryCounts, toCounts blockedCounts)

/-- The blocked queries are those of the clients with the most queries. -/
def clientCounts : Except DatabaseError (Counts × Counts) :=
  runQuery sinceHour "客户端统计起始小时" "解析永久客户端排行" "解析客户端排行" do
    let rows ← selectRows db .client sinceHour (fun delta => (delta.queries, delta.blocked))
      (sumPair (·.queries) (·.blocked))
    let requests ← readCounts Prod.fst (topBy Prod.fst rows)
    let blocked ← readCounts Prod.snd (topBy Prod.fst rows)
    return (toCounts requests, toCounts (blocked.filter fun row => 0 < row.2))

def blocklistHitCounts : Except DatabaseError Counts :=
  runQuery sinceHour "黑名单统计起始小时" "解析永久黑名单排行" "解析黑名单排行" do
    let rows ← selectRows db .blocklist sinceHour (·.blocked) (fun deltas =>
      sqlSum (deltas.map (·.blocked)))
    let counts ← readCounts id (topBy id rows)
    return toCounts counts

/-- `traffic_rank`, without the client or domain that has no name. -/
def trafficRank (dimension : Dimension) (label : String) : Except DatabaseError Counts := do
  let rows ← runQuery sinceHour label ("读取" ++ label) ("读取" ++ label) <|
    selectRows db dimension sinceHour (·.bytes) fun deltas => sqlSum (deltas.map (·.bytes))
  let counts ← (readCounts id ((topBy id rows).filter fun row => row.1 ≠ [])).mapError
    (.sql ("解析" ++ label).toList)
  return toCounts counts

def domainTrafficCounts : Except DatabaseError Counts :=
  trafficRank db sinceHour .domain "域名流量排行"

def clientTrafficCounts : Except DatabaseError Counts :=
  trafficRank db sinceHour .client "客户端流量排行"

def upstreamRequestCounts : Except DatabaseError (List UpstreamRequestStat) :=
  runQuery sinceHour "上游统计起始小时" "解析永久上游请求排行" "解析上游请求排行" do
    let rows ← selectRows db .upstream sinceHour (·.requests) (fun deltas =>
      sqlSum (deltas.map (·.requests)))
    let counts ← readCounts id (topBy id rows)
    return counts.map fun row => ⟨row.1, row.2⟩

variable {ρ : Type} [LinearOrder ρ] (sqlite : Sqlite ρ)

/-- The upstreams with samples, the fastest first. -/
def fastest (rows : List (Text × ℕ × ℕ)) : List (Text × ℕ × ℕ) :=
  (ranked (fun columns => sqlite.quotient columns.1 columns.2)
    (rows.filter fun row => 0 < row.2.2)).take rankingLimit

def upstreamAvgLatency : Except DatabaseError (List UpstreamLatencyStat) :=
  runQuery sinceHour "上游延迟统计起始小时" "解析永久上游响应时间排行" "解析上游响应时间排行" do
    let rows ← selectRows db .upstream sinceHour
      (fun delta => (delta.latencyTotalMs, delta.latencySamples))
      (sumPair (·.latencyTotalMs) (·.latencySamples))
    return (fastest sqlite rows).map fun row =>
      ⟨row.1, sqlite.rounded (sqlite.quotient row.2.1 row.2.2)⟩

/-- The trend of the last days, one bucket a local day. -/
def trafficBuckets (now : ℕ) : Except DatabaseError (List TrafficBucket) := do
  let since ← u64ToDbI64 ((now - trafficRetentionHours * 3600) / 3600) "趋势统计起始小时".toList
  let rows := (hourlyRows db .total since).filter fun row => row.1.value = []
  let buckets ← (groupBy (fun row => sqlite.localDate row.1.hour) rows).mapM fun group => do
    let deltas := group.2.map (·.2)
    let queries ← (sqlSum (deltas.map (·.queries))).mapError (.sql "解析趋势数据".toList)
    let blocked ← (sqlSum (deltas.map (·.blocked))).mapError (.sql "解析趋势数据".toList)
    let bytes ← (sqlSum (deltas.map (·.bytes))).mapError (.sql "解析趋势数据".toList)
    return ((group.2.head?.map fun row => sqlite.dayStart row.1.hour).getD 0, queries, blocked,
      bytes)
  let bucket (row : ℕ × ℕ × ℕ × ℕ) : Except SqlError TrafficBucket := do
    let minute ← readU64 row.1
    let queries ← readU64 row.2.1
    let blocked ← readU64 row.2.2.1
    let bytes ← readU64 row.2.2.2
    return ⟨.ofNat minute, queries, blocked, bytes⟩
  ((ranked (fun _ => (0 : ℕ)) buckets).mapM bucket).mapError (.sql "解析趋势数据".toList)

/-- The first hour of a window of `retentionHours`; permanent statistics have none. -/
def sinceHourOf (now : ℕ) (retentionHours : UInt32) : ℕ :=
  if retentionHours = 0 then 0 else (now - retentionHours.toNat * 3600) / 3600

/-- `log_stats`, at the time `now`, with the trend at the time `trendNow`. -/
def logStats (retentionHours : UInt32) (now trendNow : ℕ) : Except DatabaseError LogStats := do
  let sinceHour := sinceHourOf now retentionHours
  let totals ← totalLogCounts db sinceHour
  let (queryDomains, blockedDomains) ← groupedDomainCounts db sinceHour
  let (clientRequests, clientBlocked) ← clientCounts db sinceHour
  let blocklistHits ← blocklistHitCounts db sinceHour
  let traffic ← trafficBuckets db sqlite trendNow
  let domainTraffic ← domainTrafficCounts db sinceHour
  let clientTraffic ← clientTrafficCounts db sinceHour
  let upstreamRequests ← upstreamRequestCounts db sinceHour
  let upstreamAvgLatency ← upstreamAvgLatency db sinceHour sqlite
  return {
    queries := totals.queries
    blocked := totals.blocked
    forwarded := totals.forwarded
    failed := totals.failed
    queryDomains, blockedDomains, clientRequests, clientBlocked, blocklistHits, traffic
    trafficTotals := totals.traffic
    domainTraffic, clientTraffic, upstreamRequests, upstreamAvgLatency
    dashboardStartedAt := totals.startedAt
    dashboardEndedAt := totals.endedAt }

end

end DnsBlackhole.Database
