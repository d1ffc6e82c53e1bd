/-
  What the workers write to the database about a query (`QueryLogEntry` of
  `database.rs`).
-/
import DnsBlackhole.Admin.Config

namespace DnsBlackhole.Database
open Admin (TrafficTotals)

/-- An entry of the query log, without the summary of the response and the
    processing time. -/
structure QueryLogEntry where
  domain : Text
  queryType : UInt16
  queryClass : UInt16
  transport : Text
  responseSource : Text
  clientIp : Option Text
  blocked : Bool
  forwarded : Bool
  failed : Bool
  upstreamServer : Option Text
  upstreamDurationMs : Option ℕ
  error : Option Text
  matchedRule : Option Text
  ruleSource : Option Text
  ruleType : Option Text
  importantOverrode : Bool
  allowlistRule : Option Text
  /-- The bytes of the query; they go into the statistics only. -/
  traffic : TrafficTotals

structure QueryPersistenceEntry where
  entry : QueryLogEntry
  anonymizeClientIp : Bool
  persistLog : Bool
  persistStatistics : Bool
  /-- It stands for the refresh of the cache, which no client has asked for. -/
  trafficOnly : Bool

end DnsBlackhole.Database
