/-
  What a worker does to answer a query (`dns/worker.rs`): it sends a response or
  says that there is none, counts the query, and calls for an entry of the query
  log.

  Every branch of `handle_dns_query` writes these steps out, in an order of its
  own; here each branch is a program over the state that the workers share
  (`Server`).  The handed responses and the entries are kept with the number of
  the query they are for.  `Answered` is what all branches have in common.
-/
import DnsBlackhole.Admin.Stats
import DnsBlackhole.Database.Entry
import DnsBlackhole.Worker.Local

namespace DnsBlackhole.Worker
open DnsBlackhole.Filter Protocol Rules Database
open Admin (DnsStats DnsTransport)

/-! ## Queries and the server -/

/-- A query that a worker has accepted: `handle_dns_query` behind the access check
    and `parse_query`. -/
structure WorkItem where
  query : Packet
  client : IpAddr
  responseTarget : DnsTransport
  parsed : ParsedQuery
  parses : parseQuery query = .ok parsed

def WorkItem.question (work : WorkItem) : Question := work.parsed.question

/-- The bytes exchanged with the upstream servers for a query. -/
structure UpstreamTraffic where
  bytesOut : ℕ := 0
  bytesIn : ℕ := 0

structure QueryLogMetadata where
  domain : Text
  queryType : UInt16
  queryClass : UInt16
  transport : Text
  queryBytes : ℕ
  upstreamTraffic : UpstreamTraffic

def transportName : DnsTransport → Text
  | .udp => "udp".toList
  | .tcp => "tcp".toList

def WorkItem.metadata (work : WorkItem) (upstreamTraffic : UpstreamTraffic) : QueryLogMetadata where
  domain := work.question.domain
  queryType := work.question.qtype
  queryClass := work.question.qclass
  transport := transportName work.responseTarget
  queryBytes := work.query.length
  upstreamTraffic := upstreamTraffic

inductive QueryResponseSource
  | upstream
  | cache
  | rewrite
  | blocked
  | refused
  | localReverse
  deriving DecidableEq

def QueryResponseSource.asStr : QueryResponseSource → Text
  | .upstream => "upstream".toList
  | .cache => "cache".toList
  | .rewrite => "rewrite".toList
  | .blocked => "blocked".toList
  | .refused => "refused".toList
  | .localReverse => "local_reverse".toList

/-- Where a response comes from: it is made here, found in the cache, or made from
    what an upstream server has sent. -/
inductive ResponseOrigin
  | made
  | cached
  | upstream (forwarded : Packet)

/-- What a response target is handed: a response, with the bytes that have left, or
    that there is none. -/
inductive Handed
  | response (origin : ResponseOrigin) (response : Packet) (sent : Option Packet)
  | noResponse

inductive QueueOutcome
  | accepted
  | full
  | disconnected
  deriving DecidableEq

/-- An entry that is put into the queue of the persistence, and what happens to it
    there. -/
structure Offer where
  query : ℕ
  entry : QueryPersistenceEntry
  outcome : QueueOutcome

/-- What the workers write. -/
structure Server where
  stats : DnsStats := {}
  handed : List (ℕ × Handed) := []
  offered : List Offer := []

/-- What the surroundings do in a call: the minute, the error of the send, and the
    queue. -/
structure Surroundings where
  minute : UInt64 := 0
  sendError : Option Text := none
  queue : QueueOutcome := .accepted

/-- A response of an upstream server. -/
structure UpstreamForwardResponse where
  response : Packet
  upstream : Text
  durationMs : ℕ

abbrev ForwardResult := Except Text UpstreamForwardResponse

/-- What a call of `queue_query_log` and of its variants reports, and the bytes that
    the query has exchanged so far. -/
structure QueryReport where
  source : QueryResponseSource
  upstreamTraffic : UpstreamTraffic := {}
  blocked : Bool := false
  forwarded : Bool := false
  failed : Bool := false
  upstreamServer : Option Text := none
  upstreamDurationMs : Option ℕ := none
  error : Option Text := none
  response : Option Packet := none
  ruleMatch : Option BlockMatch := none

def queryLogEntry (metadata : QueryLogMetadata) (client : IpAddr) (report : QueryReport) :
    QueryLogEntry where
  domain := metadata.domain
  queryType := metadata.queryType
  queryClass := metadata.queryClass
  transport := metadata.transport
  responseSource := report.source.asStr
  clientIp := some client.display
  blocked := report.blocked
  forwarded := report.forwarded
  failed := report.failed
  upstreamServer := report.upstreamServer
  upstreamDurationMs := report.upstreamDurationMs
  error := report.error
  matchedRule := report.ruleMatch.map BlockMatch.rule
  ruleSource := report.ruleMatch.map BlockMatch.source
  ruleType := report.ruleMatch.map BlockMatch.ruleType
  importantOverrode := report.ruleMatch.any BlockMatch.importantOverrode
  allowlistRule := report.ruleMatch.bind BlockMatch.allowlistRule
  traffic :=
    let clientBytesOut := (report.response.map List.length).getD 0
    { clientBytesIn := metadata.queryBytes
      clientBytesOut := clientBytesOut
      upstreamBytesOut := metadata.upstreamTraffic.bytesOut
      upstreamBytesIn := metadata.upstreamTraffic.bytesIn
      cacheSavedBytes :=
        if report.source = .cache then metadata.queryBytes + clientBytesOut else 0 }

/-! ## Steps -/

abbrev Handler := StateM Server

def persistLog (context : WorkerContext) (filter : FilterRuntime) (domain : Text) : Bool :=
  context.queryLogEnabled && !filter.logIgnore.contains domain

def persistStatistics (context : WorkerContext) (filter : FilterRuntime) (domain : Text) : Bool :=
  context.statisticsEnabled && !filter.statisticsIgnore.contains domain

/-- Whether an entry about the domain goes into the queue. -/
def persists (context : WorkerContext) (filter : FilterRuntime) (domain : Text) : Bool :=
  context.hasPersistenceSender &&
    (persistLog context filter domain || persistStatistics context filter domain)

/-- A step on the statistics. -/
def record (f : DnsStats → DnsStats) : Handler Unit :=
  modify fun server => { server with stats := f server.stats }

section
variable (context : WorkerContext) (filter : FilterRuntime) (n : ℕ) (work : WorkItem)
  (io : Surroundings)

def recordQuery : Handler Unit :=
  record fun stats => stats.recordQuery work.question.domain work.client.display io.minute
    context.detailedRuntimeStats

def recordBlockedQuery (ruleSource : Text) : Handler Unit :=
  record fun stats => stats.recordBlockedQuery work.question.domain work.client.display io.minute
    context.detailedRuntimeStats ruleSource

def recordResponseBlocked (block : ResponseProtectionBlock) : Handler Unit :=
  record fun stats => stats.recordResponseBlocked work.question.domain work.client.display
    io.minute context.detailedRuntimeStats block.ruleMatch.source block.kind

def recordForwarded : Handler Unit := record DnsStats.recordForwarded

def recordError (error : Text) : Handler Unit := record fun stats => stats.recordError error

def recordRefusedAny : Handler Unit := record DnsStats.recordRefusedAny

/-- The bytes that leave for a response, or the error. -/
def sentBytes (response : Packet) : Except Text Packet :=
  let bytes := match work.responseTarget with
    | .udp =>
      let maxSize := udpPayloadSize work.query
      if response.length ≤ maxSize then some response
      else truncateResponseForUdp work.query response maxSize
    | .tcp => some response
  match bytes with
  | none => .error "无法构造符合客户端 UDP 大小限制的 DNS 响应".toList
  | some bytes =>
    match io.sendError with
    | none => .ok bytes
    | some error => .error error

def sendDnsResponse (origin : ResponseOrigin) (response : Packet) : Handler (Except Text Unit) := do
  let sent := sentBytes work io response
  modify fun server =>
    { server with handed := server.handed ++ [(n, .response origin response sent.toOption)] }
  return sent.map fun _ => ()

def sendNoResponse : Handler Unit :=
  modify fun server => { server with handed := server.handed ++ [(n, .noResponse)] }

/-- `queue_query_log`, `queue_query_log_with_response`, `queue_blocked_query_log`
    and `queue_query_log_with_match`, which differ in what they report. -/
def queueQueryLog (report : QueryReport) : Handler Unit := do
  if persists context filter work.question.domain then
    modify fun server =>
      { server with
        offered := server.offered ++
          [{ query := n
             entry :=
              { entry := queryLogEntry (work.metadata report.upstreamTraffic) work.client report
                anonymizeClientIp := context.anonymizeClientIp
                persistLog := persistLog context filter work.question.domain
                persistStatistics := persistStatistics context filter work.question.domain
                trafficOnly := false }
             outcome := io.queue }] }
    match io.queue with
    | .accepted => return ()
    | .full => record fun stats =>
        stats.recordPersistenceQueueDrop "查询数据队列已满，已丢弃持久化事件".toList
    | .disconnected => record fun stats =>
        stats.recordPersistenceQueueDrop "查询数据写入队列已关闭".toList

/-! ## Branches of `handle_dns_query` -/

/-- A query for any type. -/
def answerAny : Handler Unit := do
  recordQuery context work io
  let message := "已拒绝 ANY 查询：".toList ++ work.question.domain
  let response := buildErrorResponse work.query rcodeRefused
  match response with
  | some response =>
    match ← sendDnsResponse n work io .made response with
    | .error error =>
      let message := "返回 ANY 拒绝响应失败：".toList ++ error
      recordError message
      queueQueryLog context filter n work io
        { source := .refused, failed := true, error := some message }
    | .ok () =>
      recordRefusedAny
      queueQueryLog context filter n work io
        { source := .refused, error := some message, response := some response }
  | none =>
    sendNoResponse n
    recordRefusedAny
    queueQueryLog context filter n work io { source := .refused, error := some message }

/-- The branches of the local rewrites and of the reverse names. -/
def answerFixed (failure : Text) (source : QueryResponseSource) (response : Packet) :
    Handler Unit := do
  recordQuery context work io
  match ← sendDnsResponse n work io .made response with
  | .error error =>
    let message := failure ++ error
    recordError message
    queueQueryLog context filter n work io { source, failed := true, error := some message }
  | .ok () => queueQueryLog context filter n work io { source, response := some response }

def answerRewrite (target : RewriteTarget) : Handler Unit :=
  answerFixed context filter n work io "返回 DNS 重写响应失败：".toList .rewrite
    (buildRewriteResponse work.query work.question target)

def answerLocalReverse : Handler Unit :=
  answerFixed context filter n work io "返回私有地址反查响应失败：".toList .localReverse
    (buildDnsrewriteResponse work.query work.question filter.blocking (.rcode rcodeNxdomain))

/-- The branches of a blocked service and of a blocking rule: the query is counted
    behind the send, as a blocked one if the send has succeeded. -/
def answerBlocked (failure : Text) (ruleMatch : BlockMatch) : Handler Unit := do
  let response := buildBlockResponse work.query work.question filter.blocking
  match ← sendDnsResponse n work io .made response with
  | .error error =>
    let message := failure ++ error
    recordQuery context work io
    recordError message
    queueQueryLog context filter n work io
      { source := .blocked, blocked := true, failed := true, error := some message,
        ruleMatch := some ruleMatch }
  | .ok () =>
    recordBlockedQuery context work io ruleMatch.source
    queueQueryLog context filter n work io
      { source := .blocked, blocked := true, response := some response,
        ruleMatch := some ruleMatch }

def answerBlockedService (ruleMatch : BlockMatch) : Handler Unit :=
  answerBlocked context filter n work io "返回服务分类拦截响应失败：".toList ruleMatch

def answerBlockedRule (ruleMatch : BlockMatch) : Handler Unit :=
  answerBlocked context filter n work io "返回黑名单响应失败：".toList ruleMatch

def answerSafeSearch (target : Text) : Handler Unit := do
  recordQuery context work io
  let response := buildCnameResponse work.query work.question target
  match ← sendDnsResponse n work io .made response with
  | .error error =>
    let message := "返回安全搜索重定向失败：".toList ++ error
    recordError message
    queueQueryLog context filter n work io
      { source := .rewrite, failed := true, error := some message, response := some response }
  | .ok () =>
    queueQueryLog context filter n work io { source := .rewrite, response := some response }

/-- The error of a rule with `$dnsrewrite`: that of the send, or that its response
    is a failure. -/
def ruleRewriteError (response : Packet) : Except Text Unit → Option Text
  | .error error => some ("返回 DNS 重写响应失败：".toList ++ error)
  | .ok () =>
    if response[3]?.getD 0 &&& 0x0f = rcodeServfail then some "DNS 重写返回 SERVFAIL".toList
    else none

def answerRuleRewrite (action : DnsRewriteAction) (ruleMatch : BlockMatch) : Handler Unit := do
  recordQuery context work io
  let response := buildDnsrewriteResponse work.query work.question filter.blocking action
  let sent ← sendDnsResponse n work io .made response
  match ruleRewriteError response sent with
  | some message =>
    recordError message
    queueQueryLog context filter n work io
      { source := .rewrite, failed := true, error := some message, response := some response,
        ruleMatch := some ruleMatch }
  | none =>
    queueQueryLog context filter n work io
      { source := .rewrite, response := some response, ruleMatch := some ruleMatch }

/-- What follows the decision; a query that is forwarded is only counted here. -/
def handleDecision : LocalDecision → Handler Unit
  | .refuseAny => answerAny context filter n work io
  | .rewrite target => answerRewrite context filter n work io target
  | .blockService ruleMatch => answerBlockedService context filter n work io ruleMatch
  | .safeSearch target => answerSafeSearch context filter n work io target
  | .ruleRewrite action ruleMatch => answerRuleRewrite context filter n work io action ruleMatch
  | .ruleBlock ruleMatch => answerBlockedRule context filter n work io ruleMatch
  | .localReverse => answerLocalReverse context filter n work io
  | .forward _ _ _ => recordQuery context work io

/-! ## Queries that are forwarded -/

def deliverResponseProtectionBlock (block : ResponseProtectionBlock)
    (upstream : Option UpstreamForwardResponse) (upstreamTraffic : UpstreamTraffic) :
    Handler Unit := do
  recordResponseBlocked context work io block
  let response := buildBlockResponse work.query work.question filter.blocking
  let report : QueryReport :=
    { source := .blocked
      upstreamTraffic
      blocked := true
      upstreamServer := upstream.map UpstreamForwardResponse.upstream
      upstreamDurationMs := upstream.map UpstreamForwardResponse.durationMs
      response := some response
      ruleMatch := some block.ruleMatch }
  match ← sendDnsResponse n work io .made response with
  | .error error =>
    let message := "返回响应安全拦截结果失败：".toList ++ error
    recordError message
    queueQueryLog context filter n work io { report with failed := true, error := some message }
  | .ok () => queueQueryLog context filter n work io report

/-- A cache hit that is not blocked. -/
def deliverCached (response : Packet) : Handler Unit := do
  match ← sendDnsResponse n work io .cached response with
  | .error error =>
    let message := "返回 DNS 缓存响应失败：".toList ++ error
    recordError message
    queueQueryLog context filter n work io
      { source := .cache, failed := true, error := some message }
  | .ok () =>
    queueQueryLog context filter n work io { source := .cache, response := some response }

/-- A query that no upstream server has answered. -/
def deliverForwardError (upstreamTraffic : UpstreamTraffic) (error : Text) : Handler Unit := do
  recordError error
  sendNoResponse n
  queueQueryLog context filter n work io
    { source := .upstream, upstreamTraffic, failed := true, error := some error }

/-- The result of a query that has been forwarded itself. -/
def deliverForwarded (upstreamTraffic : UpstreamTraffic) : ForwardResult → Handler Unit
  | .ok forwarded => do
    match ← sendDnsResponse n work io (.upstream forwarded.response) forwarded.response with
    | .error error =>
      let message := "转发响应给客户端失败：".toList ++ error
      recordError message
      queueQueryLog context filter n work io
        { source := .upstream, upstreamTraffic, forwarded := true, failed := true,
          upstreamServer := some forwarded.upstream,
          upstreamDurationMs := some forwarded.durationMs, error := some message }
    | .ok () =>
      recordForwarded
      queueQueryLog context filter n work io
        { source := .upstream, upstreamTraffic, forwarded := true,
          upstreamServer := some forwarded.upstream,
          upstreamDurationMs := some forwarded.durationMs, response := some forwarded.response }
  | .error error => deliverForwardError context filter n work io upstreamTraffic error

def prepareForwardedResponse (response query : Packet) : Packet :=
  match prepareResponseForQuery response query with
  | some prepared => prepared
  | none =>
    if 2 ≤ response.length ∧ 2 ≤ query.length then copyAt response 0 (query.take 2) else response

/-- A follower, with the filter and the result of its leader. -/
def deliverPendingFollower : ForwardResult → Handler Unit
  | .ok forwarded => do
    let response := prepareForwardedResponse forwarded.response work.query
    match ← sendDnsResponse n work io (.upstream forwarded.response) response with
    | .error error =>
      let message := "转发复用响应给客户端失败：".toList ++ error
      recordError message
      queueQueryLog context filter n work io
        { source := .upstream, forwarded := true, failed := true,
          upstreamServer := some forwarded.upstream,
          upstreamDurationMs := some forwarded.durationMs, error := some message }
    | .ok () =>
      queueQueryLog context filter n work io
        { source := .upstream, upstreamServer := some forwarded.upstream,
          upstreamDurationMs := some forwarded.durationMs, response := some response }
  -- the bytes exchanged are those of the leader
  | .error error => deliverForwardError context filter n work io {} error

end

end DnsBlackhole.Worker
