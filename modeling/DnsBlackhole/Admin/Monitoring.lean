/-
  The monitoring interface (`dns/monitoring.rs`).

  * `handleConnection`: the answer to a request, which has been read with one read;
  * `secureEq_iff`: tokens are compared as a whole;
  * `prometheusMetrics_eq_iff`: the text of the metrics says what its numbers are;
  * `monitoring_discloses`: without the token, nothing of the statistics is shown, and what is
    not `Printed` is shown to nobody;
  * `read_record`, `unwritten_record`: what a call of a recorder changes of what is printed.
-/
import DnsBlackhole.Admin.Counters
import DnsBlackhole.Cache.Metrics
import DnsBlackhole.Decimal
import DnsBlackhole.Protocol.Utf8

namespace DnsBlackhole.Admin
open Cache (DnsCacheStatsSnapshot)

/-! ## Requests -/

def maxRequestBytes : ℕ := 8192

/-- `str::from_utf8` -/
def fromUtf8 (bytes : List UInt8) : Option Text :=
  if (fromUtf8Lossy bytes).asBytes = bytes then some (fromUtf8Lossy bytes) else none

def secureEq (left right : Text) : Bool :=
  if left.len ≠ right.len then false
  else (left.asBytes.zip right.asBytes).foldl
    (fun difference bytes => difference ||| (bytes.1 ^^^ bytes.2)) 0 == (0 : UInt8)

def requestIsAuthorized (request token : Text) : Bool :=
  (request.lines.drop 1).any fun line =>
    match line.splitOnce (· == ':') with
    | none => false
    | some (name, value) =>
      let value := value.trim
      (name.eqIgnoreAsciiCase "authorization".toList &&
          (value.stripPrefix "Bearer ".toList).any fun value => secureEq value token) ||
        name.eqIgnoreAsciiCase "x-api-token".toList && secureEq value token

/-! ## Answers -/

def writeResponse (status : ℕ) (contentType body : Text) : Text :=
  let reason := match status with
    | 200 => "OK".toList
    | 400 => "Bad Request".toList
    | 401 => "Unauthorized".toList
    | 404 => "Not Found".toList
    | 405 => "Method Not Allowed".toList
    | _ => "Error".toList
  "HTTP/1.1 ".toList ++ Nat.toDigits 10 status ++ ' ' :: reason ++ "\r\nContent-Type: ".toList ++
    contentType ++ "\r\nContent-Length: ".toList ++ Nat.toDigits 10 body.len ++
    ("\r\nCache-Control: no-store\r\nConnection: close\r\n" ++
      "X-Content-Type-Options: nosniff\r\n\r\n").toList ++ body

def plainText : Text := "text/plain; charset=utf-8".toList

def applicationJson : Text := "application/json; charset=utf-8".toList

/-- The lines of the metrics: what stands before a number, and the number. -/
def metricSamples (stats : DnsStats) : List (Text × ℕ) :=
  let bytes (direction : String) : Text :=
    ("dnsblackhole_dns_bytes_total\x7bdirection=\"" ++ direction ++ "\"\x7d ").toList
  [(("# HELP dnsblackhole_queries_total Total DNS queries processed.\n" ++
      "# TYPE dnsblackhole_queries_total counter\ndnsblackhole_queries_total ").toList,
      stats.queries),
    (("# HELP dnsblackhole_blocked_total Total DNS queries blocked.\n" ++
      "# TYPE dnsblackhole_blocked_total counter\ndnsblackhole_blocked_total ").toList,
      stats.blocked),
    (("# HELP dnsblackhole_forwarded_total Total DNS queries forwarded upstream.\n" ++
      "# TYPE dnsblackhole_forwarded_total counter\ndnsblackhole_forwarded_total ").toList,
      stats.forwarded),
    (("# HELP dnsblackhole_failed_total Total failed DNS operations.\n" ++
      "# TYPE dnsblackhole_failed_total counter\ndnsblackhole_failed_total ").toList,
      stats.failed),
    (("# TYPE dnsblackhole_cache_hits_total counter\n" ++
      "dnsblackhole_cache_hits_total ").toList, stats.cacheHits),
    (("# TYPE dnsblackhole_cache_misses_total counter\n" ++
      "dnsblackhole_cache_misses_total ").toList, stats.cacheMisses),
    (("# TYPE dnsblackhole_access_denied_total counter\n" ++
      "dnsblackhole_access_denied_total ").toList, stats.accessDeniedTotal),
    (("# TYPE dnsblackhole_rate_limited_total counter\n" ++
      "dnsblackhole_rate_limited_total ").toList, stats.rateLimitedTotal),
    (("# HELP dnsblackhole_invalid_query_total Total client queries rejected as invalid.\n" ++
      "# TYPE dnsblackhole_invalid_query_total counter\n" ++
      "dnsblackhole_invalid_query_total ").toList, stats.invalidQueryTotal),
    (("# TYPE dnsblackhole_cache_entries gauge\n" ++
      "dnsblackhole_cache_entries ").toList, stats.cacheEntries),
    (("# TYPE dnsblackhole_cache_bytes gauge\n" ++
      "dnsblackhole_cache_bytes ").toList, stats.cacheBytes),
    (("# HELP dnsblackhole_dns_bytes_total DNS message bytes moved, excluding TLS and HTTP " ++
      "framing.\n# TYPE dnsblackhole_dns_bytes_total counter\n").toList ++ bytes "client_in",
      stats.trafficTotals.clientBytesIn),
    (bytes "client_out", stats.trafficTotals.clientBytesOut),
    (bytes "upstream_out", stats.trafficTotals.upstreamBytesOut),
    (bytes "upstream_in", stats.trafficTotals.upstreamBytesIn),
    (("# HELP dnsblackhole_cache_saved_bytes_total Upstream bytes avoided by cache hits.\n" ++
      "# TYPE dnsblackhole_cache_saved_bytes_total counter\n" ++
      "dnsblackhole_cache_saved_bytes_total ").toList, stats.trafficTotals.cacheSavedBytes)]

def renderSamples (samples : List (Text × ℕ)) : Text :=
  samples.flatMap fun sample => sample.1 ++ Nat.toDigits 10 sample.2 ++ ['\n']

def prometheusMetrics (stats : DnsStats) : Text := renderSamples (metricSamples stats)

/-- The text of an object; its members are sorted. -/
def jsonObject (members : List (Text × Text)) : Text :=
  "\x7b".toList ++ Text.join (members.map fun member =>
    '"' :: member.1 ++ "\":".toList ++ member.2) [','] ++ "\x7d".toList

/-- The body of `/api/v1/status`. -/
def apiStatus (stats : DnsStats) (protectionPausedUntil now : UInt64) : Text :=
  let paused := decide (now < protectionPausedUntil)
  let flag (value : Bool) : Text := if value then "true".toList else "false".toList
  let time (value : Option UInt64) : Text :=
    value.elim "null".toList fun value => Nat.toDigits 10 value.toNat
  let pausedUntil := if paused then some protectionPausedUntil else none
  jsonObject
    [("blocked".toList, Nat.toDigits 10 stats.blocked),
      ("cache_hits".toList, Nat.toDigits 10 stats.cacheHits),
      ("cache_misses".toList, Nat.toDigits 10 stats.cacheMisses),
      ("failed".toList, Nat.toDigits 10 stats.failed),
      ("forwarded".toList, Nat.toDigits 10 stats.forwarded),
      ("protection_paused".toList, flag paused),
      ("protection_paused_until".toList, time pausedUntil),
      ("queries".toList, Nat.toDigits 10 stats.queries),
      ("running".toList, flag true),
      ("started_at".toList, time stats.startedAt)]

section
variable (token : Text) (stats : DnsStats) (protectionPausedUntil now : UInt64)

def respond (path : Text) : Text :=
  if path = "/health".toList then
    writeResponse 200 applicationJson "\x7b\"status\":\"ok\"\x7d\n".toList
  else if path = "/api/v1/status".toList then
    writeResponse 200 applicationJson (apiStatus stats protectionPausedUntil now ++ ['\n'])
  else if path = "/metrics".toList then
    writeResponse 200 "text/plain; version=0.0.4; charset=utf-8".toList (prometheusMetrics stats)
  else writeResponse 404 applicationJson "\x7b\"error\":\"not_found\"\x7d\n".toList

/-- The answer to what one read of `MAX_REQUEST_BYTES` at most has brought; there is none if
    the read has failed. -/
def handleConnection : Option (List UInt8) → Option Text
  | none => none
  | some received => some <|
    match fromUtf8 (received.take maxRequestBytes) with
    | none => writeResponse 400 plainText "请求编码无效\n".toList
    | some request =>
      match request.lines.head? with
      | none => writeResponse 400 plainText "请求为空\n".toList
      | some firstLine =>
        let requestParts := firstLine.splitWhitespace
        if requestParts.head? ≠ some "GET".toList then
          writeResponse 405 plainText "仅支持 GET\n".toList
        else
          let path := (Text.split (· == '?') (requestParts[1]?.getD ['/'])).head?.getD ['/']
          if token ≠ [] ∧ requestIsAuthorized request token = false then
            writeResponse 401 applicationJson "\x7b\"error\":\"unauthorized\"\x7d\n".toList
          else respond stats protectionPausedUntil now path

end

/-! ## Tokens -/

theorem fromUtf8_asBytes (t : Text) : fromUtf8 t.asBytes = some t := by
  rw [fromUtf8, fromUtf8Lossy_asBytes, if_pos rfl]

theorem asBytes_inj {t u : Text} : t.asBytes = u.asBytes ↔ t = u := by
  constructor
  · intro h
    rw [← fromUtf8Lossy_asBytes t, h, fromUtf8Lossy_asBytes]
  · exact fun h => h ▸ rfl

theorem foldl_difference_eq_zero : ∀ (bytes : List (UInt8 × UInt8)) (difference : UInt8),
    bytes.foldl (fun difference bytes => difference ||| (bytes.1 ^^^ bytes.2)) difference = 0 ↔
      difference = 0 ∧ ∀ b ∈ bytes, b.1 = b.2
  | [], difference => by simp
  | b :: bytes, difference => by
    have hor : difference ||| (b.1 ^^^ b.2) = 0 ↔ difference = 0 ∧ b.1 = b.2 := by
      rw [UInt8.or_eq_zero_iff, UInt8.xor_eq_zero_iff]
    rw [List.foldl_cons, foldl_difference_eq_zero bytes, hor, and_assoc, List.forall_mem_cons]

theorem forall_mem_zip_eq : ∀ {a b : List UInt8}, a.length = b.length →
    ((∀ c ∈ a.zip b, c.1 = c.2) ↔ a = b)
  | [], [], _ => by simp
  | x :: a, y :: b, h => by
    rw [List.zip_cons_cons, List.forall_mem_cons, List.cons.injEq,
      forall_mem_zip_eq (Nat.succ.inj h)]

/-- **The comparison of tokens** is that of the texts, whatever they share. -/
theorem secureEq_iff {left right : Text} : secureEq left right ↔ left = right := by
  unfold secureEq
  split_ifs with hlen
  · refine iff_of_false id fun h => hlen ?_
    rw [h]
  · rw [ne_eq, not_not] at hlen
    have hlength : left.asBytes.length = right.asBytes.length := by
      rw [Text.length_asBytes, Text.length_asBytes, hlen]
    rw [beq_iff_eq, foldl_difference_eq_zero, forall_mem_zip_eq hlength, asBytes_inj]
    exact and_iff_right rfl

/-- The request has a header with the token. -/
def CarriesToken (token request : Text) : Prop :=
  ∃ line ∈ request.lines.drop 1, ∃ name value, line.splitOnce (· == ':') = some (name, value) ∧
    (name.eqIgnoreAsciiCase "authorization".toList ∧ value.trim = "Bearer ".toList ++ token ∨
      name.eqIgnoreAsciiCase "x-api-token".toList ∧ value.trim = token)

theorem carriesToken_of_isAuthorized {token request : Text}
    (h : requestIsAuthorized request token) : CarriesToken token request := by
  obtain ⟨line, hline, h⟩ := List.any_eq_true.1 h
  refine ⟨line, hline, ?_⟩
  cases hsplit : line.splitOnce (· == ':') with
  | none =>
    rw [hsplit] at h
    cases h
  | some header =>
    rw [hsplit] at h
    refine ⟨header.1, header.2, rfl, ?_⟩
    rcases Bool.or_eq_true_iff.1 h with h | h
    · obtain ⟨hname, hvalue⟩ := Bool.and_eq_true_iff.1 h
      obtain ⟨value, hprefix, hsecure⟩ := (Option.any_eq_true _ _).1 hvalue
      exact .inl ⟨hname, secureEq_iff.1 hsecure ▸ Text.stripPrefix_eq_some.1 hprefix⟩
    · obtain ⟨hname, hsecure⟩ := Bool.and_eq_true_iff.1 h
      exact .inr ⟨hname, secureEq_iff.1 hsecure⟩

/-! ## What is shown -/

section
variable {token : Text} {stats stats' : DnsStats} {protectionPausedUntil now : UInt64}

/-- **Without the token**, the answer is the same whatever the statistics are. -/
theorem handleConnection_unauthorized (htoken : token ≠ []) {received : List UInt8}
    (h : ∀ request, fromUtf8 (received.take maxRequestBytes) = some request →
      requestIsAuthorized request token = false) :
    handleConnection token stats protectionPausedUntil now (some received) =
      handleConnection token stats' protectionPausedUntil now (some received) := by
  unfold handleConnection
  dsimp only
  cases hrequest : fromUtf8 (received.take maxRequestBytes) with
  | none => rfl
  | some request =>
    dsimp only
    have hdenied : token ≠ [] ∧ requestIsAuthorized request token = false :=
      ⟨htoken, h request hrequest⟩
    cases request.lines.head? with
    | none => rfl
    | some firstLine =>
      dsimp only
      rw [if_pos hdenied, if_pos hdenied]

theorem newline_not_mem_toDigits (n : ℕ) : '\n' ∉ Nat.toDigits 10 n := by
  intro h
  have hdigit := Text.isDigit_of_mem_toDigits h
  exact absurd hdigit (by decide)

theorem append_newline_inj {a b rest rest' : Text} (ha : '\n' ∉ a) (hb : '\n' ∉ b)
    (h : a ++ '\n' :: rest = b ++ '\n' :: rest') : a = b ∧ rest = rest' := by
  have hsplit {t : Text} (ht : '\n' ∉ t) (rest : Text) :
      Text.split (· == '\n') (t ++ '\n' :: rest) = t :: Text.split (· == '\n') rest := by
    have hline : ∀ c ∈ t, ¬ (c == '\n') := by
      intro c hc heq
      exact ht (eq_of_beq heq ▸ hc)
    rw [Text.split_append (by rfl), Text.split_of_forall_not hline]
    rfl
  have hlines := congrArg (Text.split (· == '\n')) h
  rw [hsplit ha, hsplit hb] at hlines
  obtain ⟨rfl, -⟩ := List.cons.inj hlines
  exact ⟨rfl, (List.cons.inj (List.append_cancel_left h)).2⟩

theorem renderSamples_inj : ∀ {samples samples' : List (Text × ℕ)},
    samples.map Prod.fst = samples'.map Prod.fst →
      renderSamples samples = renderSamples samples' → samples = samples'
  | [], [], _, _ => rfl
  | (label, value) :: samples, (label', value') :: samples', hlabels, h => by
    obtain ⟨rfl, hrest⟩ := List.cons.inj hlabels
    simp only [renderSamples, List.flatMap_cons, List.append_assoc, List.append_cancel_left_eq,
      List.singleton_append] at h
    obtain ⟨hdigits, htail⟩ := append_newline_inj (newline_not_mem_toDigits value)
      (newline_not_mem_toDigits value') h
    simp only [← List.append_assoc] at htail
    have hvalue : value = value' := by
      rw [← Text.decimal_toDigits value, hdigits, Text.decimal_toDigits]
    rw [hvalue, renderSamples_inj hrest htail]

/-- The numbers of the metrics, in the order of their lines. -/
def metricValues (stats : DnsStats) : List ℕ :=
  [stats.queries, stats.blocked, stats.forwarded, stats.failed, stats.cacheHits,
    stats.cacheMisses, stats.accessDeniedTotal, stats.rateLimitedTotal, stats.invalidQueryTotal,
    stats.cacheEntries, stats.cacheBytes, stats.trafficTotals.clientBytesIn,
    stats.trafficTotals.clientBytesOut, stats.trafficTotals.upstreamBytesOut,
    stats.trafficTotals.upstreamBytesIn, stats.trafficTotals.cacheSavedBytes]

/-- **The text of the metrics** is that of its numbers. -/
theorem prometheusMetrics_eq_iff :
    prometheusMetrics stats = prometheusMetrics stats' ↔
      metricValues stats = metricValues stats' := by
  have hvalues (stats : DnsStats) : (metricSamples stats).map Prod.snd = metricValues stats := rfl
  have hlabels : (metricSamples stats).map Prod.fst = (metricSamples stats').map Prod.fst := rfl
  constructor
  · intro h
    rw [← hvalues, renderSamples_inj hlabels h, hvalues]
  · intro h
    have hzip : metricSamples stats = ((metricSamples stats').map Prod.fst).zip
        (metricValues stats') := List.zip_of_prod hlabels ((hvalues stats).trans h)
    rw [prometheusMetrics, prometheusMetrics, hzip, ← List.zip_of_prod rfl (hvalues stats')]

/-- The same is printed. -/
structure Printed (stats stats' : DnsStats) : Prop where
  startedAt : stats.startedAt = stats'.startedAt
  values : metricValues stats = metricValues stats'

theorem Printed.apiStatus (h : Printed stats stats') :
    apiStatus stats protectionPausedUntil now = apiStatus stats' protectionPausedUntil now := by
  obtain ⟨hstarted, hvalues⟩ := h
  simp only [metricValues, List.cons.injEq] at hvalues
  obtain ⟨hqueries, hblocked, hforwarded, hfailed, hhits, hmisses, -⟩ := hvalues
  rw [Admin.apiStatus, Admin.apiStatus, hstarted, hqueries, hblocked, hforwarded, hfailed, hhits,
    hmisses]

/-- **What is not printed is shown to nobody**, such as domains and clients. -/
theorem handleConnection_congr (h : Printed stats stats') (received : Option (List UInt8)) :
    handleConnection token stats protectionPausedUntil now received =
      handleConnection token stats' protectionPausedUntil now received := by
  have hrespond : respond stats protectionPausedUntil now =
      respond stats' protectionPausedUntil now := by
    funext path
    rw [respond, respond, h.apiStatus, prometheusMetrics_eq_iff.2 h.values]
  unfold handleConnection
  rw [hrespond]

/-- **What an answer discloses**: nothing of the statistics without the token, and with it what is
    printed, such as no domain and no client. -/
theorem monitoring_discloses (htoken : token ≠ []) {received : List UInt8}
    (h : (∃ request, fromUtf8 (received.take maxRequestBytes) = some request ∧
      CarriesToken token request) → Printed stats stats') :
    handleConnection token stats protectionPausedUntil now (some received) =
      handleConnection token stats' protectionPausedUntil now (some received) := by
  by_cases hcarries : ∃ request, fromUtf8 (received.take maxRequestBytes) = some request ∧
      CarriesToken token request
  · exact handleConnection_congr (h hcarries) _
  · refine handleConnection_unauthorized htoken fun request hrequest => ?_
    refine Bool.eq_false_iff.2 fun hauthorized => hcarries ⟨request, hrequest, ?_⟩
    exact carriesToken_of_isAuthorized hauthorized

/-- A request without headers. -/
theorem metricsRequest_discloses_nothing : handleConnection ['t'] { queries := 1 } 0 0
      (some (Text.asBytes "GET /metrics".toList)) =
    handleConnection ['t'] { queries := 2 } 0 0 (some (Text.asBytes "GET /metrics".toList)) := by
  refine monitoring_discloses (List.cons_ne_nil _ _) ?_
  rintro ⟨request, hrequest, line, hline, -⟩
  obtain rfl : "GET /metrics".toList = request :=
    Option.some.inj ((fromUtf8_asBytes _).symm.trans hrequest)
  cases hline

end

/-! ## Counters -/

/-- The counters of the recorders that are printed. -/
inductive Counter
  | queries
  | blocked
  | forwarded
  | failed
  | accessDenied
  | rateLimited
  | invalidQuery
  deriving DecidableEq

namespace Counter

def read (stats : DnsStats) : Counter → ℕ
  | .queries => stats.queries
  | .blocked => stats.blocked
  | .forwarded => stats.forwarded
  | .failed => stats.failed
  | .accessDenied => stats.accessDeniedTotal
  | .rateLimited => stats.rateLimitedTotal
  | .invalidQuery => stats.invalidQueryTotal

/-- The events of a counter. -/
def counts : Counter → StatsEvent → Bool
  | .queries, .query _ _ _ => true
  | .queries, .blockedQuery _ _ _ _ => true
  | .blocked, .blockedQuery _ _ _ _ => true
  | .blocked, .responseBlocked _ _ _ _ _ => true
  | .forwarded, .forwarded => true
  | .failed, .error _ => true
  | .failed, .workerQueueDrop _ => true
  | .failed, .tcpConnectionRejected _ => true
  | .accessDenied, .accessDenied _ _ _ _ _ => true
  | .rateLimited, .rateLimited _ _ _ _ _ => true
  | .invalidQuery, .invalidQuery _ _ _ _ _ => true
  | _, _ => false

/-- Those that it misses: without the details, `record_response_blocked` returns too early. -/
def misses (detailed : Bool) : Counter → StatsEvent → Bool
  | .blocked, event => event.isResponseBlocked && !detailed
  | _, _ => false

end Counter

/-- What is printed of the statistics and written by no recorder. -/
structure Unwritten (stats stats' : DnsStats) : Prop where
  startedAt : stats'.startedAt = stats.startedAt
  cacheHits : stats'.cacheHits = stats.cacheHits
  cacheMisses : stats'.cacheMisses = stats.cacheMisses
  cacheEntries : stats'.cacheEntries = stats.cacheEntries
  cacheBytes : stats'.cacheBytes = stats.cacheBytes
  trafficTotals : stats'.trafficTotals = stats.trafficTotals

section
variable {stats stats' stats'' : DnsStats} {detailed : Bool} {counter : Counter}

theorem Unwritten.refl (stats : DnsStats) : Unwritten stats stats := ⟨rfl, rfl, rfl, rfl, rfl, rfl⟩

theorem Unwritten.trans (h : Unwritten stats stats') (h' : Unwritten stats' stats'') :
    Unwritten stats stats'' :=
  ⟨h'.startedAt.trans h.startedAt, h'.cacheHits.trans h.cacheHits,
    h'.cacheMisses.trans h.cacheMisses, h'.cacheEntries.trans h.cacheEntries,
    h'.cacheBytes.trans h.cacheBytes, h'.trafficTotals.trans h.trafficTotals⟩

theorem read_recordTraffic (stats : DnsStats) (minute : UInt64) (blocked : Bool) :
    counter.read (stats.recordTraffic minute blocked) = counter.read stats := by
  obtain ⟨traffic, htraffic⟩ := stats.recordTraffic_eq minute blocked
  rw [htraffic]
  cases counter <;> rfl

theorem unwritten_recordTraffic (stats : DnsStats) (minute : UInt64) (blocked : Bool) :
    Unwritten stats (stats.recordTraffic minute blocked) := by
  obtain ⟨traffic, htraffic⟩ := stats.recordTraffic_eq minute blocked
  rw [htraffic]
  exact ⟨rfl, rfl, rfl, rfl, rfl, rfl⟩

section
variable (stats : DnsStats) (protocol : DnsTransport) (identity : Database.SecurityEventIdentity)
  (now : UInt64) (closed : Bool)

/-- A refusal counts in its own counter, and in those of datagrams and of the channel. -/
theorem read_recordSecurityEvent :
    counter.read ((stats.dropUdp protocol).recordSecurityEvent identity now closed) =
      counter.read stats := by
  unfold DnsStats.recordSecurityEvent DnsStats.persistSecurityEvent DnsStats.dropUdp
  split_ifs <;> cases counter <;> rfl

theorem unwritten_recordSecurityEvent :
    Unwritten stats ((stats.dropUdp protocol).recordSecurityEvent identity now closed) := by
  unfold DnsStats.recordSecurityEvent DnsStats.persistSecurityEvent DnsStats.dropUdp
  split_ifs <;> exact ⟨rfl, rfl, rfl, rfl, rfl, rfl⟩

end

/-- **A call of a recorder** counts its event in every counter but one that misses it. -/
theorem read_record (stats : DnsStats) (event : StatsEvent) :
    counter.read (stats.record detailed event) + (counter.misses detailed event).toNat =
      counter.read stats + (counter.counts event).toNat := by
  cases event with
  | query domain clientIp minute =>
    cases detailed with
    | false => cases counter <;> rfl
    | true =>
      unfold DnsStats.record DnsStats.recordQuery
      dsimp only
      rw [if_pos rfl, read_recordTraffic]
      cases counter <;> rfl
  | blockedQuery domain clientIp ruleSource minute =>
    cases detailed with
    | false => cases counter <;> rfl
    | true =>
      unfold DnsStats.record DnsStats.recordBlockedQuery
      dsimp only
      rw [if_pos rfl, read_recordTraffic, read_recordTraffic]
      cases counter <;> rfl
  | responseBlocked domain clientIp ruleSource kind minute =>
    cases detailed with
    | false => cases counter <;> cases kind <;> rfl
    | true =>
      unfold DnsStats.record DnsStats.recordResponseBlocked
      dsimp only
      rw [if_pos rfl, read_recordTraffic]
      cases counter <;> cases kind <;> rfl
  | forwarded => cases counter <;> rfl
  | error error => cases counter <;> rfl
  | workerQueueDrop error => cases counter <;> rfl
  | persistenceQueueDrop error => cases counter <;> rfl
  | upstreamTaskQueueRejected => cases counter <;> rfl
  | tcpConnectionRejected error => cases counter <;> rfl
  | accessDenied clientIp protocol reason now closed =>
    refine (congrArg (· + _) (read_recordSecurityEvent _ protocol _ now closed)).trans ?_
    cases counter <;> rfl
  | invalidQuery clientIp protocol reason now closed =>
    refine (congrArg (· + _) (read_recordSecurityEvent _ protocol _ now closed)).trans ?_
    cases counter <;> rfl
  | rateLimited clientIp protocol reason now closed =>
    refine (congrArg (· + _) (read_recordSecurityEvent _ protocol _ now closed)).trans ?_
    cases counter <;> rfl
  | refusedAny => cases counter <;> rfl

/-- **No recorder** writes what is known to the cache and to the database only. -/
theorem unwritten_record (stats : DnsStats) (event : StatsEvent) :
    Unwritten stats (stats.record detailed event) := by
  have hsame {stats' : DnsStats} (h : Unwritten stats stats') (minute : UInt64) (blocked : Bool) :
      Unwritten stats (stats'.recordTraffic minute blocked) :=
    h.trans (unwritten_recordTraffic stats' minute blocked)
  have hrefused {stats' : DnsStats} (h : Unwritten stats stats') (protocol : DnsTransport)
      (identity : Database.SecurityEventIdentity) (now : UInt64) (closed : Bool) :
      Unwritten stats ((stats'.dropUdp protocol).recordSecurityEvent identity now closed) :=
    h.trans (unwritten_recordSecurityEvent stats' protocol identity now closed)
  cases event with
  | query domain clientIp minute =>
    cases detailed with
    | false => exact ⟨rfl, rfl, rfl, rfl, rfl, rfl⟩
    | true =>
      refine hsame ?_ minute false
      exact ⟨rfl, rfl, rfl, rfl, rfl, rfl⟩
  | blockedQuery domain clientIp ruleSource minute =>
    cases detailed with
    | false => exact ⟨rfl, rfl, rfl, rfl, rfl, rfl⟩
    | true =>
      refine hsame (hsame ?_ minute false) minute true
      exact ⟨rfl, rfl, rfl, rfl, rfl, rfl⟩
  | responseBlocked domain clientIp ruleSource kind minute =>
    cases detailed with
    | false => cases kind <;> exact ⟨rfl, rfl, rfl, rfl, rfl, rfl⟩
    | true =>
      refine hsame ?_ minute true
      cases kind <;> exact ⟨rfl, rfl, rfl, rfl, rfl, rfl⟩
  | accessDenied clientIp protocol reason now closed =>
    refine hrefused ?_ protocol _ now closed
    exact ⟨rfl, rfl, rfl, rfl, rfl, rfl⟩
  | invalidQuery clientIp protocol reason now closed =>
    refine hrefused ?_ protocol _ now closed
    exact ⟨rfl, rfl, rfl, rfl, rfl, rfl⟩
  | rateLimited clientIp protocol reason now closed =>
    refine hrefused ?_ protocol _ now closed
    exact ⟨rfl, rfl, rfl, rfl, rfl, rfl⟩
  | _ => exact ⟨rfl, rfl, rfl, rfl, rfl, rfl⟩

end

/-! ## The status of the service -/

def applyCacheStats (stats : DnsStats) (cache : DnsCacheStatsSnapshot) : DnsStats :=
  { stats with
    cacheHits := cache.hits
    cacheMisses := cache.misses
    cacheStaleHits := cache.staleHits
    cacheRefreshStarted := cache.refreshStarted
    cacheRefreshCompleted := cache.refreshCompleted
    cacheRefreshFailed := cache.refreshFailed
    cachePrefetchStarted := cache.prefetchStarted
    cachePrefetchCompleted := cache.prefetchCompleted
    cachePrefetchFailed := cache.prefetchFailed
    cacheInsertions := cache.insertions
    cacheEvictions := cache.evictions
    cacheEntries := cache.entries
    cacheBytes := cache.bytes }

end DnsBlackhole.Admin
