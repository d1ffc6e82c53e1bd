/-
  The events that the statistics record, and the switch for the details
  (`dns/stats.rs`).

  The details are the maps by domain, client and list, and the buckets by minute.

  * `recordAll_withoutDetails_iff`: the switch changes nothing else exactly if no response was
    blocked: `record_response_blocked` returns too early without the details;
  * `blockedResponse_uncounted`: one response that is blocked.
-/
import DnsBlackhole.Admin.Stats
import DnsBlackhole.Database.SecurityEvents

namespace DnsBlackhole.Admin
open DnsBlackhole.Filter (ResponseProtectionKind)
open Database (SecurityEventIdentity appendSecurityEvent)

namespace DnsStats
variable (stats : DnsStats)

/-! ## Recording -/

def recordWorkerQueueDrop (error : Text) : DnsStats :=
  { stats with
    failed := stats.failed + 1
    workerQueueDroppedTotal := stats.workerQueueDroppedTotal + 1
    lastError := some error }

def recordUpstreamTaskQueueRejected : DnsStats :=
  { stats with upstreamTaskQueueRejectedTotal := stats.upstreamTaskQueueRejectedTotal + 1 }

def recordTcpConnectionRejected (error : Text) : DnsStats :=
  { stats with
    failed := stats.failed + 1
    tcpConnectionRejectedTotal := stats.tcpConnectionRejectedTotal + 1
    lastError := some error }

/-- `persist_security_event`; `closed` if there is a sender whose receiver is gone. -/
def persistSecurityEvent (closed : Bool) : DnsStats :=
  if closed then
    { stats with
      persistenceQueueDroppedTotal := stats.persistenceQueueDroppedTotal + 1
      lastError := some "安全事件写入队列已关闭".toList }
  else stats

def recordSecurityEvent (identity : SecurityEventIdentity) (now : UInt64) (closed : Bool) :
    DnsStats :=
  let securityEvents := (appendSecurityEvent now identity stats.securityEvents).1
  { stats with securityEvents }.persistSecurityEvent closed

/-- A datagram that is not answered. -/
def dropUdp (protocol : DnsTransport) : DnsStats :=
  if protocol = .udp then { stats with droppedUdpTotal := stats.droppedUdpTotal + 1 } else stats

section
variable (clientIp : Text) (protocol : DnsTransport) (reason : Text) (now : UInt64) (closed : Bool)

def recordAccessDenied : DnsStats :=
  ({ stats with accessDeniedTotal := stats.accessDeniedTotal + 1 }.dropUdp
    protocol).recordSecurityEvent ⟨.accessDenied, protocol, clientIp, reason⟩ now closed

def recordInvalidQuery : DnsStats :=
  ({ stats with invalidQueryTotal := stats.invalidQueryTotal + 1 }.dropUdp
    protocol).recordSecurityEvent ⟨.invalidQuery, protocol, clientIp, reason⟩ now closed

def recordRateLimited : DnsStats :=
  ({ stats with rateLimitedTotal := stats.rateLimitedTotal + 1 }.dropUdp
    protocol).recordSecurityEvent ⟨.rateLimited, protocol, clientIp, reason⟩ now closed

end

end DnsStats

/-- A call of a recorder, and the clock and the channel that it finds. -/
inductive StatsEvent
  | query (domain clientIp : Text) (minute : UInt64)
  | blockedQuery (domain clientIp ruleSource : Text) (minute : UInt64)
  | responseBlocked (domain clientIp ruleSource : Text) (kind : ResponseProtectionKind)
    (minute : UInt64)
  | forwarded
  | error (error : Text)
  | workerQueueDrop (error : Text)
  | persistenceQueueDrop (error : Text)
  | upstreamTaskQueueRejected
  | tcpConnectionRejected (error : Text)
  | accessDenied (clientIp : Text) (protocol : DnsTransport) (reason : Text) (now : UInt64)
    (closed : Bool)
  | invalidQuery (clientIp : Text) (protocol : DnsTransport) (reason : Text) (now : UInt64)
    (closed : Bool)
  | rateLimited (clientIp : Text) (protocol : DnsTransport) (reason : Text) (now : UInt64)
    (closed : Bool)
  | refusedAny

def StatsEvent.isBlockedQuery : StatsEvent → Bool
  | .blockedQuery _ _ _ _ => true
  | _ => false

/-- A response that is not passed on. -/
def StatsEvent.isResponseBlocked : StatsEvent → Bool
  | .responseBlocked _ _ _ _ _ => true
  | _ => false

namespace DnsStats

def record (detailed : Bool) (stats : DnsStats) : StatsEvent → DnsStats
  | .query domain clientIp minute => stats.recordQuery domain clientIp minute detailed
  | .blockedQuery domain clientIp ruleSource minute =>
    stats.recordBlockedQuery domain clientIp minute detailed ruleSource
  | .responseBlocked domain clientIp ruleSource kind minute =>
    stats.recordResponseBlocked domain clientIp minute detailed ruleSource kind
  | .forwarded => stats.recordForwarded
  | .error error => stats.recordError error
  | .workerQueueDrop error => stats.recordWorkerQueueDrop error
  | .persistenceQueueDrop error => stats.recordPersistenceQueueDrop error
  | .upstreamTaskQueueRejected => stats.recordUpstreamTaskQueueRejected
  | .tcpConnectionRejected error => stats.recordTcpConnectionRejected error
  | .accessDenied clientIp protocol reason now closed =>
    stats.recordAccessDenied clientIp protocol reason now closed
  | .invalidQuery clientIp protocol reason now closed =>
    stats.recordInvalidQuery clientIp protocol reason now closed
  | .rateLimited clientIp protocol reason now closed =>
    stats.recordRateLimited clientIp protocol reason now closed
  | .refusedAny => stats.recordRefusedAny

def recordAll (detailed : Bool) (stats : DnsStats) (events : List StatsEvent) : DnsStats :=
  events.foldl (record detailed) stats

/-! ## The switch -/

/-- All but the maps and the buckets that are kept with the details. -/
def withoutDetails (stats : DnsStats) : DnsStats :=
  { stats with
    queryDomains := ∅
    blockedDomains := ∅
    clientRequests := ∅
    clientBlocked := ∅
    blocklistHits := ∅
    traffic := [] }

section
variable (stats : DnsStats) (minute : UInt64) (blocked : Bool)

theorem recordTraffic_eq :
    ∃ traffic, stats.recordTraffic minute blocked = { stats with traffic } := by
  unfold recordTraffic
  split
  · split_ifs
    · exact ⟨_, rfl⟩
    · split
      · exact ⟨_, rfl⟩
      · exact ⟨_, rfl⟩
  · exact ⟨_, rfl⟩

@[simp] theorem withoutDetails_recordTraffic :
    (stats.recordTraffic minute blocked).withoutDetails = stats.withoutDetails := by
  obtain ⟨traffic, htraffic⟩ := recordTraffic_eq stats minute blocked
  rw [htraffic]
  rfl

@[simp] theorem blocked_recordTraffic :
    (stats.recordTraffic minute blocked).blocked = stats.blocked := by
  obtain ⟨traffic, htraffic⟩ := recordTraffic_eq stats minute blocked
  rw [htraffic]

theorem withoutDetails_record_false (event : StatsEvent) :
    (stats.record false event).withoutDetails = stats.withoutDetails.record false event := by
  cases event with
  | query domain clientIp minute => rfl
  | blockedQuery domain clientIp ruleSource minute => rfl
  | responseBlocked domain clientIp ruleSource kind minute => cases kind <;> rfl
  | forwarded => rfl
  | error error => rfl
  | workerQueueDrop error => rfl
  | persistenceQueueDrop error => rfl
  | upstreamTaskQueueRejected => rfl
  | tcpConnectionRejected error => rfl
  | accessDenied clientIp protocol reason now closed => cases protocol <;> cases closed <;> rfl
  | invalidQuery clientIp protocol reason now closed => cases protocol <;> cases closed <;> rfl
  | rateLimited clientIp protocol reason now closed => cases protocol <;> cases closed <;> rfl
  | refusedAny => rfl

theorem withoutDetails_record_true {event : StatsEvent} (h : event.isResponseBlocked = false) :
    (stats.record true event).withoutDetails = (stats.record false event).withoutDetails := by
  cases event with
  | query domain clientIp minute => exact withoutDetails_recordTraffic _ minute false
  | blockedQuery domain clientIp ruleSource minute =>
    exact (withoutDetails_recordTraffic _ minute true).trans
      (withoutDetails_recordTraffic _ minute false)
  | responseBlocked domain clientIp ruleSource kind minute => cases h
  | forwarded => rfl
  | error error => rfl
  | workerQueueDrop error => rfl
  | persistenceQueueDrop error => rfl
  | upstreamTaskQueueRejected => rfl
  | tcpConnectionRejected error => rfl
  | accessDenied clientIp protocol reason now closed => rfl
  | invalidQuery clientIp protocol reason now closed => rfl
  | rateLimited clientIp protocol reason now closed => rfl
  | refusedAny => rfl

theorem blocked_record_false (event : StatsEvent) :
    (stats.record false event).blocked = stats.blocked + event.isBlockedQuery.toNat := by
  cases event with
  | query domain clientIp minute => rfl
  | blockedQuery domain clientIp ruleSource minute => rfl
  | responseBlocked domain clientIp ruleSource kind minute => cases kind <;> rfl
  | forwarded => rfl
  | error error => rfl
  | workerQueueDrop error => rfl
  | persistenceQueueDrop error => rfl
  | upstreamTaskQueueRejected => rfl
  | tcpConnectionRejected error => rfl
  | accessDenied clientIp protocol reason now closed => cases protocol <;> cases closed <;> rfl
  | invalidQuery clientIp protocol reason now closed => cases protocol <;> cases closed <;> rfl
  | rateLimited clientIp protocol reason now closed => cases protocol <;> cases closed <;> rfl
  | refusedAny => rfl

theorem blocked_record_true (event : StatsEvent) :
    (stats.record true event).blocked =
      (stats.record false event).blocked + event.isResponseBlocked.toNat := by
  cases event with
  | responseBlocked domain clientIp ruleSource kind minute =>
    cases kind
    · exact blocked_recordTraffic _ minute true
    · exact blocked_recordTraffic _ minute true
  | query domain clientIp minute => exact blocked_recordTraffic _ minute false
  | blockedQuery domain clientIp ruleSource minute =>
    exact (blocked_recordTraffic _ minute true).trans (blocked_recordTraffic _ minute false)
  | forwarded => rfl
  | error error => rfl
  | workerQueueDrop error => rfl
  | persistenceQueueDrop error => rfl
  | upstreamTaskQueueRejected => rfl
  | tcpConnectionRejected error => rfl
  | accessDenied clientIp protocol reason now closed => rfl
  | invalidQuery clientIp protocol reason now closed => rfl
  | rateLimited clientIp protocol reason now closed => rfl
  | refusedAny => rfl

/-! ## Runs -/

theorem withoutDetails_recordAll_false (events : List StatsEvent) :
    (recordAll false stats events).withoutDetails =
      recordAll false stats.withoutDetails events := by
  induction events generalizing stats with
  | nil => rfl
  | cons event events ih =>
    rw [recordAll, List.foldl_cons, ← recordAll, ih, withoutDetails_record_false]
    rfl

theorem withoutDetails_recordAll_true {events : List StatsEvent}
    (h : ∀ event ∈ events, event.isResponseBlocked = false) :
    (recordAll true stats events).withoutDetails = recordAll false stats.withoutDetails events := by
  induction events generalizing stats with
  | nil => rfl
  | cons event events ih =>
    obtain ⟨hevent, hevents⟩ := List.forall_mem_cons.1 h
    rw [recordAll, List.foldl_cons, ← recordAll, ih _ hevents,
      withoutDetails_record_true stats hevent, withoutDetails_record_false]
    rfl

theorem blocked_recordAll (events : List StatsEvent) (other : DnsStats) :
    (recordAll true stats events).blocked + other.blocked =
      (recordAll false other events).blocked + stats.blocked +
        events.countP (·.isResponseBlocked) := by
  induction events generalizing stats other with
  | nil => exact Nat.add_comm _ _
  | cons event events ih =>
    have htail := ih (stats.record true event) (other.record false event)
    rw [blocked_record_true, blocked_record_false, blocked_record_false] at htail
    have hcount : (event :: events).countP (·.isResponseBlocked) =
        events.countP (·.isResponseBlocked) + event.isResponseBlocked.toNat := by
      rw [List.countP_cons]
      cases event.isResponseBlocked <;> rfl
    rw [hcount]
    change (recordAll true (stats.record true event) events).blocked + other.blocked =
      (recordAll false (other.record false event) events).blocked + _ + _
    omega

/-- **What the switch changes**: the details only, exactly if no response was blocked. -/
theorem recordAll_withoutDetails_iff (events : List StatsEvent) :
    (recordAll true stats events).withoutDetails = (recordAll false stats events).withoutDetails ↔
      ∀ event ∈ events, event.isResponseBlocked = false := by
  constructor
  · intro h event hevent
    have hblocked : (recordAll true stats events).blocked =
        (recordAll false stats events).blocked := congrArg (·.blocked) h
    have hcount := blocked_recordAll stats events stats
    have hzero : events.countP (·.isResponseBlocked) = 0 := by omega
    exact Bool.eq_false_iff.2 (List.countP_eq_zero.1 hzero event hevent)
  · intro h
    rw [withoutDetails_recordAll_true stats h, withoutDetails_recordAll_false]

end

def cloakedResponse : StatsEvent :=
  .responseBlocked "cdn.example".toList "192.0.2.1".toList "list".toList .cnameCloaking 0

/-- **A response that is blocked** is missing in the number of blocked queries without the
    details. -/
theorem blockedResponse_uncounted : ¬ ∀ events stats,
    (recordAll true stats events).withoutDetails =
      (recordAll false stats events).withoutDetails := by
  intro h
  have hblocked : (recordAll true {} [cloakedResponse]).blocked =
      (recordAll false {} [cloakedResponse]).blocked := congrArg (·.blocked) (h [cloakedResponse] {})
  exact absurd hblocked (by decide)

end DnsStats

end DnsBlackhole.Admin
