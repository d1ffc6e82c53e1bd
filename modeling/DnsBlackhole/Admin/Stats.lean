/-
  What the workers write into the statistics (`dns/stats.rs`).

  Each of these functions runs under the lock of the statistics.  The detailed
  counters are kept only while the statistics are not written to the database
  (`detailed`).
-/
import DnsBlackhole.Admin.Config
import DnsBlackhole.Filter.Runtime

namespace DnsBlackhole.Admin
open DnsBlackhole.Filter (ResponseProtectionKind)

/-- `*counts.entry(key).or_default() += 1`. -/
def Counts.increment (counts : Counts) (key : Text) : Counts :=
  counts.insert key ((counts.lookup key).getD 0 + 1)

def trafficBucketWindowMinutes : ℕ := 90 * 24 * 60

def TrafficBucket.increment (bucket : TrafficBucket) (blocked : Bool) : TrafficBucket :=
  if blocked then { bucket with blocked := bucket.blocked + 1 }
  else { bucket with queries := bucket.queries + 1 }

namespace DnsStats

/-- Replace the first bucket of the minute, if there is one. -/
def incrementBucket (minute : UInt64) (blocked : Bool) :
    List TrafficBucket → Option (List TrafficBucket)
  | [] => none
  | bucket :: buckets =>
    if bucket.minute = minute then some (bucket.increment blocked :: buckets)
    else (incrementBucket minute blocked buckets).map (bucket :: ·)

/-- `record_traffic`: the bucket of the minute is the last one, or stands somewhere
    else after a change of the clock, or is new. -/
def recordTraffic (stats : DnsStats) (minute : UInt64) (blocked : Bool) : DnsStats :=
  match stats.traffic.getLast? with
  | some bucket =>
    if bucket.minute = minute then
      { stats with traffic := stats.traffic.dropLast ++ [bucket.increment blocked] }
    else match incrementBucket minute blocked stats.traffic with
      | some traffic => { stats with traffic }
      | none =>
        { stats with
          traffic := (stats.traffic.filter fun bucket =>
              minute.toNat - trafficBucketWindowMinutes ≤ bucket.minute.toNat) ++
            [TrafficBucket.increment ⟨minute, 0, 0, 0⟩ blocked] }
  | none => { stats with traffic := [TrafficBucket.increment ⟨minute, 0, 0, 0⟩ blocked] }

section
variable (stats : DnsStats) (domain clientIp : Text) (minute : UInt64) (detailed : Bool)

def recordQuery : DnsStats :=
  let stats := { stats with queries := stats.queries + 1, lastQuery := some domain }
  if detailed then
    { stats with
      queryDomains := stats.queryDomains.increment domain
      clientRequests := stats.clientRequests.increment clientIp }.recordTraffic minute false
  else stats

def recordBlockedQuery (ruleSource : Text) : DnsStats :=
  let stats := { stats with
    queries := stats.queries + 1
    blocked := stats.blocked + 1
    lastQuery := some domain
    lastBlocked := some domain }
  if detailed then
    ({ stats with
      queryDomains := stats.queryDomains.increment domain
      blockedDomains := stats.blockedDomains.increment domain
      clientRequests := stats.clientRequests.increment clientIp
      clientBlocked := stats.clientBlocked.increment clientIp
      blocklistHits := stats.blocklistHits.increment ruleSource }.recordTraffic minute
        false).recordTraffic minute true
  else stats

def recordResponseBlocked (ruleSource : Text) (kind : ResponseProtectionKind) : DnsStats :=
  let stats := match kind with
    | .rebinding => { stats with rebindingBlockedTotal := stats.rebindingBlockedTotal + 1 }
    | .cnameCloaking =>
      { stats with cnameCloakingBlockedTotal := stats.cnameCloakingBlockedTotal + 1 }
  if detailed then
    { stats with
      blocked := stats.blocked + 1
      lastBlocked := some domain
      blockedDomains := stats.blockedDomains.increment domain
      clientBlocked := stats.clientBlocked.increment clientIp
      blocklistHits := stats.blocklistHits.increment ruleSource }.recordTraffic minute true
  else stats

/-- A response that has been forwarded shows that the last error is over. -/
def recordForwarded : DnsStats := { stats with lastError := none, forwarded := stats.forwarded + 1 }

def recordError (error : Text) : DnsStats :=
  { stats with failed := stats.failed + 1, lastError := some error }

def recordPersistenceQueueDrop (error : Text) : DnsStats :=
  { stats with
    persistenceQueueDroppedTotal := stats.persistenceQueueDroppedTotal + 1
    lastError := some error }

def recordRefusedAny : DnsStats := { stats with refusedAnyTotal := stats.refusedAnyTotal + 1 }

end

/-! ## What is counted -/

section
variable (stats : DnsStats) (domain clientIp ruleSource error : Text) (minute : UInt64)
  (detailed blocked : Bool) (kind : ResponseProtectionKind)

theorem queries_recordTraffic : (stats.recordTraffic minute blocked).queries = stats.queries := by
  unfold recordTraffic
  split
  · split_ifs
    · rfl
    · split
      · rfl
      · rfl
  · rfl

@[simp] theorem queries_recordQuery :
    (stats.recordQuery domain clientIp minute detailed).queries = stats.queries + 1 := by
  unfold recordQuery
  split_ifs
  · rw [queries_recordTraffic]
  · rfl

@[simp] theorem queries_recordBlockedQuery :
    (stats.recordBlockedQuery domain clientIp minute detailed ruleSource).queries =
      stats.queries + 1 := by
  unfold recordBlockedQuery
  split_ifs
  · rw [queries_recordTraffic, queries_recordTraffic]
  · rfl

@[simp] theorem queries_recordResponseBlocked :
    (stats.recordResponseBlocked domain clientIp minute detailed ruleSource kind).queries =
      stats.queries := by
  unfold recordResponseBlocked
  cases kind with
  | rebinding =>
    split_ifs
    · rw [queries_recordTraffic]
    · rfl
  | cnameCloaking =>
    split_ifs
    · rw [queries_recordTraffic]
    · rfl

@[simp] theorem queries_recordForwarded : stats.recordForwarded.queries = stats.queries := rfl

@[simp] theorem queries_recordError : (stats.recordError error).queries = stats.queries := rfl

@[simp] theorem queries_recordPersistenceQueueDrop :
    (stats.recordPersistenceQueueDrop error).queries = stats.queries := rfl

@[simp] theorem queries_recordRefusedAny : stats.recordRefusedAny.queries = stats.queries := rfl

end

end DnsStats

end DnsBlackhole.Admin
