/-
  Security events: the queue in memory, the thread that writes them, and the
  table (`dns/stats.rs`, `dns/security_events.rs`, `database.rs`).

  * `appendSecurityEvent` puts an event into the queue, or into an entry of the
    queue; what is written is always one more event of its group;
  * `securityMachine`: the threads that record events, the writer with its
    channel and its batch, the flushes, and the restores from the table.  No
    write fails in a run; pruning and clearing are not among the events;
  * `securityLog_inv`: the queue is bounded and sorted, and every recorded event
    is in the table, the batch, the channel or the hands of a thread.
-/
import DnsBlackhole.Cache.Store
import DnsBlackhole.Database.Tables
import DnsBlackhole.Lib.Fallible
import DnsBlackhole.Lib.Machine
import DnsBlackhole.Lib.TableCopy

namespace DnsBlackhole.Database
open Admin (DnsTransport SecurityEvent SecurityEventType)
open Cache (saturatingAdd64)
open Lib (Machine Table bind_eq_ok pure_eq_ok toOption_eq_some foldlM_cons_eq_ok foldlM_inv
  exists_of_mem_mapM)

def securityEventCapacity : ℕ := 200
def securityEventAggregateSeconds : ℕ := 10
def securityEventAggregateLookback : ℕ := 32

/-! ## The queue -/

/-- What makes events the same. -/
structure SecurityEventIdentity where
  eventType : SecurityEventType
  protocol : DnsTransport
  clientIp : Text
  reason : Text
  deriving DecidableEq

def identityOf (event : SecurityEvent) : SecurityEventIdentity :=
  ⟨event.eventType, event.protocol, event.clientIp, event.reason⟩

section
variable (now : UInt64) (identity : SecurityEventIdentity)

/-- `now.saturating_sub(event.last_seen_at) > SECURITY_EVENT_AGGREGATE_SECONDS` -/
def Expired (event : SecurityEvent) : Prop :=
  securityEventAggregateSeconds < now.toNat - event.lastSeenAt.toNat

instance (event : SecurityEvent) : Decidable (Expired now event) := Nat.decLt _ _

/-- The loop over the newest entries, the newest first, up to one that has expired. -/
def findOffset : List SecurityEvent → Option ℕ
  | [] => none
  | event :: older =>
    if Expired now event then none
    else if identityOf event = identity then some 0
    else (findOffset older).map (· + 1)

/-- The newest entries, the newest first. -/
def lookback (events : List SecurityEvent) : List SecurityEvent :=
  events.reverse.take securityEventAggregateLookback

/-- The index of an entry that the event can be put into. -/
def findAggregatableEvent (events : List SecurityEvent) : Option ℕ :=
  (findOffset now identity (lookback events)).map fun offset => events.length - (offset + 1)

def newEvent : SecurityEvent where
  eventType := identity.eventType
  protocol := identity.protocol
  clientIp := identity.clientIp
  reason := identity.reason
  firstSeenAt := now
  lastSeenAt := now
  count := 1

/-- The queue, and its new last entry. -/
def appendSecurityEvent (events : List SecurityEvent) : List SecurityEvent × SecurityEvent :=
  match (findAggregatableEvent now identity events).bind fun index =>
    events[index]?.map fun event => (index, event) with
  | some (index, event) =>
    let event := { event with lastSeenAt := now, count := saturatingAdd64 event.count 1 }
    (events.eraseIdx index ++ [event], event)
  | none =>
    let events := if securityEventCapacity ≤ events.length then events.tail else events
    (events ++ [newEvent now identity], newEvent now identity)

end

/-- Sorted, and cut down to the newest entries. -/
def restoreSecurityEvents (events : List SecurityEvent) : List SecurityEvent :=
  let events := events.insertionSort fun a b =>
    toLex (a.lastSeenAt.toNat, a.firstSeenAt.toNat) ≤ toLex (b.lastSeenAt.toNat, b.firstSeenAt.toNat)
  events.drop (events.length - securityEventCapacity)

/-! ## The table -/

def securityEventTypeToDb : SecurityEventType → Text
  | .accessDenied => "access_denied".toList
  | .rateLimited => "rate_limited".toList
  | .invalidQuery => "invalid_query".toList
  | .webAuthLogin => "web_auth_login".toList
  | .webAuthFailed => "web_auth_failed".toList
  | .webAuthLocked => "web_auth_locked".toList
  | .webAuthPasswordChanged => "web_auth_password_changed".toList

def securityEventTypeFromDb (value : Text) : SecurityEventType :=
  if value = "rate_limited".toList then .rateLimited
  else if value = "invalid_query".toList then .invalidQuery
  else if value = "web_auth_login".toList then .webAuthLogin
  else if value = "web_auth_failed".toList then .webAuthFailed
  else if value = "web_auth_locked".toList then .webAuthLocked
  else if value = "web_auth_password_changed".toList then .webAuthPasswordChanged
  else .accessDenied

def dnsTransportToDb : DnsTransport → Text
  | .udp => "udp".toList
  | .tcp => "tcp".toList

def dnsTransportFromDb (value : Text) : DnsTransport :=
  if value = "tcp".toList then .tcp else .udp

/-- The columns of the unique index. -/
structure SecurityEventKey where
  eventType : Text
  protocol : Text
  clientIp : Text
  reason : Text
  firstSeenAt : ℕ
  deriving DecidableEq

structure SecurityEventColumns where
  id : ℕ
  lastSeenAt : ℕ
  count : ℕ

/-- The table, and the last number that `AUTOINCREMENT` has given out. -/
structure StoredSecurityEvents where
  rows : Table SecurityEventKey SecurityEventColumns := ∅
  sequence : ℕ := 0

/-- `ON CONFLICT .. DO UPDATE`. -/
def SecurityEventColumns.merge (a b : SecurityEventColumns) : SecurityEventColumns where
  id := a.id
  lastSeenAt := max a.lastSeenAt b.lastSeenAt
  count := a.count + b.count

def executeSecurityEventUpsert (stored : StoredSecurityEvents) (event : SecurityEvent) :
    Except DatabaseError StoredSecurityEvents := do
  let firstSeenAt ← u64ToDbI64 event.firstSeenAt.toNat "安全事件首次时间".toList
  let lastSeenAt ← u64ToDbI64 event.lastSeenAt.toNat "安全事件末次时间".toList
  let count ← u64ToDbI64 event.count "安全事件次数".toList
  let key : SecurityEventKey :=
    { eventType := securityEventTypeToDb event.eventType
      protocol := dnsTransportToDb event.protocol
      clientIp := event.clientIp
      reason := event.reason
      firstSeenAt }
  let id := stored.sequence + 1
  return { rows := stored.rows.upsert SecurityEventColumns.merge key { id, lastSeenAt, count }
           sequence := if key ∈ stored.rows then stored.sequence else id }

def appendSecurityEvents (stored : StoredSecurityEvents) (events : List SecurityEvent) :
    Except DatabaseError StoredSecurityEvents :=
  events.foldlM executeSecurityEventUpsert stored

def readSecurityEvent (row : Lib.Row SecurityEventKey SecurityEventColumns) :
    Except SqlError SecurityEvent := do
  let firstSeenAt ← readU64 row.1.firstSeenAt
  let lastSeenAt ← readU64 row.2.lastSeenAt
  let count ← readU64 row.2.count
  return {
    eventType := securityEventTypeFromDb row.1.eventType
    protocol := dnsTransportFromDb row.1.protocol
    clientIp := row.1.clientIp
    reason := row.1.reason
    firstSeenAt := .ofNat firstSeenAt
    lastSeenAt := .ofNat lastSeenAt
    count }

/-- `ORDER BY last_seen_at DESC, id DESC LIMIT ..`, and then the other way round. -/
def recentSecurityEvents (stored : StoredSecurityEvents) (limit : ℕ) :
    Except SqlError (List SecurityEvent) := do
  let rows := stored.rows.entries.insertionSort fun a b =>
    toLex (b.2.lastSeenAt, b.2.id) ≤ toLex (a.2.lastSeenAt, a.2.id)
  let events ← (rows.take limit).mapM readSecurityEvent
  return events.reverse

/-- The queue after a restore; one that fails leaves it. -/
def restorePersistedSecurityEvents (events : List SecurityEvent) (stored : StoredSecurityEvents)
    (retentionHours : UInt32) (now : UInt64) : List SecurityEvent :=
  match recentSecurityEvents stored securityEventCapacity with
  | .ok recent =>
    let since := now.toNat - retentionHours.toNat * 3600
    restoreSecurityEvents (recent.filter fun event => since ≤ event.lastSeenAt.toNat)
  | .error _ => events

/-! ## The threads -/

def securityQueueCapacity : ℕ := 4096
def securityBatchSize : ℕ := 256

inductive SecurityEventMessage
  | event (event : SecurityEvent)
  | flush
  | stop

/-- The state that the threads share.  `recorded` counts the recorded events. -/
structure SecurityLog where
  queue : List SecurityEvent := []
  /-- The threads of the resolver have a sender. -/
  sender : Bool := false
  /-- The thread of the writer runs. -/
  running : Bool := false
  channel : List SecurityEventMessage := []
  batch : List SecurityEvent := []
  /-- A thread waits for a flush, with the lock of the statistics. -/
  flushing : Bool := false
  /-- What the threads of the administration are about to write themselves. -/
  direct : List SecurityEvent := []
  stored : StoredSecurityEvents := {}
  clock : UInt64 := 0
  recorded : ℕ := 0

inductive SecurityLogEvent
  /-- A thread of the resolver records an event. -/
  | record (now : UInt64) (identity : SecurityEventIdentity)
  /-- A thread of the administration does, and writes it without the lock. -/
  | recordWeb (now : UInt64) (identity : SecurityEventIdentity)
  | writeDirect (index : ℕ)
  | receive
  | timeout
  | flush
  | restore (retentionHours : UInt32) (now : UInt64)
  | resetStats
  | startWriter
  | stopWriter

namespace SecurityLog
variable (s : SecurityLog)

/-- What is written counts the new event only. -/
def record (now : UInt64) (identity : SecurityEventIdentity) : SecurityLog × SecurityEvent :=
  let (queue, event) := appendSecurityEvent now identity s.queue
  ({ s with queue, clock := now, recorded := s.recorded + 1 }, { event with count := 1 })

def send (message : SecurityEventMessage) : SecurityLog :=
  { s with channel := s.channel ++ [message] }

/-- The writer commits its batch. -/
def writeBatch : Option SecurityLog :=
  (appendSecurityEvents s.stored s.batch).toOption.map fun stored => { s with stored, batch := [] }

/-- The sender may be used: it is there, no other thread holds the lock, and the channel
    has room. -/
def CanSend : Prop := s.sender ∧ ¬ s.flushing ∧ s.channel.length < securityQueueCapacity

instance : Decidable s.CanSend := inferInstanceAs (Decidable (_ ∧ _))

def step : SecurityLogEvent → Option SecurityLog
  | .record now identity =>
    if s.CanSend ∧ s.clock.toNat ≤ now.toNat then
      let (t, event) := s.record now identity
      some (t.send (.event event))
    else none
  | .recordWeb now identity =>
    if ¬ s.flushing ∧ s.clock.toNat ≤ now.toNat then
      let (t, event) := s.record now identity
      some { t with direct := t.direct ++ [event] }
    else none
  | .writeDirect index =>
    (s.direct[index]?).bind fun event =>
      (appendSecurityEvents s.stored [event]).toOption.map fun stored =>
        { s with stored, direct := s.direct.eraseIdx index }
  | .receive =>
    match s.running, s.channel with
    | true, .event event :: channel =>
      let t := { s with channel, batch := s.batch ++ [event] }
      if t.batch.length < securityBatchSize then some t else t.writeBatch
    | true, .flush :: channel => ({ s with channel, flushing := false } : SecurityLog).writeBatch
    | true, .stop :: channel => ({ s with channel, running := false } : SecurityLog).writeBatch
    | _, _ => none
  | .timeout => if s.running then s.writeBatch else none
  | .flush => if s.CanSend then some { s.send .flush with flushing := true } else none
  | .restore retentionHours now =>
    if ¬ s.flushing ∧ s.clock.toNat ≤ now.toNat then
      some { s with
        queue := restorePersistedSecurityEvents s.queue s.stored retentionHours now
        clock := now }
    else none
  | .resetStats => if ¬ s.flushing then some { s with queue := [] } else none
  | .startWriter =>
    if ¬ s.flushing ∧ ¬ s.sender ∧ ¬ s.running then some { s with sender := true, running := true }
    else none
  | .stopWriter => if s.CanSend then some { s.send .stop with sender := false } else none

end SecurityLog

/-- An empty table, and no writer yet. -/
def securityMachine : Machine SecurityLog SecurityLogEvent where
  init := {}
  step := SecurityLog.step

/-! ## What happens to the queue -/

section
variable {now : UInt64} {identity : SecurityEventIdentity} {events : List SecurityEvent}

/-- The oldest last. -/
def SortedByLastSeen (events : List SecurityEvent) : Prop :=
  events.Pairwise fun a b => a.lastSeenAt.toNat ≤ b.lastSeenAt.toNat

theorem findOffset_eq_some {offset : ℕ} (h : findOffset now identity events = some offset) :
    ∃ event, events[offset]? = some event ∧ identityOf event = identity ∧ ¬ Expired now event := by
  induction events generalizing offset with
  | nil => cases h
  | cons event older ih =>
    rw [findOffset] at h
    split_ifs at h with hexpired hsame
    · cases h
      exact ⟨event, rfl, hsame, hexpired⟩
    · obtain ⟨offset, hoffset, rfl⟩ := Option.map_eq_some_iff.1 h
      exact ih hoffset

theorem findOffset_isSome_iff
    (hs : events.Pairwise fun a b => b.lastSeenAt.toNat ≤ a.lastSeenAt.toNat) :
    (findOffset now identity events).isSome ↔
      ∃ event ∈ events, identityOf event = identity ∧ ¬ Expired now event := by
  induction events with
  | nil => simp [findOffset]
  | cons event older ih =>
    rw [List.pairwise_cons] at hs
    rw [findOffset]
    split_ifs with hexpired hsame
    · refine iff_of_false Bool.false_ne_true ?_
      rintro ⟨other, hother, -, hfresh⟩
      refine hfresh ?_
      rcases List.mem_cons.1 hother with rfl | hother
      · exact hexpired
      · have hle := hs.1 other hother
        unfold Expired at hexpired ⊢
        omega
    · exact iff_of_true rfl ⟨event, List.mem_cons_self, hsame, hexpired⟩
    · rw [Option.isSome_map, ih hs.2]
      constructor
      · rintro ⟨other, hother, h⟩
        exact ⟨other, List.mem_cons_of_mem _ hother, h⟩
      · rintro ⟨other, hother, h⟩
        rcases List.mem_cons.1 hother with rfl | hother
        · exact absurd h.1 hsame
        · exact ⟨other, hother, h⟩

theorem findAggregatableEvent_eq_some {index : ℕ}
    (h : findAggregatableEvent now identity events = some index) :
    events.length ≤ index + securityEventAggregateLookback ∧
      ∃ event, events[index]? = some event ∧ identityOf event = identity ∧ ¬ Expired now event := by
  obtain ⟨offset, hoffset, rfl⟩ := Option.map_eq_some_iff.1 h
  obtain ⟨event, hget, hevent⟩ := findOffset_eq_some hoffset
  obtain ⟨hlt, -⟩ := List.getElem?_eq_some_iff.1 hget
  rw [lookback, List.length_take, List.length_reverse, lt_min_iff] at hlt
  refine ⟨by omega, event, ?_, hevent⟩
  rw [lookback, List.getElem?_take_of_lt hlt.1, List.getElem?_reverse hlt.2] at hget
  rw [← hget]
  congr 1
  omega

/-- **An event is put into an entry** of the queue, or at its end. -/
theorem appendSecurityEvent_cases (now : UInt64) (identity : SecurityEventIdentity)
    (events : List SecurityEvent) :
    (∃ index event, findAggregatableEvent now identity events = some index ∧
      events[index]? = some event ∧ identityOf event = identity ∧
      appendSecurityEvent now identity events =
        (events.eraseIdx index ++ [{ event with
          lastSeenAt := now, count := saturatingAdd64 event.count 1 }],
        { event with lastSeenAt := now, count := saturatingAdd64 event.count 1 })) ∨
    (findAggregatableEvent now identity events = none ∧
      appendSecurityEvent now identity events =
        ((if securityEventCapacity ≤ events.length then events.tail else events) ++
          [newEvent now identity], newEvent now identity)) := by
  unfold appendSecurityEvent
  cases hindex : findAggregatableEvent now identity events with
  | none => exact .inr ⟨rfl, rfl⟩
  | some index =>
    obtain ⟨-, event, hget, hsame, -⟩ := findAggregatableEvent_eq_some hindex
    refine .inl ⟨index, event, rfl, hget, hsame, ?_⟩
    rw [Option.bind_some, hget]
    rfl

/-- **An event is merged** if and only if one of the newest entries is the same and has not
    expired. -/
theorem findAggregatableEvent_isSome_iff (hs : SortedByLastSeen events) :
    (findAggregatableEvent now identity events).isSome ↔
      ∃ event ∈ lookback events, identityOf event = identity ∧ ¬ Expired now event := by
  rw [findAggregatableEvent, Option.isSome_map]
  refine findOffset_isSome_iff ?_
  exact (List.pairwise_reverse.2 hs).sublist (List.take_sublist _ _)

theorem length_appendSecurityEvent (h : events.length ≤ securityEventCapacity) :
    (appendSecurityEvent now identity events).1.length ≤ securityEventCapacity := by
  rcases appendSecurityEvent_cases now identity events with
    ⟨index, event, -, hget, -, heq⟩ | ⟨-, heq⟩
  · obtain ⟨hlt, -⟩ := List.getElem?_eq_some_iff.1 hget
    rw [heq, List.length_append, List.length_eraseIdx_of_lt hlt, List.length_singleton]
    omega
  · rw [heq, List.length_append, List.length_singleton]
    split_ifs with hfull
    · rw [List.length_tail]
      change 200 ≤ events.length at hfull
      omega
    · omega

theorem mem_appendSecurityEvent {event : SecurityEvent}
    (h : event ∈ (appendSecurityEvent now identity events).1) :
    event.lastSeenAt = now ∨ event ∈ events := by
  rcases appendSecurityEvent_cases now identity events with
    ⟨index, found, -, -, -, heq⟩ | ⟨-, heq⟩
  · rw [heq] at h
    rcases List.mem_append.1 h with h | h
    · exact .inr (List.mem_of_mem_eraseIdx h)
    · rw [List.mem_singleton.1 h]
      exact .inl rfl
  · rw [heq] at h
    rcases List.mem_append.1 h with h | h
    · split_ifs at h
      · exact .inr (List.mem_of_mem_tail h)
      · exact .inr h
    · rw [List.mem_singleton.1 h]
      exact .inl rfl

theorem sorted_appendSecurityEvent (hs : SortedByLastSeen events)
    (hle : ∀ event ∈ events, event.lastSeenAt.toNat ≤ now.toNat) :
    SortedByLastSeen (appendSecurityEvent now identity events).1 := by
  have hconcat : ∀ {kept : List SecurityEvent} {last : SecurityEvent}, kept.Sublist events →
      last.lastSeenAt = now → SortedByLastSeen (kept ++ [last]) := by
    intro kept last hkept hlast
    refine List.pairwise_append.2 ⟨hs.sublist hkept, List.pairwise_singleton _ _, ?_⟩
    intro event hevent last' hlast'
    rw [List.mem_singleton.1 hlast', hlast]
    exact hle event (hkept.subset hevent)
  rcases appendSecurityEvent_cases now identity events with
    ⟨index, event, -, -, -, heq⟩ | ⟨-, heq⟩
  · rw [heq]
    exact hconcat (List.eraseIdx_sublist _ _) rfl
  · rw [heq]
    refine hconcat ?_ rfl
    split_ifs
    · exact List.tail_sublist _
    · exact List.Sublist.refl _

theorem snd_appendSecurityEvent :
    (appendSecurityEvent now identity events).2.lastSeenAt = now ∧
      identityOf (appendSecurityEvent now identity events).2 = identity := by
  rcases appendSecurityEvent_cases now identity events with
    ⟨index, event, -, -, hsame, heq⟩ | ⟨-, heq⟩
  · rw [heq]
    exact ⟨rfl, hsame⟩
  · rw [heq]
    exact ⟨rfl, rfl⟩

end

/-! ## What is written -/

/-- The sum of the counts of the rows. -/
def StoredSecurityEvents.counted (stored : StoredSecurityEvents) : ℕ :=
  stored.rows.total (·.count) fun _ => true

/-- No row was seen after this time. -/
def StoredSecurityEvents.SeenBy (stored : StoredSecurityEvents) (clock : ℕ) : Prop :=
  ∀ key columns, stored.rows.lookup key = some columns → columns.lastSeenAt ≤ clock

section
variable {stored stored' : StoredSecurityEvents} {event : SecurityEvent} {clock : ℕ}

theorem executeSecurityEventUpsert_eq_ok
    (h : executeSecurityEventUpsert stored event = .ok stored') :
    ∃ key id, stored'.rows =
      stored.rows.upsert .merge key ⟨id, event.lastSeenAt.toNat, event.count⟩ := by
  unfold executeSecurityEventUpsert at h
  obtain ⟨first, hfirst, h⟩ := bind_eq_ok.1 h
  obtain ⟨last, hlast, h⟩ := bind_eq_ok.1 h
  obtain ⟨count, hcount, h⟩ := bind_eq_ok.1 h
  cases h
  rw [eq_of_u64ToDbI64 hlast, eq_of_u64ToDbI64 hcount]
  exact ⟨_, _, rfl⟩

theorem counted_executeSecurityEventUpsert
    (h : executeSecurityEventUpsert stored event = .ok stored') :
    stored'.counted = stored.counted + event.count := by
  obtain ⟨key, id, hrows⟩ := executeSecurityEventUpsert_eq_ok h
  rw [StoredSecurityEvents.counted, hrows, Table.total_upsert fun a b => rfl]
  rfl

theorem seenBy_executeSecurityEventUpsert (hs : stored.SeenBy clock)
    (hevent : event.lastSeenAt.toNat ≤ clock)
    (h : executeSecurityEventUpsert stored event = .ok stored') : stored'.SeenBy clock := by
  obtain ⟨key, id, hrows⟩ := executeSecurityEventUpsert_eq_ok h
  intro key' columns hlookup
  rw [hrows, Table.lookup_upsert] at hlookup
  split_ifs at hlookup
  · cases hrow : stored.rows.lookup key with
    | none =>
      rw [hrow] at hlookup
      cases hlookup
      exact hevent
    | some old =>
      rw [hrow] at hlookup
      cases hlookup
      exact max_le (hs key old hrow) hevent
  · exact hs key' columns hlookup

theorem counted_appendSecurityEvents {events : List SecurityEvent}
    (hone : ∀ event ∈ events, event.count = 1) (h : appendSecurityEvents stored events = .ok stored') :
    stored'.counted = stored.counted + events.length := by
  induction events generalizing stored with
  | nil =>
    cases h
    rfl
  | cons event events ih =>
    obtain ⟨next, hnext, hrest⟩ := foldlM_cons_eq_ok.1 h
    rw [ih (fun other hother => hone other (List.mem_cons_of_mem _ hother)) hrest,
      counted_executeSecurityEventUpsert hnext, hone event List.mem_cons_self, List.length_cons]
    omega

theorem seenBy_appendSecurityEvents {events : List SecurityEvent} (hs : stored.SeenBy clock)
    (hevents : ∀ event ∈ events, event.lastSeenAt.toNat ≤ clock)
    (h : appendSecurityEvents stored events = .ok stored') : stored'.SeenBy clock :=
  foldlM_inv (fun _ event hevent _ hs' => seenBy_executeSecurityEventUpsert hs' (hevents event hevent))
    hs h

/-! ## What is restored -/

theorem length_restoreSecurityEvents (events : List SecurityEvent) :
    (restoreSecurityEvents events).length ≤ securityEventCapacity := by
  rw [restoreSecurityEvents, List.length_drop]
  omega

theorem mem_of_mem_restoreSecurityEvents {events : List SecurityEvent}
    (h : event ∈ restoreSecurityEvents events) : event ∈ events :=
  (List.mem_insertionSort _).1 (List.mem_of_mem_drop h)

theorem sorted_restoreSecurityEvents (events : List SecurityEvent) :
    SortedByLastSeen (restoreSecurityEvents events) := by
  let le : SecurityEvent → SecurityEvent → Prop := fun a b =>
    toLex (a.lastSeenAt.toNat, a.firstSeenAt.toNat) ≤ toLex (b.lastSeenAt.toNat, b.firstSeenAt.toNat)
  have : Std.Total le := ⟨fun a b => le_total _ _⟩
  have : IsTrans SecurityEvent le := ⟨fun a b c => le_trans⟩
  refine List.Pairwise.sublist (List.drop_sublist _ _) ?_
  refine (List.pairwise_insertionSort le events).imp fun {a b} hab => ?_
  rcases Prod.Lex.toLex_le_toLex.1 hab with hlt | heq
  · exact hlt.le
  · exact heq.1.le

theorem lastSeenAt_of_readSecurityEvent {row : Lib.Row SecurityEventKey SecurityEventColumns}
    (h : readSecurityEvent row = .ok event) : event.lastSeenAt.toNat ≤ row.2.lastSeenAt := by
  unfold readSecurityEvent at h
  obtain ⟨first, -, h⟩ := bind_eq_ok.1 h
  obtain ⟨last, hlast, h⟩ := bind_eq_ok.1 h
  obtain ⟨count, -, h⟩ := bind_eq_ok.1 h
  cases h
  rw [← eq_of_readU64 hlast]
  exact (UInt64.toNat_ofNat' ▸ Nat.mod_le _ _)

theorem seenBy_recentSecurityEvents {limit : ℕ} {events : List SecurityEvent}
    (hs : stored.SeenBy clock) (h : recentSecurityEvents stored limit = .ok events) :
    ∀ event ∈ events, event.lastSeenAt.toNat ≤ clock := by
  unfold recentSecurityEvents at h
  obtain ⟨recent, hrecent, h⟩ := bind_eq_ok.1 h
  cases h
  intro event hevent
  obtain ⟨row, hrow, hread⟩ := exists_of_mem_mapM hrecent (List.mem_reverse.1 hevent)
  refine (lastSeenAt_of_readSecurityEvent hread).trans (hs row.1 row.2 ?_)
  exact (Table.mem_entries_iff _).1 ((List.mem_insertionSort _).1 (List.mem_of_mem_take hrow))

end

/-! ## The runs -/

def SecurityEventMessage.event? : SecurityEventMessage → Option SecurityEvent
  | .event found => some found
  | .flush => none
  | .stop => none

namespace SecurityLog

/-- The recorded events that are not in the table yet. -/
def pending (s : SecurityLog) : List SecurityEvent :=
  s.batch ++ s.channel.filterMap (·.event?) ++ s.direct

theorem pending_send (s : SecurityLog) (message : SecurityEventMessage) :
    (s.send message).pending =
      s.batch ++ s.channel.filterMap (·.event?) ++ (message.event?.toList ++ s.direct) := by
  rw [pending, send, List.filterMap_append]
  cases message <;> simp [SecurityEventMessage.event?]

/-- A flush or a stop is the last message: its sender keeps the others from sending. -/
def LastControl (s : SecurityLog) : Prop :=
  ∃ events : List SecurityEvent, ∃ tail, s.channel = events.map .event ++ tail ∧
    (tail = [] ∨ tail = [.flush] ∧ s.flushing ∨ tail = [.stop] ∧ ¬ s.sender)

/-- Holds in every state of a run. -/
structure Inv (s : SecurityLog) : Prop where
  length_le : s.queue.length ≤ securityEventCapacity
  sorted : SortedByLastSeen s.queue
  queue_le : ∀ event ∈ s.queue, event.lastSeenAt.toNat ≤ s.clock.toNat
  pending_le : ∀ event ∈ s.pending, event.lastSeenAt.toNat ≤ s.clock.toNat
  pending_one : ∀ event ∈ s.pending, event.count = 1
  stored_le : s.stored.SeenBy s.clock.toNat
  balance : s.stored.counted + s.pending.length = s.recorded
  control : s.LastControl
  stopped : ¬ s.running → ¬ s.sender ∧ s.channel = []

variable {s s' : SecurityLog}

theorem Inv.written (h : s.Inv) (hqueue : s'.queue = s.queue) (hclock : s'.clock = s.clock)
    (hrecorded : s'.recorded = s.recorded) {written : List SecurityEvent}
    (hpending : s.pending.Perm (written ++ s'.pending))
    (hstored : appendSecurityEvents s.stored written = .ok s'.stored)
    (hcontrol : s'.LastControl) (hstopped : ¬ s'.running → ¬ s'.sender ∧ s'.channel = []) : s'.Inv := by
  have hwritten : ∀ event ∈ written, event ∈ s.pending := fun event hevent =>
    hpending.mem_iff.2 (List.mem_append_left _ hevent)
  have hleft : ∀ event ∈ s'.pending, event ∈ s.pending := fun event hevent =>
    hpending.mem_iff.2 (List.mem_append_right _ hevent)
  refine
    { length_le := hqueue ▸ h.length_le
      sorted := hqueue ▸ h.sorted
      queue_le := hclock ▸ hqueue ▸ h.queue_le
      pending_le := fun event hevent => hclock ▸ h.pending_le event (hleft event hevent)
      pending_one := fun event hevent => h.pending_one event (hleft event hevent)
      stored_le := hclock ▸ seenBy_appendSecurityEvents h.stored_le
        (fun event hevent => h.pending_le event (hwritten event hevent)) hstored
      balance := ?_
      control := hcontrol
      stopped := hstopped }
  have hcounted := counted_appendSecurityEvents
    (fun event hevent => h.pending_one event (hwritten event hevent)) hstored
  have hlength := hpending.length_eq
  rw [List.length_append] at hlength
  rw [hcounted, hrecorded, ← h.balance, hlength]
  omega

theorem Inv.queued (h : s.Inv) {queue : List SecurityEvent} {now : UInt64}
    (hnow : s.clock.toNat ≤ now.toNat) (hlength : queue.length ≤ securityEventCapacity)
    (hsorted : SortedByLastSeen queue) (hle : ∀ event ∈ queue, event.lastSeenAt.toNat ≤ now.toNat) :
    ({ s with queue, clock := now } : SecurityLog).Inv where
  length_le := hlength
  sorted := hsorted
  queue_le := hle
  pending_le := fun event hevent => (h.pending_le event hevent).trans hnow
  pending_one := h.pending_one
  stored_le := fun key columns hrow => (h.stored_le key columns hrow).trans hnow
  balance := h.balance
  control := h.control
  stopped := h.stopped

theorem mem_queue_record {now : UInt64} {identity : SecurityEventIdentity} (h : s.Inv)
    (hnow : s.clock.toNat ≤ now.toNat) :
    ∀ event ∈ (s.record now identity).1.queue, event.lastSeenAt.toNat ≤ now.toNat := by
  intro event hevent
  rcases mem_appendSecurityEvent hevent with hlast | hold
  · exact hlast ▸ le_rfl
  · exact (h.queue_le event hold).trans hnow

theorem Inv.recorded (h : s.Inv) {now : UInt64} {identity : SecurityEventIdentity}
    (hnow : s.clock.toNat ≤ now.toNat) {channel : List SecurityEventMessage}
    {direct : List SecurityEvent}
    (hs' : s' = { (s.record now identity).1 with channel, direct })
    (hpending : s'.pending.Perm ((s.record now identity).2 :: s.pending))
    (hcontrol : s'.LastControl) (hstopped : ¬ s'.running → ¬ s'.sender ∧ s'.channel = []) : s'.Inv := by
  have hmem : ∀ event ∈ s'.pending,
      event = (s.record now identity).2 ∨ event ∈ s.pending := fun event hevent =>
    List.mem_cons.1 (hpending.mem_iff.1 hevent)
  have hqueue : s'.queue = (appendSecurityEvent now identity s.queue).1 := by rw [hs']; rfl
  have hclock : s'.clock = now := by rw [hs']; rfl
  have hstored : s'.stored = s.stored := by rw [hs']; rfl
  have hrecorded : s'.recorded = s.recorded + 1 := by rw [hs']; rfl
  constructor
  case length_le => exact hqueue ▸ length_appendSecurityEvent h.length_le
  case sorted =>
    rw [hqueue]
    exact sorted_appendSecurityEvent h.sorted fun event hevent =>
      (h.queue_le event hevent).trans hnow
  case queue_le =>
    rw [hqueue, hclock]
    exact mem_queue_record h hnow
  case pending_le =>
    intro event hevent
    rw [hclock]
    rcases hmem event hevent with rfl | hold
    · exact (congrArg UInt64.toNat snd_appendSecurityEvent.1).le
    · exact (h.pending_le event hold).trans hnow
  case pending_one =>
    intro event hevent
    rcases hmem event hevent with rfl | hold
    · rfl
    · exact h.pending_one event hold
  case stored_le =>
    rw [hstored, hclock]
    exact fun key columns hrow => (h.stored_le key columns hrow).trans hnow
  case balance =>
    rw [hstored, hrecorded, hpending.length_eq, List.length_cons, ← h.balance]
    omega
  case control => exact hcontrol
  case stopped => exact hstopped

theorem LastControl.of_canSend (h : s.LastControl) (hsend : s.CanSend) :
    ∃ events : List SecurityEvent, s.channel = events.map .event := by
  obtain ⟨events, tail, hchannel, rfl | ⟨-, hflushing⟩ | ⟨-, hsender⟩⟩ := h
  · exact ⟨events, by rw [hchannel, List.append_nil]⟩
  · exact absurd hflushing hsend.2.1
  · exact absurd hsend.1 hsender

theorem LastControl.of_cons (h : s.LastControl) {event : SecurityEvent}
    {channel : List SecurityEventMessage} (hchannel : s.channel = .event event :: channel) :
    ({ s with channel } : SecurityLog).LastControl := by
  obtain ⟨events, tail, hsplit, htail⟩ := h
  rw [hchannel] at hsplit
  cases events with
  | nil => rcases htail with rfl | ⟨rfl, -⟩ | ⟨rfl, -⟩ <;> cases hsplit
  | cons first events => exact ⟨events, tail, (List.cons.inj hsplit).2, htail⟩

theorem LastControl.last (h : s.LastControl) {message : SecurityEventMessage}
    {channel : List SecurityEventMessage} (hchannel : s.channel = message :: channel)
    (hmessage : message.event? = none) : channel = [] ∧ (message = .stop → ¬ s.sender) := by
  obtain ⟨events, tail, hsplit, htail⟩ := h
  rw [hchannel] at hsplit
  cases events with
  | nil =>
    rcases htail with rfl | ⟨rfl, -⟩ | ⟨rfl, hsender⟩
    · cases hsplit
    · cases hsplit
      exact ⟨rfl, nofun⟩
    · cases hsplit
      exact ⟨rfl, fun _ => hsender⟩
  | cons event events =>
    rw [(List.cons.inj hsplit).1] at hmessage
    cases hmessage

theorem lastControl_nil (h : s.channel = []) : s.LastControl := ⟨[], [], h, .inl rfl⟩

theorem Inv.moved (h : s.Inv) (hqueue : s'.queue = s.queue) (hclock : s'.clock = s.clock)
    (hrecorded : s'.recorded = s.recorded) (hpending : s'.pending = s.pending)
    (hstored : s'.stored = s.stored) (hcontrol : s'.LastControl)
    (hstopped : ¬ s'.running → ¬ s'.sender ∧ s'.channel = []) : s'.Inv :=
  have hnone : s.pending.Perm ([] ++ s'.pending) := List.Perm.of_eq hpending.symm
  h.written hqueue hclock hrecorded hnone (congrArg Except.ok hstored.symm) hcontrol hstopped

theorem Inv.writeBatch (h : s.Inv) (hs : s.writeBatch = some s') : s'.Inv := by
  obtain ⟨stored, hstored, rfl⟩ := Option.map_eq_some_iff.1 hs
  refine h.written rfl rfl rfl ?_ (toOption_eq_some.1 hstored) h.control h.stopped
  rw [pending, pending, List.append_assoc]
  exact .refl _

theorem step_record (s : SecurityLog) (now : UInt64) (identity : SecurityEventIdentity) :
    s.step (.record now identity) =
      if s.CanSend ∧ s.clock.toNat ≤ now.toNat then
        some ((s.record now identity).1.send (.event (s.record now identity).2))
      else none := rfl

theorem Inv.receive (h : s.Inv) (hs : s.step .receive = some s') : s'.Inv := by
  rw [step] at hs
  split at hs
  · rename_i event channel hrunning hchannel
    have hnext : ({ s with channel, batch := s.batch ++ [event] } : SecurityLog).Inv := by
      refine h.moved rfl rfl rfl ?_ rfl (h.control.of_cons hchannel) fun hstopped =>
        absurd hrunning hstopped
      simp only [pending, hchannel, List.filterMap_cons, SecurityEventMessage.event?,
        List.append_assoc, List.singleton_append]
    dsimp only at hs
    split_ifs at hs
    · cases hs
      exact hnext
    · exact hnext.writeBatch hs
  · rename_i channel hrunning hchannel
    obtain ⟨rfl, -⟩ := h.control.last hchannel rfl
    have hnext : ({ s with channel := [], flushing := false } : SecurityLog).Inv := by
      refine h.moved rfl rfl rfl ?_ rfl (lastControl_nil rfl) fun hstopped =>
        absurd hrunning hstopped
      simp only [pending, hchannel, List.filterMap_cons, SecurityEventMessage.event?]
    exact hnext.writeBatch hs
  · rename_i channel hrunning hchannel
    obtain ⟨rfl, hsender⟩ := h.control.last hchannel rfl
    have hnext : ({ s with channel := [], running := false } : SecurityLog).Inv := by
      refine h.moved rfl rfl rfl ?_ rfl (lastControl_nil rfl) fun _ => ⟨hsender rfl, rfl⟩
      simp only [pending, hchannel, List.filterMap_cons, SecurityEventMessage.event?]
    exact hnext.writeBatch hs
  · cases hs

theorem Inv.restore (h : s.Inv) (retentionHours : UInt32) {now : UInt64}
    (hnow : s.clock.toNat ≤ now.toNat) :
    ({ s with
        queue := restorePersistedSecurityEvents s.queue s.stored retentionHours now
        clock := now } : SecurityLog).Inv := by
  unfold restorePersistedSecurityEvents
  cases hrecent : recentSecurityEvents s.stored securityEventCapacity with
  | error error =>
    exact h.queued hnow h.length_le h.sorted fun event hevent => (h.queue_le event hevent).trans hnow
  | ok recent =>
    refine h.queued hnow (length_restoreSecurityEvents _) (sorted_restoreSecurityEvents _) ?_
    intro event hevent
    have hrecent' := (List.mem_filter.1 (mem_of_mem_restoreSecurityEvents hevent)).1
    exact (seenBy_recentSecurityEvents h.stored_le hrecent event hrecent').trans hnow

theorem Inv.step (h : s.Inv) {event : SecurityLogEvent} (hs : s.step event = some s') :
    s'.Inv := by
  cases event with
  | record now identity =>
    rw [step_record] at hs
    split_ifs at hs with hok
    cases Option.some.inj hs
    obtain ⟨hsend, hnow⟩ := hok
    refine h.recorded hnow rfl ?_ ?_ fun hstopped => absurd hsend.1 (h.stopped hstopped).1
    · rw [pending_send]
      simp only [SecurityEventMessage.event?, Option.toList_some]
      exact List.perm_middle
    · obtain ⟨events, hchannel⟩ := h.control.of_canSend hsend
      refine ⟨events ++ [(s.record now identity).2], [], ?_, .inl rfl⟩
      rw [List.append_nil, List.map_append, ← hchannel]
      rfl
  | recordWeb now identity =>
    rw [SecurityLog.step] at hs
    split_ifs at hs with hfree
    cases hs
    refine h.recorded hfree.2 rfl ?_ h.control h.stopped
    simp only [pending]
    rw [← List.append_assoc]
    exact List.perm_append_singleton _ _
  | writeDirect index =>
    obtain ⟨event, hget, hs⟩ := Option.bind_eq_some_iff.1 hs
    obtain ⟨stored, hstored, rfl⟩ := Option.map_eq_some_iff.1 hs
    refine h.written rfl rfl rfl ?_ (toOption_eq_some.1 hstored) h.control h.stopped
    obtain ⟨hlt, rfl⟩ := List.getElem?_eq_some_iff.1 hget
    have hperm := (List.getElem_cons_eraseIdx_perm hlt).symm
    exact (hperm.append_left _).trans List.perm_middle
  | receive => exact h.receive hs
  | timeout =>
    rw [SecurityLog.step] at hs
    split_ifs at hs
    exact h.writeBatch hs
  | flush =>
    rw [SecurityLog.step] at hs
    split_ifs at hs with hsend
    cases hs
    obtain ⟨events, hchannel⟩ := h.control.of_canSend hsend
    refine h.moved rfl rfl rfl (pending_send s .flush) rfl ⟨events, [.flush], ?_, .inr (.inl ⟨rfl, rfl⟩)⟩ ?_
    · exact congrArg (· ++ [.flush]) hchannel
    · exact fun hstopped => absurd hsend.1 (h.stopped hstopped).1
  | restore retentionHours now =>
    rw [SecurityLog.step] at hs
    split_ifs at hs with hfree
    cases hs
    exact h.restore retentionHours hfree.2
  | resetStats =>
    rw [SecurityLog.step] at hs
    split_ifs at hs
    cases hs
    exact h.queued le_rfl (Nat.zero_le _) .nil fun _ hevent => absurd hevent List.not_mem_nil
  | startWriter =>
    rw [SecurityLog.step] at hs
    split_ifs at hs with hfree
    cases hs
    have hchannel := (h.stopped hfree.2.2).2
    exact h.moved rfl rfl rfl rfl rfl (lastControl_nil hchannel) fun hstopped => absurd rfl hstopped
  | stopWriter =>
    rw [SecurityLog.step] at hs
    split_ifs at hs with hsend
    cases hs
    obtain ⟨events, hchannel⟩ := h.control.of_canSend hsend
    refine h.moved rfl rfl rfl (pending_send s .stop) rfl ⟨events, [.stop], ?_, .inr (.inr ⟨rfl, Bool.false_ne_true⟩)⟩ ?_
    · exact congrArg (· ++ [.stop]) hchannel
    · exact fun hstopped => absurd hsend.1 (h.stopped hstopped).1

theorem inv_of_reachable (h : securityMachine.Reachable s) : s.Inv := by
  refine h.inv ?_ fun s event s' hinv hstep => hinv.step hstep
  exact
    { length_le := Nat.zero_le _
      sorted := .nil
      queue_le := nofun
      pending_le := nofun
      pending_one := nofun
      stored_le := nofun
      balance := rfl
      control := lastControl_nil rfl
      stopped := fun _ => ⟨Bool.false_ne_true, rfl⟩ }

theorem Inv.flushed (h : s.Inv) {message : SecurityEventMessage}
    {channel : List SecurityEventMessage} (hchannel : s.channel = message :: channel)
    (hmessage : message.event? = none) (hs : s.step .receive = some s') :
    s'.stored.counted + s'.direct.length = s'.recorded := by
  have hpending : s'.pending = s'.direct := by
    obtain ⟨rfl, -⟩ := h.control.last hchannel hmessage
    rw [SecurityLog.step, hchannel] at hs
    cases message with
    | event event => cases hmessage
    | flush | stop =>
      cases hrunning : s.running
      · rw [hrunning] at hs
        cases hs
      · rw [hrunning] at hs
        obtain ⟨stored, -, rfl⟩ := Option.map_eq_some_iff.1 hs
        rfl
  rw [← hpending]
  exact (h.receive hs).balance

end SecurityLog

/-- **Security events are ordered and conserved**: in every run the queue is bounded and
    sorted, an event is put into one of the newest entries if and only if one of them is the
    same and has not expired, and when the writer has answered a flush, the rows count every
    recorded event but those that a thread of the administration is about to write. -/
theorem securityLog_inv {s : SecurityLog} (h : securityMachine.Reachable s) :
    s.queue.length ≤ securityEventCapacity ∧ SortedByLastSeen s.queue ∧
    (∀ now identity,
      if ∃ event ∈ lookback s.queue, identityOf event = identity ∧ ¬ Expired now event then
        ∃ index event, s.queue[index]? = some event ∧ identityOf event = identity ∧
          s.queue.length ≤ index + securityEventAggregateLookback ∧ ¬ Expired now event ∧
          (appendSecurityEvent now identity s.queue).1 = s.queue.eraseIdx index ++
            [{ event with lastSeenAt := now, count := saturatingAdd64 event.count 1 }]
      else
        (appendSecurityEvent now identity s.queue).1 =
          (if securityEventCapacity ≤ s.queue.length then s.queue.tail else s.queue) ++
            [newEvent now identity]) ∧
    (∀ message channel s', s.channel = message :: channel → message.event? = none →
      s.step .receive = some s' → s'.stored.counted + s'.direct.length = s'.recorded) := by
  have hinv := SecurityLog.inv_of_reachable h
  refine ⟨hinv.length_le, hinv.sorted, fun now identity => ?_, fun message channel s' =>
    hinv.flushed⟩
  have hmerged : (findAggregatableEvent now identity s.queue).isSome ↔ _ :=
    findAggregatableEvent_isSome_iff hinv.sorted
  rcases appendSecurityEvent_cases now identity s.queue with
    ⟨index, event, hindex, hget, hsame, heq⟩ | ⟨hindex, heq⟩
  · rw [if_pos (hmerged.1 (hindex ▸ rfl)), heq]
    obtain ⟨hlookback, event', hget', -, hfresh⟩ := findAggregatableEvent_eq_some hindex
    cases hget.symm.trans hget'
    exact ⟨index, event, hget, hsame, hlookback, hfresh, rfl⟩
  · rw [if_neg (fun hexists => ?_), heq]
    rw [hindex] at hmerged
    exact Bool.false_ne_true (hmerged.2 hexists)

/-- A denied client, twice. -/
def sampleSecurityRun : List SecurityLogEvent :=
  let identity := ⟨.accessDenied, .udp, "192.0.2.1".toList, "denied".toList⟩
  [.startWriter, .record 5 identity, .record 8 identity, .flush, .receive, .receive]

theorem securityLog_inv_sample : ∃ s s',
    securityMachine.run securityMachine.init sampleSecurityRun = some s ∧
    s.step .receive = some s' ∧ s.queue.length = 1 ∧ s'.recorded = 2 ∧ s'.stored.counted = 2 := by
  obtain ⟨s, hs⟩ : ∃ s, securityMachine.run securityMachine.init sampleSecurityRun = some s :=
    ⟨_, rfl⟩
  have hsample : s.queue.length = 1 ∧ s.channel = [.flush] := by
    cases hs
    exact ⟨rfl, rfl⟩
  obtain ⟨s', hs', hrecorded, hdirect⟩ :
      ∃ s', s.step .receive = some s' ∧ s'.recorded = 2 ∧ s'.direct = [] := by
    cases hs
    exact ⟨_, rfl, rfl, rfl⟩
  refine ⟨s, s', hs, hs', hsample.1, hrecorded, ?_⟩
  have hflushed := (securityLog_inv ⟨_, hs⟩).2.2.2 _ _ s' hsample.2 rfl hs'
  rw [hdirect, hrecorded] at hflushed
  exact hflushed

end DnsBlackhole.Database
