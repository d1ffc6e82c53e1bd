/-
  The tables of the database (`database.rs`).

  * A `Database` holds the configuration, the query log and the two tables of
    the statistics: `statistics_hourly`, with a row for every hour, and
    `dashboard_summary_stats`, whose rows of the scope `all` are the permanent
    totals.  The primary keys are those of `Lib.Table`.
  * A counter is a natural number.  SQLite keeps a sum beyond the range of
    INTEGER as a REAL, which no reader of the program accepts: such a value
    stands here as a number above `i64Max`.
  * `SqlError` are the ways in which a statement fails by its values; that a
    statement fails at all (a full disk, a lock) is not modelled.
-/
import DnsBlackhole.Database.Entry
import DnsBlackhole.Lib.Table

namespace DnsBlackhole.Database
open Admin (TrafficTotals)

/-! ## Numbers -/

/-- `i64::MAX`. -/
def i64Max : ℕ := 2 ^ 63 - 1

inductive SqlError
  | integerOverflow
  | invalidColumnType
  | uniqueConstraint
  deriving DecidableEq

inductive DatabaseError
  /-- `{field}超出数据库 INTEGER 范围` -/
  | outOfRange (field : Text)
  /-- `{action}失败：{error}` -/
  | sql (action : Text) (error : SqlError)
  | invalidConfig (message : Text)
  | invalidCursor (message : Text)

def u64ToDbI64 (value : ℕ) (field : Text) : Except DatabaseError ℕ :=
  if value ≤ i64Max then .ok value else .error (.outOfRange field)

def readU64 (value : ℕ) : Except SqlError ℕ :=
  if value ≤ i64Max then .ok value else .error .invalidColumnType

def readOptionalU64 : Option ℕ → Except SqlError (Option ℕ)
  | none => .ok none
  | some value => (readU64 value).map some

/-- `SUM`: the sum of integers must be one; with a REAL among them it is a REAL. -/
def sqlSum (values : List ℕ) : Except SqlError ℕ :=
  if (∀ value ∈ values, value ≤ i64Max) ∧ i64Max < values.sum then .error .integerOverflow
  else .ok values.sum

theorem eq_of_u64ToDbI64 {value value' : ℕ} {field : Text}
    (h : u64ToDbI64 value field = .ok value') : value' = value := by
  unfold u64ToDbI64 at h
  split_ifs at h
  exact (Except.ok.inj h).symm

theorem eq_of_readU64 {value value' : ℕ} (h : readU64 value = .ok value') : value' = value := by
  unfold readU64 at h
  split_ifs at h
  exact (Except.ok.inj h).symm

theorem eq_of_sqlSum {values : List ℕ} {sum : ℕ} (h : sqlSum values = .ok sum) :
    sum = values.sum := by
  unfold sqlSum at h
  split_ifs at h
  exact (Except.ok.inj h).symm

/-! ## The counters of a row -/

deriving instance DecidableEq for Admin.TrafficTotals

attribute [ext] Admin.TrafficTotals

@[ext]
structure StatDelta where
  queries : ℕ := 0
  blocked : ℕ := 0
  forwarded : ℕ := 0
  failed : ℕ := 0
  requests : ℕ := 0
  latencyTotalMs : ℕ := 0
  latencySamples : ℕ := 0
  traffic : TrafficTotals := {}
  deriving DecidableEq

/-- `client_bytes_in + client_bytes_out + upstream_bytes_out + upstream_bytes_in`. -/
def StatDelta.bytes (delta : StatDelta) : ℕ :=
  delta.traffic.clientBytesIn + delta.traffic.clientBytesOut + delta.traffic.upstreamBytesOut +
    delta.traffic.upstreamBytesIn

instance : Zero TrafficTotals := ⟨{}⟩

instance : Add TrafficTotals :=
  ⟨fun a b =>
    { clientBytesIn := a.clientBytesIn + b.clientBytesIn
      clientBytesOut := a.clientBytesOut + b.clientBytesOut
      upstreamBytesOut := a.upstreamBytesOut + b.upstreamBytesOut
      upstreamBytesIn := a.upstreamBytesIn + b.upstreamBytesIn
      cacheSavedBytes := a.cacheSavedBytes + b.cacheSavedBytes }⟩

instance : AddCommMonoid TrafficTotals where
  add_assoc a b c := TrafficTotals.ext (Nat.add_assoc ..) (Nat.add_assoc ..) (Nat.add_assoc ..)
    (Nat.add_assoc ..) (Nat.add_assoc ..)
  zero_add a := TrafficTotals.ext (Nat.zero_add _) (Nat.zero_add _) (Nat.zero_add _)
    (Nat.zero_add _) (Nat.zero_add _)
  add_zero _ := rfl
  add_comm a b := TrafficTotals.ext (Nat.add_comm ..) (Nat.add_comm ..) (Nat.add_comm ..)
    (Nat.add_comm ..) (Nat.add_comm ..)
  nsmul := nsmulRec

instance : Zero StatDelta := ⟨{}⟩

/-- The sum of the columns, as SQLite adds them. -/
instance : Add StatDelta :=
  ⟨fun a b =>
    { queries := a.queries + b.queries
      blocked := a.blocked + b.blocked
      forwarded := a.forwarded + b.forwarded
      failed := a.failed + b.failed
      requests := a.requests + b.requests
      latencyTotalMs := a.latencyTotalMs + b.latencyTotalMs
      latencySamples := a.latencySamples + b.latencySamples
      traffic := a.traffic + b.traffic }⟩

instance : AddCommMonoid StatDelta where
  add_assoc a b c := StatDelta.ext (Nat.add_assoc ..) (Nat.add_assoc ..) (Nat.add_assoc ..)
    (Nat.add_assoc ..) (Nat.add_assoc ..) (Nat.add_assoc ..) (Nat.add_assoc ..) (add_assoc _ _ _)
  zero_add a := StatDelta.ext (Nat.zero_add _) (Nat.zero_add _) (Nat.zero_add _)
    (Nat.zero_add _) (Nat.zero_add _) (Nat.zero_add _) (Nat.zero_add _) (zero_add _)
  add_zero _ := rfl
  add_comm a b := StatDelta.ext (Nat.add_comm ..) (Nat.add_comm ..) (Nat.add_comm ..)
    (Nat.add_comm ..) (Nat.add_comm ..) (Nat.add_comm ..) (Nat.add_comm ..) (add_comm _ _)
  nsmul := nsmulRec

theorem column_sum {M : Type*} [AddMonoid M] (column : StatDelta → M) (h0 : column 0 = 0)
    (ha : ∀ a b, column (a + b) = column a + column b) (deltas : List StatDelta) :
    column deltas.sum = (deltas.map column).sum :=
  map_list_sum (⟨⟨column, h0⟩, ha⟩ : StatDelta →+ M) deltas

theorem traffic_eq_zero {a : TrafficTotals} : a = 0 ↔ a.clientBytesIn = 0 ∧ a.clientBytesOut = 0 ∧
    a.upstreamBytesOut = 0 ∧ a.upstreamBytesIn = 0 ∧ a.cacheSavedBytes = 0 :=
  TrafficTotals.ext_iff

theorem traffic_eq_zero_of_add {a b : TrafficTotals} (hab : a + b = 0) : a = 0 ∧ b = 0 := by
  obtain ⟨h1, h2, h3, h4, h5⟩ := traffic_eq_zero.1 hab
  obtain ⟨ha1, hb1⟩ := Nat.add_eq_zero_iff.1 h1
  obtain ⟨ha2, hb2⟩ := Nat.add_eq_zero_iff.1 h2
  obtain ⟨ha3, hb3⟩ := Nat.add_eq_zero_iff.1 h3
  obtain ⟨ha4, hb4⟩ := Nat.add_eq_zero_iff.1 h4
  obtain ⟨ha5, hb5⟩ := Nat.add_eq_zero_iff.1 h5
  exact ⟨traffic_eq_zero.2 ⟨ha1, ha2, ha3, ha4, ha5⟩, traffic_eq_zero.2 ⟨hb1, hb2, hb3, hb4, hb5⟩⟩

theorem traffic_sum_eq_zero {deltas : List StatDelta} :
    deltas.sum.traffic = 0 ↔ ∀ delta ∈ deltas, delta.traffic = 0 := by
  constructor
  · intro hsum
    induction deltas with
    | nil => exact fun delta hdelta => absurd hdelta List.not_mem_nil
    | cons first deltas ih =>
      rw [List.sum_cons] at hsum
      obtain ⟨hfirst, hrest⟩ := traffic_eq_zero_of_add hsum
      intro delta hdelta
      rcases List.mem_cons.1 hdelta with rfl | hdelta
      · exact hfirst
      · exact ih hrest delta hdelta
  · intro hnone
    rw [column_sum (·.traffic) rfl fun _ _ => rfl]
    refine List.sum_eq_zero fun traffic htraffic => ?_
    obtain ⟨delta, hdelta, rfl⟩ := List.mem_map.1 htraffic
    exact hnone delta hdelta

/-! ## Keys and tables -/

inductive Dimension
  | total
  | domain
  | client
  | upstream
  | blocklist
  deriving DecidableEq

structure HourlyStatKey where
  hour : ℕ
  dimension : Dimension
  value : Text
  deriving DecidableEq

/-- `all`, or a day before the hourly statistics were introduced. -/
inductive Scope
  | all
  | day (date : Text)
  deriving DecidableEq

structure SummaryKey where
  scope : Scope
  dimension : Dimension
  value : Text
  deriving DecidableEq

structure SummaryColumns where
  counts : StatDelta
  firstSeenAt : ℕ
  lastSeenAt : ℕ
  deriving DecidableEq

/-- A row of the query log, without the summary of the response and the processing time.  The
    last four columns are `NULL` in the rows that older versions have written. -/
structure QueryLogRow where
  id : ℕ
  timestamp : ℕ
  domain : Text
  clientIp : Option Text
  blocked : Bool
  forwarded : Bool
  failed : Bool
  upstreamServer : Option Text
  upstreamDurationMs : Option ℕ
  error : Option Text
  matchedRule : Option Text
  ruleSource : Option Text
  ruleType : Option Text
  importantOverrode : Bool
  allowlistRule : Option Text
  queryType : Option UInt16
  queryClass : Option UInt16
  transport : Option Text
  responseSource : Option Text
  deriving DecidableEq

end DnsBlackhole.Database

namespace DnsBlackhole
open Database

/-- The database and the retention that is in force. -/
structure Database where
  /-- The configuration and when it was saved. -/
  appConfig : Option (Admin.AppConfig × ℕ) := none
  queryLogs : List QueryLogRow := []
  /-- The last number that `AUTOINCREMENT` has given out. -/
  queryLogsSequence : ℕ := 0
  statisticsHourly : Lib.Table HourlyStatKey StatDelta := ∅
  dashboardSummaryStats : Lib.Table SummaryKey SummaryColumns := ∅
  statisticsRetentionHours : UInt32 := 0

end DnsBlackhole
