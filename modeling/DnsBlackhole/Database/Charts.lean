/-
  The trend of the dashboard (`charts.ts`, over the `traffic` of `log_stats`).

  The service gives one bucket for each local day, under the minute at which the
  day starts.  The interface adds the buckets to points: one for each local day, or
  one for each hour where the window has at most 48 hours.

  * `trafficBuckets_perm`: the buckets are the sums over the days;
  * `series_shows_iff`: the points of days show the traffic of their days.  The
    points of hours do where all traffic of the days in question is in their first
    hours: the traffic of a day stands at its first hour, and at no other.

  The service and the interface are in one time zone, whose offsets are whole hours.
  Numbers of the interface are exact, as they are below 2^53.
-/
import DnsBlackhole.Database.Retention
import DnsBlackhole.Lib.LocalTime
import DnsBlackhole.Lib.Series

namespace DnsBlackhole.Database
open Admin (TrafficBucket)
open Lib

/-! ## Buckets and points -/

def dailyTrendDays : ℕ := 30
def hourlyTrendMaxHours : ℕ := 48

/-- A window of hours has the day at its start, too. -/
def trendDayCountForHours (hours : ℕ) : ℕ :=
  if hours = 0 then dailyTrendDays else min dailyTrendDays (max 2 ((hours + 23) / 24 + 1))

inductive TrafficField
  | queries
  | blocked
  | bytes

def TrafficField.ofBucket : TrafficField → TrafficBucket → ℕ
  | .queries, bucket => bucket.queries
  | .blocked, bucket => bucket.blocked
  | .bytes, bucket => bucket.bytes

def TrafficField.ofDelta : TrafficField → StatDelta → ℕ
  | .queries, delta => delta.queries
  | .blocked, delta => delta.blocked
  | .bytes, delta => delta.bytes

structure HistoryPoint where
  index : ℕ
  value : ℕ
  label : Text

def addTraffic (field : TrafficField) (bucket : TrafficBucket) (point : HistoryPoint) :
    HistoryPoint := { point with value := point.value + field.ofBucket bucket }

/-- `bucket.minute * 60000` -/
def bucketDate (bucket : TrafficBucket) : ℤ := bucket.minute.toNat * 60000

section
variable (zone : Zone)

def dayStarts (pointCount : ℕ) (now : ℤ) : List ℤ :=
  (List.range pointCount).map fun index : ℕ =>
    zone.setDateBack (zone.setHoursZero now) (pointCount - index - 1 : ℤ)

/-- The map from the starts to their indices; the last one with a start counts. -/
def dayIndex (starts : List ℤ) (date : ℤ) : Option ℕ :=
  (starts.zipIdx.reverse.find? fun start => start.1 = date).map Prod.snd

def hourStart (pointCount : ℕ) (now : ℤ) (index : ℕ) : ℤ :=
  zone.setMinutesZero now - (pointCount - index - 1 : ℤ) * hourMs

def hourIndex (pointCount : ℕ) (now : ℤ) (bucket : TrafficBucket) : Option ℕ :=
  let index := (bucketDate bucket - hourStart zone pointCount now 0) / hourMs
  if 0 ≤ index ∧ index < pointCount then some index.toNat else none

variable (formatSparkDayLabel formatSparkHourLabel : ℤ → Text) (buckets : List TrafficBucket)
  (field : TrafficField)

def buildDailyTrafficSeries (dayCount : ℕ) (now : ℤ) : List HistoryPoint :=
  let starts := dayStarts zone (max 1 dayCount) now
  let values := starts.mapIdx fun index timestamp =>
    { index, value := 0, label := formatSparkDayLabel (timestamp / 60000) }
  scatter (fun bucket => dayIndex starts (zone.setHoursZero (bucketDate bucket)))
    (addTraffic field) values buckets

def buildHourlyTrafficSeries (hourCount : ℕ) (now : ℤ) : List HistoryPoint :=
  let pointCount := max 1 hourCount
  let values := (List.range pointCount).map fun index =>
    { index, value := 0
      label := formatSparkHourLabel (hourStart zone pointCount now index / 60000) }
  scatter (hourIndex zone pointCount now) (addTraffic field) values buckets

/-- Short windows by the hour, and the others by the local day. -/
def isHourly (hours : ℕ) : Bool := 0 < hours && hours ≤ hourlyTrendMaxHours

def buildTrafficSeries (hours : ℕ) (now : ℤ) : List HistoryPoint :=
  if isHourly hours then
    buildHourlyTrafficSeries zone formatSparkHourLabel buckets field hours now
  else
    buildDailyTrafficSeries zone formatSparkDayLabel buckets field (trendDayCountForHours hours) now

end

/-! ## The database in the zone -/

/-- SQLite knows the zone.  It starts a day at its midnight, unless that is skipped. -/
structure Sqlite.InZone {ρ : Type} (sqlite : Sqlite ρ) (zone : Zone) : Prop where
  localDate : ∀ h h' : ℕ,
    sqlite.localDate h = sqlite.localDate h' ↔ zone.localDay h = zone.localDay h'
  dayStart_congr : ∀ h h' : ℕ, sqlite.localDate h = sqlite.localDate h' →
    sqlite.dayStart h = sqlite.dayStart h'
  dayStart : ∀ h : ℕ, zone.Shown (24 * zone.localDay h) → sqlite.dayStart h ≤ i64Max →
    ∃ m : ℤ, (sqlite.dayStart h : ℤ) = m * 60 ∧ zone.localHour m = 24 * zone.localDay h

section
variable {ρ : Type} (sqlite : Sqlite ρ) (db : Database)

/-- The first hour of the trend. -/
def trendSince (trendNow : ℕ) : ℕ := (trendNow - trafficRetentionHours * 3600) / 3600

abbrev HourlyRow := Row HourlyStatKey StatDelta

/-- The rows of the trend. -/
def trendRows (trendNow : ℕ) : List HourlyRow := hourlyRowsOf db .total [] (trendSince trendNow)

def groupStart (group : ℕ × List HourlyRow) : ℕ :=
  (group.2.head?.map fun row => sqlite.dayStart row.1.hour).getD 0

def bucketOf (group : ℕ × List HourlyRow) : TrafficBucket where
  minute := .ofNat (groupStart sqlite group)
  queries := (group.2.map fun row => row.2.queries).sum
  blocked := (group.2.map fun row => row.2.blocked).sum
  bytes := (group.2.map fun row => row.2.bytes).sum

def dayGroups (trendNow : ℕ) : List (ℕ × List HourlyRow) :=
  groupBy (fun row => sqlite.localDate row.1.hour) (trendRows db trendNow)

variable {sqlite db} {trendNow : ℕ} {buckets : List TrafficBucket}

/-- **The buckets are the sums over the local days.** -/
theorem trafficBuckets_perm (h : trafficBuckets db sqlite trendNow = .ok buckets) :
    buckets.Perm ((dayGroups sqlite db trendNow).map (bucketOf sqlite)) ∧
      ∀ group ∈ dayGroups sqlite db trendNow, groupStart sqlite group ≤ i64Max := by
  obtain ⟨since, hsince, h⟩ := bind_eq_ok.1 h
  cases eq_of_u64ToDbI64 hsince
  obtain ⟨sums, hsums, h⟩ := bind_eq_ok.1 h
  have hbuckets := mapError_eq_ok.1 h
  have hsums' : sums = (dayGroups sqlite db trendNow).map fun group =>
      (groupStart sqlite group, (bucketOf sqlite group).queries, (bucketOf sqlite group).blocked,
        (bucketOf sqlite group).bytes) := by
    refine eq_map_of_mapM hsums fun group _ sum hsum => ?_
    simp only [bind_eq_ok, mapError_eq_ok, pure_eq_ok, List.map_map] at hsum
    obtain ⟨queries, hqueries, blocked, hblocked, bytes, hbytes, rfl⟩ := hsum
    rw [eq_of_sqlSum hqueries, eq_of_sqlSum hblocked, eq_of_sqlSum hbytes]
    rfl
  have hranked : (ranked (fun _ => (0 : ℕ)) sums).Perm sums := List.perm_insertionSort ..
  have hmap : buckets = (ranked (fun _ => (0 : ℕ)) sums).map fun row =>
      ⟨.ofNat row.1, row.2.1, row.2.2.1, row.2.2.2⟩ := by
    refine eq_map_of_mapM hbuckets fun row _ bucket hbucket => ?_
    simp only [bind_eq_ok, pure_eq_ok] at hbucket
    obtain ⟨minute, hminute, queries, hqueries, blocked, hblocked, bytes, hbytes, rfl⟩ := hbucket
    rw [eq_of_readU64 hminute, eq_of_readU64 hqueries, eq_of_readU64 hblocked,
      eq_of_readU64 hbytes]
  constructor
  · rw [hmap]
    refine (hranked.map _).trans ?_
    rw [hsums', List.map_map]
    exact .refl _
  · intro group hgroup
    have hmem : (groupStart sqlite group, (bucketOf sqlite group).queries,
        (bucketOf sqlite group).blocked, (bucketOf sqlite group).bytes) ∈
          ranked (fun _ => (0 : ℕ)) sums :=
      hranked.mem_iff.2 (hsums' ▸ List.mem_map_of_mem hgroup)
    obtain ⟨bucket, hbucket⟩ := exists_ok_of_mapM hbuckets hmem
    obtain ⟨minute, hminute, -⟩ := bind_eq_ok.1 hbucket
    rw [readU64] at hminute
    split_ifs at hminute with hle
    exact hle

theorem ofBucket_bucketOf (field : TrafficField) (group : ℕ × List HourlyRow) :
    field.ofBucket (bucketOf sqlite group) = (group.2.map fun row => field.ofDelta row.2).sum := by
  cases field <;> rfl

theorem groupStart_eq {zone : Zone} (hzone : sqlite.InZone zone) {group : ℕ × List HourlyRow}
    (hgroup : group ∈ dayGroups sqlite db trendNow) {row : HourlyRow} (hrow : row ∈ group.2) :
    row ∈ trendRows db trendNow ∧ groupStart sqlite group = sqlite.dayStart row.1.hour := by
  obtain ⟨-, hrows⟩ := mem_groupBy.1 hgroup
  have hmem : ∀ r ∈ group.2, r ∈ trendRows db trendNow ∧ sqlite.localDate r.1.hour = group.1 := by
    intro r hr
    rw [hrows, List.mem_filter, decide_eq_true_iff] at hr
    exact hr
  refine ⟨(hmem row hrow).1, ?_⟩
  cases hhead : group.2 with
  | nil =>
    rw [hhead] at hrow
    cases hrow
  | cons first rest =>
    have hfirst := (hmem first (hhead ▸ List.mem_cons_self)).2
    rw [groupStart, hhead]
    exact hzone.dayStart_congr _ _ (hfirst.trans (hmem row hrow).2.symm)

/-- **What goes to a point**: the rows of the groups that have its index. -/
theorem sumIf_buckets (h : trafficBuckets db sqlite trendNow = .ok buckets)
    {index : TrafficBucket → Option ℕ} {i : ℕ} {q : HourlyRow → Bool} (field : TrafficField)
    (hindex : ∀ group ∈ dayGroups sqlite db trendNow, ∀ row ∈ group.2,
      decide (index (bucketOf sqlite group) = some i) = q row) :
    sumIf (index · = some i) field.ofBucket buckets =
      sumIf q (fun row => field.ofDelta row.2) (trendRows db trendNow) := by
  rw [sumIf_perm (trafficBuckets_perm h).1, sumIf_map]
  have hamount : field.ofBucket ∘ bucketOf sqlite =
      fun group => (group.2.map fun row => field.ofDelta row.2).sum :=
    funext fun group => ofBucket_bucketOf field group
  rw [hamount]
  exact sum_groupBy (fun row : HourlyRow => sqlite.localDate row.1.hour) _ hindex

end

/-! ## The hours of a point -/

section
variable (zone : Zone)

/-- The clock hour of a point. -/
def pointHour (hours : ℕ) (now : ℤ) (i : ℕ) : ℤ :=
  zone.setMinutesZero now / hourMs - (hours - i - 1 : ℤ)

/-- The local day of a point. -/
def pointDay (hours : ℕ) (now : ℤ) (i : ℕ) : ℤ :=
  zone.localDay (now / hourMs) - (trendDayCountForHours hours - i - 1 : ℤ)

/-- The hours that a point stands for. -/
def inPoint (hours : ℕ) (now : ℤ) (i : ℕ) (h : ℤ) : Bool :=
  if isHourly hours then h = pointHour zone hours now i
  else zone.localDay h = pointDay zone hours now i

/-- Every point whose hours are in the trend shows the rows of its hours, and no others. -/
def ShowsTraffic (db : Database) (trendNow : ℕ) (field : TrafficField) (hours : ℕ) (now : ℤ)
    (series : List HistoryPoint) : Prop :=
  ∀ i point, series[i]? = some point →
    (∀ h, inPoint zone hours now i h → (trendSince trendNow : ℤ) ≤ h) →
      point.value = sumIf (fun row => inPoint zone hours now i row.1.hour)
        (fun row => field.ofDelta row.2) (hourlyRowsOf db .total [] 0)

/-- The midnights of the days that are shown, and of those with traffic, are not skipped. -/
def MidnightsShown (db : Database) (trendNow : ℕ) (now : ℤ) : Prop :=
  ∀ d, (zone.localDay (now / hourMs) - dailyTrendDays < d ∧ d ≤ zone.localDay (now / hourMs)) ∨
      (∃ row ∈ trendRows db trendNow, zone.localDay row.1.hour = d) → zone.Shown (24 * d)

/-- Where a row is not in the first hour of its local day, and its hour or that one is shown, it
    has no traffic. -/
def OnlyFirstHours {ρ : Type} (sqlite : Sqlite ρ) (db : Database) (trendNow : ℕ)
    (field : TrafficField) (hours : ℕ) (now : ℤ) : Prop :=
  ∀ row ∈ trendRows db trendNow, ∀ i < hours,
    (trendSince trendNow : ℤ) ≤ pointHour zone hours now i →
    ((row.1.hour : ℤ) = pointHour zone hours now i ∨
      (sqlite.dayStart row.1.hour : ℤ) = pointHour zone hours now i * 60) →
        sqlite.dayStart row.1.hour ≠ row.1.hour * 60 → field.ofDelta row.2 = 0

end

/-! ## Points of days -/

section
variable {zone : Zone}

theorem dayIndex_eq_some_iff {starts : List ℤ} (hn : starts.Nodup) {date : ℤ} {i : ℕ} :
    dayIndex starts date = some i ↔ starts[i]? = some date := by
  have hmem : ∀ p : ℤ × ℕ, p ∈ starts.zipIdx.reverse ↔ starts[p.2]? = some p.1 := fun p => by
    rw [List.mem_reverse, List.mem_zipIdx_iff_getElem?]
  rw [dayIndex, Option.map_eq_some_iff]
  constructor
  · rintro ⟨p, hp, rfl⟩
    rw [(hmem p).1 (List.mem_of_find?_eq_some hp)]
    exact congrArg some (of_decide_eq_true (List.find?_some (p := fun start : ℤ × ℕ =>
      decide (start.1 = date)) hp))
  · intro hi
    have hsome : (starts.zipIdx.reverse.find? fun start => start.1 = date).isSome := by
      rw [List.find?_isSome]
      exact ⟨(date, i), (hmem (date, i)).2 hi, decide_eq_true rfl⟩
    obtain ⟨p, hp⟩ := Option.isSome_iff_exists.1 hsome
    have hdate : p.1 = date := of_decide_eq_true (List.find?_some (p := fun start : ℤ × ℕ =>
      decide (start.1 = date)) hp)
    have hplace := (hmem p).1 (List.mem_of_find?_eq_some hp)
    rw [hdate] at hplace
    obtain ⟨hlt, -⟩ := List.getElem?_eq_some_iff.1 hi
    exact ⟨p, hp, ((List.getElem?_inj hlt hn).1 (hi.trans hplace.symm)).symm⟩

theorem trendDayCountForHours_bounds (hours : ℕ) :
    1 ≤ trendDayCountForHours hours ∧ trendDayCountForHours hours ≤ dailyTrendDays := by
  unfold trendDayCountForHours dailyTrendDays
  split_ifs <;> omega

variable {ρ : Type} {sqlite : Sqlite ρ} {db : Database} {trendNow : ℕ} {now : ℤ}
  {buckets : List TrafficBucket}

theorem value_point {index : TrafficBucket → Option ℕ} {field : TrafficField}
    {points : List HistoryPoint} (hzero : ∀ point ∈ points, point.value = 0) {i : ℕ}
    {point : HistoryPoint}
    (hpoint : (scatter index (addTraffic field) points buckets)[i]? = some point) :
    i < points.length ∧ point.value = sumIf (index · = some i) field.ofBucket buckets := by
  have hvalue := @value_scatter _ _ index (addTraffic field) HistoryPoint.value field.ofBucket
    (fun _ _ => rfl) points buckets i
  rw [hpoint, Option.map_some] at hvalue
  cases hstart : points[i]? with
  | none =>
    rw [hstart] at hvalue
    cases hvalue
  | some start =>
    rw [hstart, Option.map_some, Option.some.injEq, hzero start (List.mem_of_getElem? hstart),
      Nat.zero_add] at hvalue
    exact ⟨(List.getElem?_eq_some_iff.1 hstart).1, hvalue⟩

theorem dayStarts_eq {n : ℕ} (htoday : zone.Shown (24 * zone.localDay (now / hourMs))) :
    dayStarts zone n now = (List.range n).map fun i : ℕ =>
      zone.utcHour (24 * (zone.localDay (now / hourMs) - (n - i - 1 : ℤ))) * hourMs := by
  rw [dayStarts, Zone.setHoursZero_eq]
  refine List.map_congr_left fun i _ => ?_
  exact Zone.setDateBack_eq (Zone.localHour_utcHour htoday) _

theorem bucketDate_eq (hzone : sqlite.InZone zone)
    (h : trafficBuckets db sqlite trendNow = .ok buckets)
    (hmidnight : ∀ row ∈ trendRows db trendNow, zone.Shown (24 * zone.localDay row.1.hour))
    {group : ℕ × List HourlyRow} (hgroup : group ∈ dayGroups sqlite db trendNow) {row : HourlyRow}
    (hrow : row ∈ group.2) :
    ∃ m : ℤ, bucketDate (bucketOf sqlite group) = m * hourMs ∧
      (sqlite.dayStart row.1.hour : ℤ) = m * 60 ∧
      zone.localHour m = 24 * zone.localDay row.1.hour := by
  obtain ⟨hmem, hstart⟩ := groupStart_eq hzone hgroup hrow
  have hle := (trafficBuckets_perm h).2 group hgroup
  obtain ⟨m, hm, hlocal⟩ := hzone.dayStart row.1.hour (hmidnight row hmem) (hstart ▸ hle)
  refine ⟨m, ?_, hm, hlocal⟩
  have hminute : (bucketOf sqlite group).minute.toNat = sqlite.dayStart row.1.hour := by
    change (UInt64.ofNat (groupStart sqlite group)).toNat = _
    rw [hstart] at hle ⊢
    exact UInt64.toNat_ofNat_of_lt' (hle.trans_lt (by decide))
  rw [bucketDate, hminute, hm, hourMs]
  omega

/-- **The value of a point of a day** is the traffic of the trend on that day. -/
theorem value_daily (hzone : sqlite.InZone zone)
    (h : trafficBuckets db sqlite trendNow = .ok buckets)
    (hmidnights : MidnightsShown zone db trendNow now) {hours : ℕ} (field : TrafficField)
    {formatSparkDayLabel : ℤ → Text} {i : ℕ} {point : HistoryPoint}
    (hpoint : (buildDailyTrafficSeries zone formatSparkDayLabel buckets field
      (trendDayCountForHours hours) now)[i]? = some point) :
    point.value = sumIf (fun row => zone.localDay row.1.hour = pointDay zone hours now i)
      (fun row => field.ofDelta row.2) (trendRows db trendNow) := by
  obtain ⟨hone, hmost⟩ := trendDayCountForHours_bounds hours
  obtain ⟨n, hn⟩ : ∃ n, n = trendDayCountForHours hours := ⟨_, rfl⟩
  have htoday : zone.Shown (24 * zone.localDay (now / hourMs)) :=
    hmidnights _ (.inl ⟨by simp only [dailyTrendDays]; omega, le_refl _⟩)
  have hrows : ∀ row ∈ trendRows db trendNow, zone.Shown (24 * zone.localDay row.1.hour) :=
    fun row hrow => hmidnights _ (.inr ⟨row, hrow, rfl⟩)
  have hdays : ∀ j < n, zone.Shown (24 * (zone.localDay (now / hourMs) - (n - j - 1 : ℤ))) :=
    fun j hj => hmidnights _ (.inl ⟨by omega, by omega⟩)
  have hstarts := dayStarts_eq (n := n) htoday
  have hnodup : (dayStarts zone n now).Nodup := by
    rw [hstarts]
    refine List.Nodup.map_on (fun j hj k hk heq => ?_) List.nodup_range
    have hhour := Int.eq_of_mul_eq_mul_right (by decide) heq
    have hday := (Zone.utcHour_inj (hdays j (List.mem_range.1 hj))
      (hdays k (List.mem_range.1 hk))).1 hhour
    omega
  rw [buildDailyTrafficSeries, ← hn, max_eq_right (hn ▸ hone)] at hpoint
  obtain ⟨hi, hvalue⟩ := value_point (fun point hmem => by
    obtain ⟨j, hj, rfl⟩ := List.mem_mapIdx.1 hmem
    rfl) hpoint
  rw [List.length_mapIdx, hstarts, List.length_map, List.length_range] at hi
  rw [hvalue]
  refine sumIf_buckets h field fun group hgroup row hrow => decide_eq_decide.2 ?_
  obtain ⟨m, hdate, -, hlocal⟩ := bucketDate_eq hzone h hrows hgroup hrow
  have hmem := (groupStart_eq hzone hgroup hrow).1
  have hday : zone.localDay m = zone.localDay row.1.hour := by
    rw [Zone.localDay, hlocal, Int.mul_ediv_cancel_left _ (by decide)]
  rw [dayIndex_eq_some_iff hnodup, hdate, Zone.setHoursZero_eq,
    Int.mul_ediv_cancel _ (by decide), hday, hstarts, List.getElem?_map,
    List.getElem?_range hi, Option.map_some, Option.some.injEq]
  rw [Int.mul_eq_mul_right_iff (by decide), Zone.utcHour_inj (hdays i hi) (hrows row hmem),
    pointDay, ← hn]
  omega

/-! ## Points of hours -/

theorem hourStart_eq (hours : ℕ) (now : ℤ) (i : ℕ) :
    hourStart zone hours now i = pointHour zone hours now i * hourMs := by
  rw [hourStart, pointHour, Zone.setMinutesZero_eq, Int.mul_ediv_cancel _ (by decide),
    ← Int.sub_mul]

/-- **The value of a point of an hour** is the traffic of the days that start at that hour. -/
theorem value_hourly (hzone : sqlite.InZone zone)
    (h : trafficBuckets db sqlite trendNow = .ok buckets)
    (hmidnights : MidnightsShown zone db trendNow now) {hours : ℕ} (hpos : 0 < hours)
    (field : TrafficField) {formatSparkHourLabel : ℤ → Text} {i : ℕ} {point : HistoryPoint}
    (hpoint : (buildHourlyTrafficSeries zone formatSparkHourLabel buckets field hours now)[i]? =
      some point) :
    i < hours ∧ point.value =
      sumIf (fun row => (sqlite.dayStart row.1.hour : ℤ) = pointHour zone hours now i * 60)
        (fun row => field.ofDelta row.2) (trendRows db trendNow) := by
  have hrows : ∀ row ∈ trendRows db trendNow, zone.Shown (24 * zone.localDay row.1.hour) :=
    fun row hrow => hmidnights _ (.inr ⟨row, hrow, rfl⟩)
  have hmax : max 1 hours = hours := max_eq_right hpos
  rw [buildHourlyTrafficSeries, hmax] at hpoint
  obtain ⟨hi, hvalue⟩ := value_point (fun point hmem => by
    obtain ⟨j, hj, rfl⟩ := List.mem_map.1 hmem
    rfl) hpoint
  rw [List.length_map, List.length_range] at hi
  refine ⟨hi, ?_⟩
  rw [hvalue]
  refine sumIf_buckets h field fun group hgroup row hrow => decide_eq_decide.2 ?_
  obtain ⟨m, hdate, hminute, -⟩ := bucketDate_eq hzone h hrows hgroup hrow
  have hindex : (m * hourMs - pointHour zone hours now 0 * hourMs) / hourMs =
      m - pointHour zone hours now 0 := by
    rw [← Int.sub_mul, Int.mul_ediv_cancel _ (by decide)]
  rw [hourIndex, hdate, hourStart_eq, hminute, hindex]
  have hplace : pointHour zone hours now i = pointHour zone hours now 0 + i := by
    simp only [pointHour]
    omega
  rw [hplace]
  split_ifs with hshown
  · rw [Option.some.injEq]
    omega
  · refine iff_of_false (fun hnone => by cases hnone) ?_
    omega

theorem isHourly_pos {hours : ℕ} (h : isHourly hours) : 0 < hours := by
  rw [isHourly, Bool.and_eq_true, decide_eq_true_iff] at h
  exact h.1

theorem sumIf_trendRows {p : HourlyRow → Bool} {amount : HourlyRow → ℕ}
    (hp : ∀ row, p row → trendSince trendNow ≤ row.1.hour) :
    sumIf p amount (hourlyRowsOf db .total [] 0) = sumIf p amount (trendRows db trendNow) := by
  rw [sumIf, sumIf, trendRows, hourlyRowsOf, hourlyRowsOf, hourlyRows, hourlyRows]
  simp only [List.filter_filter]
  refine congrArg (fun rows => (rows.map amount).sum) (List.filter_congr fun row _ => ?_)
  cases hrow : p row with
  | false => simp
  | true => simp [hp row hrow]

theorem dayStart_of_start (hzone : sqlite.InZone zone)
    (h : trafficBuckets db sqlite trendNow = .ok buckets)
    (hmidnights : MidnightsShown zone db trendNow now) {row row' : HourlyRow}
    (hrow : row ∈ trendRows db trendNow) {hour : ℤ}
    (hstart : (sqlite.dayStart row.1.hour : ℤ) = hour * 60) (hhour : (row'.1.hour : ℤ) = hour) :
    (sqlite.dayStart row'.1.hour : ℤ) = hour * 60 := by
  have hgroup : (sqlite.localDate row.1.hour, (trendRows db trendNow).filter fun r =>
      sqlite.localDate r.1.hour = sqlite.localDate row.1.hour) ∈ dayGroups sqlite db trendNow :=
    mem_groupBy.2 ⟨List.mem_map_of_mem hrow, rfl⟩
  have hmem : row ∈ (trendRows db trendNow).filter fun r =>
      sqlite.localDate r.1.hour = sqlite.localDate row.1.hour :=
    List.mem_filter.2 ⟨hrow, decide_eq_true rfl⟩
  obtain ⟨m, -, hm, hlocal⟩ := bucketDate_eq hzone h
    (fun r hr => hmidnights _ (.inr ⟨r, hr, rfl⟩)) hgroup hmem
  have heq : m = row'.1.hour := by omega
  have hday : zone.localDay row'.1.hour = zone.localDay row.1.hour := by
    rw [← heq, Zone.localDay, hlocal, Int.mul_ediv_cancel_left _ (by decide)]
  rw [hzone.dayStart_congr _ _ ((hzone.localDate _ _).2 hday), hstart]

theorem traffic_of_logStats [LinearOrder ρ] {retentionHours : UInt32} {statsNow : ℕ}
    {stats : LogStats} (h : logStats db sqlite retentionHours statsNow trendNow = .ok stats) :
    trafficBuckets db sqlite trendNow = .ok stats.traffic := by
  simp only [logStats, bind_eq_ok, pure_eq_ok] at h
  obtain ⟨_, -, _, -, _, -, _, -, traffic, htraffic, _, -, _, -, _, -, _, -, rfl⟩ := h
  exact htraffic

/-- The rows that a point of an hour should show are those it shows, where the rows that only one
    of the two has are empty. -/
theorem shown_hour_iff (hzone : sqlite.InZone zone)
    (h : trafficBuckets db sqlite trendNow = .ok buckets)
    (hmidnights : MidnightsShown zone db trendNow now) (field : TrafficField) (hour : ℤ) :
    sumIf (fun row : HourlyRow => (sqlite.dayStart row.1.hour : ℤ) = hour * 60)
        (fun row => field.ofDelta row.2) (trendRows db trendNow) =
      sumIf (fun row => (row.1.hour : ℤ) = hour) (fun row => field.ofDelta row.2)
        (trendRows db trendNow) ↔
    ∀ row ∈ trendRows db trendNow,
      ((row.1.hour : ℤ) = hour ∨ (sqlite.dayStart row.1.hour : ℤ) = hour * 60) →
        sqlite.dayStart row.1.hour ≠ row.1.hour * 60 → field.ofDelta row.2 = 0 := by
  rw [sumIf_eq_iff]
  · refine forall₂_congr fun row _ => ?_
    rw [Ne, decide_eq_decide]
    constructor
    · intro hzero hor hne
      refine hzero fun hiff => hne ?_
      rcases hor with hhour | hstart
      · have := hiff.2 hhour
        omega
      · have := hiff.1 hstart
        omega
    · intro hzero hne
      by_cases hstart : (sqlite.dayStart row.1.hour : ℤ) = hour * 60
      · refine hzero (.inr hstart) fun heq => hne (iff_of_true hstart ?_)
        omega
      · by_cases hhour : (row.1.hour : ℤ) = hour
        · refine hzero (.inl hhour) fun heq => hstart ?_
          omega
        · exact absurd (iff_of_false hstart hhour) hne
  · intro row hrow row' _ hstart hhour
    exact decide_eq_true (dayStart_of_start hzone h hmidnights hrow (of_decide_eq_true hstart)
      (of_decide_eq_true hhour))

/-- **The trend shows the traffic of its points**, except by the hour: there it does exactly
    where the days in question have all their traffic in their first hours. -/
theorem series_shows_iff [LinearOrder ρ] {retentionHours : UInt32} {statsNow : ℕ} {stats : LogStats}
    (hzone : sqlite.InZone zone)
    (hstats : logStats db sqlite retentionHours statsNow trendNow = .ok stats)
    (hmidnights : MidnightsShown zone db trendNow now)
    (formatSparkDayLabel formatSparkHourLabel : ℤ → Text) (field : TrafficField) (hours : ℕ) :
    ShowsTraffic zone db trendNow field hours now (buildTrafficSeries zone formatSparkDayLabel
        formatSparkHourLabel stats.traffic field hours now) ↔
      (isHourly hours → OnlyFirstHours zone sqlite db trendNow field hours now) := by
  have htraffic := traffic_of_logStats hstats
  by_cases hhourly : isHourly hours
  · have hin : ∀ i h, inPoint zone hours now i h = decide (h = pointHour zone hours now i) :=
      fun i h => if_pos hhourly
    rw [ShowsTraffic, buildTrafficSeries, if_pos hhourly]
    constructor
    · intro hshows _ row hrow i hi hsince
      obtain ⟨point, hpoint⟩ : ∃ point, (buildHourlyTrafficSeries zone formatSparkHourLabel
          stats.traffic field hours now)[i]? = some point := by
        refine ⟨_, List.getElem?_eq_getElem ?_⟩
        rw [buildHourlyTrafficSeries, length_scatter, List.length_map, List.length_range]
        exact hi.trans_le (le_max_right _ _)
      have hinside : ∀ h, inPoint zone hours now i h → (trendSince trendNow : ℤ) ≤ h := by
        intro h hh
        rw [hin, decide_eq_true_iff] at hh
        exact hh ▸ hsince
      have hvalue := hshows i point hpoint hinside
      rw [sumIf_trendRows fun r hr => Int.ofNat_le.1 (hinside _ hr),
        (value_hourly hzone htraffic hmidnights (isHourly_pos hhourly) field hpoint).2] at hvalue
      simp only [hin] at hvalue
      exact (shown_hour_iff hzone htraffic hmidnights field _).1 hvalue row hrow
    · intro hquiet i point hpoint hinside
      obtain ⟨hi, hvalue⟩ :=
        value_hourly hzone htraffic hmidnights (isHourly_pos hhourly) field hpoint
      rw [sumIf_trendRows fun r hr => Int.ofNat_le.1 (hinside _ hr), hvalue]
      simp only [hin]
      refine (shown_hour_iff hzone htraffic hmidnights field _).2 fun row hrow => ?_
      refine hquiet hhourly row hrow i hi (hinside _ ?_)
      rw [hin]
      exact decide_eq_true rfl
  · have hin : ∀ i h, inPoint zone hours now i h =
        decide (zone.localDay h = pointDay zone hours now i) := fun i h => if_neg hhourly
    rw [ShowsTraffic, buildTrafficSeries, if_neg hhourly]
    refine iff_of_true (fun i point hpoint hinside => ?_) fun h => absurd h hhourly
    rw [sumIf_trendRows fun r hr => Int.ofNat_le.1 (hinside _ hr),
      value_daily hzone htraffic hmidnights field hpoint]
    simp only [hin]

end

/-! ### Queries at one o'clock -/

def utcZone : Zone := ⟨fun _ => 0, fun _ => by decide⟩

theorem localHour_utcZone (h : ℤ) : utcZone.localHour h = h := Int.add_zero h

theorem inZone_utcZone : sampleSqlite.InZone utcZone := by
  have hday : ∀ h : ℕ, utcZone.localDay h = (h / 24 : ℕ) := fun h => by
    rw [Zone.localDay, localHour_utcZone, Int.natCast_ediv]
    rfl
  refine ⟨fun h h' => ?_, fun h h' heq => ?_, fun h _ _ => ?_⟩
  · rw [hday, hday, Int.natCast_inj]
    exact Iff.rfl
  · exact congrArg (· * 1440) heq
  · refine ⟨(h / 24 : ℕ) * 24, ?_, ?_⟩
    · change ((h / 24 * 1440 : ℕ) : ℤ) = _
      omega
    · rw [localHour_utcZone, hday]
      omega

theorem midnightsShown_utcZone (db : Database) (trendNow : ℕ) (now : ℤ) :
    MidnightsShown utcZone db trendNow now := fun d _ => ⟨24 * d, localHour_utcZone _⟩

/-- Five queries between one and two of the second day. -/
def nightQueries : Database where
  statisticsHourly := Table.upsert ∅ (· + ·) ⟨25, .total, []⟩ { queries := 5 }

/-- The end of that hour. -/
def nightTime : ℕ := 26 * 3600

theorem exists_nightStats :
    ∃ stats, logStats nightQueries sampleSqlite 24 nightTime nightTime = .ok stats := by
  have hsome : (logStats nightQueries sampleSqlite 24 nightTime nightTime).toOption.isSome := by
    decide +kernel
  obtain ⟨stats, hstats⟩ := Option.isSome_iff_exists.1 hsome
  exact ⟨stats, toOption_eq_some.1 hstats⟩

/-- The points of thirty days show them. -/
theorem series_shows_nightQueries :
    ∃ stats, logStats nightQueries sampleSqlite 24 nightTime nightTime = .ok stats ∧
      ShowsTraffic utcZone nightQueries nightTime .queries 0 (nightTime * 1000)
        (buildTrafficSeries utcZone (fun _ => []) (fun _ => []) stats.traffic .queries 0
          (nightTime * 1000)) := by
  obtain ⟨stats, hstats⟩ := exists_nightStats
  exact ⟨stats, hstats, (series_shows_iff inZone_utcZone hstats (midnightsShown_utcZone _ _ _) _ _ _
    _).2 fun h => absurd h (by decide)⟩

/-- **The last day by the hour**: the queries of one o'clock stand at midnight. -/
theorem hourlyTrend_displaced :
    sampleSqlite.InZone utcZone ∧
    MidnightsShown utcZone nightQueries nightTime (nightTime * 1000) ∧
    ∃ stats, logStats nightQueries sampleSqlite 24 nightTime nightTime = .ok stats ∧
      ¬ ShowsTraffic utcZone nightQueries nightTime .queries 24 (nightTime * 1000)
        (buildTrafficSeries utcZone (fun _ => []) (fun _ => []) stats.traffic .queries 24
          (nightTime * 1000)) := by
  obtain ⟨stats, hstats⟩ := exists_nightStats
  refine ⟨inZone_utcZone, midnightsShown_utcZone _ _ _, stats, hstats, fun hshows => ?_⟩
  have hzero : ((trafficBuckets nightQueries sampleSqlite nightTime).toOption.bind fun buckets =>
      ((buildTrafficSeries utcZone (fun _ => []) (fun _ => []) buckets .queries 24
        (nightTime * 1000))[22]?).map HistoryPoint.value) = some 0 := by
    decide +kernel
  rw [traffic_of_logStats hstats] at hzero
  obtain ⟨point, hpoint, hvalue⟩ := Option.map_eq_some_iff.1 hzero
  have hfive : sumIf (fun row => inPoint utcZone 24 (nightTime * 1000) 22 row.1.hour)
      (fun row => TrafficField.queries.ofDelta row.2) (hourlyRowsOf nightQueries .total [] 0) =
        5 := by
    decide +kernel
  have hshown := hshows 22 point hpoint fun h hh => ?_
  · rw [hvalue, hfive] at hshown
    cases hshown
  · have hhour : h = 25 := of_decide_eq_true hh
    rw [hhour]
    decide

end DnsBlackhole.Database
