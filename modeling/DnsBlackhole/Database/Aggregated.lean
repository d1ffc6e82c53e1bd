/-
  What the sums of a batch are (`aggregate_hourly_stats` of `database.rs`).

  As long as no column reaches the end of a `u64`, the saturating sums are sums
  (`aggregateHourlyStats_eq`), so that

  * `lookup_aggregateHourlyStats`: the rows of the batches of an hour add up to those of all
    its entries, in whatever batches these came;
  * `totals_balance`: the row of the totals has the queries and the blocked queries of the
    domains, the blocked queries of the blocklists and the bytes of all entries;
  * `trafficOnly_total`: an entry of the background changes the bytes of the totals only;
  * `aggregateHourlyStats_hom`: all of it.
-/
import DnsBlackhole.Database.Batches
import DnsBlackhole.Lib.Collected

namespace DnsBlackhole.Database
open Admin (TrafficTotals)
open Cache (saturatingAdd64 u64Max)
open Lib

/-! ## Columns that fit -/

structure TrafficFits (traffic : TrafficTotals) : Prop where
  clientBytesIn : traffic.clientBytesIn ≤ u64Max
  clientBytesOut : traffic.clientBytesOut ≤ u64Max
  upstreamBytesOut : traffic.upstreamBytesOut ≤ u64Max
  upstreamBytesIn : traffic.upstreamBytesIn ≤ u64Max
  cacheSavedBytes : traffic.cacheSavedBytes ≤ u64Max

/-- Every column is a `u64`. -/
structure StatDelta.Fits (delta : StatDelta) : Prop where
  queries : delta.queries ≤ u64Max
  blocked : delta.blocked ≤ u64Max
  forwarded : delta.forwarded ≤ u64Max
  failed : delta.failed ≤ u64Max
  requests : delta.requests ≤ u64Max
  latencyTotalMs : delta.latencyTotalMs ≤ u64Max
  latencySamples : delta.latencySamples ≤ u64Max
  traffic : TrafficFits delta.traffic

theorem StatDelta.Fits.left {a b : StatDelta} (h : (a + b).Fits) : a.Fits where
  queries := (Nat.le_add_right _ _).trans h.queries
  blocked := (Nat.le_add_right _ _).trans h.blocked
  forwarded := (Nat.le_add_right _ _).trans h.forwarded
  failed := (Nat.le_add_right _ _).trans h.failed
  requests := (Nat.le_add_right _ _).trans h.requests
  latencyTotalMs := (Nat.le_add_right _ _).trans h.latencyTotalMs
  latencySamples := (Nat.le_add_right _ _).trans h.latencySamples
  traffic :=
    { clientBytesIn := (Nat.le_add_right _ _).trans h.traffic.clientBytesIn
      clientBytesOut := (Nat.le_add_right _ _).trans h.traffic.clientBytesOut
      upstreamBytesOut := (Nat.le_add_right _ _).trans h.traffic.upstreamBytesOut
      upstreamBytesIn := (Nat.le_add_right _ _).trans h.traffic.upstreamBytesIn
      cacheSavedBytes := (Nat.le_add_right _ _).trans h.traffic.cacheSavedBytes }

theorem StatDelta.Fits.right {a b : StatDelta} (h : (a + b).Fits) : b.Fits :=
  (add_comm a b ▸ h).left

theorem StatDelta.Fits.saturatingAdd {a b : StatDelta} (h : (a + b).Fits) :
    a.saturatingAdd b = a + b :=
  StatDelta.ext (min_eq_left h.queries) (min_eq_left h.blocked) (min_eq_left h.forwarded)
    (min_eq_left h.failed) (min_eq_left h.requests) (min_eq_left h.latencyTotalMs)
    (min_eq_left h.latencySamples)
    (TrafficTotals.ext (min_eq_left h.traffic.clientBytesIn)
      (min_eq_left h.traffic.clientBytesOut) (min_eq_left h.traffic.upstreamBytesOut)
      (min_eq_left h.traffic.upstreamBytesIn) (min_eq_left h.traffic.cacheSavedBytes))

/-! ## The deltas of a batch -/

/-- What the entries of an hour add. -/
def batchDeltas (hour : ℕ) (entries : List QueryPersistenceEntry) :
    List (HourlyStatKey × StatDelta) :=
  (entries.filter (·.persistStatistics)).flatMap (entryDeltas hour)

/-- No column of a row is saturated. -/
def Unsaturated (hour : ℕ) (entries : List QueryPersistenceEntry) : Prop :=
  ∀ key, (sumOver (key = ·) (batchDeltas hour entries)).Fits

section
variable {hour : ℕ} {entries : List QueryPersistenceEntry}

theorem batchDeltas_append (hour : ℕ) (entries entries' : List QueryPersistenceEntry) :
    batchDeltas hour (entries ++ entries') =
      batchDeltas hour entries ++ batchDeltas hour entries' := by
  rw [batchDeltas, List.filter_append, List.flatMap_append]
  rfl

theorem batchDeltas_flatMap {α : Type} (hour : ℕ) (f : α → List QueryPersistenceEntry)
    (batches : List α) :
    batchDeltas hour (batches.flatMap f) = batches.flatMap fun batch => batchDeltas hour (f batch) := by
  induction batches with
  | nil => rfl
  | cons batch batches ih => rw [List.flatMap_cons, batchDeltas_append, ih, List.flatMap_cons]

theorem foldl_addStatDelta {deltas : List (HourlyStatKey × StatDelta)}
    {stats : Table HourlyStatKey StatDelta}
    (h : ∀ key, ((stats.lookup key).getD 0 + sumOver (key = ·) deltas).Fits) :
    deltas.foldl (fun stats delta => addStatDelta stats delta.1 delta.2) stats =
      deltas.foldl (fun stats delta => stats.upsert (· + ·) delta.1 delta.2) stats := by
  induction deltas generalizing stats with
  | nil => rfl
  | cons delta deltas ih =>
    have hrow := h delta.1
    rw [sumOver_cons, if_pos (decide_eq_true rfl), ← add_assoc] at hrow
    have hadd : addStatDelta stats delta.1 delta.2 = stats.upsert (· + ·) delta.1 delta.2 := by
      have hsum : ((stats.lookup delta.1).getD {}).saturatingAdd delta.2 = _ :=
        hrow.left.saturatingAdd
      rw [addStatDelta, hsum, Table.upsert]
      cases stats.lookup delta.1 with
      | none => exact congrArg (stats.insert delta.1) (zero_add _)
      | some row => rfl
    rw [List.foldl_cons, List.foldl_cons, hadd]
    refine ih fun key => ?_
    have hkey := h key
    rw [lookup_upsert_add]
    rw [sumOver_cons] at hkey
    by_cases heq : delta.1 = key
    · rw [if_pos heq]
      rw [if_pos (decide_eq_true heq.symm), ← add_assoc] at hkey
      cases hlookup : stats.lookup key with
      | none =>
        rw [hlookup, Option.getD_none, zero_add] at hkey
        exact hkey
      | some row =>
        rw [hlookup] at hkey
        exact hkey
    · rw [if_neg heq, addRows_none]
      rwa [if_neg fun hk => heq (of_decide_eq_true hk).symm, zero_add] at hkey

theorem aggregateHourlyStats_eq {timestamp : ℕ} (h : Unsaturated (timestamp / 3600) entries) :
    aggregateHourlyStats entries timestamp = collect (batchDeltas (timestamp / 3600) entries) := by
  refine foldl_addStatDelta fun key => ?_
  rw [AList.lookup_empty, Option.getD_none, zero_add]
  exact h key

/-! ## Batches -/

theorem StatDelta.Fits.of_mem_sum {delta : StatDelta} {deltas : List StatDelta}
    (h : deltas.sum.Fits) (hmem : delta ∈ deltas) : delta.Fits := by
  induction deltas with
  | nil => cases hmem
  | cons first deltas ih =>
    rw [List.sum_cons] at h
    rcases List.mem_cons.1 hmem with rfl | hmem
    · exact h.left
    · exact ih h.right hmem

/-- **The rows of the batches of an hour add up** to those of all its entries. -/
theorem lookup_aggregateHourlyStats {batches : List (ℕ × List QueryPersistenceEntry)}
    {timestamp : ℕ} (hbatches : ∀ batch ∈ batches, batch.1 / 3600 = hour)
    (htimestamp : timestamp / 3600 = hour) (h : Unsaturated hour (batches.flatMap (·.2)))
    (key : HourlyStatKey) :
    (aggregateHourlyStats (batches.flatMap (·.2)) timestamp).lookup key =
      (batches.map fun batch => (aggregateHourlyStats batch.2 batch.1).lookup key).foldr
        addRows none := by
  have hbatch : ∀ batch ∈ batches, Unsaturated hour batch.2 := by
    intro batch hmem key
    have hsum := h key
    rw [batchDeltas_flatMap, sumOver_flatMap] at hsum
    exact hsum.of_mem_sum (List.mem_map_of_mem (f := fun batch =>
      sumOver (key = ·) (batchDeltas hour batch.2)) hmem)
  rw [aggregateHourlyStats_eq (htimestamp ▸ h), lookup_collect, htimestamp, batchDeltas_flatMap,
    sumOf_flatMap]
  congr 1
  refine List.map_congr_left fun batch hmem => ?_
  have hhour := hbatches batch hmem
  rw [aggregateHourlyStats_eq (hhour ▸ hbatch batch hmem), lookup_collect, hhour]

/-! ## The deltas of an entry -/

theorem sumOver_eq_zero {p : HourlyStatKey → Bool} {deltas : List (HourlyStatKey × StatDelta)}
    (h : ∀ delta ∈ deltas, p delta.1 = false) : sumOver p deltas = 0 := by
  rw [sumOver, List.filter_eq_nil_iff.2 fun delta hdelta hp => ?_]
  · rfl
  · rw [h delta hdelta] at hp
    cases hp

/-- The row of the totals of an hour. -/
def totalKey (hour : ℕ) : HourlyStatKey := ⟨hour, .total, []⟩

/-- What an entry adds to its domain. -/
def domainDelta (persisted : QueryPersistenceEntry) : StatDelta where
  queries := 1
  blocked := persisted.entry.blocked.toNat
  traffic := persisted.entry.traffic

theorem rankingDeltas_eq (hour : ℕ) (persisted : QueryPersistenceEntry) :
    ∃ others source, (∀ delta ∈ others, delta.1.dimension = .client ∨ delta.1.dimension = .upstream) ∧
      rankingDeltas hour persisted =
        (⟨hour, .domain, persisted.entry.domain⟩, domainDelta persisted) :: (others ++
          if persisted.entry.blocked then [(⟨hour, .blocklist, source⟩, { blocked := 1 })]
          else []) := by
  refine ⟨_, _, ?_, rfl⟩
  intro delta hdelta
  rcases List.mem_append.1 hdelta with hdelta | hdelta
  · split at hdelta
    · split_ifs at hdelta
      · cases hdelta
      · exact .inl (congrArg (·.1.dimension) (List.mem_singleton.1 hdelta))
    · cases hdelta
  · split at hdelta
    · split_ifs at hdelta
      · exact .inr (congrArg (·.1.dimension) (List.mem_singleton.1 hdelta))
      · cases hdelta
    · cases hdelta

section
variable (hour : ℕ) (persisted : QueryPersistenceEntry)

theorem dimension_ne_total {delta : HourlyStatKey × StatDelta}
    (h : delta ∈ rankingDeltas hour persisted) : delta.1.dimension ≠ .total := by
  obtain ⟨others, source, hothers, hrankings⟩ := rankingDeltas_eq hour persisted
  intro hdim
  rw [hrankings] at h
  rcases List.mem_cons.1 h with rfl | h
  · cases hdim
  rcases List.mem_append.1 h with h | h
  · rcases hothers _ h with hdim' | hdim' <;> cases hdim.symm.trans hdim'
  · split_ifs at h
    · rw [List.mem_singleton.1 h] at hdim
      cases hdim
    · cases h

theorem sumOver_total :
    sumOver (totalKey hour = ·) (entryDeltas hour persisted) = (totalDelta hour persisted).2 := by
  have hrankings : sumOver (totalKey hour = ·)
      (if persisted.trafficOnly then [] else rankingDeltas hour persisted) = 0 := by
    refine sumOver_eq_zero fun delta hdelta => decide_eq_false fun hkey => ?_
    split_ifs at hdelta
    · cases hdelta
    · exact dimension_ne_total hour persisted hdelta (hkey ▸ rfl)
  have hkey : totalKey hour = (totalDelta hour persisted).1 := rfl
  rw [entryDeltas, sumOver_cons, if_pos (decide_eq_true hkey), hrankings, add_zero]

theorem sumOver_dimension {dimension : Dimension} (hdimension : dimension ≠ .total) :
    sumOver (·.dimension = dimension) (entryDeltas hour persisted) =
      if persisted.trafficOnly then 0
      else sumOver (·.dimension = dimension) (rankingDeltas hour persisted) := by
  have htotal : ¬ (totalDelta hour persisted).1.dimension = dimension := fun heq =>
    hdimension heq.symm
  rw [entryDeltas, sumOver_cons, if_neg fun h => htotal (of_decide_eq_true h), zero_add]
  split_ifs <;> rfl

theorem sumOver_domain :
    sumOver (·.dimension = .domain) (rankingDeltas hour persisted) = domainDelta persisted := by
  obtain ⟨others, source, hothers, hrankings⟩ := rankingDeltas_eq hour persisted
  rw [hrankings, sumOver_cons, if_pos (decide_eq_true rfl), sumOver_eq_zero, add_zero]
  intro delta hdelta
  refine decide_eq_false fun hdim => ?_
  rcases List.mem_append.1 hdelta with hdelta | hdelta
  · rcases hothers _ hdelta with hdim' | hdim' <;> cases hdim.symm.trans hdim'
  · split_ifs at hdelta
    · rw [List.mem_singleton.1 hdelta] at hdim
      cases hdim
    · cases hdelta

theorem sumOver_blocklist :
    sumOver (·.dimension = .blocklist) (rankingDeltas hour persisted) =
      { blocked := persisted.entry.blocked.toNat } := by
  obtain ⟨others, source, hothers, hrankings⟩ := rankingDeltas_eq hour persisted
  have hdomain : ¬ decide (Dimension.domain = Dimension.blocklist) = true := by decide
  rw [hrankings, sumOver_cons, if_neg hdomain, zero_add, sumOver_append, sumOver_eq_zero, zero_add]
  · cases persisted.entry.blocked with
    | true => rfl
    | false => rfl
  · intro delta hdelta
    refine decide_eq_false fun hdim => ?_
    rcases hothers _ hdelta with hdim' | hdim' <;> cases hdim.symm.trans hdim'

end

/-! ## Balances -/

theorem column_batchDeltas {M : Type} [AddMonoid M] (column : StatDelta → M) (h0 : column 0 = 0)
    (ha : ∀ a b, column (a + b) = column a + column b) {p : HourlyStatKey → Bool}
    {amount : QueryPersistenceEntry → M}
    (hentry : ∀ persisted, column (sumOver p (entryDeltas hour persisted)) = amount persisted) :
    column (sumOver p (batchDeltas hour entries)) =
      ((entries.filter (·.persistStatistics)).map amount).sum := by
  rw [batchDeltas, sumOver_flatMap, column_sum column h0 ha, List.map_map]
  congr 1
  exact List.map_congr_left fun persisted _ => hentry persisted

/-- **The totals balance**: the queries and the blocked ones of the domains, the blocked ones of
    the blocklists, and the bytes of all entries. -/
theorem totals_balance {timestamp : ℕ} (h : Unsaturated (timestamp / 3600) entries) :
    let stats := aggregateHourlyStats entries timestamp
    let total := stats.amount id (totalKey (timestamp / 3600))
    total.queries = (sumWhere (·.dimension = .domain) stats.entries).queries ∧
      total.blocked = (sumWhere (·.dimension = .domain) stats.entries).blocked ∧
      total.blocked = (sumWhere (·.dimension = .blocklist) stats.entries).blocked ∧
      total.traffic = ((entries.filter (·.persistStatistics)).map (·.entry.traffic)).sum := by
  have htotal : (aggregateHourlyStats entries timestamp).amount id (totalKey (timestamp / 3600)) =
      sumOver (totalKey (timestamp / 3600) = ·) (batchDeltas (timestamp / 3600) entries) := by
    rw [aggregateHourlyStats_eq h, amount_collect]
  have hsum : ∀ p, sumWhere p (aggregateHourlyStats entries timestamp).entries =
      sumOver p (batchDeltas (timestamp / 3600) entries) := by
    intro p
    rw [aggregateHourlyStats_eq h, sumWhere, sum_collect]
  have hdomains : ∀ persisted : QueryPersistenceEntry,
      sumOver (·.dimension = .domain) (entryDeltas (timestamp / 3600) persisted) =
        if persisted.trafficOnly then 0 else domainDelta persisted := fun persisted => by
    rw [sumOver_dimension _ _ (by decide), sumOver_domain]
  have hblocklists : ∀ persisted : QueryPersistenceEntry,
      sumOver (·.dimension = .blocklist) (entryDeltas (timestamp / 3600) persisted) =
        if persisted.trafficOnly then 0 else { blocked := persisted.entry.blocked.toNat } :=
    fun persisted => by rw [sumOver_dimension _ _ (by decide), sumOver_blocklist]
  dsimp only
  rw [htotal, hsum, hsum]
  have hqueries : ∀ p, (∀ persisted : QueryPersistenceEntry,
      (sumOver p (entryDeltas (timestamp / 3600) persisted)).queries =
        (!persisted.trafficOnly).toNat) →
      (sumOver p (batchDeltas (timestamp / 3600) entries)).queries =
        ((entries.filter (·.persistStatistics)).map fun persisted =>
          (!persisted.trafficOnly).toNat).sum :=
    fun p hp => column_batchDeltas (·.queries) rfl (fun _ _ => rfl) hp
  have hblocked : ∀ p, (∀ persisted : QueryPersistenceEntry,
      (sumOver p (entryDeltas (timestamp / 3600) persisted)).blocked =
        (persisted.entry.blocked && !persisted.trafficOnly).toNat) →
      (sumOver p (batchDeltas (timestamp / 3600) entries)).blocked =
        ((entries.filter (·.persistStatistics)).map fun persisted =>
          (persisted.entry.blocked && !persisted.trafficOnly).toNat).sum :=
    fun p hp => column_batchDeltas (·.blocked) rfl (fun _ _ => rfl) hp
  have htotalBlocked := hblocked (totalKey (timestamp / 3600) = ·) fun persisted => by
    rw [sumOver_total]
    rfl
  refine ⟨?_, ?_, ?_, ?_⟩
  · rw [hqueries _ fun persisted => by rw [sumOver_total]; rfl, hqueries _ fun persisted => ?_]
    rw [hdomains]
    cases persisted.trafficOnly <;> rfl
  · rw [htotalBlocked, hblocked _ fun persisted => ?_]
    rw [hdomains]
    cases persisted.trafficOnly with
    | true => rw [Bool.not_true, Bool.and_false]; rfl
    | false => rw [Bool.not_false, Bool.and_true]; rfl
  · rw [htotalBlocked, hblocked _ fun persisted => ?_]
    rw [hblocklists]
    cases persisted.trafficOnly with
    | true => rw [Bool.not_true, Bool.and_false]; rfl
    | false => rw [Bool.not_false, Bool.and_true]; rfl
  · exact column_batchDeltas (·.traffic) rfl (fun _ _ => rfl) fun persisted => by
      rw [sumOver_total]
      rfl

/-! ## Entries of the background -/

/-- The entries that stand for a query of a client. -/
def counted (entries : List QueryPersistenceEntry) : List QueryPersistenceEntry :=
  entries.filter (!·.trafficOnly)

theorem sumOf_eq_none {key : HourlyStatKey} {deltas : List (HourlyStatKey × StatDelta)}
    (h : ∀ delta ∈ deltas, delta.1 ≠ key) : sumOf key deltas = none := by
  induction deltas with
  | nil => rfl
  | cons delta deltas ih =>
    obtain ⟨hfirst, hrest⟩ := List.forall_mem_cons.1 h
    rw [sumOf_cons, if_neg hfirst, ih hrest]

theorem sumOf_background {persisted : QueryPersistenceEntry} (h : persisted.trafficOnly)
    {key : HourlyStatKey} (hkey : key ≠ totalKey hour) :
    sumOf key (entryDeltas hour persisted) = none := by
  refine sumOf_eq_none fun delta hdelta => ?_
  rw [entryDeltas, if_pos h, List.mem_singleton] at hdelta
  rw [hdelta]
  exact hkey.symm

theorem withoutTraffic_background {persisted : QueryPersistenceEntry} (h : persisted.trafficOnly)
    (p : HourlyStatKey → Bool) : (sumOver p (entryDeltas hour persisted)).withoutTraffic = 0 := by
  have htotal : (totalDelta hour persisted).2.withoutTraffic = 0 := by
    simp only [totalDelta, h, Bool.not_true, Bool.and_false, Bool.toNat_false]
    rfl
  rw [entryDeltas, if_pos h, sumOver_cons]
  split_ifs
  · exact (congrArg StatDelta.withoutTraffic (add_zero _)).trans htotal
  · rfl

theorem batchDeltas_counted {P : List (HourlyStatKey × StatDelta) →
    List (HourlyStatKey × StatDelta) → Prop} (hrefl : ∀ deltas, P deltas deltas)
    (hbackground : ∀ persisted : QueryPersistenceEntry, persisted.trafficOnly →
      P (entryDeltas hour persisted) [])
    (happend : ∀ a a' b b', P a a' → P b b' → P (a ++ b) (a' ++ b')) :
    P (batchDeltas hour entries) (batchDeltas hour (counted entries)) := by
  induction entries with
  | nil => exact hrefl _
  | cons persisted entries ih =>
    have hfirst : P (batchDeltas hour [persisted]) (batchDeltas hour (counted [persisted])) := by
      by_cases hpersist : persisted.persistStatistics
      · by_cases honly : persisted.trafficOnly
        · have hcounted : counted [persisted] = [] := by simp [counted, honly]
          have hdeltas : batchDeltas hour [persisted] = entryDeltas hour persisted := by
            simp [batchDeltas, hpersist]
          rw [hcounted, hdeltas]
          exact hbackground persisted honly
        · have hcounted : counted [persisted] = [persisted] := by simp [counted, honly]
          rw [hcounted]
          exact hrefl _
      · have hnil : ∀ l : List QueryPersistenceEntry, (∀ e ∈ l, e = persisted) →
            batchDeltas hour l = [] := fun l hl => by
          rw [batchDeltas, List.filter_eq_nil_iff.2 fun e he => hl e he ▸ hpersist]
          rfl
        rw [hnil [persisted] fun e he => List.mem_singleton.1 he,
          hnil (counted [persisted]) fun e he => List.mem_singleton.1 (List.mem_filter.1 he).1]
        exact hrefl _
    have hsplit := happend _ _ _ _ hfirst ih
    rw [← batchDeltas_append, ← batchDeltas_append, counted, counted, ← List.filter_append] at hsplit
    exact hsplit

theorem sumOf_counted {key : HourlyStatKey} (hkey : key ≠ totalKey hour) :
    sumOf key (batchDeltas hour entries) = sumOf key (batchDeltas hour (counted entries)) :=
  batchDeltas_counted (P := fun a b => sumOf key a = sumOf key b) (fun _ => rfl)
    (fun _ honly => sumOf_background honly hkey) fun a a' b b' ha hb => by
      rw [sumOf_append, sumOf_append, ha, hb]

theorem withoutTraffic_counted (p : HourlyStatKey → Bool) :
    (sumOver p (batchDeltas hour entries)).withoutTraffic =
      (sumOver p (batchDeltas hour (counted entries))).withoutTraffic := by
  have hadd : ∀ a b : StatDelta, (a + b).withoutTraffic = a.withoutTraffic + b.withoutTraffic :=
    fun _ _ => rfl
  refine batchDeltas_counted
    (P := fun a b => (sumOver p a).withoutTraffic = (sumOver p b).withoutTraffic) (fun _ => rfl)
    (fun _ honly => withoutTraffic_background honly p) fun a a' b b' ha hb => ?_
  rw [sumOver_append, sumOver_append, hadd, hadd, ha, hb]

theorem Unsaturated.counted (h : Unsaturated hour entries) :
    Unsaturated hour (counted entries) := by
  intro key
  obtain ⟨rest, hrest⟩ : ∃ rest, sumOver (key = ·) (batchDeltas hour entries) =
      sumOver (key = ·) (batchDeltas hour (Database.counted entries)) + rest := by
    refine batchDeltas_counted (P := fun a b => ∃ rest, sumOver (key = ·) a =
      sumOver (key = ·) b + rest) (fun _ => ⟨0, (add_zero _).symm⟩)
      (fun _ _ => ⟨_, (zero_add _).symm⟩) ?_
    rintro a a' b b' ⟨rest, ha⟩ ⟨rest', hb⟩
    exact ⟨rest + rest', by rw [sumOver_append, sumOver_append, ha, hb, add_add_add_comm]⟩
  exact (hrest ▸ h key).left

/-- **An entry of the background changes the bytes of the totals only.** -/
theorem trafficOnly_total {timestamp : ℕ} (h : Unsaturated (timestamp / 3600) entries) :
    (∀ key ≠ totalKey (timestamp / 3600),
      (aggregateHourlyStats entries timestamp).lookup key =
        (aggregateHourlyStats (counted entries) timestamp).lookup key) ∧
      ∀ key, ((aggregateHourlyStats entries timestamp).amount id key).withoutTraffic =
        ((aggregateHourlyStats (counted entries) timestamp).amount id key).withoutTraffic := by
  rw [aggregateHourlyStats_eq h, aggregateHourlyStats_eq h.counted]
  constructor
  · intro key hkey
    rw [lookup_collect, lookup_collect, sumOf_counted hkey]
  · intro key
    rw [amount_collect, amount_collect, withoutTraffic_counted]

/-! ## The sums of an hour -/

/-- **The sums of a batch are a homomorphism**, with totals that balance. -/
theorem aggregateHourlyStats_hom {batches : List (ℕ × List QueryPersistenceEntry)}
    {timestamp : ℕ} (hbatches : ∀ batch ∈ batches, batch.1 / 3600 = timestamp / 3600)
    (h : Unsaturated (timestamp / 3600) (batches.flatMap (·.2))) :
    let entries := batches.flatMap (·.2)
    let stats := aggregateHourlyStats entries timestamp
    let total := stats.amount id (totalKey (timestamp / 3600))
    (∀ key, stats.lookup key =
      (batches.map fun batch => (aggregateHourlyStats batch.2 batch.1).lookup key).foldr
        addRows none) ∧
      (total.queries = (sumWhere (·.dimension = .domain) stats.entries).queries ∧
        total.blocked = (sumWhere (·.dimension = .domain) stats.entries).blocked ∧
        total.blocked = (sumWhere (·.dimension = .blocklist) stats.entries).blocked ∧
        total.traffic = ((entries.filter (·.persistStatistics)).map (·.entry.traffic)).sum) ∧
      (∀ key ≠ totalKey (timestamp / 3600), stats.lookup key =
        (aggregateHourlyStats (counted entries) timestamp).lookup key) ∧
      ∀ key, (stats.amount id key).withoutTraffic =
        ((aggregateHourlyStats (counted entries) timestamp).amount id key).withoutTraffic :=
  ⟨lookup_aggregateHourlyStats hbatches rfl h, totals_balance h, trafficOnly_total h⟩

theorem unsaturated_of_sum (h : ((batchDeltas hour entries).map Prod.snd).sum.Fits) :
    Unsaturated hour entries := by
  intro key
  rw [← sumOver_add_not (key = ·)] at h
  exact h.left

/-- A query that is blocked, and a refresh of the cache. -/
def sampleBatches : List (ℕ × List QueryPersistenceEntry) :=
  let blocked : QueryLogEntry :=
    { domain := "ads.example".toList, queryType := 1, queryClass := 1, transport := "udp".toList,
      responseSource := "blocked".toList, clientIp := some "10.0.0.7".toList, blocked := true,
      forwarded := false, failed := false, upstreamServer := none, upstreamDurationMs := none,
      error := none, matchedRule := none, ruleSource := some "list".toList, ruleType := none,
      importantOverrode := false, allowlistRule := none,
      traffic := { clientBytesIn := 40, clientBytesOut := 56 } }
  let refreshed : QueryLogEntry :=
    { blocked with
      domain := "cached.example".toList, clientIp := none, blocked := false, forwarded := true,
      ruleSource := none, traffic := { upstreamBytesOut := 40, upstreamBytesIn := 72 } }
  [(7200, [⟨blocked, true, true, true, false⟩]), (7260, [⟨refreshed, false, false, true, true⟩])]

theorem aggregateHourlyStats_hom_sample :
    (sampleBatches.flatMap (·.2)).length = 2 ∧
      (aggregateHourlyStats (sampleBatches.flatMap (·.2)) 7260).amount id (totalKey 2) =
        { queries := 1
          blocked := 1
          traffic :=
            { clientBytesIn := 40, clientBytesOut := 56, upstreamBytesOut := 40,
              upstreamBytesIn := 72 } } ∧
      ∀ key, (aggregateHourlyStats (sampleBatches.flatMap (·.2)) 7260).lookup key =
        (sampleBatches.map fun batch => (aggregateHourlyStats batch.2 batch.1).lookup key).foldr
          addRows none := by
  have hfits : ((batchDeltas 2 (sampleBatches.flatMap (·.2))).map Prod.snd).sum.Fits := by
    refine ⟨?_, ?_, ?_, ?_, ?_, ?_, ?_, ?_, ?_, ?_, ?_, ?_⟩ <;> decide +kernel
  exact ⟨rfl, by decide +kernel, (aggregateHourlyStats_hom (by decide) (unsaturated_of_sum hfits)).1⟩

end

end DnsBlackhole.Database
