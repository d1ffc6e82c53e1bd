/-
  Tables with a primary key, and the queries over them.

  A `Table` is a list of rows with different keys; the order of the rows means
  nothing.

  * `upsert` inserts a row, or merges it into the row with its key, and
    `deleteWhere` deletes the rows whose key meets a condition;
  * `amount` is what the row with a key measures, to which an `upsert` adds
    (`amount_upsert`);
  * `groupBy` puts the rows with the same value of `key` into one group;
  * `ranked` sorts by a rank, and by the name where the ranks are equal: the
    result is the same for every order of the rows (`ranked_perm`).
-/
import Mathlib.Algebra.Group.Defs
import Mathlib.Data.List.AList
import Mathlib.Data.List.Dedup
import Mathlib.Data.List.Sort
import Mathlib.Data.Prod.Lex

namespace DnsBlackhole.Lib

variable {κ α ν ρ : Type*}

/-- A row of a table: its key and its other columns. -/
abbrev Row (κ α : Type*) := Σ _ : κ, α

abbrev Table (κ α : Type*) := AList fun _ : κ => α

namespace Table
variable (t : Table κ α)

/-- Delete the rows whose key meets the condition. -/
def deleteWhere (p : κ → Bool) : Table κ α :=
  ⟨t.entries.filter fun row => !p row.1, t.nodupKeys.sublist List.filter_sublist⟩

/-! ## Tables that agree on some keys -/

/-- The same rows, in the same order, under the keys that meet the condition. -/
def SameOn (p : κ → Bool) (t t' : Table κ α) : Prop :=
  (t.entries.filter fun row => p row.1) = t'.entries.filter fun row => p row.1

section
variable {t t' : Table κ α} {p : κ → Bool}

theorem SameOn.mono {q : κ → Bool} (h : SameOn p t t') (hq : ∀ k, q k → p k) : SameOn q t t' := by
  have hsub : ∀ t : Table κ α, (t.entries.filter fun row => q row.1) =
      (t.entries.filter fun row => p row.1).filter fun row => q row.1 := fun t => by
    rw [List.filter_filter]
    refine List.filter_congr fun row _ => ?_
    cases hrow : q row.1
    · rfl
    · rw [hq _ hrow, Bool.and_self]
  rw [SameOn, hsub t, hsub t', h]

theorem SameOn.deleteWhere (h : SameOn p t t') (q : κ → Bool) :
    SameOn p (t.deleteWhere q) (t'.deleteWhere q) := by
  have hcomm : ∀ t : Table κ α, ((t.deleteWhere q).entries.filter fun row => p row.1) =
      (t.entries.filter fun row => p row.1).filter fun row => !q row.1 := fun t => by
    rw [Table.deleteWhere, List.filter_filter, List.filter_filter]
    exact List.filter_congr fun row _ => Bool.and_comm ..
  rw [SameOn, hcomm t, hcomm t', h]

end

variable [DecidableEq κ]

/-- Insert a row, or merge its columns into those of the row with its key. -/
def upsert (merge : α → α → α) (k : κ) (a : α) : Table κ α :=
  t.insert k (match t.lookup k with
    | some b => merge b a
    | none => a)

theorem lookup_upsert (merge : α → α → α) (k k' : κ) (a : α) :
    (t.upsert merge k a).lookup k' = if k' = k then some (match t.lookup k with
      | some b => merge b a
      | none => a) else t.lookup k' := by
  unfold upsert
  split_ifs with h
  · rw [h, AList.lookup_insert]
  · exact AList.lookup_insert_ne h

theorem mem_entries_iff {k : κ} {a : α} : (⟨k, a⟩ : Row κ α) ∈ t.entries ↔ t.lookup k = some a :=
  AList.mem_lookup_iff.symm

theorem lookup_deleteWhere (p : κ → Bool) (k : κ) :
    (t.deleteWhere p).lookup k = if p k then none else t.lookup k := by
  refine Option.ext fun a => ?_
  rw [← mem_entries_iff, deleteWhere, List.mem_filter, mem_entries_iff]
  split_ifs with h
  · simp [h]
  · simp [h]

section
variable {t t' : Table κ α} {p : κ → Bool}

theorem SameOn.lookup_eq (h : SameOn p t t') {k : κ} (hk : p k) : t.lookup k = t'.lookup k := by
  refine Option.ext fun a => ?_
  have hmem : ∀ t : Table κ α, (⟨k, a⟩ : Row κ α) ∈ t.entries.filter (fun row => p row.1) ↔
      t.lookup k = some a := fun t => by
    rw [List.mem_filter, mem_entries_iff, and_iff_left hk]
  rw [← hmem t, ← hmem t', h]

theorem filter_insert (t : Table κ α) (p : κ → Bool) (k : κ) (a : α) :
    ((t.insert k a).entries.filter fun row => p row.1) =
      if p k then ⟨k, a⟩ :: (t.entries.filter fun row => p row.1).kerase k
      else t.entries.filter fun row => p row.1 := by
  rw [AList.entries_insert, List.filter_cons]
  split_ifs with hk
  · rw [List.kerase, List.eraseP_filter]
    refine congrArg _ (congrArg _ (congrArg (List.eraseP · _) (funext fun row => ?_)))
    by_cases hrow : k = row.1
    · rw [← hrow, hk, Bool.and_true]
    · rw [decide_eq_false hrow, Bool.false_and]
  · -- the row that is replaced does not meet the condition
    induction t.entries with
    | nil => rfl
    | cons row rows ih =>
      by_cases hrow : k = row.1
      · rw [List.kerase_cons_eq hrow, List.filter_cons_of_neg (hrow ▸ hk)]
      · rw [List.kerase_cons_ne hrow, List.filter_cons, List.filter_cons, ih]

theorem SameOn.upsert (h : SameOn p t t') (merge : α → α → α) (k : κ) (a : α) :
    SameOn p (t.upsert merge k a) (t'.upsert merge k a) := by
  unfold SameOn Table.upsert
  rw [filter_insert, filter_insert]
  split_ifs with hk
  · rw [h, h.lookup_eq hk]
  · exact h

end

section
variable {M : Type*} (measure : α → M)

/-- What the row with a key measures; 0 if there is none. -/
def amount [Zero M] (k : κ) : M := ((t.lookup k).map measure).getD 0

variable {t measure}

theorem amount_of_lookup [Zero M] {k : κ} {a : α} (h : t.lookup k = some a) :
    t.amount measure k = measure a := by
  rw [amount, h]
  rfl

/-- **An upsert adds**, if merging two rows adds what they measure. -/
theorem amount_upsert [AddMonoid M] {merge : α → α → α}
    (hm : ∀ a b, measure (merge a b) = measure a + measure b) (k k' : κ) (a : α) :
    (t.upsert merge k a).amount measure k' =
      t.amount measure k' + if k' = k then measure a else 0 := by
  unfold amount
  rw [lookup_upsert]
  split_ifs with h
  · rw [h]
    cases t.lookup k with
    | none => exact (zero_add _).symm
    | some b => exact hm b a
  · exact (add_zero _).symm

end

end Table

/-! ## Groups -/

section
variable [DecidableEq κ] (key : α → κ)

/-- The groups of the rows with the same key. -/
def groupBy (rows : List α) : List (κ × List α) :=
  (rows.map key).dedup.map fun k => (k, rows.filter fun row => key row = k)

theorem map_fst_groupBy (rows : List α) :
    (groupBy key rows).map Prod.fst = (rows.map key).dedup := by
  rw [groupBy, List.map_map]
  exact List.map_id _

theorem nodup_groupBy (rows : List α) : ((groupBy key rows).map Prod.fst).Nodup := by
  rw [map_fst_groupBy]
  exact List.nodup_dedup _

variable {key}

theorem mem_groupBy {rows : List α} {g : κ × List α} :
    g ∈ groupBy key rows ↔ g.1 ∈ rows.map key ∧ g.2 = rows.filter fun row => key row = g.1 := by
  obtain ⟨k, group⟩ := g
  simp only [groupBy, List.mem_map, List.mem_dedup, Prod.mk.injEq]
  constructor
  · rintro ⟨k', hk, rfl, rfl⟩
    exact ⟨hk, rfl⟩
  · rintro ⟨hk, hgroup⟩
    exact ⟨k, hk, rfl, hgroup.symm⟩

end

/-! ## Rankings -/

section
variable [LinearOrder ν] [LinearOrder ρ] (rank : α → ρ)

/-- The rows by their rank, and by their name where the ranks are equal. -/
def ranked (rows : List (ν × α)) : List (ν × α) :=
  rows.insertionSort fun a b => toLex (rank a.2, a.1) ≤ toLex (rank b.2, b.1)

/-- **The order of a ranking does not depend on the order of the rows.** -/
theorem ranked_perm {rows rows' : List (ν × α)} (h : rows.Perm rows')
    (hn : (rows.map Prod.fst).Nodup) : ranked rank rows = ranked rank rows' := by
  let le : ν × α → ν × α → Prop := fun a b => toLex (rank a.2, a.1) ≤ toLex (rank b.2, b.1)
  have : Std.Total le := ⟨fun a b => le_total _ _⟩
  have : IsTrans (ν × α) le := ⟨fun a b c => le_trans⟩
  have hperm : (rows.insertionSort le).Perm (rows'.insertionSort le) :=
    (List.perm_insertionSort le rows).trans (h.trans (List.perm_insertionSort le rows').symm)
  have heq : ∀ a b, a ∈ rows.insertionSort le → b ∈ rows'.insertionSort le → le a b → le b a →
      a = b := by
    intro a b ha hb hab hba
    have hname : a.1 = b.1 := congrArg Prod.snd (toLex.injective (le_antisymm hab hba))
    exact List.inj_on_of_nodup_map hn ((List.mem_insertionSort le).1 ha)
      (h.mem_iff.2 ((List.mem_insertionSort le).1 hb)) hname
  exact hperm.eq_of_pairwise heq (List.pairwise_insertionSort le rows)
    (List.pairwise_insertionSort le rows')

end

end DnsBlackhole.Lib
