/-
  Copying rows of a table under other keys, and sums over a table.

  * `copyWhere` is `INSERT .. SELECT .. ON CONFLICT DO UPDATE`: it copies the
    rows whose key meets a condition, each under a key of its own; what is
    found afterwards is said by `lookup_copyWhere`;
  * `SameRows`: two tables with the same rows;
  * `total` is the sum over the rows whose key meets a condition
    (`total_upsert`, `total_copyWhere`, `total_deleteWhere`);
  * `insertAll` inserts rows whose keys must be new (`INSERT` without a conflict
    clause), one after the other: when it succeeds (`insertAll_ok_iff`), and what
    the sums are then (`total_insertAll`).
-/
import Mathlib.Algebra.BigOperators.Group.List.Basic
import Mathlib.Tactic.Abel
import DnsBlackhole.Lib.Table

namespace DnsBlackhole.Lib.Table

variable {κ α : Type*}

/-! ## Sums -/

section
variable {M : Type*} [AddCommMonoid M] (t : Table κ α) (measure : α → M) (p : κ → Bool)

/-- The sum over the rows whose key meets the condition. -/
def total : M := ((t.entries.filter fun row => p row.1).map fun row => measure row.2).sum

variable {t measure p}

theorem total_deleteWhere (q : κ → Bool) :
    t.total measure p = (t.deleteWhere q).total measure p +
      t.total measure fun k => p k && q k := by
  unfold total deleteWhere
  dsimp only
  induction t.entries with
  | nil => exact (add_zero _).symm
  | cons row rows ih =>
    cases hp : p row.1 <;> cases hq : q row.1 <;>
      simp only [List.filter_cons, hp, hq, Bool.not_true, Bool.not_false, Bool.and_true,
        Bool.and_false, Bool.and_self, if_true, Bool.false_eq_true, if_false, List.map_cons,
        List.sum_cons, ih] <;> abel

end

variable [DecidableEq κ]

/-! ## Tables with the same rows -/

/-- The same rows, in whatever order. -/
def SameRows (t t' : Table κ α) : Prop := ∀ k, t.lookup k = t'.lookup k

theorem SameRows.refl (t : Table κ α) : t.SameRows t := fun _ => rfl

theorem SameRows.symm {t t' : Table κ α} (h : t.SameRows t') : t'.SameRows t := fun k => (h k).symm

theorem SameRows.trans {t t' t'' : Table κ α} (h : t.SameRows t') (h' : t'.SameRows t'') :
    t.SameRows t'' := fun k => (h k).trans (h' k)

theorem SameRows.perm {t t' : Table κ α} (h : t.SameRows t') : t.entries.Perm t'.entries := by
  refine List.lookup_ext t.nodupKeys t'.nodupKeys fun k a => ?_
  have hk : t.entries.dlookup k = t'.entries.dlookup k := h k
  rw [hk]

theorem SameRows.deleteWhere {t t' : Table κ α} (h : t.SameRows t') (p : κ → Bool) :
    (t.deleteWhere p).SameRows (t'.deleteWhere p) := fun k => by
  rw [lookup_deleteWhere, lookup_deleteWhere, h k]

/-! ## Copying -/

/-- What becomes of a row and a row that is merged into it. -/
def mergeRows (merge : α → α → α) : Option α → Option α → Option α
  | none, b => b
  | some a, none => some a
  | some a, some b => some (merge a b)

section
variable (t : Table κ α) (merge : α → α → α) (f : κ → κ) (g : α → α)

theorem lookup_upsert_self (k : κ) (a : α) :
    (t.upsert merge k a).lookup k = mergeRows merge (t.lookup k) (some a) := by
  rw [lookup_upsert, if_pos rfl]
  cases t.lookup k <;> rfl

/-- Upsert the rows, each under its new key. -/
def upsertAll (rows : List (Row κ α)) : Table κ α :=
  rows.foldl (fun t row => t.upsert merge (f row.1) (g row.2)) t

/-- Copy the rows whose key meets the condition, each under its new key. -/
def copyWhere (p : κ → Bool) : Table κ α :=
  t.upsertAll merge f g (t.entries.filter fun row => p row.1)

variable {t merge f g}

theorem lookup_upsertAll_of_ne {rows : List (Row κ α)} {k : κ} (h : ∀ row ∈ rows, f row.1 ≠ k) :
    (t.upsertAll merge f g rows).lookup k = t.lookup k := by
  induction rows generalizing t with
  | nil => rfl
  | cons row rows ih =>
    have hrow : f row.1 ≠ k := h row List.mem_cons_self
    refine (ih (t := t.upsert merge (f row.1) (g row.2)) fun row' hrow' =>
      h row' (List.mem_cons_of_mem _ hrow')).trans ?_
    rw [lookup_upsert, if_neg fun heq => hrow heq.symm]

theorem lookup_upsertAll {rows : List (Row κ α)} {row : Row κ α} (hrow : row ∈ rows)
    (hn : rows.Pairwise fun a b => f a.1 ≠ f b.1) :
    (t.upsertAll merge f g rows).lookup (f row.1) =
      mergeRows merge (t.lookup (f row.1)) (some (g row.2)) := by
  induction rows generalizing t with
  | nil => cases hrow
  | cons first rows ih =>
    rw [List.pairwise_cons] at hn
    have hcons : t.upsertAll merge f g (first :: rows) =
        (t.upsert merge (f first.1) (g first.2)).upsertAll merge f g rows := rfl
    rw [hcons]
    rcases List.mem_cons.1 hrow with rfl | hrow
    · -- the later rows have other keys
      rw [lookup_upsertAll_of_ne fun other hother heq => hn.1 other hother heq.symm,
        lookup_upsert_self]
    · rw [ih hrow hn.2, lookup_upsert, if_neg fun heq => hn.1 row hrow heq.symm]

theorem lookup_copyWhere_of_ne {p : κ → Bool} {k : κ} (h : ∀ k', p k' → f k' ≠ k) :
    (t.copyWhere merge f g p).lookup k = t.lookup k :=
  lookup_upsertAll_of_ne fun row hrow => h row.1 (List.mem_filter.1 hrow).2

/-- **A copied row** is merged into the row with its new key. -/
theorem lookup_copyWhere {p : κ → Bool} (hf : ∀ a b, p a → p b → f a = f b → a = b) {k : κ}
    (hk : p k) : (t.copyWhere merge f g p).lookup (f k) =
      mergeRows merge (t.lookup (f k)) ((t.lookup k).map g) := by
  cases hrow : t.lookup k with
  | none =>
    -- no row is copied under this key
    have hne : ∀ row ∈ t.entries.filter fun row => p row.1, f row.1 ≠ f k := by
      intro row hmem heq
      obtain ⟨hmem, hp⟩ := List.mem_filter.1 hmem
      have hlookup := (t.mem_entries_iff (k := row.1) (a := row.2)).1 hmem
      rw [hf row.1 k hp hk heq, hrow] at hlookup
      cases hlookup
    rw [copyWhere, lookup_upsertAll_of_ne hne]
    cases t.lookup (f k) <;> rfl
  | some a =>
    have hmem : (⟨k, a⟩ : Row κ α) ∈ t.entries.filter fun row => p row.1 :=
      List.mem_filter.2 ⟨t.mem_entries_iff.2 hrow, hk⟩
    refine lookup_upsertAll hmem ?_
    refine (List.nodupKeys_iff_pairwise.1 t.nodupKeys).filter (fun row => p row.1) |>.imp_of_mem ?_
    intro first second hfirst hsecond hne heq
    exact hne (hf _ _ (List.mem_filter.1 hfirst).2 (List.mem_filter.1 hsecond).2 heq)

end

/-! ## What the statements do to a sum -/

section
variable {M : Type*} [AddCommMonoid M] {t : Table κ α} {measure : α → M} {p : κ → Bool}

theorem SameRows.total_eq {t' : Table κ α} (h : t.SameRows t') :
    t.total measure p = t'.total measure p :=
  ((h.perm.filter _).map _).sum_eq

theorem total_congr {t' : Table κ α} (h : ∀ k, p k → t.lookup k = t'.lookup k) :
    t.total measure p = t'.total measure p := by
  have hself : ∀ t : Table κ α, t.total measure p = (t.deleteWhere fun k => !p k).total measure p :=
    fun t => by simp only [total, deleteWhere, List.filter_filter, Bool.not_not, Bool.and_self]
  rw [hself t, hself t']
  refine SameRows.total_eq fun k => ?_
  rw [lookup_deleteWhere, lookup_deleteWhere]
  cases hp : p k
  · rfl
  · exact h k hp

theorem total_insert_of_notMem {k : κ} {a : α} (h : k ∉ t) :
    total (t.insert k a) measure p = (if p k then measure a else 0) + t.total measure p := by
  unfold total
  rw [AList.entries_insert_of_notMem h, List.filter_cons]
  split_ifs
  · rw [List.map_cons, List.sum_cons]
  · exact (zero_add _).symm

theorem total_eq_erase {k : κ} {a : α} (h : t.lookup k = some a) :
    t.total measure p = (if p k then measure a else 0) + total (t.erase k) measure p := by
  have hsame : t.SameRows ((t.erase k).insert k a) := fun k' => by
    by_cases hk : k' = k
    · rw [hk, h, AList.lookup_insert]
    · rw [AList.lookup_insert_ne hk, AList.lookup_erase_ne hk]
  rw [hsame.total_eq, total_insert_of_notMem fun h => absurd rfl (AList.mem_erase.1 h).1]

/-- **An upsert adds** to the sum, if merging two rows adds what they measure. -/
theorem total_upsert {merge : α → α → α}
    (hm : ∀ a b, measure (merge a b) = measure a + measure b) (k : κ) (a : α) :
    (t.upsert merge k a).total measure p =
      t.total measure p + if p k then measure a else 0 := by
  unfold upsert
  cases hrow : t.lookup k with
  | none =>
    rw [total_insert_of_notMem (AList.lookup_eq_none.1 hrow), add_comm]
  | some b =>
    have herase : (t.insert k (merge b a)).erase k = t.erase k := by
      refine AList.ext ?_
      change ((t.insert k (merge b a)).entries).kerase k = t.entries.kerase k
      rw [AList.entries_insert]
      exact List.kerase_cons_eq rfl
    rw [total_eq_erase (AList.lookup_insert _), total_eq_erase hrow, herase]
    split_ifs
    · rw [hm]
      abel
    · rw [add_zero]

theorem total_upsertAll {merge : α → α → α} {f : κ → κ} {g : α → α}
    (hm : ∀ a b, measure (merge a b) = measure a + measure b) (rows : List (Row κ α)) :
    (t.upsertAll merge f g rows).total measure p = t.total measure p +
      (rows.map fun row => if p (f row.1) then measure (g row.2) else 0).sum := by
  induction rows generalizing t with
  | nil => exact (add_zero _).symm
  | cons row rows ih =>
    refine (ih (t := t.upsert merge (f row.1) (g row.2))).trans ?_
    rw [total_upsert hm, List.map_cons, List.sum_cons, add_assoc]

/-- **Copying adds** what the copied rows measure. -/
theorem total_copyWhere {merge : α → α → α} {f : κ → κ} {g : α → α} {q : κ → Bool}
    (hm : ∀ a b, measure (merge a b) = measure a + measure b)
    (hg : ∀ a, measure (g a) = measure a) (hp : ∀ k, q k → p (f k) = p k) :
    (t.copyWhere merge f g q).total measure p =
      t.total measure p + t.total measure fun k => p k && q k := by
  rw [copyWhere, total_upsertAll hm]
  refine congrArg (t.total measure p + ·) ?_
  simp only [total, hg]
  induction t.entries with
  | nil => rfl
  | cons row rows ih =>
    cases hq : q row.1
    · simpa only [List.filter_cons, hq, Bool.and_false, Bool.false_eq_true, if_false] using ih
    · cases hp' : p row.1 <;>
        simp only [List.filter_cons, hq, hp', hp _ hq, Bool.and_true, if_true, Bool.false_eq_true,
          if_false, List.map_cons, List.sum_cons, ih, zero_add]

end

/-! ## Inserting -/

section
variable {ε : Type*}

/-- Insert a row, unless there is one with its key. -/
def insertNew (error : ε) (t : Table κ α) (row : Row κ α) : Except ε (Table κ α) :=
  if row.1 ∈ t then .error error else .ok (t.insert row.1 row.2)

/-- Insert rows, one after the other. -/
def insertAll (error : ε) (t : Table κ α) (rows : List (Row κ α)) : Except ε (Table κ α) :=
  rows.foldlM (insertNew error) t

section
variable {error : ε} {t t' : Table κ α} {rows : List (Row κ α)}

theorem insertAll_cons (row : Row κ α) :
    insertAll error t (row :: rows) =
      if row.1 ∈ t then .error error else insertAll error (t.insert row.1 row.2) rows := by
  rw [insertAll, List.foldlM_cons, insertNew]
  split_ifs <;> rfl

theorem insertAll_ok_iff : (∃ t', insertAll error t rows = .ok t') ↔
    (rows.map (·.1)).Nodup ∧ ∀ row ∈ rows, row.1 ∉ t := by
  induction rows generalizing t with
  | nil => exact iff_of_true ⟨t, rfl⟩ ⟨List.nodup_nil, fun row h => absurd h List.not_mem_nil⟩
  | cons row rows ih =>
    rw [insertAll_cons, List.map_cons, List.nodup_cons, List.forall_mem_cons]
    by_cases hrow : row.1 ∈ t
    · rw [if_pos hrow]
      exact iff_of_false (fun ⟨t', h⟩ => by cases h) fun h => h.2.1 hrow
    · rw [if_neg hrow, ih]
      have hmem : (∀ other ∈ rows, other.1 ∉ t.insert row.1 row.2) ↔
          row.1 ∉ rows.map (·.1) ∧ ∀ other ∈ rows, other.1 ∉ t := by
        simp only [AList.mem_insert, not_or, List.mem_map, not_exists, not_and, forall_and]
      rw [hmem]
      tauto

/-- **Inserting adds** what the rows measure. -/
theorem total_insertAll {M : Type*} [AddCommMonoid M] {measure : α → M} {p : κ → Bool}
    (h : insertAll error t rows = .ok t') :
    t'.total measure p = t.total measure p +
      ((rows.filter fun row => p row.1).map fun row => measure row.2).sum := by
  induction rows generalizing t with
  | nil =>
    cases h
    exact (add_zero _).symm
  | cons row rows ih =>
    rw [insertAll_cons] at h
    split_ifs at h with hrow
    rw [ih h, total_insert_of_notMem hrow, List.filter_cons]
    split_ifs
    · rw [List.map_cons, List.sum_cons]
      abel
    · rw [zero_add]

theorem mem_insertAll {k : κ} (h : insertAll error t rows = .ok t') :
    k ∈ t' ↔ k ∈ t ∨ ∃ row ∈ rows, row.1 = k := by
  induction rows generalizing t with
  | nil =>
    cases h
    simp
  | cons row rows ih =>
    rw [insertAll_cons] at h
    split_ifs at h with hrow
    rw [ih h, AList.mem_insert]
    simp only [List.mem_cons, exists_eq_or_imp]
    tauto

end

end

end DnsBlackhole.Lib.Table
