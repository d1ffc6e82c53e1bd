/-
  Keyed values collected in a table: the values with the same key are added up.

  * `lookup_collect`, `amount_collect`: the row of a key is the sum of its values;
  * `sumOf_append`: the rows of two lists add up to those of both;
  * `sum_collect`: the rows whose key meets a condition add up to the values with such a key.
-/
import DnsBlackhole.Lib.HashMap
import DnsBlackhole.Lib.Table

namespace DnsBlackhole.Lib

variable {κ M : Type*} [AddCommMonoid M]

/-- The table of the sums. -/
def collect [DecidableEq κ] (rows : List (κ × M)) : Table κ M :=
  rows.foldl (fun t row => t.upsert (· + ·) row.1 row.2) ∅

/-- Two rows of the same key, if there are both. -/
def addRows : Option M → Option M → Option M := Option.merge (· + ·)

/-- The row of a key. -/
def sumOf [DecidableEq κ] (k : κ) (rows : List (κ × M)) : Option M :=
  rows.foldr (fun row sum => if row.1 = k then addRows (some row.2) sum else sum) none

/-- The sum of the values whose key meets a condition. -/
def sumOver (p : κ → Bool) (rows : List (κ × M)) : M :=
  ((rows.filter fun row => p row.1).map Prod.snd).sum

section
variable (a b c : Option M)

@[simp] theorem addRows_none : addRows a none = a := Option.merge_none_right

@[simp] theorem none_addRows : addRows none a = a := Option.merge_none_left

theorem addRows_assoc : addRows (addRows a b) c = addRows a (addRows b c) := by
  cases a with
  | none => rw [none_addRows, none_addRows]
  | some a =>
    cases b with
    | none => rw [addRows_none, none_addRows]
    | some b =>
      cases c with
      | none => rw [addRows_none, addRows_none]
      | some c => exact congrArg some (add_assoc a b c)

end

/-! ## Rows -/

theorem sumOver_cons (p : κ → Bool) (row : κ × M) (rows : List (κ × M)) :
    sumOver p (row :: rows) = (if p row.1 then row.2 else 0) + sumOver p rows := by
  rw [sumOver, List.filter_cons]
  split_ifs
  · rw [List.map_cons, List.sum_cons]
    rfl
  · exact (zero_add _).symm

theorem sumOver_append (p : κ → Bool) (rows rows' : List (κ × M)) :
    sumOver p (rows ++ rows') = sumOver p rows + sumOver p rows' := by
  rw [sumOver, List.filter_append, List.map_append, List.sum_append]
  rfl

theorem sumOver_flatMap {α : Type*} (p : κ → Bool) (f : α → List (κ × M)) (l : List α) :
    sumOver p (l.flatMap f) = (l.map fun a => sumOver p (f a)).sum := by
  induction l with
  | nil => rfl
  | cons a l ih => rw [List.flatMap_cons, sumOver_append, ih, List.map_cons, List.sum_cons]

/-- The values that meet a condition, and those that do not. -/
theorem sumOver_add_not (p : κ → Bool) (rows : List (κ × M)) :
    sumOver p rows + sumOver (fun k => !p k) rows = (rows.map Prod.snd).sum := by
  induction rows with
  | nil => exact add_zero 0
  | cons row rows ih =>
    rw [sumOver_cons, sumOver_cons, add_add_add_comm, ih, List.map_cons, List.sum_cons]
    congr 1
    cases p row.1 with
    | true => exact add_zero row.2
    | false => exact zero_add row.2

section
variable [DecidableEq κ]

theorem sumOf_cons (k : κ) (row : κ × M) (rows : List (κ × M)) :
    sumOf k (row :: rows) =
      if row.1 = k then addRows (some row.2) (sumOf k rows) else sumOf k rows := rfl

theorem sumOf_append (k : κ) (rows rows' : List (κ × M)) :
    sumOf k (rows ++ rows') = addRows (sumOf k rows) (sumOf k rows') := by
  induction rows with
  | nil => exact (none_addRows _).symm
  | cons row rows ih =>
    rw [List.cons_append, sumOf_cons, sumOf_cons, ih]
    split_ifs
    · rw [addRows_assoc]
    · rfl

theorem sumOf_flatMap {α : Type*} (k : κ) (f : α → List (κ × M)) (l : List α) :
    sumOf k (l.flatMap f) = (l.map fun a => sumOf k (f a)).foldr addRows none := by
  induction l with
  | nil => rfl
  | cons a l ih => rw [List.flatMap_cons, sumOf_append, ih, List.map_cons, List.foldr_cons]

theorem sumOver_eq (k : κ) (rows : List (κ × M)) :
    sumOver (k = ·) rows = (sumOf k rows).getD 0 := by
  induction rows with
  | nil => rfl
  | cons row rows ih =>
    rw [sumOver_cons, sumOf_cons, ih]
    by_cases hrow : row.1 = k
    · rw [if_pos hrow, if_pos (decide_eq_true hrow.symm)]
      cases sumOf k rows with
      | none => exact add_zero row.2
      | some sum => rfl
    · rw [if_neg hrow, if_neg fun heq => hrow (of_decide_eq_true heq).symm, zero_add]

/-! ## The table -/

theorem lookup_upsert_add (t : Table κ M) (k k' : κ) (a : M) :
    (t.upsert (· + ·) k a).lookup k' =
      addRows (t.lookup k') (if k = k' then some a else none) := by
  rw [Table.lookup_upsert]
  by_cases hk : k' = k
  · rw [if_pos hk, if_pos hk.symm, hk]
    cases t.lookup k <;> rfl
  · rw [if_neg hk, if_neg fun heq => hk heq.symm, addRows_none]

theorem lookup_collect (rows : List (κ × M)) (k : κ) : (collect rows).lookup k = sumOf k rows := by
  have hfrom : ∀ t : Table κ M,
      (rows.foldl (fun t row => t.upsert (· + ·) row.1 row.2) t).lookup k =
        addRows (t.lookup k) (sumOf k rows) := by
    induction rows with
    | nil => exact fun t => (addRows_none _).symm
    | cons row rows ih =>
      intro t
      rw [List.foldl_cons, ih, lookup_upsert_add, addRows_assoc, sumOf_cons]
      split_ifs
      · rfl
      · rw [none_addRows]
  rw [collect, hfrom, AList.lookup_empty, none_addRows]

theorem amount_collect (rows : List (κ × M)) (k : κ) :
    (collect rows).amount id k = sumOver (k = ·) rows := by
  rw [Table.amount, lookup_collect, sumOver_eq, Option.map_id, id]

theorem sum_upsert (t : Table κ M) (p : κ → Bool) (k : κ) (a : M) :
    (((t.upsert (· + ·) k a).entries.filter fun row => p row.1).map (·.2)).sum =
      ((t.entries.filter fun row => p row.1).map (·.2)).sum + if p k then a else 0 := by
  rw [Table.upsert, AList.entries_insert, List.filter_cons]
  cases hlookup : t.lookup k with
  | none =>
    have herase : t.entries.kerase k = t.entries :=
      List.kerase_of_notMem_keys fun hmem => AList.lookup_eq_none.1 hlookup hmem
    rw [herase]
    split_ifs
    · rw [List.map_cons, List.sum_cons, add_comm]
    · rw [add_zero]
  | some b =>
    have hperm := ((HashMap.entries_perm_erase hlookup).filter fun row => p row.1).map (·.2)
    rw [hperm.sum_eq, List.filter_cons]
    change _ = (List.map _ (if p k then _ else _)).sum + _
    split_ifs
    · rw [List.map_cons, List.sum_cons, List.map_cons, List.sum_cons]
      change (b + a) + _ = (b + _) + a
      rw [add_right_comm]
      rfl
    · rw [add_zero]
      rfl

theorem sum_collect (p : κ → Bool) (rows : List (κ × M)) :
    (((collect rows).entries.filter fun row => p row.1).map (·.2)).sum = sumOver p rows := by
  have hfrom : ∀ t : Table κ M,
      (((rows.foldl (fun t row => t.upsert (· + ·) row.1 row.2) t).entries.filter
        fun row => p row.1).map (·.2)).sum =
        ((t.entries.filter fun row => p row.1).map (·.2)).sum + sumOver p rows := by
    induction rows with
    | nil => exact fun t => (add_zero _).symm
    | cons row rows ih =>
      intro t
      rw [List.foldl_cons, ih, sum_upsert, sumOver_cons, add_assoc]
  rw [collect, hfrom]
  exact zero_add _

end

end DnsBlackhole.Lib
