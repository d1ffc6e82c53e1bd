/-
  Amounts that are added to the points of a series, and sums over groups of rows.

  * `value_scatter`: a point has what was there and all amounts that went to it;
  * `sum_groupBy`: summing each group first gives the sum over the rows, also over
    those that meet a condition which does not tell the rows of a group apart.
-/
import Mathlib.Algebra.BigOperators.Group.Finset.Piecewise
import Mathlib.Algebra.GroupWithZero.Nat
import DnsBlackhole.Lib.Table

namespace DnsBlackhole.Lib

variable {α β κ : Type*}

/-- Change the point that each item goes to; some go nowhere. -/
def scatter (index : β → Option ℕ) (add : β → α → α) (points : List α) (items : List β) : List α :=
  items.foldl (fun points item =>
    match index item with
    | some i => points.modify i (add item)
    | none => points) points

/-- The sum over the items that meet a condition. -/
def sumIf (p : α → Bool) (amount : α → ℕ) (items : List α) : ℕ :=
  ((items.filter p).map amount).sum

theorem sumIf_eq (p : α → Bool) (amount : α → ℕ) (items : List α) :
    sumIf p amount items = (items.map fun item => if p item then amount item else 0).sum := by
  induction items with
  | nil => rfl
  | cons item items ih =>
    rw [sumIf] at ih ⊢
    by_cases hp : p item
    · simp [hp, ih]
    · simp [hp, ih]

theorem sumIf_cons (p : α → Bool) (amount : α → ℕ) (item : α) (items : List α) :
    sumIf p amount (item :: items) =
      (if p item then amount item else 0) + sumIf p amount items := by
  simp only [sumIf_eq, List.map_cons, List.sum_cons]

theorem sumIf_perm {p : α → Bool} {amount : α → ℕ} {items items' : List α}
    (h : items.Perm items') : sumIf p amount items = sumIf p amount items' :=
  ((h.filter p).map amount).sum_eq

theorem sumIf_congr {p q : α → Bool} {amount : α → ℕ} {items : List α}
    (h : ∀ item ∈ items, p item = q item) : sumIf p amount items = sumIf q amount items := by
  rw [sumIf, sumIf, List.filter_congr h]

theorem sumIf_eq_zero {p : α → Bool} {amount : α → ℕ} {items : List α} :
    sumIf p amount items = 0 ↔ ∀ item ∈ items, p item → amount item = 0 := by
  induction items with
  | nil => simp [sumIf]
  | cons item items ih =>
    rw [sumIf_cons, Nat.add_eq_zero_iff, ih]
    simp

theorem sumIf_map {γ : Type*} (p : γ → Bool) (amount : γ → ℕ) (f : α → γ) (items : List α) :
    sumIf p amount (items.map f) = sumIf (p ∘ f) (amount ∘ f) items := by
  rw [sumIf, sumIf, List.filter_map, List.map_map]

theorem sumIf_split (p q : α → Bool) (amount : α → ℕ) (items : List α) :
    sumIf p amount items =
      sumIf (fun x => p x && q x) amount items + sumIf (fun x => p x && !q x) amount items := by
  induction items with
  | nil => rfl
  | cons item items ih =>
    rw [sumIf_cons, sumIf_cons, sumIf_cons, ih]
    cases p item <;> cases q item <;> simp <;> omega

/-- Two sums are equal where nothing is in only one of them, if one condition implies the other
    as soon as it is met at all. -/
theorem sumIf_eq_iff {p q : α → Bool} {amount : α → ℕ} {items : List α}
    (h : ∀ a ∈ items, ∀ b ∈ items, p a → q b → p b) :
    sumIf p amount items = sumIf q amount items ↔
      ∀ x ∈ items, p x ≠ q x → amount x = 0 := by
  constructor
  · intro heq
    by_cases hany : ∃ a ∈ items, p a
    · obtain ⟨a, ha, hpa⟩ := hany
      have hboth : sumIf (fun x => p x && q x) amount items = sumIf q amount items := by
        refine sumIf_congr fun x hx => ?_
        cases hq : q x with
        | false => simp
        | true => simp [h a ha x hx hpa hq]
      rw [sumIf_split p q, hboth] at heq
      have hzero := sumIf_eq_zero.1 (Nat.add_eq_left.1 heq)
      intro x hx hne
      refine hzero x hx ?_
      cases hq : q x with
      | false => simpa [hq] using hne
      | true => simp [h a ha x hx hpa hq, hq] at hne
    · have hnone : ∀ x ∈ items, p x = false := fun x hx =>
        Bool.eq_false_iff.2 fun hp => hany ⟨x, hx, hp⟩
      have hzero : sumIf p amount items = 0 :=
        sumIf_eq_zero.2 fun x hx hp => absurd hp (by simp [hnone x hx])
      intro x hx hne
      rw [hnone x hx] at hne
      refine sumIf_eq_zero.1 (heq ▸ hzero) x hx ?_
      simpa using hne.symm
  · intro hzero
    rw [sumIf_eq, sumIf_eq]
    refine congrArg List.sum (List.map_congr_left fun x hx => ?_)
    by_cases hne : p x = q x
    · rw [hne]
    · simp [hzero x hx hne]

/-- **A point has what was there and all that went to it.** -/
theorem value_scatter {index : β → Option ℕ} {add : β → α → α} {value : α → ℕ} {amount : β → ℕ}
    (hadd : ∀ item point, value (add item point) = value point + amount item) (points : List α)
    (items : List β) (i : ℕ) :
    ((scatter index add points items)[i]?).map value =
      (points[i]?).map fun point => value point + sumIf (index · = some i) amount items := by
  induction items generalizing points with
  | nil => simp [scatter, sumIf]
  | cons item items ih =>
    rw [scatter, List.foldl_cons]
    cases hindex : index item with
    | none =>
      refine (ih points).trans ?_
      simp [sumIf_cons, hindex]
    | some j =>
      refine (ih _).trans ?_
      rw [List.getElem?_modify]
      by_cases hj : j = i
      · subst hj
        rw [Option.map_eq_map, Option.map_map, sumIf_cons, hindex, if_pos (decide_eq_true rfl)]
        refine congrArg (Option.map · _) (funext fun point => ?_)
        simp only [Function.comp_apply, if_true, hadd, Nat.add_assoc]
      · simp [sumIf_cons, hindex, hj]

theorem length_scatter (index : β → Option ℕ) (add : β → α → α) (points : List α)
    (items : List β) : (scatter index add points items).length = points.length := by
  induction items generalizing points with
  | nil => rfl
  | cons item items ih =>
    rw [scatter, List.foldl_cons]
    cases hindex : index item with
    | none => exact ih points
    | some j => exact (ih _).trans (List.length_modify ..)

/-! ## Groups -/

section
variable [DecidableEq κ] (key : α → κ)

/-- Over keys that are different, the sums of the groups are the sum over the rows. -/
theorem sum_fibers {keys : List κ} (hn : keys.Nodup) (amount : α → ℕ) {rows : List α}
    (hrows : ∀ row ∈ rows, key row ∈ keys) :
    (keys.map fun k => sumIf (key · = k) amount rows).sum = (rows.map amount).sum := by
  induction rows with
  | nil => simp [sumIf]
  | cons row rows ih =>
    have hone : (keys.map fun k => if key row = k then amount row else 0).sum = amount row := by
      have hmem := hrows row List.mem_cons_self
      rw [← List.sum_toFinset _ hn, Finset.sum_ite_eq, if_pos (List.mem_toFinset.2 hmem)]
    simp only [sumIf_cons, decide_eq_true_eq, List.map_cons, List.sum_cons]
    rw [List.sum_map_add, hone, ih fun row hrow => hrows row (List.mem_cons_of_mem _ hrow)]

/-- **Sums over groups.** -/
theorem sum_groupBy {p : κ × List α → Bool} {q : α → Bool} (amount : α → ℕ) {rows : List α}
    (h : ∀ g ∈ groupBy key rows, ∀ row ∈ g.2, p g = q row) :
    sumIf p (fun g => (g.2.map amount).sum) (groupBy key rows) = sumIf q amount rows := by
  have hrows : ∀ row ∈ rows, key row ∈ (rows.map key).dedup := fun row hrow =>
    List.mem_dedup.2 (List.mem_map_of_mem hrow)
  rw [sumIf_eq q, ← sum_fibers key (List.nodup_dedup (rows.map key)) _ hrows, sumIf_eq,
    groupBy, List.map_map]
  refine congrArg List.sum (List.map_congr_left fun k hk => ?_)
  have hgroup : (k, rows.filter fun row => key row = k) ∈ groupBy key rows :=
    List.mem_map_of_mem hk
  have hsame := h _ hgroup
  rw [sumIf]
  dsimp only [Function.comp_apply] at hsame ⊢
  by_cases hp : p (k, rows.filter fun row => key row = k)
  · rw [if_pos hp]
    refine congrArg List.sum (List.map_congr_left fun row hrow => ?_)
    rw [if_pos ((hsame row hrow).symm.trans hp)]
  · rw [if_neg hp]
    refine (List.sum_eq_zero fun n hn => ?_).symm
    obtain ⟨row, hrow, rfl⟩ := List.mem_map.1 hn
    exact if_neg fun hq => hp ((hsame row hrow).trans hq)

end

end DnsBlackhole.Lib
