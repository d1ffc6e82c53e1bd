/-
  Collecting rows page by page from a table that changes under the reader.

  Two ways to ask for a page: after the last row of the page before (`Keyset`), or
  after a number of rows.

  * `KeepsBefore`: what stays in the table keeps the rows before it.  Then no row
    before one that is always there is ever lost (`mem_of_keepsBefore`), and such a
    row never moves forward (`numberBefore_le`);
  * `mem_slice_of_le`: the place of a row in the order decides which page has it;
  * `inOrder_rest`: in a table that does not change, the two ways give the same pages.
-/
import DnsBlackhole.Lib.Keyset

namespace DnsBlackhole.Lib.Paging
open Keyset

/-! ## Tables that change -/

section
variable {α : Type*} (before : α → α → Prop)

/-- What stays keeps the rows before it. -/
def KeepsBefore (rows rows' : List α) : Prop :=
  ∀ x ∈ rows, x ∈ rows' → ∀ r ∈ rows, before r x → r ∈ rows'

variable {before} {tables : ℕ → List α}

theorem mem_of_keepsBefore {n i : ℕ} {x r : α}
    (hkeeps : ∀ k < n, KeepsBefore before (tables k) (tables (k + 1)))
    (hx : ∀ k ≤ n, x ∈ tables k) (hi : i ≤ n) (hr : r ∈ tables i) (hbefore : before r x) :
    r ∈ tables n := by
  induction n, hi using Nat.le_induction with
  | base => exact hr
  | succ n hi ih =>
    have hrn : r ∈ tables n :=
      ih (fun k hk => hkeeps k (Nat.lt_succ_of_lt hk)) fun k hk => hx k (Nat.le_succ_of_le hk)
    exact hkeeps n (Nat.lt_succ_self n) x (hx n (Nat.le_succ n)) (hx _ (Nat.le_refl _)) r hrn
      hbefore

end

/-! ## Places -/

section
variable {α κ : Type*} [LinearOrder κ] {key : α → κ} {rows rows' : List α} {x : α}

/-- The number of rows before one. -/
def numberBefore (key : α → κ) (x : α) (rows : List α) : ℕ := rows.countP fun r => key r < key x

theorem numberBefore_le (hn : rows.Nodup)
    (hkeeps : KeepsBefore (fun r x => key r < key x) rows rows') (hx : x ∈ rows) (hx' : x ∈ rows') :
    numberBefore key x rows ≤ numberBefore key x rows' := by
  rw [numberBefore, numberBefore, List.countP_eq_length_filter, List.countP_eq_length_filter]
  refine List.Subperm.length_le (List.subperm_of_subset (hn.filter _) fun r hr => ?_)
  obtain ⟨hr, hlt⟩ := List.mem_filter.1 hr
  exact List.mem_filter.2 ⟨hkeeps x hx hx' r hr (of_decide_eq_true hlt), hlt⟩

/-- The place of a row in the order is the number of rows before it. -/
theorem getElem?_inOrder (hn : (rows.map key).Nodup) (hx : x ∈ rows) :
    (inOrder key rows)[numberBefore key x rows]? = some x := by
  have hperm : (inOrder key rows).Perm rows := perm_inOrder rows
  obtain ⟨front, back, hsplit⟩ := List.append_of_mem (hperm.mem_iff.2 hx)
  have hsorted := pairwise_lt_inOrder hn
  rw [hsplit, List.pairwise_append, List.pairwise_cons] at hsorted
  obtain ⟨-, ⟨hback, -⟩, hfront⟩ := hsorted
  have hcount : numberBefore key x rows = front.length := by
    rw [numberBefore, ← hperm.countP_eq, hsplit, List.countP_append,
      List.countP_eq_length.2 fun r hr => decide_eq_true (hfront r hr x List.mem_cons_self),
      List.countP_eq_zero.2 fun r hr => ?_, Nat.add_zero]
    rcases List.mem_cons.1 hr with rfl | hr
    · simp
    · simpa using (hback r hr).le
  rw [hcount, hsplit, List.getElem?_append_right (Nat.le_refl _), Nat.sub_self]
  rfl

theorem numberBefore_lt (hn : (rows.map key).Nodup) (hx : x ∈ rows) :
    numberBefore key x rows < rows.length := by
  obtain ⟨h, -⟩ := List.getElem?_eq_some_iff.1 (getElem?_inOrder hn hx)
  rwa [(perm_inOrder rows).length_eq] at h

/-- **A page has the rows whose place is on it.** -/
theorem mem_slice_of_le (hn : (rows.map key).Nodup) (hx : x ∈ rows) {offset size : ℕ}
    (hlow : offset ≤ numberBefore key x rows) (hhigh : numberBefore key x rows < offset + size) :
    x ∈ ((inOrder key rows).drop offset).take size := by
  refine List.mem_of_getElem? (i := numberBefore key x rows - offset) ?_
  rw [List.getElem?_take_of_lt (by omega), List.getElem?_drop, Nat.add_sub_cancel' hlow]
  exact getElem?_inOrder hn hx

/-! ## A table that does not change -/

/-- The rows after the last of the first ones are the others. -/
theorem inOrder_rest (hn : (rows.map key).Nodup) {n : ℕ} {last : α}
    (hlast : ((inOrder key rows).take n).getLast? = some last) :
    inOrder key (rest key (some (key last)) rows) = (inOrder key rows).drop n := by
  have hsorted := pairwise_lt_inOrder hn
  have hrest := pairwise_lt_inOrder (hn.sublist (List.filter_sublist.map key) :
    ((rest key (some (key last)) rows).map key).Nodup)
  have hnodup : ∀ {l : List α}, l.Pairwise (fun a b => key a < key b) → l.Nodup := fun hl =>
    hl.imp fun hlt heq => absurd (congrArg key heq) hlt.ne
  have hdrop := hsorted.sublist (List.drop_sublist n _)
  refine List.Perm.eq_of_pairwise (fun a b _ _ hab hba => absurd hba hab.asymm) hrest hdrop ?_
  refine (List.perm_ext_iff_of_nodup (hnodup hrest) (hnodup hdrop)).2 fun row => ?_
  have hperm : (inOrder key rows).Perm rows := perm_inOrder rows
  rw [(perm_inOrder _).mem_iff, mem_rest, ← hperm.mem_iff]
  rw [← List.take_append_drop n (inOrder key rows), List.pairwise_append] at hsorted
  obtain ⟨hfirst, -, hless⟩ := hsorted
  have hmem := List.mem_of_getLast? hlast
  constructor
  · rintro ⟨hrow, hafter⟩
    rw [← List.take_append_drop n (inOrder key rows), List.mem_append] at hrow
    rcases hrow with hrow | hrow
    · -- none of the first rows is after their last one
      obtain ⟨front, heq⟩ := List.getLast?_eq_some_iff.1 hlast
      rw [heq] at hrow hfirst
      rcases List.mem_append.1 hrow with hrow | hrow
      · have hlt := (List.pairwise_append.1 hfirst).2.2 row hrow last (List.mem_singleton_self _)
        exact absurd (hafter _ rfl) hlt.asymm
      · rw [List.mem_singleton.1 hrow] at hafter
        exact absurd (hafter _ rfl) (lt_irrefl _)
    · exact hrow
  · intro hrow
    refine ⟨List.mem_of_mem_drop hrow, fun k hk => ?_⟩
    obtain rfl := Option.some.inj hk
    exact hless last hmem row hrow

end

end DnsBlackhole.Lib.Paging
