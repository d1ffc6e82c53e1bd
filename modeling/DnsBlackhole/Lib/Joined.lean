/-
  Lists joined with a separator (`List.intercalate`).

  The join forgets which occurrences of the separator it has put in.  Two
  lists of nonempty parts with the same join are equal unless one has a
  separator between two parts where the other has it inside a part
  (`eq_iff_of_joined_eq`).
-/
import Mathlib.Data.List.Basic

namespace DnsBlackhole.Lib

variable {α β : Type*}

/-- The parts, with the separator between them. -/
def joined (s : α) (xs : List (List α)) : List α := [s].intercalate xs

@[simp] theorem joined_nil (s : α) : joined s [] = [] := rfl

@[simp] theorem joined_singleton (s : α) (x : List α) : joined s [x] = x := by
  simp [joined, List.intercalate]

@[simp] theorem joined_cons_cons (s : α) (x y : List α) (xs : List (List α)) :
    joined s (x :: y :: xs) = x ++ s :: joined s (y :: xs) := by
  simp [joined, List.intercalate, List.intersperse]

theorem length_le_joined (s : α) (x : List α) (xs : List (List α)) :
    x.length ≤ (joined s (x :: xs)).length := by
  cases xs <;> simp

/-- Where the separators are put. -/
def seps : List (List α) → List ℕ
  | [] | [_] => []
  | x :: y :: xs => x.length :: (seps (y :: xs)).map (· + (x.length + 1))

theorem length_le_of_mem_seps {x : List α} {xs : List (List α)} {i : ℕ} (h : i ∈ seps (x :: xs)) :
    x.length ≤ i := by
  cases xs with
  | nil => cases h
  | cons y ys =>
    rcases List.mem_cons.1 h with rfl | h
    · exact Nat.le_refl _
    · obtain ⟨j, -, rfl⟩ := List.mem_map.1 h
      omega

/-- Behind the first part, the separators are those of the rest. -/
theorem mem_seps_cons_cons {x y : List α} {xs : List (List α)} {i : ℕ} :
    i + (x.length + 1) ∈ seps (x :: y :: xs) ↔ i ∈ seps (y :: xs) := by
  simp only [seps, List.mem_cons, List.mem_map]
  constructor
  · rintro (h | ⟨j, hj, h⟩)
    · omega
    · obtain rfl : j = i := by omega
      exact hj
  · exact fun h => .inr ⟨i, h, rfl⟩

/-- Somewhere `xs` has a separator between two parts and `ys` has it inside a
    part. -/
def HiddenSep (s : α) (xs ys : List (List α)) : Prop :=
  ∃ i ∈ seps xs, i ∉ seps ys ∧ (joined s ys)[i]? = some s

theorem HiddenSep.cons {s : α} {x x' y y' : List α} {xs ys : List (List α)}
    (hx : x.length = x'.length) (h : HiddenSep s (y :: xs) (y' :: ys)) :
    HiddenSep s (x :: y :: xs) (x' :: y' :: ys) := by
  obtain ⟨i, hi, hi', hs⟩ := h
  refine ⟨i + (x.length + 1), mem_seps_cons_cons.2 hi, ?_, ?_⟩
  · rwa [hx, mem_seps_cons_cons]
  · rw [joined_cons_cons, hx, List.getElem?_append_right (by omega),
      show i + (x'.length + 1) - x'.length = i + 1 by omega, List.getElem?_cons_succ, hs]

/-- A first part that ends inside the other one hides a separator. -/
theorem hiddenSep_of_length_lt {s : α} {x x' : List α} {xs ys : List (List α)}
    (h : joined s (x :: xs) = joined s (x' :: ys)) (hlt : x.length < x'.length) :
    HiddenSep s (x :: xs) (x' :: ys) := by
  cases xs with
  | nil =>
    have := length_le_joined s x' ys
    rw [← h, joined_singleton] at this
    omega
  | cons y xs =>
    refine ⟨x.length, List.mem_cons_self, fun hi => ?_, ?_⟩
    · have := length_le_of_mem_seps hi
      omega
    · rw [← h, joined_cons_cons, List.getElem?_append_right (Nat.le_refl _), Nat.sub_self]
      rfl

/-- **When two joins with the same result are of the same parts.** -/
theorem eq_iff_of_joined_eq {s : α} {xs ys : List (List α)} (hx : ∀ x ∈ xs, x ≠ [])
    (hy : ∀ y ∈ ys, y ≠ []) (h : joined s xs = joined s ys) :
    xs = ys ↔ ¬ (HiddenSep s xs ys ∨ HiddenSep s ys xs) := by
  constructor
  · rintro rfl (⟨i, hi, hi', -⟩ | ⟨i, hi, hi', -⟩) <;> exact hi' hi
  · intro hn
    induction xs generalizing ys with
    | nil =>
      cases ys with
      | nil => rfl
      | cons y ys =>
        have := length_le_joined s y ys
        rw [← h] at this
        exact absurd (List.length_eq_zero_iff.1 (Nat.le_zero.1 this)) (hy y List.mem_cons_self)
    | cons x xs ih =>
      cases ys with
      | nil =>
        have := length_le_joined s x xs
        rw [h] at this
        exact absurd (List.length_eq_zero_iff.1 (Nat.le_zero.1 this)) (hx x List.mem_cons_self)
      | cons x' ys =>
        -- the first parts end at the same place, or one of them hides a separator
        rcases Nat.lt_trichotomy x.length x'.length with hlt | heq | hgt
        · exact absurd (.inl (hiddenSep_of_length_lt h hlt)) hn
        · cases xs with
          | nil =>
            cases ys with
            | nil => simpa using h
            | cons y' ys =>
              have := congrArg List.length h
              simp at this; omega
          | cons y xs =>
            cases ys with
            | nil =>
              have := congrArg List.length h
              simp at this; omega
            | cons y' ys =>
              rw [joined_cons_cons, joined_cons_cons] at h
              obtain ⟨rfl, ht⟩ := List.append_inj h heq
              have := ih (fun z hz => hx z (List.mem_cons_of_mem _ hz))
                (fun z hz => hy z (List.mem_cons_of_mem _ hz)) (List.cons.inj ht).2
                fun hh => hn (hh.imp (HiddenSep.cons rfl) (HiddenSep.cons rfl))
              rw [this]
        · exact absurd (.inr (hiddenSep_of_length_lt h.symm hgt)) hn

end DnsBlackhole.Lib
