/-
  Walks in which every place leads to at most one other.

  `next a` is the place behind `a`, if the walk goes on there, and `after next n a`
  the place `n` steps behind `a`.  A walk is `Cyclic` when it comes back to a place
  it has been at; then it never ends (`Cyclic.isSome_after`).

  * `cyclic_of_card_le`: the pigeonhole principle, a walk that visits more places
    than a finite set has, all of them in the set, is cyclic;
  * `cyclic_iff`: so a walk is cyclic iff it makes as many steps as there are places
    to step from, and one more;
  * `lt_card_of_end`: a walk that ends has visited every place at most once;
  * `after_map`: the same for a state that has a place.
-/
import Mathlib.Data.Finset.Card

namespace DnsBlackhole.Lib

universe u v
variable {α : Type u} (next : α → Option α)

/-- The place `n` steps behind `a`, if the walk goes on for so long. -/
def after : ℕ → α → Option α
  | 0, a => some a
  | n + 1, a => (next a).bind (after n)

/-- The walk from `a` comes back to a place it has been at. -/
def Cyclic (a : α) : Prop :=
  ∃ m n c, 0 < n ∧ after next m a = some c ∧ after next n c = some c

variable {next} {a b c : α} {m n : ℕ}

@[simp] theorem after_zero : after next 0 a = some a := rfl

theorem after_succ : after next (n + 1) a = (next a).bind (after next n) := rfl

theorem after_add (m n : ℕ) (a : α) :
    after next (m + n) a = (after next m a).bind (after next n) := by
  induction m generalizing a with
  | zero => rw [Nat.zero_add]; rfl
  | succ m ih =>
    rw [Nat.succ_add, after_succ, after_succ, Option.bind_assoc]
    congr 1
    funext b
    exact ih b

theorem after_succ' (n : ℕ) (a : α) : after next (n + 1) a = (after next n a).bind next := by
  rw [after_add]
  congr 1
  funext b
  exact Option.bind_fun_some (next b)

theorem isSome_after_of_le (h : (after next n a).isSome) (hle : m ≤ n) :
    (after next m a).isSome := by
  obtain ⟨k, rfl⟩ := Nat.exists_eq_add_of_le hle
  rw [after_add] at h
  exact Option.isSome_of_isSome_bind h

theorem exists_next (h : (after next n a).isSome) (hlt : m < n) :
    ∃ b c, after next m a = some b ∧ next b = some c := by
  have hsucc := isSome_after_of_le h (Nat.succ_le_of_lt hlt)
  obtain ⟨c, hc⟩ := Option.isSome_iff_exists.1 hsucc
  rw [after_succ', Option.bind_eq_some_iff] at hc
  obtain ⟨b, hb, hc⟩ := hc
  exact ⟨b, c, hb, hc⟩

theorem Cyclic.isSome_after (h : Cyclic next a) (n : ℕ) : (after next n a).isSome := by
  obtain ⟨m, k, c, hk, hm, hc⟩ := h
  have hround : ∀ i, after next (i * k) c = some c := by
    intro i
    induction i with
    | zero => rw [Nat.zero_mul, after_zero]
    | succ i ih => rw [Nat.succ_mul, after_add, ih, Option.bind_some, hc]
  have hlong : (after next (m + n * k) a).isSome := by
    rw [after_add, hm, Option.bind_some, hround]
    rfl
  refine isSome_after_of_le hlong ?_
  have := Nat.le_mul_of_pos_right n hk
  omega

theorem cyclic_of_after_eq (hlt : m < n) (hm : after next m a = some c)
    (hn : after next n a = some c) : Cyclic next a := by
  refine ⟨m, n - m, c, Nat.sub_pos_of_lt hlt, hm, ?_⟩
  rw [show n = m + (n - m) by omega, after_add, hm, Option.bind_some] at hn
  exact hn

/-- **The pigeonhole principle** for walks. -/
theorem cyclic_of_card_le (s : Finset α) (hs : ∀ m ≤ n, ∃ b ∈ s, after next m a = some b)
    (hn : s.card ≤ n) : Cyclic next a := by
  have hcard : s.card < (Finset.range (n + 1)).card := by
    rw [Finset.card_range]
    exact Nat.lt_succ_of_le hn
  have hmaps : Set.MapsTo (fun m => (after next m a).getD a) (Finset.range (n + 1)) s := by
    intro m hm
    obtain ⟨b, hb, hafter⟩ := hs m (Nat.le_of_lt_succ (Finset.mem_range.1 hm))
    show (after next m a).getD a ∈ s
    rwa [hafter]
  obtain ⟨i, hi, j, hj, hne, heq⟩ :=
    Finset.exists_ne_map_eq_of_card_lt_of_maps_to hcard hmaps
  obtain ⟨b, -, hb⟩ := hs i (Nat.le_of_lt_succ (Finset.mem_range.1 hi))
  obtain ⟨c, -, hc⟩ := hs j (Nat.le_of_lt_succ (Finset.mem_range.1 hj))
  obtain rfl : b = c := by simpa only [hb, hc, Option.getD_some] using heq
  rcases Nat.lt_or_gt_of_ne hne with hlt | hlt
  · exact cyclic_of_after_eq hlt hb hc
  · exact cyclic_of_after_eq hlt hc hb

section
variable (s : Finset α) (hs : ∀ b c, next b = some c → b ∈ s)
include hs

/-- A walk with a step from as many places as there are, and one more. -/
theorem cyclic_iff : Cyclic next a ↔ (after next (s.card + 1) a).isSome := by
  constructor
  · intro h
    exact h.isSome_after _
  · intro h
    refine cyclic_of_card_le s (n := s.card) (fun m hm => ?_) (Nat.le_refl _)
    obtain ⟨b, c, hb, hc⟩ := exists_next h (Nat.lt_succ_of_le hm)
    exact ⟨b, hs b c hc, hb⟩

/-- **A walk that ends** has visited every place at most once. -/
theorem lt_card_of_end (hb : b ∈ s) (hn : after next n a = some b) (hend : next b = none) :
    n < s.card := by
  by_contra hle
  have hcyclic : Cyclic next a := by
    refine cyclic_of_card_le s (n := n) (fun m hm => ?_) (Nat.le_of_not_lt hle)
    rcases Nat.lt_or_eq_of_le hm with hlt | rfl
    · obtain ⟨b, c, hb, hc⟩ := exists_next (by rw [hn]; rfl) hlt
      exact ⟨b, hs b c hc, hb⟩
    · exact ⟨b, hb, hn⟩
  have hlong := hcyclic.isSome_after (n + 1)
  rw [after_succ', hn, Option.bind_some, hend] at hlong
  cases hlong

end

theorem after_map {β : Type v} {step : β → Option β} {place : β → α}
    (h : ∀ s, (step s).map place = next (place s)) (n : ℕ) (s : β) :
    (after step n s).map place = after next n (place s) := by
  induction n generalizing s with
  | zero => rfl
  | succ n ih =>
    rw [after_succ, after_succ, ← h]
    cases step s with
    | none => rfl
    | some s' => exact ih s'

end DnsBlackhole.Lib
