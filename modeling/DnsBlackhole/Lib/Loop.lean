/-
  Loops that end.

  A `Loop` is the body of a loop (from a state, the next state or the result)
  together with a measure that every iteration decreases, so that it has a
  result (`Loop.run`).  `Loop.run_inl` unfolds one iteration and `Loop.inv` is
  the rule of invariants: what holds of the result of a last iteration and is
  carried back by every other one holds of the loop.
-/
import Mathlib.Data.Nat.Notation

namespace DnsBlackhole.Lib

universe u v

/-- A loop over the states `σ` with the result `ρ`, and its measure. -/
structure Loop (σ : Type u) (ρ : Type v) where
  body : σ → σ ⊕ ρ
  measure : σ → ℕ
  decreases : ∀ s s', body s = .inl s' → measure s' < measure s

namespace Loop
variable {σ : Type u} {ρ : Type v} (L : Loop σ ρ)

/-- The iterations, with a bound on the measure. -/
def runAux : (n : ℕ) → (s : σ) → L.measure s < n → ρ
  | n + 1, s, hs =>
    match h : L.body s with
    | .inl s' => runAux n s' (by have := L.decreases s s' h; omega)
    | .inr r => r

/-- The result of the loop from the state `s`. -/
def run (s : σ) : ρ := L.runAux (L.measure s + 1) s (Nat.lt_succ_self _)

theorem runAux_succ (n : ℕ) (s : σ) (hs : L.measure s < n + 1) :
    L.runAux (n + 1) s hs = match h : L.body s with
      | .inl s' => L.runAux n s' (by have := L.decreases s s' h; omega)
      | .inr r => r := rfl

theorem runAux_inr {s : σ} {r : ρ} (h : L.body s = .inr r) (n : ℕ) (hs : L.measure s < n) :
    L.runAux n s hs = r := by
  cases n with
  | zero => omega
  | succ n =>
    rw [runAux_succ]
    split
    · rename_i s' h'; rw [h] at h'; cases h'
    · rename_i r' h'; rw [h] at h'; cases h'; rfl

theorem runAux_inl {s s' : σ} (h : L.body s = .inl s') (n : ℕ) (hs : L.measure s < n + 1) :
    L.runAux (n + 1) s hs = L.runAux n s' (by have := L.decreases s s' h; omega) := by
  rw [runAux_succ]
  split
  · rename_i s'' h'; rw [h] at h'; cases h'; rfl
  · rename_i r' h'; rw [h] at h'; cases h'

theorem runAux_congr : ∀ (n m : ℕ) (s : σ) (hn : L.measure s < n) (hm : L.measure s < m),
    L.runAux n s hn = L.runAux m s hm
  | 0, _, _, hn, _ => by omega
  | _, 0, _, _, hm => by omega
  | n + 1, m + 1, s, hn, hm => by
    cases h : L.body s with
    | inl s' => rw [L.runAux_inl h, L.runAux_inl h]; exact runAux_congr n m s' _ _
    | inr r => rw [L.runAux_inr h, L.runAux_inr h]

theorem run_inr {s : σ} {r : ρ} (h : L.body s = .inr r) : L.run s = r := L.runAux_inr h _ _

theorem run_inl {s s' : σ} (h : L.body s = .inl s') : L.run s = L.run s' := by
  rw [run, L.runAux_inl h]
  exact L.runAux_congr _ _ _ _ _

/-- **Invariants of loops**: by induction on the measure. -/
theorem inv {P : σ → ρ → Prop} (done : ∀ s r, L.body s = .inr r → P s r)
    (next : ∀ s s' r, L.body s = .inl s' → P s' r → P s r) (s : σ) : P s (L.run s) := by
  induction hn : L.measure s using Nat.strongRecOn generalizing s with
  | ind n ih =>
    cases h : L.body s with
    | inl s' =>
      rw [L.run_inl h]
      exact next s s' _ h (ih _ (hn ▸ L.decreases s s' h) s' rfl)
    | inr r => rw [L.run_inr h]; exact done s r h

end Loop

end DnsBlackhole.Lib
