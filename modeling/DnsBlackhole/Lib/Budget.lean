/-
  Budgets over time: every state has a level of tokens at every time, which grows by a rate
  at most, and some events spend a token.

  * `Budget`: what a step does to the level;
  * `Budget.count_le`: what is spent in any window of a run, from its level at the start.
-/
import DnsBlackhole.Lib.Machine
import Mathlib.Data.List.Count
import Mathlib.Order.Lattice

namespace DnsBlackhole.Lib

universe u v w
variable {σ : Type u} {ε : Type v} {ω : Type w}

/-- The levels of a total machine whose events have times.  `Inv clock s` holds of the states
    whose events were at `clock` at the latest. -/
structure Budget (step : σ → ε → σ × ω) (time : ε → ℕ) (spends : ε → ω → Bool)
    (Inv : ℕ → σ → Prop) (level : σ → ℕ → ℕ) (rate : ℕ) : Prop where
  inv : ∀ {clock s e}, Inv clock s → clock ≤ time e → Inv (time e) (step s e).1
  gain : ∀ {clock s t t'}, Inv clock s → clock ≤ t → t ≤ t' →
    level s t' ≤ level s t + rate * (t' - t)
  level_le : ∀ {clock s e t}, Inv clock s → clock ≤ time e → time e ≤ t →
    level (step s e).1 t ≤ level s t
  spend : ∀ {clock s e}, Inv clock s → clock ≤ time e → spends e (step s e).2 →
    level (step s e).1 (time e) + 1 ≤ level s (time e)

namespace Budget
variable {step : σ → ε → σ × ω} {time : ε → ℕ} {spends : ε → ω → Bool} {Inv : ℕ → σ → Prop}
  {level : σ → ℕ → ℕ} {rate : ℕ}

/-- What is spent from `first` to `last`. -/
def spent (time : ε → ℕ) (spends : ε → ω → Bool) (first last : ℕ) (shown : List (ε × ω)) : ℕ :=
  shown.countP fun x => spends x.1 x.2 && (first ≤ time x.1 && time x.1 ≤ last)

theorem spent_cons (first last : ℕ) (x : ε × ω) (shown : List (ε × ω)) :
    spent time spends first last (x :: shown) =
      (if spends x.1 x.2 = true ∧ first ≤ time x.1 ∧ time x.1 ≤ last then 1 else 0) +
        spent time spends first last shown := by
  rw [spent, List.countP_cons, Nat.add_comm]
  congr 1
  simp only [Bool.and_eq_true, decide_eq_true_eq]

theorem spent_eq_zero {first last : ℕ} {shown : List (ε × ω)}
    (h : ∀ x ∈ shown, last < time x.1) : spent time spends first last shown = 0 := by
  refine List.countP_eq_zero.2 fun x hx hspends => ?_
  simp only [Bool.and_eq_true, decide_eq_true_eq] at hspends
  exact absurd (h x hx) (not_lt.2 hspends.2.2)

theorem fst_mem_of_mem_trace {x : ε × ω} : ∀ {es : List ε} {s : σ}, x ∈ (trace step s es).2 →
    x.1 ∈ es
  | e :: es, s, hx => by
    rcases List.mem_cons.1 hx with rfl | hx
    · exact List.mem_cons_self
    · exact List.mem_cons_of_mem e (fst_mem_of_mem_trace hx)

/-- **A window of a run** spends no more than the level at its start, and what the rate adds. -/
theorem count_le (h : Budget step time spends Inv level rate) (first last : ℕ) :
    ∀ {es : List ε} {clock : ℕ} {s : σ}, Inv clock s → (clock :: es.map time).Pairwise (· ≤ ·) →
      max clock first ≤ last →
      spent time spends first last (trace step s es).2 ≤
        level s (max clock first) + rate * (last - max clock first)
  | [], _, _, _, _, _ => Nat.zero_le _
  | e :: es, clock, s, hinv, hsorted, hwindow => by
    obtain ⟨hclock, hsorted⟩ := List.pairwise_cons.1 hsorted
    have he : clock ≤ time e := hclock _ List.mem_cons_self
    rw [trace, spent_cons]
    have hnext := h.inv hinv he
    rcases lt_or_ge last (time e) with hlate | hlast
    · -- the window is over
      have hlater : ∀ x ∈ (trace step (step s e).1 es).2, last < time x.1 := by
        intro x hx
        have hmem := List.mem_map_of_mem (f := time) (fst_mem_of_mem_trace hx)
        exact hlate.trans_le ((List.pairwise_cons.1 hsorted).1 _ hmem)
      rw [spent_eq_zero hlater, if_neg fun hin => absurd hin.2.2 (not_le.2 hlate)]
      exact Nat.zero_le _
    · have hrest := count_le h first last hnext hsorted
        (max_le hlast ((le_max_right _ _).trans hwindow))
      rcases lt_or_ge (time e) first with hearly | hfirst
      · -- the window has not begun
        rw [if_neg fun hin => absurd hin.2.1 (not_le.2 hearly), Nat.zero_add,
          max_eq_right (he.trans hearly.le)]
        rw [max_eq_right hearly.le] at hrest
        exact hrest.trans (Nat.add_le_add_right (h.level_le hinv he hearly.le) _)
      · rw [max_eq_left hfirst] at hrest
        have hgain := h.gain hinv (le_max_left clock first) (max_le he hfirst)
        have hlevel : (if spends e (step s e).2 = true ∧ first ≤ time e ∧ time e ≤ last then 1
            else 0) + level (step s e).1 (time e) ≤ level s (time e) := by
          split_ifs with hin
          · exact (Nat.add_comm _ _).trans_le (h.spend hinv he hin.1)
          · exact (Nat.zero_add _).trans_le (h.level_le hinv he le_rfl)
        have hsplit : rate * (last - max clock first) =
            rate * (time e - max clock first) + rate * (last - time e) := by
          rw [← Nat.mul_add]
          congr 1
          omega
        dsimp only
        omega

end Budget

end DnsBlackhole.Lib
