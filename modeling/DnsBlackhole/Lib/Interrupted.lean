/-
  Processes that die behind a number of steps, where no step before fails.

  * `Paced x s n D a t`: from `s` the computation takes `n` steps and returns `a` in `t`, and
    `D k` holds of what is left where the process dies behind `k` of them;
  * this is taken through the combinators by rules (`Paced.bind`), which add the steps up;
  * `Paced.state_bind`: what is left by a paced computation and one that keeps an invariant.
-/
import DnsBlackhole.Lib.Steps

namespace DnsBlackhole.Lib

universe u
variable {ε σ α β : Type u}

/-- The process dies when `n` steps are done. -/
def diesAfter (n : ℕ) : Script ε := List.replicate n none ++ [some (.dies false)]

theorem diesAfter_succ (n : ℕ) : (diesAfter (n + 1) : Script ε) = none :: diesAfter n := rfl

namespace Steps

structure Paced (x : Steps ε σ α) (s : σ) (n : ℕ) (D : ℕ → σ → Prop) (a : α) (t : σ) : Prop where
  succeeds : x [] s = .returned a [] t
  dies : ∀ k < n, ∃ u, x (diesAfter k) s = .died u ∧ D k u
  returns : ∀ k, x (diesAfter (n + k)) s = .returned a (diesAfter k) t

namespace Paced
variable {x : Steps ε σ α} {f : α → Steps ε σ β} {s t u : σ} {n m : ℕ} {D D' : ℕ → σ → Prop}
  {a : α} {b : β}

theorem mono (h : Paced x s n D a t) (hD : ∀ k u, k < n → D k u → D' k u) : Paced x s n D' a t := by
  refine ⟨h.succeeds, fun k hk => ?_, h.returns⟩
  obtain ⟨u, hu, hd⟩ := h.dies k hk
  exact ⟨u, hu, hD k u hk hd⟩

theorem pure : Paced (Pure.pure a : Steps ε σ α) s 0 D a s :=
  ⟨rfl, fun k hk => absurd hk k.not_lt_zero, fun k => by rw [Nat.zero_add]; rfl⟩

theorem step {f : σ → σ} (h : D 0 s) : Paced (Steps.step f : Steps ε σ PUnit) s 1 D ⟨⟩ (f s) := by
  refine ⟨rfl, fun k hk => ?_, fun k => ?_⟩
  · obtain rfl : k = 0 := Nat.lt_one_iff.1 hk
    exact ⟨s, rfl, h⟩
  · rw [Nat.add_comm, diesAfter_succ]
    rfl

theorem probe (h : D 0 s) : Paced (Steps.probe : Steps ε σ PUnit) s 1 D ⟨⟩ s := step h

theorem get_bind {f : σ → Steps ε σ α} (h : Paced (f s) s n D a t) :
    Paced (Steps.get >>= f) s n D a t := ⟨h.succeeds, h.dies, h.returns⟩

theorem bind (hx : Paced x s n D a t) (hf : Paced (f a) t m (fun k => D (n + k)) b u) :
    Paced (x >>= f) s (n + m) D b u := by
  refine ⟨?_, fun k hk => ?_, fun k => ?_⟩
  · change Steps.bind x f [] s = _
    rw [Steps.bind, hx.succeeds]
    exact hf.succeeds
  · change ∃ u, Steps.bind x f (diesAfter k) s = .died u ∧ D k u
    unfold Steps.bind
    by_cases hkn : k < n
    · obtain ⟨v, hv, hd⟩ := hx.dies k hkn
      rw [hv]
      exact ⟨v, rfl, hd⟩
    · obtain ⟨j, rfl⟩ := Nat.exists_eq_add_of_le (Nat.le_of_not_lt hkn)
      rw [hx.returns]
      exact hf.dies j (by omega)
  · change Steps.bind x f (diesAfter (n + m + k)) s = _
    rw [Steps.bind, Nat.add_assoc, hx.returns]
    exact hf.returns k

theorem attempt (h : Paced x s n D a t) : Paced (Steps.attempt x) s n D (.ok a) t := by
  refine ⟨?_, fun k hk => ?_, fun k => ?_⟩
  · rw [Steps.attempt, h.succeeds]
  · obtain ⟨u, hu, hd⟩ := h.dies k hk
    exact ⟨u, by rw [Steps.attempt, hu], hd⟩
  · rw [Steps.attempt, h.returns]

/-- What is left by a paced computation, and by one behind it that keeps an invariant. -/
theorem state_bind {I : σ → Prop} (hx : Paced x s n D a t)
    (hf : Always (f a) t (fun _ t' => I t') (fun _ t' => I t') I) (k : ℕ) :
    (k < n → D k ((x >>= f) (diesAfter k) s).state) ∧
      (n ≤ k → I ((x >>= f) (diesAfter k) s).state) := by
  change (k < n → D k (Steps.bind x f (diesAfter k) s).state) ∧
    (n ≤ k → I (Steps.bind x f (diesAfter k) s).state)
  unfold Steps.bind
  constructor
  · intro hk
    obtain ⟨u, hu, hd⟩ := hx.dies k hk
    rw [hu]
    exact hd
  · intro hk
    obtain ⟨j, rfl⟩ := Nat.exists_eq_add_of_le hk
    rw [hx.returns]
    exact hf.state _

theorem succeeds_bind {Q : β → σ → Prop} (hx : Paced x s n D a t) (hf : Succeeds (f a) t Q) :
    Succeeds (x >>= f) s Q := by
  refine Succeeds.bind (Q := fun a' t' => a' = a ∧ t' = t) ⟨a, t, hx.succeeds, rfl, rfl⟩ ?_
  rintro _ _ ⟨rfl, rfl⟩
  exact hf

end Paced

namespace Succeeds
variable {x : Steps ε σ α} {f : Except ε α → Steps ε σ β} {s t : σ} {e : ε} {R : β → σ → Prop}

theorem attempt_bind_of_fails (hx : Fails x s e t) (hf : Succeeds (f (.error e)) t R) :
    Succeeds (Steps.attempt x >>= f) s R := by
  refine bind (Q := fun r s' => r = .error e ∧ s' = t) ⟨_, t, ?_, rfl, rfl⟩ ?_
  · rw [Steps.attempt, show x [] s = .failed e [] t from hx]
  · rintro _ _ ⟨rfl, rfl⟩
    exact hf

end Succeeds

end Steps

end DnsBlackhole.Lib
