/-
  Labelled machines: a state, and a partial step for every event.

  The nondeterminism of a system (which party moves, what the environment
  answers) is in the events; a run is a list of events accepted one after
  the other.

  * `Reachable`: the states of the runs from the initial state, with the
    induction rule `Reachable.inv` for invariants, and `Reachable.map` for a
    machine that is a part of another;
  * `Guarded`: the runs whose every step meets a condition on the state and
    the event, with the rule `Guarded.inv`;
  * `cost_le`: what the steps of a run cost together, by a potential;
  * `Refines.run`: if every step is matched by a step of a transition
    relation, so is every run.
-/
import Mathlib.Data.Nat.Notation
import Mathlib.Logic.Basic

namespace DnsBlackhole.Lib

universe u v w

/-- A machine over the states `σ` and the events `ε`; `step s e = none` if
    the event `e` cannot happen in `s`. -/
structure Machine (σ : Type u) (ε : Type v) where
  init : σ
  step : σ → ε → Option σ

namespace Machine
variable {σ : Type u} {ε : Type v} (M : Machine σ ε)

/-- The state after the events `es`, if all of them can happen. -/
def run (s : σ) : List ε → Option σ
  | [] => some s
  | e :: es => (M.step s e).bind fun s' => run s' es

@[simp] theorem run_nil (s : σ) : M.run s [] = some s := rfl

theorem run_cons (s : σ) (e : ε) (es : List ε) :
    M.run s (e :: es) = (M.step s e).bind fun s' => M.run s' es := rfl

theorem run_cons_eq_some {s t : σ} {e : ε} {es : List ε} :
    M.run s (e :: es) = some t ↔ ∃ s', M.step s e = some s' ∧ M.run s' es = some t := by
  rw [run_cons, Option.bind_eq_some_iff]

theorem run_append (s : σ) (es fs : List ε) :
    M.run s (es ++ fs) = (M.run s es).bind fun s' => M.run s' fs := by
  induction es generalizing s with
  | nil => rfl
  | cons e es ih =>
    rw [List.cons_append, run_cons, run_cons, Option.bind_assoc]
    exact congrArg _ (funext fun s' => ih s')

/-- The states of the runs from the initial state. -/
def Reachable (s : σ) : Prop := ∃ es, M.run M.init es = some s

/-- The events `es` can happen from `s`, each in a state where it meets the
    condition `ok`. -/
def Guarded (ok : σ → ε → Prop) (s : σ) : List ε → Prop
  | [] => True
  | e :: es => ok s e ∧ ∃ s', M.step s e = some s' ∧ Guarded ok s' es

variable {M}

theorem guarded_cons_iff {ok : σ → ε → Prop} {s s' : σ} {e : ε} {es : List ε}
    (h : M.step s e = some s') : M.Guarded ok s (e :: es) ↔ ok s e ∧ M.Guarded ok s' es := by
  refine and_congr_right fun _ => ⟨?_, fun hg => ⟨s', h, hg⟩⟩
  rintro ⟨s'', h', hg⟩
  cases h.symm.trans h'
  exact hg

theorem not_guarded_cons {ok : σ → ε → Prop} {s : σ} {e : ε} {es : List ε}
    (h : M.step s e = none) : ¬ M.Guarded ok s (e :: es) := by
  rintro ⟨-, s', h', -⟩
  cases h.symm.trans h'

instance decidableGuarded (ok : σ → ε → Prop) [∀ s e, Decidable (ok s e)] (s : σ) :
    ∀ es, Decidable (M.Guarded ok s es)
  | [] => isTrue trivial
  | e :: es =>
    match h : M.step s e with
    | none => isFalse (not_guarded_cons h)
    | some s' =>
      have := decidableGuarded ok s' es
      decidable_of_iff _ (guarded_cons_iff h).symm

theorem run_inv {P : σ → Prop} (hs : ∀ s e s', P s → M.step s e = some s' → P s') :
    ∀ (es : List ε) {s t : σ}, P s → M.run s es = some t → P t
  | [], s, t, h, hr => by cases hr; exact h
  | e :: es, s, t, h, hr => by
    obtain ⟨s', h1, h2⟩ := M.run_cons_eq_some.1 hr
    exact run_inv hs es (hs s e s' h h1) h2

/-- **Invariants**: what holds initially and is preserved by every step holds
    in every reachable state. -/
theorem Reachable.inv {P : σ → Prop} (h₀ : P M.init)
    (hs : ∀ s e s', P s → M.step s e = some s' → P s') {s : σ} (h : M.Reachable s) : P s := by
  obtain ⟨es, hr⟩ := h
  exact run_inv hs es h₀ hr

theorem Reachable.init : M.Reachable M.init := ⟨[], rfl⟩

theorem Reachable.step {s s' : σ} {e : ε} (h : M.Reachable s) (he : M.step s e = some s') :
    M.Reachable s' := by
  obtain ⟨es, hr⟩ := h
  refine ⟨es ++ [e], ?_⟩
  rw [run_append, hr, Option.bind_some, run_cons, he]
  rfl

/-- **Projections**: if every step of a machine is one of another machine behind the
    projection `f`, or is none there, reachable states project to reachable ones. -/
theorem Reachable.map {τ ω : Type*} {N : Machine τ ω} (f : σ → τ) (h₀ : f M.init = N.init)
    (hs : ∀ s e s', M.step s e = some s' → f s' = f s ∨ ∃ e', N.step (f s) e' = some (f s'))
    {s : σ} (h : M.Reachable s) : N.Reachable (f s) := by
  refine h.inv (P := fun s => N.Reachable (f s)) (h₀ ▸ .init) fun s e s' hr he => ?_
  rcases hs s e s' he with hf | ⟨e', he'⟩
  · rw [hf]
    exact hr
  · exact hr.step he'

/-- A run whose events meet the condition in every state. -/
theorem Guarded.of_run {ok : σ → ε → Prop} : ∀ (es : List ε) {s t : σ},
    (∀ e ∈ es, ∀ s, ok s e) → M.run s es = some t → M.Guarded ok s es
  | [], _, _, _, _ => trivial
  | e :: es, s, t, h, hr => by
    obtain ⟨s', h1, h2⟩ := M.run_cons_eq_some.1 hr
    exact ⟨h e List.mem_cons_self s, s', h1,
      Guarded.of_run es (fun e' he' => h e' (List.mem_cons_of_mem _ he')) h2⟩

theorem Guarded.and {ok ok' : σ → ε → Prop} : ∀ {es : List ε} {s : σ}, M.Guarded ok s es →
    M.Guarded ok' s es → M.Guarded (fun s e => ok s e ∧ ok' s e) s es
  | [], _, _, _ => trivial
  | e :: es, s, ⟨hok, s', hstep, hg⟩, ⟨hok', s'', hstep', hg'⟩ => by
    cases hstep.symm.trans hstep'
    exact ⟨⟨hok, hok'⟩, s', hstep, hg.and hg'⟩

/-- **Invariants of guarded runs**: what the steps meeting the condition
    preserve holds along every run of such steps. -/
theorem Guarded.inv {P : σ → Prop} {ok : σ → ε → Prop}
    (hs : ∀ s e s', P s → ok s e → M.step s e = some s' → P s') :
    ∀ (es : List ε) {s t : σ}, P s → M.Guarded ok s es → M.run s es = some t → P t
  | [], s, t, h, _, hr => by cases hr; exact h
  | e :: es, s, t, h, hg, hr => by
    obtain ⟨hok, s', h1, hg'⟩ := hg
    obtain ⟨s'', h1', h2⟩ := M.run_cons_eq_some.1 hr
    rw [h1] at h1'
    cases h1'
    exact Guarded.inv hs es (hs s e s' h hok h1) hg' h2

/-- What a condition implies at every step, where an invariant holds, holds along the runs that
    meet the condition. -/
theorem Guarded.mono {P : σ → Prop} {ok ok' : σ → ε → Prop}
    (hs : ∀ s e s', P s → ok s e → M.step s e = some s' → P s')
    (h : ∀ s e, P s → ok s e → ok' s e) :
    ∀ (es : List ε) {s : σ}, P s → M.Guarded ok s es → M.Guarded ok' s es
  | [], _, _, _ => trivial
  | e :: es, s, hp, hg => by
    obtain ⟨hok, s', hstep, hg'⟩ := hg
    exact ⟨h s e hp hok, s', hstep, Guarded.mono hs h es (hs s e s' hp hok hstep) hg'⟩

/-- In a guarded run, every step is one of its events, and the run goes on from there. -/
theorem Guarded.reaches {ok : σ → ε → Prop} {t : σ} : ∀ (es : List ε) {s : σ},
    M.Guarded ok s es → M.run s es = some t →
    M.Guarded (fun s e => ok s e ∧ e ∈ es ∧ ∃ fs, M.run s fs = some t) s es
  | [], _, _, _ => trivial
  | e :: es, s, hg, hr => by
    obtain ⟨hok, s', hstep, hg'⟩ := hg
    obtain ⟨s'', hstep', hr'⟩ := M.run_cons_eq_some.1 hr
    cases hstep.symm.trans hstep'
    refine ⟨⟨hok, List.mem_cons_self, e :: es, hr⟩, s', hstep, ?_⟩
    exact Guarded.mono (P := fun _ => True) (fun _ _ _ _ _ _ => trivial)
      (fun s e _ h => ⟨h.1, List.mem_cons_of_mem _ h.2.1, h.2.2⟩) es trivial
      (Guarded.reaches es hg' hr')

/-- What the steps of a run cost together. -/
def cost (M : Machine σ ε) (c : σ → ε → ℕ) (s : σ) : List ε → ℕ
  | [] => 0
  | e :: es => c s e + match M.step s e with
    | none => 0
    | some s' => cost M c s' es

/-- **Amortized cost**: if every step pays for what it costs out of the potential `V` and what it
    gets, so does every run. -/
theorem cost_le {P : σ → Prop} {V : σ → ℕ} {c gets : σ → ε → ℕ}
    (hs : ∀ s e s', P s → M.step s e = some s' →
      P s' ∧ c s e + V s' ≤ V s + gets s e) :
    ∀ (es : List ε) {s t : σ}, P s → M.run s es = some t →
      M.cost c s es + V t ≤ V s + M.cost gets s es
  | [], s, t, _, hr => by cases hr; simp [cost]
  | e :: es, s, t, hp, hr => by
    obtain ⟨s', h1, h2⟩ := M.run_cons_eq_some.1 hr
    obtain ⟨hp', hstep⟩ := hs s e s' hp h1
    have ih := cost_le hs es hp' h2
    simp only [cost, h1]
    omega

/-- What is free at every step is free along every run. -/
theorem cost_eq_zero {P : σ → Prop} {c : σ → ε → ℕ}
    (hs : ∀ s e s', P s → M.step s e = some s' → P s' ∧ c s e = 0) :
    ∀ (es : List ε) {s t : σ}, P s → M.run s es = some t → M.cost c s es = 0
  | [], _, _, _, _ => rfl
  | e :: es, s, t, hp, hr => by
    obtain ⟨s', h1, h2⟩ := M.run_cons_eq_some.1 hr
    obtain ⟨hp', hfree⟩ := hs s e s' hp h1
    simp only [cost, h1, hfree, cost_eq_zero hs es hp' h2]

end Machine

/-! ## Refinement -/

/-- The runs of a transition relation with labels. -/
inductive Runs {σ : Type u} {ε : Type v} (T : σ → ε → σ → Prop) : σ → List ε → σ → Prop
  | nil {s} : Runs T s [] s
  | cons {s e s' es t} : T s e s' → Runs T s' es t → Runs T s (e :: es) t

/-- `R` relates a machine whose steps show a label to a transition relation
    over these labels: every step is matched by a transition with its label. -/
def Refines {σ : Type u} {ε : Type v} {τ : Type w} {ω : Type*} (step : σ → ε → σ × ω)
    (T : τ → ε × ω → τ → Prop) (R : σ → τ → Prop) : Prop :=
  ∀ s e t, R s t → ∃ t', T t (e, (step s e).2) t' ∧ R (step s e).1 t'

/-- The state after the events `es` of a total machine, with what each event
    showed. -/
def trace {σ : Type u} {ε : Type v} {ω : Type*} (step : σ → ε → σ × ω) (s : σ) :
    List ε → σ × List (ε × ω)
  | [] => (s, [])
  | e :: es =>
    let r := trace step (step s e).1 es
    (r.1, (e, (step s e).2) :: r.2)

/-- **Every run of a machine that refines a transition relation is one of its
    runs**, with the same labels. -/
theorem Refines.run {σ : Type u} {ε : Type v} {τ : Type w} {ω : Type*} {step : σ → ε → σ × ω}
    {T : τ → ε × ω → τ → Prop} {R : σ → τ → Prop} (h : Refines step T R) :
    ∀ (es : List ε) {s : σ} {t : τ}, R s t →
      ∃ t', Runs T t (trace step s es).2 t' ∧ R (trace step s es).1 t'
  | [], s, t, hR => ⟨t, .nil, hR⟩
  | e :: es, s, t, hR => by
    obtain ⟨t₁, hT, hR₁⟩ := h s e t hR
    obtain ⟨t', hr, hR'⟩ := h.run es hR₁
    exact ⟨t', .cons hT hr, hR'⟩

end DnsBlackhole.Lib
