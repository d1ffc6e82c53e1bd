/-
  Computations that keep a state and may fail in it (`EStateM`).

  * `Ends x s Q E`: from `s`, the computation `x` returns with `Q` or fails with `E`;
    the rules take it through the combinators (`Ends.bind`, `Ends.recover`) and
    weaken it (`Ends.mono`);
  * `check` fails where the environment says so, `lift` where a computation without
    a state does, and `recover` handles a failure.
-/
import Mathlib.Tactic.Common

namespace DnsBlackhole.Lib

universe u
variable {ε σ α β : Type u}

/-- What holds when `x` ends, from `s`. -/
def Ends (x : EStateM ε σ α) (s : σ) (Q : α → σ → Prop) (E : ε → σ → Prop) : Prop :=
  match x s with
  | .ok a s' => Q a s'
  | .error e s' => E e s'

/-- A step that fails with the error it is given, if there is one. -/
def check (fault : Option ε) : EStateM ε σ PUnit :=
  match fault with
  | none => pure ⟨⟩
  | some e => throw e

/-- A computation without a state. -/
def lift {ε' : Type u} (f : ε' → ε) (x : Except ε' α) : EStateM ε σ α :=
  match x with
  | .ok a => pure a
  | .error e => throw (f e)

/-- A failure is handled in the state it leaves behind. -/
def recover {ε' : Type u} (x : EStateM ε σ α) (handle : ε → EStateM ε' σ α) : EStateM ε' σ α :=
  fun s => match x s with
    | .ok a s' => .ok a s'
    | .error e s' => handle e s'

/-- The state that a computation leaves behind, and its error. -/
def outcome (x : EStateM ε σ α) (s : σ) : σ × Option ε :=
  match x s with
  | .ok _ s' => (s', none)
  | .error e s' => (s', some e)

namespace Ends
variable {x : EStateM ε σ α} {s : σ} {Q Q' : α → σ → Prop} {E E' : ε → σ → Prop}

theorem mono (h : Ends x s Q E) (hQ : ∀ a s', Q a s' → Q' a s') (hE : ∀ e s', E e s' → E' e s') :
    Ends x s Q' E' := by
  unfold Ends at h ⊢
  cases hx : x s with
  | ok a s' =>
    rw [hx] at h
    exact hQ a s' h
  | error e s' =>
    rw [hx] at h
    exact hE e s' h

theorem and (h : Ends x s Q E) (h' : Ends x s Q' E') :
    Ends x s (fun a s' => Q a s' ∧ Q' a s') (fun e s' => E e s' ∧ E' e s') := by
  unfold Ends at h h' ⊢
  cases hx : x s with
  | ok a s' =>
    rw [hx] at h h'
    exact ⟨h, h'⟩
  | error e s' =>
    rw [hx] at h h'
    exact ⟨h, h'⟩

theorem outcome {Q : σ → Prop} (h : Ends x s (fun _ s' => Q s') E) :
    (∀ e, (Lib.outcome x s).2 = some e → E e (Lib.outcome x s).1) ∧
      ((Lib.outcome x s).2 = none → Q (Lib.outcome x s).1) := by
  unfold Ends at h
  unfold Lib.outcome
  cases hx : x s with
  | ok a s' =>
    rw [hx] at h
    exact ⟨nofun, fun _ => h⟩
  | error e s' =>
    rw [hx] at h
    refine ⟨fun e' he' => ?_, nofun⟩
    cases he'
    exact h

theorem outcome_always {Q : σ → Prop} (h : Ends x s (fun _ s' => Q s') fun _ s' => Q s') :
    Q (Lib.outcome x s).1 := by
  unfold Ends at h
  unfold Lib.outcome
  cases hx : x s with
  | ok a s' =>
    rw [hx] at h
    exact h
  | error e s' =>
    rw [hx] at h
    exact h

theorem false_elim (h : Ends x s (fun _ _ => False) fun _ _ => False) : False := by
  unfold Ends at h
  cases hx : x s with
  | ok a s' =>
    rw [hx] at h
    exact h
  | error e s' =>
    rw [hx] at h
    exact h

theorem pure {a : α} (h : Q a s) : Ends (Pure.pure a : EStateM ε σ α) s Q E := h

theorem bind {f : α → EStateM ε σ β} {R : β → σ → Prop} (h : Ends x s Q E')
    (hE : ∀ e s', E' e s' → E e s') (hf : ∀ a s', Q a s' → Ends (f a) s' R E) :
    Ends (x >>= f) s R E := by
  change match EStateM.bind x f s with
    | .ok a s' => R a s'
    | .error e s' => E e s'
  unfold Ends at h
  unfold EStateM.bind
  cases hx : x s with
  | ok a s' =>
    rw [hx] at h
    exact hf a s' h
  | error e s' =>
    rw [hx] at h
    exact hE e s' h

theorem throw {e : ε} (h : E e s) : Ends (MonadExcept.throw e : EStateM ε σ α) s Q E := h

theorem modify_bind {g : σ → σ} {f : PUnit → EStateM ε σ α} (h : Ends (f ⟨⟩) (g s) Q E) :
    Ends (modify g >>= f) s Q E := h

theorem modify {f : σ → σ} {Q : PUnit → σ → Prop} (h : Q ⟨⟩ (f s)) :
    Ends (modify f : EStateM ε σ PUnit) s Q E := h

theorem set {s' : σ} {Q : PUnit → σ → Prop} (h : Q ⟨⟩ s') :
    Ends (MonadStateOf.set s' : EStateM ε σ PUnit) s Q E := h

theorem get_bind {f : σ → EStateM ε σ α} (h : Ends (f s) s Q E) :
    Ends (MonadState.get >>= f) s Q E := h

theorem check {fault : Option ε} {Q : PUnit → σ → Prop} (herror : ∀ e, fault = some e → E e s)
    (hok : fault = none → Q ⟨⟩ s) : Ends (check fault) s Q E := by
  cases fault with
  | none => exact hok rfl
  | some e => exact herror e rfl

theorem check_bind {fault : Option ε} {f : PUnit → EStateM ε σ α}
    (herror : ∀ e, fault = some e → E e s) (hok : fault = none → Ends (f ⟨⟩) s Q E) :
    Ends (Lib.check fault >>= f) s Q E := by
  cases fault with
  | none => exact hok rfl
  | some e => exact herror e rfl

theorem lift {ε' : Type u} {g : ε' → ε} {x : Except ε' α} (herror : ∀ e, x = .error e → E (g e) s)
    (hok : ∀ a, x = .ok a → Q a s) : Ends (lift g x) s Q E := by
  cases x with
  | ok a => exact hok a rfl
  | error e => exact herror e rfl

theorem lift_bind {ε' : Type u} {g : ε' → ε} {x : Except ε' β} {f : β → EStateM ε σ α}
    (herror : ∀ e, x = .error e → E (g e) s) (hok : ∀ b, x = .ok b → Ends (f b) s Q E) :
    Ends (Lib.lift g x >>= f) s Q E := by
  cases x with
  | ok b => exact hok b rfl
  | error e => exact herror e rfl

theorem recover {ε' : Type u} {handle : ε → EStateM ε' σ α} {F : ε' → σ → Prop} (h : Ends x s Q E)
    (hE : ∀ e s', E e s' → Ends (handle e) s' Q F) : Ends (recover x handle) s Q F := by
  unfold Ends at h ⊢
  unfold Lib.recover
  cases hx : x s with
  | ok a s' =>
    rw [hx] at h
    exact h
  | error e s' =>
    rw [hx] at h
    exact hE e s' h

end Ends

end DnsBlackhole.Lib
