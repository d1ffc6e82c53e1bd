/-
  Computations of atomic steps, each of which may fail or be the last one.

  A script says at which steps that happens, and whether a step that fails was done
  nevertheless; with the empty script, every step succeeds.

  * `Always x s Q E D`: whatever the script, from `s` the computation returns with `Q`, fails
    with `E` or dies with `D`;
  * `Succeeds x s Q` and `Fails x s e t`: where every step succeeds, the computation returns
    with `Q`, or fails all the same;
  * these are taken through the combinators by rules (`Always.bind`, `Succeeds.bind`).
-/
import Mathlib.Tactic.Common

namespace DnsBlackhole.Lib

universe u
variable {ε σ α β : Type u}

inductive Fault (ε : Type u) : Type u
  | fails (error : ε) (done : Bool)
  | dies (done : Bool)

/-- What happens at the steps to come. -/
abbrev Script (ε : Type u) := List (Option (Fault ε))

/-- How a computation ends, with the script for the steps behind it. -/
inductive Ending (ε σ α : Type u) : Type u
  | returned (a : α) (rest : Script ε) (s : σ)
  | failed (e : ε) (rest : Script ε) (s : σ)
  | died (s : σ)

/-- The state that is left behind. -/
def Ending.state : Ending ε σ α → σ
  | returned _ _ s | failed _ _ s | died s => s

/-- What is returned, with the state behind it. -/
def Ending.returned? : Ending ε σ α → Option (α × σ)
  | returned a _ s => some (a, s)
  | failed _ _ _ | died _ => none

theorem Ending.returned?_eq_some {x : Ending ε σ α} {r : α × σ} :
    x.returned? = some r ↔ ∃ rest, x = .returned r.1 rest r.2 := by
  cases x with
  | returned a rest s =>
    constructor
    · rintro ⟨⟩
      exact ⟨rest, rfl⟩
    · rintro ⟨rest', h⟩
      cases h
      rfl
  | failed e rest s => exact iff_of_false (fun h => by cases h) fun ⟨_, h⟩ => by cases h
  | died s => exact iff_of_false (fun h => by cases h) fun ⟨_, h⟩ => by cases h

def Steps (ε σ α : Type u) := Script ε → σ → Ending ε σ α

namespace Steps

protected def bind (x : Steps ε σ α) (f : α → Steps ε σ β) : Steps ε σ β := fun script s =>
  match x script s with
  | .returned a rest s' => f a rest s'
  | .failed e rest s' => .failed e rest s'
  | .died s' => .died s'

instance : Monad (Steps ε σ) where
  pure a := fun script s => .returned a script s
  bind := Steps.bind

def get : Steps ε σ σ := fun script s => .returned s script s

def throw (e : ε) : Steps ε σ α := fun script s => .failed e script s

/-- A computation that looks at nothing. -/
def lift : Except ε α → Steps ε σ α
  | .ok a => pure a
  | .error e => throw e

/-- One atomic step. -/
def step (f : σ → σ) : Steps ε σ PUnit := fun script s =>
  match script with
  | [] => .returned ⟨⟩ [] (f s)
  | none :: rest => .returned ⟨⟩ rest (f s)
  | some (.fails e done) :: rest => .failed e rest (if done then f s else s)
  | some (.dies done) :: _ => .died (if done then f s else s)

/-- A step that changes nothing. -/
def probe : Steps ε σ PUnit := step id

/-- A failure is a result; there is none when the process dies. -/
def attempt (x : Steps ε σ α) : Steps ε σ (Except ε α) := fun script s =>
  match x script s with
  | .returned a rest s' => .returned (.ok a) rest s'
  | .failed e rest s' => .returned (.error e) rest s'
  | .died s' => .died s'

/-- What holds at each end, whatever the script. -/
structure Always (x : Steps ε σ α) (s : σ) (Q : α → σ → Prop) (E : ε → σ → Prop) (D : σ → Prop) :
    Prop where
  ends : ∀ script, match x script s with
    | .returned a _ s' => Q a s'
    | .failed e _ s' => E e s'
    | .died s' => D s'

/-- What holds at the end, where every step succeeds. -/
def Succeeds (x : Steps ε σ α) (s : σ) (Q : α → σ → Prop) : Prop :=
  ∃ a s', x [] s = .returned a [] s' ∧ Q a s'

/-! ## Whatever the script -/

namespace Always
variable {x : Steps ε σ α} {s : σ} {Q Q' : α → σ → Prop} {E E' : ε → σ → Prop} {D D' : σ → Prop}

theorem mono (h : Always x s Q E D) (hQ : ∀ a s', Q a s' → Q' a s')
    (hE : ∀ e s', E e s' → E' e s') (hD : ∀ s', D s' → D' s') : Always x s Q' E' D' := by
  refine ⟨fun script => ?_⟩
  have h := h.ends script
  cases hx : x script s with
  | returned a rest s' =>
    rw [hx] at h
    exact hQ a s' h
  | failed e rest s' =>
    rw [hx] at h
    exact hE e s' h
  | died s' =>
    rw [hx] at h
    exact hD s' h

theorem trivially (x : Steps ε σ α) (s : σ) :
    Always x s (fun _ _ => True) (fun _ _ => True) fun _ => True :=
  ⟨fun script => by split <;> trivial⟩

theorem and (h : Always x s Q E D) (h' : Always x s Q' E' D') :
    Always x s (fun a s' => Q a s' ∧ Q' a s') (fun e s' => E e s' ∧ E' e s')
      (fun s' => D s' ∧ D' s') := by
  refine ⟨fun script => ?_⟩
  have h := h.ends script
  have h' := h'.ends script
  cases hx : x script s with
  | returned a rest s' =>
    rw [hx] at h h'
    exact ⟨h, h'⟩
  | failed e rest s' =>
    rw [hx] at h h'
    exact ⟨h, h'⟩
  | died s' =>
    rw [hx] at h h'
    exact ⟨h, h'⟩

theorem pure {a : α} (h : Q a s) : Always (Pure.pure a : Steps ε σ α) s Q E D := ⟨fun _ => h⟩

theorem throw {e : ε} (h : E e s) : Always (Steps.throw e : Steps ε σ α) s Q E D := ⟨fun _ => h⟩

theorem throw_bind {f : α → Steps ε σ β} {R : β → σ → Prop} {e : ε} (h : E e s) :
    Always (Steps.throw e >>= f) s R E D := ⟨fun _ => h⟩

theorem bind {f : α → Steps ε σ β} {R : β → σ → Prop} (h : Always x s Q E' D')
    (hE : ∀ e s', E' e s' → E e s') (hD : ∀ s', D' s' → D s')
    (hf : ∀ a s', Q a s' → Always (f a) s' R E D) : Always (x >>= f) s R E D := by
  refine ⟨fun script => ?_⟩
  have h := h.ends script
  change match Steps.bind x f script s with
    | .returned b _ s' => R b s'
    | .failed e _ s' => E e s'
    | .died s' => D s'
  unfold Steps.bind
  cases hx : x script s with
  | returned a rest s' =>
    rw [hx] at h
    exact (hf a s' h).ends rest
  | failed e rest s' =>
    rw [hx] at h
    exact hE e s' h
  | died s' =>
    rw [hx] at h
    exact hD s' h

/-- `bind`, where the first computation fails and dies as both do. -/
theorem andThen {f : α → Steps ε σ β} {R : β → σ → Prop} (h : Always x s Q E D)
    (hf : ∀ a s', Q a s' → Always (f a) s' R E D) : Always (x >>= f) s R E D :=
  h.bind (fun _ _ he => he) (fun _ hd => hd) hf

theorem get_bind {f : σ → Steps ε σ α} (h : Always (f s) s Q E D) :
    Always (Steps.get >>= f) s Q E D := ⟨h.ends⟩

theorem lift {r : Except ε α} (hok : ∀ a, r = .ok a → Q a s) (herror : ∀ e, r = .error e → E e s) :
    Always (Steps.lift r) s Q E D := by
  cases r with
  | ok a => exact pure (hok a rfl)
  | error e => exact throw (herror e rfl)

theorem step {f : σ → σ} {Q : PUnit → σ → Prop} (hdone : Q ⟨⟩ (f s)) (hE : ∀ e, E e s ∧ E e (f s))
    (hD : D s ∧ D (f s)) : Always (Steps.step f) s Q E D := by
  refine ⟨fun script => ?_⟩
  unfold Steps.step
  rcases script with _ | ⟨_ | (⟨e, done⟩ | done), rest⟩
  · exact hdone
  · exact hdone
  · cases done with
    | false => exact (hE e).1
    | true => exact (hE e).2
  · cases done with
    | false => exact hD.1
    | true => exact hD.2

theorem probe {Q : PUnit → σ → Prop} (hdone : Q ⟨⟩ s) (hE : ∀ e, E e s) (hD : D s) :
    Always Steps.probe s Q E D := step hdone (fun e => ⟨hE e, hE e⟩) ⟨hD, hD⟩

theorem attempt {Q : Except ε α → σ → Prop}
    (h : Always x s (fun a s' => Q (.ok a) s') (fun e s' => Q (.error e) s') D) :
    Always (Steps.attempt x) s Q E D := by
  refine ⟨fun script => ?_⟩
  have h := h.ends script
  unfold Steps.attempt
  cases hx : x script s with
  | returned a rest s' =>
    rw [hx] at h
    exact h
  | failed e rest s' =>
    rw [hx] at h
    exact h
  | died s' =>
    rw [hx] at h
    exact h

theorem attempt_bind {f : Except ε α → Steps ε σ β} {R : β → σ → Prop} (h : Always x s Q E' D)
    (hok : ∀ a s', Q a s' → Always (f (.ok a)) s' R E D)
    (herror : ∀ e s', E' e s' → Always (f (.error e)) s' R E D) :
    Always (Steps.attempt x >>= f) s R E D := by
  refine andThen (Q := fun r s' => (∀ a, r = .ok a → Q a s') ∧ ∀ e, r = .error e → E' e s')
    (attempt (h.mono ?_ ?_ fun _ hd => hd)) fun r s' hr => ?_
  · exact fun a s' ha => ⟨fun _ hok => Except.ok.inj hok ▸ ha, fun _ herror => by cases herror⟩
  · exact fun e s' he => ⟨fun _ hok => (by cases hok), fun _ herror => Except.error.inj herror ▸ he⟩
  cases r with
  | ok a => exact hok a s' (hr.1 a rfl)
  | error e => exact herror e s' (hr.2 e rfl)

/-- An invariant that holds wherever the computation ends holds in the state behind it. -/
theorem state {I : σ → Prop} (h : Always x s (fun _ s' => I s') (fun _ s' => I s') I)
    (script : Script ε) : I (x script s).state := by
  have h := h.ends script
  cases hx : x script s with
  | returned a rest s' =>
    rw [hx] at h
    exact h
  | failed e rest s' =>
    rw [hx] at h
    exact h
  | died s' =>
    rw [hx] at h
    exact h

end Always

/-! ## Where every step succeeds -/

namespace Succeeds
variable {x : Steps ε σ α} {s : σ} {Q Q' : α → σ → Prop}

theorem mono (h : Succeeds x s Q) (hQ : ∀ a s', Q a s' → Q' a s') : Succeeds x s Q' := by
  obtain ⟨a, s', hx, ha⟩ := h
  exact ⟨a, s', hx, hQ a s' ha⟩

/-- What always holds where a computation returns holds where it succeeds. -/
theorem of_always {E : ε → σ → Prop} {D : σ → Prop} (h : Succeeds x s fun _ _ => True)
    (hx : Always x s Q E D) : Succeeds x s Q := by
  obtain ⟨a, s', hreturned, -⟩ := h
  have ha := hx.ends []
  rw [hreturned] at ha
  exact ⟨a, s', hreturned, ha⟩

theorem pure {a : α} (h : Q a s) : Succeeds (Pure.pure a : Steps ε σ α) s Q := ⟨a, s, rfl, h⟩

theorem bind {f : α → Steps ε σ β} {R : β → σ → Prop} (h : Succeeds x s Q)
    (hf : ∀ a s', Q a s' → Succeeds (f a) s' R) : Succeeds (x >>= f) s R := by
  obtain ⟨a, s', hx, ha⟩ := h
  obtain ⟨b, s'', hb, hr⟩ := hf a s' ha
  refine ⟨b, s'', ?_, hr⟩
  change Steps.bind x f [] s = _
  rw [Steps.bind, hx]
  exact hb

theorem get_bind {f : σ → Steps ε σ α} (h : Succeeds (f s) s Q) : Succeeds (Steps.get >>= f) s Q := h

theorem step {f : σ → σ} {Q : PUnit → σ → Prop} (h : Q ⟨⟩ (f s)) :
    Succeeds (Steps.step f : Steps ε σ PUnit) s Q := ⟨⟨⟩, f s, rfl, h⟩

theorem probe {Q : PUnit → σ → Prop} (h : Q ⟨⟩ s) :
    Succeeds (Steps.probe : Steps ε σ PUnit) s Q := step h

theorem attempt {Q : Except ε α → σ → Prop} (h : Succeeds x s fun a s' => Q (.ok a) s') :
    Succeeds (Steps.attempt x) s Q := by
  obtain ⟨a, s', hx, ha⟩ := h
  refine ⟨.ok a, s', ?_, ha⟩
  rw [Steps.attempt, hx]

end Succeeds

/-! ## Where every step succeeds, and the computation fails -/

/-- With no step failing, the computation fails with `e` in `t`. -/
def Fails (x : Steps ε σ α) (s : σ) (e : ε) (t : σ) : Prop := x [] s = .failed e [] t

namespace Fails
variable {x : Steps ε σ α} {f : α → Steps ε σ β} {s t : σ} {e : ε}

theorem throw : Fails (Steps.throw e : Steps ε σ α) s e s := rfl

theorem get_bind {f : σ → Steps ε σ α} (h : Fails (f s) s e t) : Fails (Steps.get >>= f) s e t := h

theorem bind (h : Fails x s e t) : Fails (x >>= f) s e t := by
  change Steps.bind x f [] s = _
  rw [Steps.bind, show x [] s = .failed e [] t from h]

theorem bind_of_succeeds {Q : α → σ → Prop} (h : Succeeds x s Q)
    (hf : ∀ a s', Q a s' → Fails (f a) s' e t) : Fails (x >>= f) s e t := by
  obtain ⟨a, s', hx, ha⟩ := h
  change Steps.bind x f [] s = _
  rw [Steps.bind, hx]
  exact hf a s' ha

end Fails

end Steps

end DnsBlackhole.Lib
