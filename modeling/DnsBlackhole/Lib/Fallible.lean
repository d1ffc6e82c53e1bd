/-
  Computations that may fail.

  * `bind_eq_ok` and its kin take a computation that returned apart into the
    steps that returned;
  * `foldlM_inv` is the invariant rule of a loop whose body may fail;
  * `Returns x y`: what `x` returns, `y` returns too, whatever their errors are;
  * `Parallel R x y`: `x` and `y` return results that `R` relates, or fail with the
    same error.
-/
import Mathlib.Data.List.Forall2

namespace DnsBlackhole.Lib

universe u v

section
variable {ε ε' : Type u} {α β : Type v} {x : Except ε α}

theorem bind_eq_ok {f : α → Except ε β} {b : β} :
    x >>= f = .ok b ↔ ∃ a, x = .ok a ∧ f a = .ok b := by
  cases x <;> simp [bind, Except.bind]

theorem mapError_eq_ok {f : ε → ε'} {a : α} : x.mapError f = .ok a ↔ x = .ok a := by
  cases x <;> simp [Except.mapError]

theorem toOption_eq_some {a : α} : x.toOption = some a ↔ x = .ok a := by
  cases x <;> simp [Except.toOption]

theorem pure_eq_ok {a b : α} : (pure a : Except ε α) = .ok b ↔ a = b := by
  simp [pure, Except.pure]

theorem ok_bind (a : α) (f : α → Except ε β) : (.ok a : Except ε α) >>= f = f a := rfl

/-! ## Loops -/

theorem foldlM_cons_eq_ok {f : β → α → Except ε β} {a : α} {l : List α} {b c : β} :
    (a :: l).foldlM f b = .ok c ↔ ∃ b', f b a = .ok b' ∧ l.foldlM f b' = .ok c := by
  rw [List.foldlM_cons, bind_eq_ok]

/-- **Invariants of loops**: what the body preserves, the loop preserves. -/
theorem foldlM_inv {P : β → Prop} {f : β → α → Except ε β} {l : List α}
    (hf : ∀ b, ∀ a ∈ l, ∀ b', P b → f b a = .ok b' → P b') {b c : β} (hb : P b)
    (h : l.foldlM f b = .ok c) : P c := by
  induction l generalizing b with
  | nil =>
    cases pure_eq_ok.1 h
    exact hb
  | cons a l ih =>
    obtain ⟨b', hstep, hrest⟩ := foldlM_cons_eq_ok.1 h
    exact ih (fun b a' ha' => hf b a' (List.mem_cons_of_mem _ ha'))
      (hf b a List.mem_cons_self b' hb hstep) hrest

/-- A loop that returns has returned from its body for each element. -/
theorem exists_of_mem_foldlM {f : β → α → Except ε β} {l : List α} {b c : β}
    (h : l.foldlM f b = .ok c) {a : α} (ha : a ∈ l) : ∃ b₁ b₂, f b₁ a = .ok b₂ := by
  induction l generalizing b with
  | nil => cases ha
  | cons first l ih =>
    obtain ⟨b', hstep, hrest⟩ := foldlM_cons_eq_ok.1 h
    rcases List.mem_cons.1 ha with rfl | ha
    · exact ⟨b, b', hstep⟩
    · exact ih hrest ha

theorem exists_of_mem_foldlM_option {f : β → α → Option β} {l : List α} {b c : β}
    (h : l.foldlM f b = some c) {a : α} (ha : a ∈ l) : ∃ b₁ b₂, f b₁ a = some b₂ := by
  induction l generalizing b with
  | nil => cases ha
  | cons first l ih =>
    rw [List.foldlM_cons] at h
    obtain ⟨b', hstep, hrest⟩ := Option.bind_eq_some_iff.1 h
    rcases List.mem_cons.1 ha with rfl | ha
    · exact ⟨b, b', hstep⟩
    · exact ih hrest ha

/-- A loop that returns where another one does, without its errors. -/
theorem foldlM_option {f : β → α → Except ε β} {g : β → α → Option β} {l : List α}
    (hfg : ∀ a ∈ l, ∀ b b', f b a = .ok b' → g b a = some b') {b c : β}
    (h : l.foldlM f b = .ok c) : l.foldlM g b = some c := by
  induction l generalizing b with
  | nil =>
    cases pure_eq_ok.1 h
    rfl
  | cons a l ih =>
    obtain ⟨b', hstep, hrest⟩ := foldlM_cons_eq_ok.1 h
    rw [List.foldlM_cons, hfg a List.mem_cons_self b b' hstep]
    exact ih (fun a' ha' => hfg a' (List.mem_cons_of_mem _ ha')) hrest

theorem mapM_eq_ok {f : α → Except ε β} {g : α → β} : ∀ {l : List α},
    (∀ a ∈ l, f a = .ok (g a)) → l.mapM f = .ok (l.map g)
  | [], _ => rfl
  | a :: l, h => by
    rw [List.mapM_cons, h a List.mem_cons_self, ok_bind,
      mapM_eq_ok fun a' ha' => h a' (List.mem_cons_of_mem _ ha')]
    rfl

theorem exists_of_mem_mapM {f : α → Except ε β} {b : β} {l : List α} {l' : List β}
    (h : l.mapM f = .ok l') (hb : b ∈ l') : ∃ a ∈ l, f a = .ok b := by
  induction l generalizing l' with
  | nil =>
    cases pure_eq_ok.1 h
    cases hb
  | cons a l ih =>
    rw [List.mapM_cons] at h
    obtain ⟨first, hfirst, h⟩ := bind_eq_ok.1 h
    obtain ⟨rest, hrest, h⟩ := bind_eq_ok.1 h
    cases pure_eq_ok.1 h
    rcases List.mem_cons.1 hb with rfl | hb
    · exact ⟨a, List.mem_cons_self, hfirst⟩
    · obtain ⟨a', ha', hvalue⟩ := ih hrest hb
      exact ⟨a', List.mem_cons_of_mem _ ha', hvalue⟩

theorem forall₂_of_mapM {f : α → Except ε β} : ∀ {l : List α} {l' : List β}, l.mapM f = .ok l' →
    List.Forall₂ (fun a b => f a = .ok b) l l'
  | [], l', h => by
    cases pure_eq_ok.1 h
    exact .nil
  | a :: l, l', h => by
    rw [List.mapM_cons] at h
    obtain ⟨first, hfirst, h⟩ := bind_eq_ok.1 h
    obtain ⟨rest, hrest, h⟩ := bind_eq_ok.1 h
    cases pure_eq_ok.1 h
    exact .cons hfirst (forall₂_of_mapM hrest)

theorem exists_ok_of_mapM {f : α → Except ε β} {l : List α} {l' : List β} (h : l.mapM f = .ok l')
    {a : α} (ha : a ∈ l) : ∃ b, f a = .ok b := by
  induction l generalizing l' with
  | nil => cases ha
  | cons first l ih =>
    rw [List.mapM_cons] at h
    obtain ⟨b, hfirst, h⟩ := bind_eq_ok.1 h
    obtain ⟨rest, hrest, -⟩ := bind_eq_ok.1 h
    rcases List.mem_cons.1 ha with rfl | ha
    · exact ⟨b, hfirst⟩
    · exact ih hrest ha

theorem eq_map_of_mapM {f : α → Except ε β} {g : α → β} {l : List α} {l' : List β}
    (h : l.mapM f = .ok l') (hg : ∀ a ∈ l, ∀ b, f a = .ok b → b = g a) : l' = l.map g := by
  induction l generalizing l' with
  | nil =>
    cases pure_eq_ok.1 h
    rfl
  | cons a l ih =>
    rw [List.mapM_cons] at h
    obtain ⟨first, hfirst, h⟩ := bind_eq_ok.1 h
    obtain ⟨rest, hrest, h⟩ := bind_eq_ok.1 h
    cases pure_eq_ok.1 h
    rw [hg a List.mem_cons_self first hfirst,
      ih hrest fun a' ha' => hg a' (List.mem_cons_of_mem _ ha'), List.map_cons]

/-! ## Returning the same -/

/-- What `x` returns, `y` returns. -/
def Returns (x : Except ε α) (y : Except ε' α) : Prop := ∀ a, x = .ok a → y = .ok a

theorem Returns.refl (x : Except ε α) : Returns x x := fun _ h => h

theorem Returns.bind {y : Except ε' α} {f : α → Except ε β} {g : α → Except ε' β}
    (h : Returns x y) (hf : ∀ a, Returns (f a) (g a)) : Returns (x >>= f) (y >>= g) := by
  intro b hb
  obtain ⟨a, hx, hfa⟩ := bind_eq_ok.1 hb
  exact bind_eq_ok.2 ⟨a, h a hx, hf a b hfa⟩

end

/-! ## Two computations in parallel -/

/-- Related results, or the same error. -/
inductive Parallel {ε : Type u} {α β : Type v} (R : α → β → Prop) : Except ε α → Except ε β → Prop
  | ok {a : α} {b : β} (h : R a b) : Parallel R (.ok a) (.ok b)
  | error (e : ε) : Parallel R (.error e) (.error e)

namespace Parallel
variable {ε : Type u} {α β γ : Type v} {R : α → α → Prop}

theorem bind_left {x : Except ε α} {f g : α → Except ε β} {S : β → β → Prop}
    (hf : ∀ a, Parallel S (f a) (g a)) : Parallel S (x >>= f) (x >>= g) := by
  cases x with
  | error e => exact .error e
  | ok a => exact hf a

theorem bind {x y : Except ε α} {f g : α → Except ε β} {S : β → β → Prop} (h : Parallel R x y)
    (hf : ∀ a b, R a b → Parallel S (f a) (g b)) : Parallel S (x >>= f) (y >>= g) := by
  cases h with
  | error e => exact .error e
  | ok h => exact hf _ _ h

theorem foldlM {f : α → γ → Except ε α} {l : List γ}
    (hf : ∀ a b c, R a b → Parallel R (f a c) (f b c)) {a b : α} (h : R a b) :
    Parallel R (l.foldlM f a) (l.foldlM f b) := by
  induction l generalizing a b with
  | nil => exact .ok h
  | cons c l ih =>
    rw [List.foldlM_cons, List.foldlM_cons]
    exact (hf a b c h).bind fun a' b' h' => ih h'

theorem toOption {x y : Except ε α} (h : Parallel R x y) : Option.Rel R x.toOption y.toOption := by
  cases h with
  | error e => exact .none
  | ok h => exact .some h

end Parallel

theorem mapM_eq_some {α β : Type*} {f : α → Option β} {l : List α} {l' : List β} :
    l.mapM f = some l' ↔ List.Forall₂ (fun a b => f a = some b) l l' := by
  induction l generalizing l' with
  | nil =>
    rw [List.mapM_nil, List.forall₂_nil_left_iff]
    exact ⟨fun h => (Option.some.inj h).symm, fun h => congrArg some h.symm⟩
  | cons a l ih =>
    rw [List.mapM_cons, List.forall₂_cons_left_iff]
    constructor
    · intro h
      obtain ⟨b, hb, h⟩ := Option.bind_eq_some_iff.1 h
      obtain ⟨bs, hbs, h⟩ := Option.bind_eq_some_iff.1 h
      exact ⟨b, bs, hb, ih.1 hbs, (Option.some.inj h).symm⟩
    · rintro ⟨b, bs, hb, hbs, rfl⟩
      rw [hb, ih.2 hbs]
      rfl

/-- A loop that fills what is read of its state unless there is something already:
    the first one that has something to fill in. -/
theorem foldl_or {σ α ι : Type*} (read : σ → Option α) {step : σ → ι → σ} {f : ι → Option α}
    (h : ∀ s i, read (step s i) = (read s).or (f i)) (l : List ι) (s : σ) :
    read (l.foldl step s) = (read s).or (l.findSome? f) := by
  induction l generalizing s with
  | nil => rw [List.foldl_nil, List.findSome?_nil, Option.or_none]
  | cons i l ih =>
    rw [List.foldl_cons, ih, h, Option.or_assoc, List.findSome?_cons]
    cases f i with
    | none => rfl
    | some a => rfl

end DnsBlackhole.Lib
