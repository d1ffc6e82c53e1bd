/-
  Reading records one after the other from a sequence of bytes.

  `read o` is the record at the offset `o`, if there is one, and `next r` is
  the offset where it ends.

  * `Walk o rs e`: the records `rs` are read from `o` on, the last one ending
    at `e`; with a given number of records it is a function of `o`
    (`Walk.unique`);
  * `repeatN f n`: `n` iterations of a loop body that may fail;
  * `recordStep update`: the body of a loop that reads a record and updates
    what it has collected; its iterations are a fold over a walk
    (`repeatN_recordStep`).
-/
import Mathlib.Data.List.Basic

namespace DnsBlackhole.Lib

/-- `n` iterations of `f`, stopping at the first failure. -/
def repeatN {σ : Type*} (f : σ → Option σ) : ℕ → σ → Option σ
  | 0, s => some s
  | n + 1, s => (f s).bind (repeatN f n)

theorem repeatN_succ_eq_some {σ : Type*} {f : σ → Option σ} {n : ℕ} {s t : σ} :
    repeatN f (n + 1) s = some t ↔ ∃ s', f s = some s' ∧ repeatN f n s' = some t :=
  Option.bind_eq_some_iff

section
variable {ρ α : Type*} (read : ℕ → Option ρ) (next : ρ → ℕ)

/-- The records `rs` are read one after the other from `o`, up to `e`. -/
def Walk : ℕ → List ρ → ℕ → Prop
  | o, [], e => o = e
  | o, r :: rs, e => read o = some r ∧ Walk (next r) rs e

/-- Read the record at the cursor, update what has been collected, and move on. -/
def recordStep (update : α → ρ → Option α) (s : ℕ × α) : Option (ℕ × α) :=
  (read s.1).bind fun r => (update s.2 r).map fun a => (next r, a)

variable {read next}

theorem walk_append {rs rs' : List ρ} {o e : ℕ} :
    Walk read next o (rs ++ rs') e ↔ ∃ m, Walk read next o rs m ∧ Walk read next m rs' e := by
  induction rs generalizing o with
  | nil => simp [Walk]
  | cons r rs ih => simp [Walk, ih, and_assoc]

theorem Walk.unique {rs rs' : List ρ} {o e e' : ℕ} (h : Walk read next o rs e)
    (h' : Walk read next o rs' e') (hl : rs.length = rs'.length) : rs = rs' ∧ e = e' := by
  induction rs generalizing o rs' with
  | nil =>
    cases rs' with
    | nil => exact ⟨rfl, h.symm.trans h'⟩
    | cons r' rs' => cases hl
  | cons r rs ih =>
    cases rs' with
    | nil => cases hl
    | cons r' rs' =>
      obtain ⟨hr, hw⟩ := h
      obtain ⟨hr', hw'⟩ := h'
      cases hr.symm.trans hr'
      obtain ⟨rfl, rfl⟩ := ih hw hw' (by simpa using hl)
      exact ⟨rfl, rfl⟩

/-- A walk with fewer records is the beginning of the other one. -/
theorem Walk.append_of_le {rs rs' : List ρ} {o e e' : ℕ} (h : Walk read next o rs e)
    (h' : Walk read next o rs' e') (hl : rs.length ≤ rs'.length) :
    ∃ zs, rs' = rs ++ zs ∧ Walk read next e zs e' := by
  rw [← List.take_append_drop rs.length rs'] at h'
  obtain ⟨m, hm, hz⟩ := walk_append.1 h'
  obtain ⟨he, rfl⟩ := h.unique hm (by rw [List.length_take]; omega)
  refine ⟨rs'.drop rs.length, ?_, hz⟩
  calc rs' = rs'.take rs.length ++ rs'.drop rs.length := (List.take_append_drop _ _).symm
    _ = rs ++ rs'.drop rs.length := congrArg (· ++ _) he.symm

/-- **The iterations of `recordStep`** are a walk and a fold over its records. -/
theorem repeatN_recordStep {update : α → ρ → Option α} {n o e : ℕ} {a b : α} :
    repeatN (recordStep read next update) n (o, a) = some (e, b) ↔
      ∃ rs, rs.length = n ∧ Walk read next o rs e ∧ rs.foldlM update a = some b := by
  induction n generalizing o a with
  | zero =>
    constructor
    · intro h; cases h; exact ⟨[], rfl, rfl, rfl⟩
    · rintro ⟨rs, hn, hw, hf⟩
      obtain rfl := List.length_eq_zero_iff.1 hn
      cases hw; cases hf; rfl
  | succ n ih =>
    rw [repeatN_succ_eq_some]
    constructor
    · rintro ⟨⟨o', a'⟩, hs, hr⟩
      obtain ⟨r, hread, hu⟩ := Option.bind_eq_some_iff.1 hs
      obtain ⟨a'', hu, he⟩ := Option.map_eq_some_iff.1 hu
      cases he
      obtain ⟨rs, hn, hw, hf⟩ := ih.1 hr
      exact ⟨r :: rs, by rw [List.length_cons, hn], ⟨hread, hw⟩, by
        rw [List.foldlM_cons, hu]; exact hf⟩
    · rintro ⟨rs, hn, hw, hf⟩
      cases rs with
      | nil => cases hn
      | cons r rs =>
        obtain ⟨hread, hw⟩ := hw
        rw [List.foldlM_cons] at hf
        obtain ⟨a', hu, hf⟩ := Option.bind_eq_some_iff.1 hf
        refine ⟨(next r, a'), ?_, ih.2 ⟨rs, by simpa using hn, hw, hf⟩⟩
        simp only [recordStep, hread, hu, Option.bind_some, Option.map_some]

end

end DnsBlackhole.Lib
