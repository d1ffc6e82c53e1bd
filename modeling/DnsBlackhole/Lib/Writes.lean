/-
  Writing to keys, one after the other.

  * `writeAll_of_not_mem`: a key that is not written keeps its value;
  * `writeAll_of_mem`: a key that is written once has the value written to it;
  * `writeAll_undo`: writing the old values back to all keys that were written, in any
    order, brings the old values back.
-/
import Mathlib.Data.List.Nodup

namespace DnsBlackhole.Lib

universe u v w
variable {ι : Type u} {κ : Type v} {β : Type w} [DecidableEq κ]

/-- The values after writing `value i` to `key i`, for each `i` of the list. -/
def writeAll (key : ι → κ) (value : ι → β) (f : κ → β) (l : List ι) : κ → β :=
  l.foldl (fun f i => Function.update f (key i) (value i)) f

section
variable {key : ι → κ} {value : ι → β} {f g : κ → β} {i : ι} {l : List ι} {k : κ}

@[simp] theorem writeAll_nil : writeAll key value f [] = f := rfl

@[simp] theorem writeAll_cons :
    writeAll key value f (i :: l) = writeAll key value (Function.update f (key i) (value i)) l :=
  rfl

theorem writeAll_append (l' : List ι) :
    writeAll key value f (l ++ l') = writeAll key value (writeAll key value f l) l' :=
  List.foldl_append

theorem writeAll_of_not_mem (h : k ∉ l.map key) : writeAll key value f l k = f k := by
  induction l generalizing f with
  | nil => rfl
  | cons i l ih =>
    rw [List.map_cons, List.mem_cons, not_or] at h
    rw [writeAll_cons, ih h.2, Function.update_of_ne h.1]

/-- What is written is a value of the list, whatever was there. -/
theorem writeAll_eq_of_forall {b : β} (hb : ∀ i ∈ l, key i = k → value i = b) (h : k ∈ l.map key) :
    writeAll key value f l k = b := by
  induction l generalizing f with
  | nil => cases h
  | cons i l ih =>
    rw [writeAll_cons]
    by_cases hl : k ∈ l.map key
    · exact ih (fun j hj => hb j (List.mem_cons_of_mem _ hj)) hl
    · rw [List.map_cons, List.mem_cons] at h
      have hk : k = key i := h.resolve_right hl
      rw [writeAll_of_not_mem hl, hk, Function.update_self]
      exact hb i List.mem_cons_self hk.symm

theorem writeAll_of_mem (hl : (l.map key).Nodup) (hi : i ∈ l) :
    writeAll key value f l (key i) = value i := by
  refine writeAll_eq_of_forall (fun j hj hkey => ?_) (List.mem_map_of_mem hi)
  rw [List.inj_on_of_nodup_map hl hj hi hkey]

/-- **Undoing**: the old values are written back to every key that has another one. -/
theorem writeAll_undo (hvalue : ∀ i ∈ l, value i = g (key i)) (hf : ∀ k ∉ l.map key, f k = g k) :
    writeAll key value f l = g := by
  funext k
  by_cases hk : k ∈ l.map key
  · exact writeAll_eq_of_forall (fun i hi hkey => hkey ▸ hvalue i hi) hk
  · rw [writeAll_of_not_mem hk, hf k hk]

end

end DnsBlackhole.Lib
