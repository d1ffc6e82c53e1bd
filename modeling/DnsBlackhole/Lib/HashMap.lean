/-
  Finite maps with one entry per key (`AList`), as the hash maps of the
  program use them.

  * `retain p m` keeps the entries with `p`;
  * `sumBy f m` adds up `f` over the values; inserting, erasing and retaining
    change it by what they add and remove (`sumBy_insert`, `sumBy_erase`,
    `sumBy_retain`);
  * an `IterOrder` is a choice of the order in which the entries of a map are
    visited, which a hash map leaves open.
-/
import Mathlib.Data.List.AList
import Mathlib.Algebra.BigOperators.Group.List.Basic
import Mathlib.Algebra.GroupWithZero.Nat

namespace DnsBlackhole.Lib

/-- A finite map from `K` to `V`. -/
abbrev HashMap (K V : Type*) := AList fun _ : K => V

namespace HashMap
variable {K V : Type*}

/-- The entries `e` with `p e`. -/
def retain (p : (_ : K) × V → Bool) (m : HashMap K V) : HashMap K V :=
  ⟨m.entries.filter p, m.nodupKeys.sublist List.filter_sublist⟩

/-- The sum of `f` over the values of `m`. -/
def sumBy (f : V → ℕ) (m : HashMap K V) : ℕ := (m.entries.map fun e => f e.2).sum

@[simp] theorem sumBy_empty (f : V → ℕ) : sumBy f (∅ : HashMap K V) = 0 := rfl

/-- What is kept and what is dropped add up to the whole. -/
theorem sumBy_retain (f : V → ℕ) (p : (_ : K) × V → Bool) (m : HashMap K V) :
    sumBy f (m.retain p) + ((m.entries.filter fun e => !p e).map fun e => f e.2).sum =
      sumBy f m := by
  simp only [sumBy, retain]
  induction m.entries with
  | nil => rfl
  | cons e l ih => cases h : p e <;> simp [h] <;> omega

theorem mem_entries_retain {p : (_ : K) × V → Bool} {m : HashMap K V} {e : (_ : K) × V} :
    e ∈ (m.retain p).entries ↔ e ∈ m.entries ∧ p e := List.mem_filter

variable [DecidableEq K]

theorem lookup_eq_some_iff {m : HashMap K V} {k : K} {v : V} :
    m.lookup k = some v ↔ ⟨k, v⟩ ∈ m.entries := AList.mem_lookup_iff

theorem lookup_retain {p : (_ : K) × V → Bool} {m : HashMap K V} {k : K} {v : V} :
    (m.retain p).lookup k = some v ↔ m.lookup k = some v ∧ p ⟨k, v⟩ := by
  rw [lookup_eq_some_iff, mem_entries_retain, lookup_eq_some_iff]

theorem entries_perm_erase {m : HashMap K V} {k : K} {v : V} (h : m.lookup k = some v) :
    m.entries.Perm (⟨k, v⟩ :: (m.erase k).entries) := by
  obtain ⟨v', l₁, l₂, -, h₁, h₂⟩ := List.exists_of_kerase
    (AList.mem_keys.1 (AList.lookup_isSome.1 (by rw [h]; rfl)) : k ∈ m.entries.keys)
  have hv : v' = v := by
    have : (⟨k, v'⟩ : (_ : K) × V) ∈ m.entries := by rw [h₁]; simp
    simpa [h] using (lookup_eq_some_iff.2 this).symm
  subst hv
  change m.entries.Perm (⟨k, v'⟩ :: m.entries.kerase k)
  rw [h₂, h₁]
  exact List.perm_middle

theorem sumBy_erase (f : V → ℕ) {m : HashMap K V} {k : K} {v : V} (h : m.lookup k = some v) :
    f v + sumBy f (m.erase k) = sumBy f m := by
  have := ((entries_perm_erase h).map fun e => f e.2).sum_nat
  simpa [sumBy] using this.symm

theorem sumBy_erase_of_lookup_none (f : V → ℕ) {m : HashMap K V} {k : K} (h : m.lookup k = none) :
    sumBy f (m.erase k) = sumBy f m := by
  have : (m.erase k).entries = m.entries :=
    List.kerase_of_notMem_keys fun hk => AList.lookup_eq_none.1 h hk
  rw [sumBy, this, sumBy]

theorem sumBy_insert (f : V → ℕ) (m : HashMap K V) (k : K) (v : V) :
    sumBy f (m.insert k v) = f v + sumBy f (m.erase k) := by
  rw [sumBy, AList.entries_insert, List.map_cons, List.sum_cons]
  rfl

/-- Storing into an entry without changing what is summed. -/
theorem sumBy_insert_of_eq {f : V → ℕ} {m : HashMap K V} {k : K} {v v' : V}
    (h : m.lookup k = some v) (hf : f v' = f v) : sumBy f (m.insert k v') = sumBy f m := by
  rw [sumBy_insert, hf, sumBy_erase f h]

theorem lookup_insert_eq_ite (m : HashMap K V) (k k' : K) (v : V) :
    (m.insert k v).lookup k' = if k' = k then some v else m.lookup k' := by
  split_ifs with h
  · rw [h, AList.lookup_insert]
  · rw [AList.lookup_insert_ne h]

theorem lookup_erase_eq_ite (m : HashMap K V) (k k' : K) :
    (m.erase k).lookup k' = if k' = k then none else m.lookup k' := by
  split_ifs with h
  · rw [h, AList.lookup_erase]
  · rw [AList.lookup_erase_ne h]

end HashMap

/-- An order in which the entries of a hash map may be visited: any
    rearrangement of them. -/
structure IterOrder (α : Type*) where
  order : List α → List α
  perm : ∀ l, (order l).Perm l

theorem IterOrder.mem_order {α : Type*} (o : IterOrder α) {l : List α} {a : α} :
    a ∈ o.order l ↔ a ∈ l := (o.perm l).mem_iff

end DnsBlackhole.Lib
