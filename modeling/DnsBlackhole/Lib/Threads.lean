/-
  Lists of threads, of which one moves at a time.

  A thread is known by its index; that it moves sets the entry at the index.
  `countP_set_add` and `filterMap_set` say what this does to a number of threads
  and to what is read off them.
-/
import Mathlib.Data.List.Basic

namespace DnsBlackhole.Lib

variable {α β : Type*} {threads : List α} {i : ℕ} {a b : α}

/-- The thread that moves leaves one count and enters the other. -/
theorem countP_set_add (h : threads[i]? = some a) (p : α → Bool) :
    (threads.set i b).countP p + (if p a then 1 else 0) =
      threads.countP p + if p b then 1 else 0 := by
  obtain ⟨hi, rfl⟩ := List.getElem?_eq_some_iff.1 h
  have hle : (if p threads[i] then 1 else 0) ≤ threads.countP p := by
    split_ifs with hp
    · exact List.countP_pos_iff.2 ⟨_, List.getElem_mem hi, hp⟩
    · exact Nat.zero_le _
  rw [List.countP_set hi]
  omega

theorem filterMap_set (h : threads[i]? = some a) {f : α → Option β} (hf : f b = f a) :
    (threads.set i b).filterMap f = threads.filterMap f := by
  obtain ⟨hi, rfl⟩ := List.getElem?_eq_some_iff.1 h
  have hmap : (threads.set i b).map f = threads.map f := by
    rw [List.map_set, hf, ← List.getElem_map f (h := by rwa [List.length_map]),
      List.set_getElem_self]
  have hid : ∀ l : List α, l.filterMap f = (l.map f).filterMap id := fun l =>
    (List.filterMap_map (f := f) (g := id)).symm
  rw [hid, hmap, ← hid]

theorem exists_mem_set {p : α → Prop} (h : threads[i]? = some a) (ha : ¬ p a)
    (hex : ∃ c ∈ threads, p c) : ∃ c ∈ threads.set i b, p c := by
  obtain ⟨c, hc, hp⟩ := hex
  obtain ⟨j, hj, rfl⟩ := List.getElem_of_mem hc
  have hne : i ≠ j := by
    rintro rfl
    rw [List.getElem?_eq_getElem hj] at h
    exact ha (Option.some.inj h ▸ hp)
  refine ⟨threads[j], List.mem_iff_getElem?.2 ⟨j, ?_⟩, hp⟩
  rw [List.getElem?_set_ne hne, List.getElem?_eq_getElem hj]

theorem forall_mem_set {p : α → Prop} (h : ∀ c ∈ threads, p c) (hb : p b) :
    ∀ c ∈ threads.set i b, p c := by
  intro c hc
  rcases List.mem_or_eq_of_mem_set hc with hc | rfl
  · exact h c hc
  · exact hb

end DnsBlackhole.Lib
