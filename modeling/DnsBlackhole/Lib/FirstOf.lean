/-
  The first element of each class of a list.

  `firstOf f l` keeps, of the elements of `l` with one value of `f`, the
  first (`List.eraseDupsBy`).  What only depends on the class is not changed
  by it: the first match (`find?_firstOf`) and the matches of a filter
  (`filter_firstOf`).
-/
import Mathlib.Data.List.Basic

namespace DnsBlackhole.Lib

variable {α β κ κ' : Type*} [DecidableEq κ] [DecidableEq κ']

/-- Of the elements with one value of `f`, the first. -/
def firstOf (f : α → κ) (l : List α) : List α := l.eraseDupsBy fun a b => f a == f b

@[simp] theorem firstOf_nil (f : α → κ) : firstOf f [] = [] := rfl

theorem firstOf_cons (f : α → κ) (a : α) (l : List α) :
    firstOf f (a :: l) = a :: firstOf f (l.filter fun b => f b ≠ f a) := by
  simp [firstOf, List.eraseDupsBy_cons]

/-- Induction for `firstOf`, whose recursion is on a filtered tail. -/
theorem firstOf_induction {P : List α → Prop} (f : α → κ) (nil : P [])
    (cons : ∀ a l, P (l.filter fun b => f b ≠ f a) → P (a :: l)) (l : List α) : P l := by
  induction hn : l.length using Nat.strongRecOn generalizing l with
  | ind n ih =>
    cases l with
    | nil => exact nil
    | cons a l =>
      have hlt : (l.filter fun b => f b ≠ f a).length < n := by
        have := List.length_filter_le (fun b => decide (f b ≠ f a)) l
        simp only [List.length_cons] at hn; omega
      exact cons a l (ih _ hlt _ rfl)

theorem firstOf_sublist (f : α → κ) (l : List α) : (firstOf f l).Sublist l := by
  induction l using firstOf_induction f with
  | nil => exact List.Sublist.refl []
  | cons a l ih =>
    rw [firstOf_cons]
    exact (ih.trans List.filter_sublist).cons_cons a

theorem mem_of_mem_firstOf {f : α → κ} {l : List α} {a : α} (h : a ∈ firstOf f l) : a ∈ l :=
  (firstOf_sublist f l).subset h

theorem exists_mem_firstOf {f : α → κ} {l : List α} {a : α} (h : a ∈ l) :
    ∃ b ∈ firstOf f l, f b = f a := by
  induction l using firstOf_induction f with
  | nil => cases h
  | cons c l ih =>
    rw [firstOf_cons]
    by_cases hc : f a = f c
    · exact ⟨c, List.mem_cons_self, hc.symm⟩
    · rcases List.mem_cons.1 h with rfl | h
      · exact absurd rfl hc
      · obtain ⟨b, hb, hfb⟩ := ih (List.mem_filter.2 ⟨h, by simpa using hc⟩)
        exact ⟨b, List.mem_cons_of_mem _ hb, hfb⟩

theorem filter_firstOf {f : α → κ} {p : α → Bool} (hp : ∀ a b, f a = f b → p a = p b)
    (l : List α) : (firstOf f l).filter p = firstOf f (l.filter p) := by
  induction l using firstOf_induction f with
  | nil => rfl
  | cons a l ih =>
    have hcomm : (l.filter fun b => f b ≠ f a).filter p =
        (l.filter p).filter fun b => f b ≠ f a := by
      rw [List.filter_filter, List.filter_filter]
      exact List.filter_congr fun b _ => Bool.and_comm _ _
    rw [firstOf_cons]
    by_cases h : p a
    · rw [List.filter_cons_of_pos h, List.filter_cons_of_pos h, firstOf_cons, ih, hcomm]
    · rw [List.filter_cons_of_neg h, List.filter_cons_of_neg h, ih, hcomm]
      -- no element of the class of `a` is left by `p`
      refine congrArg _ (List.filter_eq_self.2 fun b hb => ?_)
      have hpb := (List.mem_filter.1 hb).2
      simp only [ne_eq, decide_not, Bool.not_eq_eq_eq_not, Bool.not_true, decide_eq_false_iff_not]
      exact fun he => h ((hp b a he) ▸ hpb)

theorem find?_firstOf {f : α → κ} {p : α → Bool} (hp : ∀ a b, f a = f b → p a = p b)
    (l : List α) : (firstOf f l).find? p = l.find? p := by
  rw [← List.head?_filter, ← List.head?_filter, filter_firstOf hp]
  cases l.filter p with
  | nil => rfl
  | cons a l => rw [firstOf_cons]; rfl

theorem any_firstOf {f : α → κ} {p : α → Bool} (hp : ∀ a b, f a = f b → p a = p b)
    (l : List α) : (firstOf f l).any p = l.any p := by
  rw [← List.isSome_find?, ← List.isSome_find?, find?_firstOf hp]

theorem firstOf_append (f : α → κ) (l m : List α) :
    firstOf f (l ++ m) = firstOf f l ++ firstOf f (m.filter fun b => ∀ a ∈ l, f b ≠ f a) := by
  induction l using firstOf_induction f generalizing m with
  | nil => simp
  | cons a l ih =>
    have hfil : ∀ b ∈ m, (decide (∀ c ∈ l.filter fun b => f b ≠ f a, f b ≠ f c) &&
        decide (f b ≠ f a)) = decide (∀ c ∈ a :: l, f b ≠ f c) := by
      intro b _
      by_cases hb : f b = f a
      · simp [hb]
      · simp only [List.mem_filter, List.mem_cons, forall_eq_or_imp, hb, ne_eq, decide_not,
          Bool.not_eq_eq_eq_not, Bool.not_true, decide_eq_false_iff_not, not_false_eq_true,
          true_and, decide_true, Bool.and_true, decide_eq_decide]
        exact ⟨fun h c hc he => h c ⟨hc, fun hca => hb (he.trans hca)⟩ he,
          fun h c hc => h c hc.1⟩
    rw [List.cons_append, firstOf_cons, firstOf_cons, List.filter_append, ih, List.cons_append,
      List.filter_filter, List.filter_congr hfil]

theorem firstOf_concat (f : α → κ) (l : List α) (x : α) :
    firstOf f (l ++ [x]) = if ∃ a ∈ l, f a = f x then firstOf f l else firstOf f l ++ [x] := by
  rw [firstOf_append]
  split_ifs with h
  · obtain ⟨a, ha, hx⟩ := h
    have : ¬ ∀ c ∈ l, f x ≠ f c := fun h => h a ha hx.symm
    simp [this]
  · have : ∀ c ∈ l, f x ≠ f c := fun c hc hx => h ⟨c, hc, hx.symm⟩
    rw [List.filter_eq_self.2 (by simpa using this), firstOf_cons]
    rfl

/-- The representatives of the joined list are those of the two parts, less
    the ones of the second part already represented in the first. -/
theorem firstOf_append_filter (f : α → κ) (l m : List α) :
    firstOf f (l ++ m) = firstOf f l ++ (firstOf f m).filter fun b => ∀ a ∈ l, f b ≠ f a := by
  rw [firstOf_append, filter_firstOf]
  intro a b h
  simp only [h]

/-- If `f` tells apart what comes from different keys, the representatives
    are taken key by key. -/
theorem firstOf_flatMap {f : α → κ} {ks : List β} {g : β → List α} (hn : ks.Nodup)
    (hg : ∀ k ∈ ks, ∀ k' ∈ ks, k ≠ k' → ∀ a ∈ g k, ∀ b ∈ g k', f a ≠ f b) :
    firstOf f (ks.flatMap g) = ks.flatMap fun k => firstOf f (g k) := by
  induction ks with
  | nil => rfl
  | cons k ks ih =>
    obtain ⟨hk, hn⟩ := List.nodup_cons.1 hn
    rw [List.flatMap_cons, List.flatMap_cons, firstOf_append, ← ih hn fun k' h₁ k'' h₂ =>
      hg k' (List.mem_cons_of_mem _ h₁) k'' (List.mem_cons_of_mem _ h₂)]
    refine congrArg (fun x => firstOf f (g k) ++ firstOf f x) (List.filter_eq_self.2 fun b hb => ?_)
    obtain ⟨k', hk', hb⟩ := List.mem_flatMap.1 hb
    simp only [decide_eq_true_eq]
    exact fun a ha => hg k' (List.mem_cons_of_mem _ hk') k List.mem_cons_self
      (fun h => hk (h ▸ hk')) b hb a ha

/-- Taking representatives of the classes of a finer `f` first does not change
    those of a coarser `g`. -/
theorem firstOf_firstOf {f : α → κ} {g : α → κ'} (h : ∀ a b, f a = f b → g a = g b)
    (l : List α) : firstOf g (firstOf f l) = firstOf g l := by
  induction hn : l.length using Nat.strongRecOn generalizing l with
  | ind n ih =>
    cases l with
    | nil => rfl
    | cons a l =>
      rw [firstOf_cons, firstOf_cons, firstOf_cons, filter_firstOf fun x y hxy => by rw [h x y hxy],
        List.filter_filter]
      have hsame : (l.filter fun b => decide (g b ≠ g a) && decide (f b ≠ f a)) =
          l.filter fun b => decide (g b ≠ g a) := by
        refine List.filter_congr fun b _ => ?_
        by_cases hb : g b = g a
        · simp [hb]
        · have : f b ≠ f a := fun he => hb (h b a he)
          simp [hb, this]
      rw [hsame, ih _ ?_ _ rfl]
      have := List.length_filter_le (fun b => decide (g b ≠ g a)) l
      simp only [List.length_cons] at hn; omega

theorem firstOf_append_firstOf (f : α → κ) (l m : List α) :
    firstOf f (firstOf f l ++ firstOf f m) = firstOf f (l ++ m) := by
  have hid : ∀ l : List α, firstOf f (firstOf f l) = firstOf f l :=
    firstOf_firstOf fun _ _ h => h
  rw [firstOf_append_filter, firstOf_append_filter, hid, hid]
  refine congrArg (_ ++ ·) (List.filter_congr fun b _ => decide_eq_decide.2 ?_)
  constructor
  · intro h a ha
    obtain ⟨c, hc, hca⟩ := exists_mem_firstOf (f := f) ha
    exact hca ▸ h c hc
  · exact fun h a ha => h a (mem_of_mem_firstOf ha)

theorem pairwise_firstOf (f : α → κ) (l : List α) :
    (firstOf f l).Pairwise fun a b => f a ≠ f b := by
  induction l using firstOf_induction f with
  | nil => exact List.Pairwise.nil
  | cons a l ih =>
    rw [firstOf_cons]
    refine List.Pairwise.cons (fun b hb => ?_) ih
    have hne := (List.mem_filter.1 (mem_of_mem_firstOf hb)).2
    exact fun h => by simp [h] at hne

theorem firstOf_eq_self {f : α → κ} {l : List α} (h : l.Pairwise fun a b => f a ≠ f b) :
    firstOf f l = l := by
  induction l with
  | nil => rfl
  | cons a l ih =>
    obtain ⟨ha, hl⟩ := List.pairwise_cons.1 h
    have hfil : (l.filter fun b => f b ≠ f a) = l :=
      List.filter_eq_self.2 fun b hb => by simpa using fun he => ha b hb he.symm
    rw [firstOf_cons, hfil, ih hl]

theorem firstOf_congr {f : α → κ} {g : α → κ'} {l : List α}
    (h : ∀ a ∈ l, ∀ b ∈ l, f a = f b ↔ g a = g b) : firstOf f l = firstOf g l := by
  induction l using firstOf_induction f with
  | nil => rfl
  | cons a l ih =>
    have hfil : (l.filter fun b => f b ≠ f a) = l.filter fun b => g b ≠ g a :=
      List.filter_congr fun b hb => by
        simp only [ne_eq, h b (List.mem_cons_of_mem _ hb) a List.mem_cons_self]
    have hsub : ∀ b ∈ l.filter fun b => f b ≠ f a, b ∈ a :: l :=
      fun b hb => List.mem_cons_of_mem _ (List.mem_filter.1 hb).1
    rw [firstOf_cons, firstOf_cons, ih fun b hb c hc => h b (hsub b hb) c (hsub c hc), hfil]

theorem firstOf_filterMap (g : α → Option κ) (l : List α) :
    firstOf id (l.filterMap g) = (firstOf g l).filterMap g := by
  induction l using firstOf_induction g with
  | nil => rfl
  | cons a l ih =>
    have hfil : (l.filter fun b => g b ≠ g a).filterMap g =
        (l.filterMap g).filter fun x => some x ≠ g a := by
      rw [List.filterMap_filter, List.filter_filterMap]
      refine List.filterMap_congr fun b _ => ?_
      cases hb : g b with
      | none => simp
      | some x => by_cases hx : g a = some x <;> simp [Option.filter_some, hx, eq_comm]
    rw [firstOf_cons]
    cases ha : g a with
    | none =>
      rw [List.filterMap_cons_none ha, List.filterMap_cons_none ha]
      rw [ha] at ih hfil
      rw [← ih, hfil]
      simp
    | some x =>
      rw [List.filterMap_cons_some ha, List.filterMap_cons_some ha, firstOf_cons]
      rw [ha] at ih hfil
      rw [← ih, hfil]
      simp

end DnsBlackhole.Lib
