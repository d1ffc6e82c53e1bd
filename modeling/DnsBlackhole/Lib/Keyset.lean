/-
  Reading rows page by page, each page after the last row of the one before.

  The rows are read in the order of their keys.  Every page is read from a table
  of its own, since rows may come and go between two requests.

  * `page size cursor rows` are the first `size` rows after the cursor, and
    `HasMore` says that there are others;
  * `Walk size cursor tables pages`: the pages that are read from the tables, one
    from each, until there are no others;
  * `Walk.pairwise`: the keys of the rows that are read increase;
  * `Walk.mem`: a row that is in every table is read;
  * `exists_walk`: in a table that does not change, the walk ends, and all rows
    are read in their order.
-/
import Mathlib.Data.List.Sort

namespace DnsBlackhole.Lib.Keyset

variable {α κ : Type*} [LinearOrder κ] (key : α → κ)

/-! ## Pages -/

def After (cursor : Option κ) (row : α) : Prop := ∀ k ∈ cursor, k < key row

instance (cursor : Option κ) (row : α) : Decidable (After key cursor row) :=
  match cursor with
  | none => isTrue fun _ h => by cases h
  | some k => decidable_of_iff (k < key row) (by simp [After])

def inOrder (rows : List α) : List α := rows.insertionSort fun a b => key a ≤ key b

/-- The rows after the cursor. -/
def rest (cursor : Option κ) (rows : List α) : List α := rows.filter fun row => After key cursor row

def page (size : ℕ) (cursor : Option κ) (rows : List α) : List α :=
  (inOrder key (rest key cursor rows)).take size

def HasMore (size : ℕ) (cursor : Option κ) (rows : List α) : Prop :=
  size < (rest key cursor rows).length

instance (size : ℕ) (cursor : Option κ) (rows : List α) : Decidable (HasMore key size cursor rows) :=
  inferInstanceAs (Decidable (_ < _))

/-- The pages from a cursor on, each of its own table. -/
inductive Walk (size : ℕ) : Option κ → List (List α) → List (List α) → Prop
  | last {cursor : Option κ} {rows : List α} (hmore : ¬ HasMore key size cursor rows) :
    Walk size cursor [rows] [page key size cursor rows]
  | next {cursor : Option κ} {rows : List α} {row : α} {tables pages : List (List α)}
    (hmore : HasMore key size cursor rows) (hlast : (page key size cursor rows).getLast? = some row)
    (hrest : Walk size (some (key row)) tables pages) :
    Walk size cursor (rows :: tables) (page key size cursor rows :: pages)

variable {key} {size : ℕ} {cursor : Option κ} {rows : List α}

/-! ## One page -/

theorem perm_inOrder (rows : List α) : (inOrder key rows).Perm rows := List.perm_insertionSort ..

theorem pairwise_inOrder (rows : List α) :
    (inOrder key rows).Pairwise fun a b => key a ≤ key b := by
  have : Std.Total fun a b : α => key a ≤ key b := ⟨fun a b => le_total _ _⟩
  have : IsTrans α fun a b => key a ≤ key b := ⟨fun a b c => le_trans⟩
  exact List.pairwise_insertionSort ..

theorem mem_rest {row : α} : row ∈ rest key cursor rows ↔ row ∈ rows ∧ After key cursor row := by
  rw [rest, List.mem_filter, decide_eq_true_iff]

theorem mem_of_mem_page {row : α} (h : row ∈ page key size cursor rows) :
    row ∈ rows ∧ After key cursor row :=
  mem_rest.1 ((perm_inOrder _).mem_iff.1 (List.mem_of_mem_take h))

/-- If the keys are different, each is less than the next. -/
theorem pairwise_lt_inOrder {rows : List α} (hn : (rows.map key).Nodup) :
    (inOrder key rows).Pairwise fun a b => key a < key b := by
  have hne : (inOrder key rows).Pairwise fun a b => key a ≠ key b :=
    List.pairwise_map.1 (((perm_inOrder rows).map key).nodup_iff.2 hn)
  exact (pairwise_inOrder rows).imp₂ (fun _ _ => lt_of_le_of_ne) hne

theorem pairwise_page (hn : (rows.map key).Nodup) :
    (page key size cursor rows).Pairwise fun a b => key a < key b := by
  refine (pairwise_lt_inOrder ?_).sublist (List.take_sublist _ _)
  exact hn.sublist (List.filter_sublist.map key)

theorem length_page_of_hasMore (hmore : HasMore key size cursor rows) :
    (page key size cursor rows).length = size := by
  rw [page, List.length_take, (perm_inOrder _).length_eq]
  exact Nat.min_eq_left (Nat.le_of_lt hmore)

theorem page_of_not_hasMore (hmore : ¬ HasMore key size cursor rows) :
    page key size cursor rows = inOrder key (rest key cursor rows) := by
  refine List.take_of_length_le ?_
  rw [(perm_inOrder _).length_eq]
  exact Nat.le_of_not_lt hmore

/-- A row after the cursor is on the page, or after the last row of the page. -/
theorem mem_page_or_after {row last : α} (hrow : row ∈ rows) (hafter : After key cursor row)
    (hlast : (page key size cursor rows).getLast? = some last) (hn : (rows.map key).Nodup) :
    row ∈ page key size cursor rows ∨ key last < key row := by
  have hmem : row ∈ inOrder key (rest key cursor rows) :=
    (perm_inOrder _).mem_iff.2 (mem_rest.2 ⟨hrow, hafter⟩)
  have hsorted := pairwise_lt_inOrder (hn.sublist (List.filter_sublist.map key) :
    ((rest key cursor rows).map key).Nodup)
  rw [← List.take_append_drop size (inOrder key (rest key cursor rows))] at hmem hsorted
  rcases List.mem_append.1 hmem with hmem | hmem
  · exact .inl hmem
  · exact .inr ((List.pairwise_append.1 hsorted).2.2 last (List.mem_of_getLast? hlast) row hmem)

/-! ## All pages -/

variable {tables pages : List (List α)}

theorem Walk.mem_table (h : Walk key size cursor tables pages) {row : α}
    (hrow : row ∈ pages.flatten) : After key cursor row ∧ ∃ rows ∈ tables, row ∈ rows := by
  induction h with
  | last hmore =>
    rw [List.flatten_singleton] at hrow
    obtain ⟨hmem, hafter⟩ := mem_of_mem_page hrow
    exact ⟨hafter, _, List.mem_cons_self, hmem⟩
  | @next cursor _ last _ _ hmore hlast hrest ih =>
    rw [List.flatten_cons, List.mem_append] at hrow
    rcases hrow with hrow | hrow
    · obtain ⟨hmem, hafter⟩ := mem_of_mem_page hrow
      exact ⟨hafter, _, List.mem_cons_self, hmem⟩
    · obtain ⟨hafter, rows', hrows', hmem⟩ := ih hrow
      -- the last row of the first page is after the cursor itself
      have hfirst := (mem_of_mem_page (List.mem_of_getLast? hlast)).2
      refine ⟨fun k hk => ?_, rows', List.mem_cons_of_mem _ hrows', hmem⟩
      exact (hfirst k hk).trans (hafter _ rfl)

/-- **The keys increase**, so no row is read twice. -/
theorem Walk.pairwise (h : Walk key size cursor tables pages)
    (hn : ∀ rows ∈ tables, (rows.map key).Nodup) :
    pages.flatten.Pairwise fun a b => key a < key b := by
  induction h with
  | last hmore =>
    rw [List.flatten_singleton]
    exact pairwise_page (hn _ List.mem_cons_self)
  | @next cursor rows last _ _ hmore hlast hrest ih =>
    have hpage : (page key size cursor rows).Pairwise fun a b => key a < key b :=
      pairwise_page (hn _ List.mem_cons_self)
    rw [List.flatten_cons, List.pairwise_append]
    refine ⟨hpage, ih fun rows' hrows' => hn rows' (List.mem_cons_of_mem _ hrows'), ?_⟩
    intro a ha b hb
    -- no row of the page is after its last one
    have hle : key a ≤ key last := by
      obtain ⟨before, heq⟩ := List.getLast?_eq_some_iff.1 hlast
      rw [heq] at ha hpage
      rcases List.mem_append.1 ha with ha | ha
      · exact ((List.pairwise_append.1 hpage).2.2 a ha last (List.mem_singleton_self _)).le
      · exact (congrArg key (List.mem_singleton.1 ha)).le
    exact hle.trans_lt ((hrest.mem_table hb).1 _ rfl)

/-- **A row that is in every table is read.** -/
theorem Walk.mem (h : Walk key size cursor tables pages)
    (hn : ∀ rows ∈ tables, (rows.map key).Nodup) {row : α} (hrow : ∀ rows ∈ tables, row ∈ rows)
    (hafter : After key cursor row) : row ∈ pages.flatten := by
  induction h with
  | last hmore =>
    rw [List.flatten_singleton, page_of_not_hasMore hmore, (perm_inOrder _).mem_iff]
    exact mem_rest.2 ⟨hrow _ List.mem_cons_self, hafter⟩
  | next hmore hlast hrest ih =>
    rw [List.flatten_cons, List.mem_append]
    rcases mem_page_or_after (hrow _ List.mem_cons_self) hafter hlast (hn _ List.mem_cons_self)
      with hpage | hlt
    · exact .inl hpage
    · refine .inr (ih (fun rows' h => hn rows' (List.mem_cons_of_mem _ h))
        (fun rows' h => hrow rows' (List.mem_cons_of_mem _ h)) fun k hk => ?_)
      cases hk
      exact hlt

theorem Walk.length_eq (h : Walk key size cursor tables pages) {page' : List α}
    (hpage : page' ∈ pages.dropLast) : page'.length = size := by
  induction h with
  | last hmore => cases hpage
  | @next _ _ _ _ pages hmore hlast hrest ih =>
    cases pages with
    | nil => cases hpage
    | cons second pages =>
      rw [List.dropLast_cons_cons] at hpage
      rcases List.mem_cons.1 hpage with rfl | hpage
      · exact length_page_of_hasMore hmore
      · exact ih hpage

/-- In a table that does not change, all rows after the cursor are read, in their order. -/
theorem Walk.flatten_eq {n : ℕ} (h : Walk key size cursor (List.replicate n rows) pages)
    (hn : (rows.map key).Nodup) : pages.flatten = inOrder key (rest key cursor rows) := by
  have hn' : ∀ rows' ∈ List.replicate n rows, (rows'.map key).Nodup := fun rows' hrows' => by
    rw [List.eq_of_mem_replicate hrows']
    exact hn
  have hwalk := h.pairwise hn'
  have hall := pairwise_lt_inOrder (hn.sublist (List.filter_sublist.map key) :
    ((rest key cursor rows).map key).Nodup)
  have hnodup : ∀ {l : List α}, l.Pairwise (fun a b => key a < key b) → l.Nodup := fun hl =>
    hl.imp fun hlt heq => absurd (congrArg key heq) hlt.ne
  refine List.Perm.eq_of_pairwise (fun a b _ _ hab hba => absurd hba hab.asymm) hwalk hall ?_
  refine (List.perm_ext_iff_of_nodup (hnodup hwalk) (hnodup hall)).2 fun row => ?_
  rw [(perm_inOrder _).mem_iff, mem_rest]
  constructor
  · intro hrow
    obtain ⟨hafter, rows', hrows', hmem⟩ := h.mem_table hrow
    rw [List.eq_of_mem_replicate hrows'] at hmem
    exact ⟨hmem, hafter⟩
  · rintro ⟨hrow, hafter⟩
    refine h.mem hn' (fun rows' hrows' => ?_) hafter
    rw [List.eq_of_mem_replicate hrows']
    exact hrow

/-- **A table that does not change** is read to its end. -/
theorem exists_walk (hsize : 0 < size) (cursor : Option κ) (rows : List α) :
    ∃ pages, Walk key size cursor (List.replicate pages.length rows) pages := by
  -- every page leaves fewer rows after its last one
  induction hm : (rest key cursor rows).length using Nat.strong_induction_on generalizing cursor with
  | _ m ih =>
    by_cases hmore : HasMore key size cursor rows
    · have hne : page key size cursor rows ≠ [] := fun hnil => by
        have hlen := length_page_of_hasMore hmore
        rw [hnil] at hlen
        exact hsize.ne hlen
      have hlast := List.getLast?_eq_some_getLast hne
      obtain ⟨hmem, hafter⟩ := mem_of_mem_page (List.getLast_mem hne)
      have hfewer : (rest key (some (key ((page key size cursor rows).getLast hne))) rows).length <
          (rest key cursor rows).length := by
        have hsub : rest key (some (key ((page key size cursor rows).getLast hne))) rows =
            rest key (some (key ((page key size cursor rows).getLast hne)))
              (rest key cursor rows) := by
          rw [rest, rest, rest, List.filter_filter]
          refine List.filter_congr fun row _ => ?_
          rw [← Bool.decide_and]
          refine decide_eq_decide.2 ⟨fun h => ⟨h, fun k hk => (hafter k hk).trans (h _ rfl)⟩, And.left⟩
        rw [hsub]
        refine List.length_filter_lt_length_iff_exists.2
          ⟨_, mem_rest.2 ⟨hmem, hafter⟩, fun h => ?_⟩
        exact lt_irrefl _ (of_decide_eq_true h _ rfl)
      obtain ⟨pages, hpages⟩ := ih _ (hm ▸ hfewer) _ rfl
      exact ⟨_ :: pages, .next hmore hlast hpages⟩
    · exact ⟨[_], .last hmore⟩

end DnsBlackhole.Lib.Keyset
