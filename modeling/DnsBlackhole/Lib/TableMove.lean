/-
  Moving the rows of old names to new ones, in two statements for each name.

  * A `Step` copies the rows of an old name under a new one (`copyWhere`), or
    deletes those of the old name; `moveSteps` are the steps of a list of moves;
  * `runSteps_again`: running the steps before an interruption once more changes
    nothing if the rows are `Settled`, that is, no row is left under an old name
    but those just copied, and these measure nothing;
  * `settled_of_sameRows`: if no new name is an old one too, nothing less will
    do;
  * `total_moveSteps`: complete moves keep the sum over all rows.
-/
import DnsBlackhole.Lib.TableCopy

namespace DnsBlackhole.Lib.Table

variable {ν κ α : Type*}

/-- Keys with a name in them. -/
structure Naming (ν κ : Type*) where
  isNamed : ν → κ → Bool
  rename : ν → κ → κ
  isNamed_rename : ∀ {old new key}, isNamed old key → isNamed new (rename new key)
  rename_rename : ∀ {old new key}, isNamed old key → rename old (rename new key) = key
  eq_of_isNamed : ∀ {a b key}, isNamed a key → isNamed b key → a = b

/-- How a row is copied, and merged into another one. -/
structure Merging (α : Type*) where
  merge : α → α → α
  copied : α → α
  /-- What a row counts. -/
  measure : α → ℕ
  measure_merge : ∀ a b, measure (merge a b) = measure a + measure b
  measure_copied : ∀ b, measure (copied b) = measure b
  merge_self : ∀ {b}, measure b = 0 → merge (copied b) (copied b) = copied b
  merge_again : ∀ {a b}, measure b = 0 → merge (merge a (copied b)) (copied b) = merge a (copied b)

inductive Step (ν : Type*)
  | copy (old new : ν)
  | delete (old : ν)
  deriving DecidableEq

def Step.old : Step ν → ν
  | .copy old _ => old
  | .delete old => old

def moveSteps (moves : List (ν × ν)) : List (Step ν) :=
  moves.flatMap fun move => [.copy move.1 move.2, .delete move.1]

theorem rename_injOn {N : Naming ν κ} {old new : ν} (a b : κ) (ha : N.isNamed old a)
    (hb : N.isNamed old b) (h : N.rename new a = N.rename new b) : a = b := by
  have hback : N.rename old (N.rename new a) = a := N.rename_rename ha
  rw [← hback, h, N.rename_rename hb]

section
variable [DecidableEq κ] (N : Naming ν κ) (G : Merging α)

def Step.run (t : Table κ α) : Step ν → Table κ α
  | .copy old new => t.copyWhere G.merge (N.rename new) G.copied (N.isNamed old)
  | .delete old => t.deleteWhere (N.isNamed old)

def runSteps (steps : List (Step ν)) (t : Table κ α) : Table κ α :=
  steps.foldl (fun t step => step.run N G t) t

variable {N G} {t t' : Table κ α}

theorem runSteps_append (steps steps' : List (Step ν)) (t : Table κ α) :
    runSteps N G (steps ++ steps') t = runSteps N G steps' (runSteps N G steps t) :=
  List.foldl_append ..

/-! ## One step -/

theorem lookup_copy {old new : ν} {key : κ} (h : N.isNamed old key) :
    ((Step.copy old new).run N G t).lookup (N.rename new key) =
      mergeRows G.merge (t.lookup (N.rename new key)) ((t.lookup key).map G.copied) :=
  lookup_copyWhere rename_injOn h

theorem lookup_copy_of_not {old new : ν} {key : κ} (h : ¬ N.isNamed new key) :
    ((Step.copy old new).run N G t).lookup key = t.lookup key := by
  refine lookup_copyWhere_of_ne fun key' hold heq => h ?_
  rw [← heq]
  exact N.isNamed_rename hold

theorem lookup_copy_eq {old new : ν} {key : κ}
    (h : ∀ key', N.isNamed old key' → N.rename new key' = key → t.lookup key' = none) :
    ((Step.copy old new).run N G t).lookup key = t.lookup key := by
  by_cases hex : ∃ key', N.isNamed old key' ∧ N.rename new key' = key
  · obtain ⟨key', hold, rfl⟩ := hex
    rw [lookup_copy hold, h key' hold rfl]
    cases t.lookup (N.rename new key') <;> rfl
  · exact lookup_copyWhere_of_ne fun key' hold heq => hex ⟨key', hold, heq⟩

theorem SameRows.run (h : t.SameRows t') (step : Step ν) :
    (step.run N G t).SameRows (step.run N G t') := by
  cases step with
  | copy old new =>
    intro key
    by_cases hex : ∃ key', N.isNamed old key' ∧ N.rename new key' = key
    · obtain ⟨key', hold, rfl⟩ := hex
      rw [lookup_copy hold, lookup_copy hold, h, h]
    · have hne : ∀ key', N.isNamed old key' → N.rename new key' ≠ key :=
        fun key' hold heq => hex ⟨key', hold, heq⟩
      rw [Step.run, Step.run, lookup_copyWhere_of_ne hne, lookup_copyWhere_of_ne hne, h]
  | delete old => exact h.deleteWhere _

theorem SameRows.runSteps (h : t.SameRows t') (steps : List (Step ν)) :
    (runSteps N G steps t).SameRows (runSteps N G steps t') := by
  induction steps generalizing t t' with
  | nil => exact h
  | cons step steps ih => exact ih (h.run step)

/-- Steps that change nothing one by one change nothing together. -/
theorem runSteps_eq_self {steps : List (Step ν)}
    (h : ∀ step ∈ steps, (step.run N G t).SameRows t) : (runSteps N G steps t).SameRows t := by
  induction steps with
  | nil => exact .refl t
  | cons step steps ih =>
    refine SameRows.trans ((h step List.mem_cons_self).runSteps steps) ?_
    exact ih fun step' hstep' => h step' (List.mem_cons_of_mem _ hstep')

/-! ## Running steps again -/

variable (N G) in
/-- A row that is still under the old name of a step counts nothing, and is not one that
    has been deleted. -/
def Settled (steps : List (Step ν)) (t : Table κ α) : Prop :=
  ∀ step ∈ steps, ∀ key row, N.isNamed step.old key → t.lookup key = some row →
    .delete step.old ∉ steps ∧ G.measure row = 0

/-- A copy that is the last step may be made again if the copied rows count nothing. -/
theorem copy_again {old new : ν} (hne : old ≠ new)
    (h : ∀ key row, N.isNamed old key → t.lookup key = some row → G.measure row = 0) :
    ((Step.copy old new).run N G ((Step.copy old new).run N G t)).SameRows
      ((Step.copy old new).run N G t) := by
  intro key
  by_cases hex : ∃ key', N.isNamed old key' ∧ N.rename new key' = key
  · obtain ⟨key', hold, rfl⟩ := hex
    have hsource : ((Step.copy old new).run N G t).lookup key' = t.lookup key' :=
      lookup_copy_of_not fun hnew => hne (N.eq_of_isNamed hold hnew)
    rw [lookup_copy hold, hsource, lookup_copy hold]
    cases hrow : t.lookup key' with
    | none => cases t.lookup (N.rename new key') <;> rfl
    | some row =>
      have hzero := h key' row hold hrow
      cases t.lookup (N.rename new key') with
      | none => exact congrArg some (G.merge_self hzero)
      | some a => exact congrArg some (G.merge_again hzero)
  · exact lookup_copyWhere_of_ne fun key' hold heq => hex ⟨key', hold, heq⟩

theorem run_eq_self_of_none (step : Step ν)
    (h : ∀ key, N.isNamed step.old key → t.lookup key = none) :
    (step.run N G t).SameRows t := by
  intro key
  cases step with
  | copy old new => exact lookup_copy_eq fun key' hold _ => h key' hold
  | delete old =>
    rw [Step.run, lookup_deleteWhere]
    split_ifs with hold
    · exact (h key hold).symm
    · rfl

/-- In a prefix of moves, a copy whose rows are not deleted is the last step, and the rows of
    the steps before it are. -/
theorem prefix_moveSteps {moves : List (ν × ν)} {steps : List (Step ν)} {old new : ν}
    (hp : steps <+: moveSteps moves) (hcopy : .copy old new ∈ steps)
    (hdelete : .delete old ∉ steps) :
    ∃ before, steps = before ++ [.copy old new] ∧ (old, new) ∈ moves ∧
      ∀ step ∈ before, .delete step.old ∈ before := by
  induction moves generalizing steps with
  | nil =>
    cases List.prefix_nil.1 hp
    cases hcopy
  | cons move moves ih =>
    have hcons : moveSteps (move :: moves) =
        .copy move.1 move.2 :: .delete move.1 :: moveSteps moves := rfl
    rw [hcons] at hp
    rcases List.prefix_cons_iff.1 hp with rfl | ⟨rest, rfl, hrest⟩
    · cases hcopy
    rcases List.prefix_cons_iff.1 hrest with rfl | ⟨rest', rfl, hrest'⟩
    · cases List.mem_singleton.1 hcopy
      exact ⟨[], rfl, List.mem_cons_self, fun step hstep => absurd hstep List.not_mem_nil⟩
    · -- this copy has its delete
      have hcopy' : .copy old new ∈ rest' := by
        rcases List.mem_cons.1 hcopy with heq | hcopy
        · cases heq
          exact absurd (List.mem_cons_of_mem _ List.mem_cons_self) hdelete
        · rcases List.mem_cons.1 hcopy with heq | hcopy
          · cases heq
          · exact hcopy
      obtain ⟨before, rfl, hmem, hbefore⟩ := ih hrest' hcopy' fun hd =>
        hdelete (List.mem_cons_of_mem _ (List.mem_cons_of_mem _ hd))
      refine ⟨_ :: _ :: before, rfl, List.mem_cons_of_mem _ hmem, fun step hstep => ?_⟩
      rcases List.mem_cons.1 hstep with rfl | hstep
      · exact List.mem_cons_of_mem _ List.mem_cons_self
      rcases List.mem_cons.1 hstep with rfl | hstep
      · exact List.mem_cons_of_mem _ List.mem_cons_self
      · exact List.mem_cons_of_mem _ (List.mem_cons_of_mem _ (hbefore step hstep))

/-- **Settled rows**: running the steps before an interruption again changes nothing. -/
theorem runSteps_again {moves : List (ν × ν)} (hne : ∀ move ∈ moves, move.1 ≠ move.2)
    {steps : List (Step ν)} (hp : steps <+: moveSteps moves)
    (hs : Settled N G steps (runSteps N G steps t)) :
    (runSteps N G steps (runSteps N G steps t)).SameRows (runSteps N G steps t) := by
  refine runSteps_eq_self fun step hstep => ?_
  by_cases hdelete : .delete step.old ∈ steps
  · refine run_eq_self_of_none step fun key hold => ?_
    cases hrow : (runSteps N G steps t).lookup key with
    | none => rfl
    | some row => exact absurd hdelete (hs step hstep key row hold hrow).1
  · cases step with
    | delete old => exact absurd hstep hdelete
    | copy old new =>
      obtain ⟨before, rfl, hmem, -⟩ := prefix_moveSteps hp hstep hdelete
      rw [runSteps_append] at hs ⊢
      refine copy_again (hne _ hmem) fun key row hold hrow => ?_
      refine (hs _ hstep key row hold ?_).2
      refine (lookup_copy_of_not fun hnew => ?_).trans hrow
      exact hne _ hmem (N.eq_of_isNamed hold hnew)

/-! ## Sums -/

/-- **A move keeps the sum** over rows, if their condition does not look at the name. -/
theorem total_moveSteps {count : α → ℕ} {p : κ → Bool}
    (hmerge : ∀ a b, count (G.merge a b) = count a + count b)
    (hcopied : ∀ a, count (G.copied a) = count a) (hp : ∀ new key, p (N.rename new key) = p key)
    {moves : List (ν × ν)} (hne : ∀ move ∈ moves, move.1 ≠ move.2) :
    (runSteps N G (moveSteps moves) t).total count p = t.total count p := by
  induction moves generalizing t with
  | nil => rfl
  | cons move moves ih =>
    obtain ⟨old, new⟩ := move
    have hold_ne : old ≠ new := hne _ List.mem_cons_self
    refine (ih (t := ((Step.copy old new).run N G t).deleteWhere (N.isNamed old))
      fun move' hmove => hne move' (List.mem_cons_of_mem _ hmove)).trans ?_
    have hcopy : ((Step.copy old new).run N G t).total count p =
        t.total count p + t.total count fun key => p key && N.isNamed old key :=
      total_copyWhere hmerge hcopied fun key _ => hp new key
    have hdelete : ((Step.copy old new).run N G t).total count p =
        (((Step.copy old new).run N G t).deleteWhere (N.isNamed old)).total count p +
          ((Step.copy old new).run N G t).total count fun key => p key && N.isNamed old key :=
      total_deleteWhere _
    have hsource : (((Step.copy old new).run N G t).total count fun key =>
        p key && N.isNamed old key) = t.total count fun key => p key && N.isNamed old key := by
      refine total_congr fun key hkey => lookup_copy_of_not fun hnew => ?_
      exact hold_ne (N.eq_of_isNamed (Bool.and_eq_true_iff.1 hkey).2 hnew)
    rw [hcopy, hsource] at hdelete
    exact (Nat.add_right_cancel hdelete).symm

/-! ## No less will do -/

/-- A copy comes from a move, and so does every old name. -/
theorem mem_moves_of_mem {moves : List (ν × ν)} {step : Step ν} (h : step ∈ moveSteps moves) :
    (∃ new, (step.old, new) ∈ moves) ∧ ∀ old new, step = .copy old new → (old, new) ∈ moves := by
  obtain ⟨move, hmove, hstep⟩ := List.mem_flatMap.1 h
  rcases List.mem_cons.1 hstep with rfl | hstep
  · refine ⟨⟨move.2, hmove⟩, fun old new heq => ?_⟩
    cases heq
    exact hmove
  · cases List.mem_singleton.1 hstep
    exact ⟨⟨move.2, hmove⟩, fun old new heq => by cases heq⟩

theorem amount_copy {old new : ν} {key : κ} (hold : N.isNamed old key) :
    ((Step.copy old new).run N G t).amount G.measure (N.rename new key) =
      t.amount G.measure (N.rename new key) + t.amount G.measure key := by
  unfold amount
  rw [lookup_copy hold]
  cases t.lookup (N.rename new key) <;> cases t.lookup key
  · rfl
  · exact (G.measure_copied _).trans (Nat.zero_add _).symm
  · rfl
  · exact (G.measure_merge _ _).trans (congrArg _ (G.measure_copied _))

variable [DecidableEq ν]

/-- A row of an old name stays until it is deleted, if nothing is copied under this name. -/
theorem lookup_runSteps_old {steps : List (Step ν)} {old : ν} {key : κ} (hold : N.isNamed old key)
    (hnew : ∀ o, .copy o old ∉ steps) :
    (runSteps N G steps t).lookup key =
      if .delete old ∈ steps then none else t.lookup key := by
  induction steps generalizing t with
  | nil => rfl
  | cons step steps ih =>
    have hrest := ih (t := step.run N G t) fun o ho => hnew o (List.mem_cons_of_mem _ ho)
    refine hrest.trans ?_
    cases step with
    | copy o n =>
      have hne : ¬ N.isNamed n key := fun hn => by
        cases N.eq_of_isNamed hold hn
        exact hnew o List.mem_cons_self
      rw [lookup_copy_of_not hne]
      simp only [List.mem_cons, reduceCtorEq, false_or]
    | delete o =>
      rw [Step.run, lookup_deleteWhere]
      by_cases heq : old = o
      · subst heq
        rw [if_pos hold, ite_self, if_pos List.mem_cons_self]
      · rw [if_neg fun ho => heq (N.eq_of_isNamed hold ho)]
        simp only [List.mem_cons, Step.delete.injEq, heq, false_or]

/-- Tables that differ in what one row of a new name measures, and agree on the rows of the
    old names, keep this difference. -/
theorem amount_runSteps {steps : List (Step ν)} (olds : ν → Prop) {key : κ} {c : ℕ}
    (holds : ∀ step ∈ steps, olds step.old) (hnews : ∀ old, olds old → ∀ o, .copy o old ∉ steps)
    (hkey : ∀ old, olds old → ¬ N.isNamed old key)
    (hagree : ∀ old, olds old → ∀ key, N.isNamed old key → t'.lookup key = t.lookup key)
    (hc : t'.amount G.measure key = t.amount G.measure key + c) :
    (runSteps N G steps t').amount G.measure key =
      (runSteps N G steps t).amount G.measure key + c := by
  induction steps generalizing t t' with
  | nil => exact hc
  | cons step steps ih =>
    have hnews' : ∀ old, olds old → ∀ o, .copy o old ∉ [step] := fun old ho o hmem =>
      hnews old ho o (List.mem_cons.2 (.inl (List.mem_singleton.1 hmem)))
    change (runSteps N G steps (step.run N G t')).amount G.measure key =
      (runSteps N G steps (step.run N G t)).amount G.measure key + c
    refine ih (fun s hs => holds s (List.mem_cons_of_mem _ hs))
      (fun old ho o hmem => hnews old ho o (List.mem_cons_of_mem _ hmem)) ?_ ?_
    · intro old ho key hold
      have h := lookup_runSteps_old (G := G) (t := t) hold (hnews' old ho)
      have h' := lookup_runSteps_old (G := G) (t := t') hold (hnews' old ho)
      exact h'.trans ((if_congr Iff.rfl rfl (hagree old ho key hold)).trans h.symm)
    · cases step with
      | copy old new =>
        have ho : olds old := holds _ List.mem_cons_self
        by_cases hex : ∃ key', N.isNamed old key' ∧ N.rename new key' = key
        · obtain ⟨key', hold, rfl⟩ := hex
          have hsource : t'.amount G.measure key' = t.amount G.measure key' := by
            rw [amount, amount, hagree old ho key' hold]
          rw [amount_copy hold, amount_copy hold, hsource, hc]
          omega
        · have hne : ∀ key', N.isNamed old key' → N.rename new key' ≠ key :=
            fun key' hold heq => hex ⟨key', hold, heq⟩
          unfold amount at hc ⊢
          rw [Step.run, Step.run, lookup_copyWhere_of_ne hne, lookup_copyWhere_of_ne hne]
          exact hc
      | delete old =>
        have ho : ¬ N.isNamed old key := hkey old (holds _ List.mem_cons_self)
        unfold amount at hc ⊢
        rw [Step.run, Step.run, lookup_deleteWhere, lookup_deleteWhere, if_neg ho, if_neg ho]
        exact hc

/-- **If no new name is an old one**, the rows must be settled for the steps to give the
    same rows when they are all run again. -/
theorem settled_of_sameRows {moves : List (ν × ν)}
    (hnames : ∀ move ∈ moves, ∀ move' ∈ moves, move.1 ≠ move'.2) {steps rest : List (Step ν)}
    (hsplit : steps ++ rest = moveSteps moves) (ht : t = runSteps N G steps t')
    (h : (runSteps N G (steps ++ rest) t).SameRows (runSteps N G rest t)) :
    Settled N G steps t := by
  have hmem : ∀ step, step ∈ steps ∨ step ∈ rest → step ∈ moveSteps moves := fun step hstep => by
    rw [← hsplit]
    exact List.mem_append.2 hstep
  -- nothing is copied under an old name
  have hnews : ∀ step ∈ moveSteps moves, ∀ o, .copy o step.old ∉ moveSteps moves := by
    intro step hstep o hcopy
    obtain ⟨new, hold⟩ := (mem_moves_of_mem hstep).1
    exact hnames _ hold _ ((mem_moves_of_mem hcopy).2 _ _ rfl) rfl
  have hdeleted : ∀ step ∈ steps, .delete step.old ∈ steps → ∀ key, N.isNamed step.old key →
      t.lookup key = none := by
    intro step hstep hdelete key hold
    rw [ht, lookup_runSteps_old hold fun o hcopy => hnews step (hmem _ (.inl hstep)) o
      (hmem _ (.inl hcopy)), if_pos hdelete]
  intro step hstep key row hold hrow
  have hdelete : .delete step.old ∉ steps := fun hdelete => by
    rw [hdeleted step hstep hdelete key hold] at hrow
    cases hrow
  refine ⟨hdelete, ?_⟩
  cases step with
  | delete old => exact absurd hstep hdelete
  | copy old new =>
    obtain ⟨before, rfl, hmove, hall⟩ := prefix_moveSteps ⟨rest, hsplit⟩ hstep hdelete
    -- the earlier steps find nothing
    have hbefore : (runSteps N G before t).SameRows t := by
      refine runSteps_eq_self fun step' hstep' => run_eq_self_of_none step' fun key' hold' => ?_
      exact hdeleted step' (List.mem_append_left _ hstep')
        (List.mem_append_left _ (hall step' hstep')) key' hold'
    change N.isNamed old key at hold
    have hcopied : (runSteps N G rest ((Step.copy old new).run N G t)).SameRows
        (runSteps N G rest t) := by
      rw [List.append_assoc, runSteps_append] at h
      exact ((hbefore.symm.runSteps ([Step.copy old new] ++ rest))).trans h
    have hold_ne : ∀ old', (∃ n, (old', n) ∈ moves) → ∀ key', N.isNamed new key' →
        ¬ N.isNamed old' key' := by
      rintro old' ⟨n, hmem'⟩ key' hnew hold'
      exact hnames _ hmem' _ hmove (N.eq_of_isNamed hold' hnew)
    have hamount : (runSteps N G rest ((Step.copy old new).run N G t)).amount G.measure
        (N.rename new key) =
          (runSteps N G rest t).amount G.measure (N.rename new key) + G.measure row :=
      amount_runSteps (fun o => ∃ n, (o, n) ∈ moves)
      (fun step hstep => (mem_moves_of_mem (hmem step (.inr hstep))).1)
      (fun old' ⟨n, hmem'⟩ o hcopy =>
        hnames _ hmem' _ ((mem_moves_of_mem (hmem _ (.inr hcopy))).2 o old' rfl) rfl)
      (fun old' hold' => hold_ne old' hold' _ (N.isNamed_rename hold))
      (fun old' hold' key' hkey' => lookup_copy_of_not fun hnew =>
        hold_ne old' hold' key' hnew hkey')
      (by rw [amount_copy hold, amount_of_lookup hrow])
    have hsame : (runSteps N G rest ((Step.copy old new).run N G t)).amount G.measure
        (N.rename new key) = (runSteps N G rest t).amount G.measure (N.rename new key) := by
      rw [amount, amount, hcopied]
    exact Nat.add_eq_left.1 (hamount.symm.trans hsame)

end

end DnsBlackhole.Lib.Table
