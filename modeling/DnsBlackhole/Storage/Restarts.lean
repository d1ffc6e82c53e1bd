/-
  The starts behind an interrupted migration (`storage.rs`).

  * `always_initializeAt`: where nothing is moved, a start keeps the directories as they are;
  * `settles_iff`: they bring an interrupted migration to its end exactly where no start dies
    between the renaming of the database and the replacement of the locator.
-/
import DnsBlackhole.Storage.Interrupted

namespace DnsBlackhole.Storage
open Lib
open Steps

variable {δ ω φ : Type} [DecidableEq δ] {nested : δ → δ → Bool}
  {validDatabase : List ω → Except Text Unit} {defaultDir source target : δ} {s u v : Disk δ ω φ}
  {pid : ℕ}

/-! ## Where nothing is moved -/

omit [DecidableEq δ] in
theorem always_probe (u : Disk δ ω φ) :
    Always (probe : StorageM δ ω φ PUnit) u (fun _ u' => u' = u) (fun _ u' => u' = u) (· = u) :=
  Always.probe rfl (fun _ => rfl) rfl

theorem always_modify {P : Disk δ ω φ → Prop} (d : δ) (f : Directory ω φ → Directory ω φ)
    (hu : P u) (hdone : P (u.update d f)) :
    Always (modify d f) u (fun _ u' => u' = u.update d f) (fun _ u' => P u') P :=
  Always.step rfl (fun _ => ⟨hu, hdone⟩) ⟨hu, hdone⟩

theorem always_validateStorageDirectory (source target : δ) (u : Disk δ ω φ) :
    Always (validateStorageDirectory nested source target) u (fun _ u' => u' = u)
      (fun _ u' => u' = u) (· = u) := by
  have hprobe := always_probe u
  unfold validateStorageDirectory
  refine hprobe.andThen fun _ u' h => ?_
  rw [h]
  refine hprobe.andThen fun _ u' h => ?_
  rw [h]
  by_cases hnested : target ≠ source ∧ nested target source = true
  · rw [if_pos hnested]
    exact Always.throw_bind rfl
  rw [if_neg hnested]
  by_cases hne : target ≠ source
  · rw [if_pos hne]
    refine hprobe.andThen fun _ u' h => ?_
    rw [h]
    exact hprobe
  · rw [if_neg hne]
    exact Always.pure rfl

theorem always_migrateData (hne : source ≠ target)
    (hmanaged : (u.directory target).isManaged = true) :
    Always (migrateData nested pid source target) u (fun _ _ => False) (fun _ u' => u' = u)
      (· = u) := by
  unfold migrateData validateTargetDirectory
  refine Always.bind (Q := fun _ _ => False) ?_ (fun _ _ h => h) (fun _ h => h)
    fun _ _ h => h.elim
  refine (always_validateStorageDirectory source target u).andThen fun _ u' h => ?_
  rw [h]
  rw [if_pos hne.symm]
  unfold ensureTargetAvailable
  refine Always.get_bind ?_
  rw [if_pos hmanaged]
  exact Always.throw rfl

omit [DecidableEq δ] in
theorem always_writeLocator (locator : StorageLocator δ) (u : Disk δ ω φ) :
    Always (writeLocator locator) u (fun _ u' => u' = u.replaced locator)
      (fun _ u' => u' = u ∨ u' = u.replaced locator)
      (fun u' => u' = u ∨ u' = u.replaced locator) := by
  have hprobe : Always (probe : StorageM δ ω φ PUnit) u (fun _ u' => u' = u)
      (fun _ u' => u' = u ∨ u' = u.replaced locator)
      (fun u' => u' = u ∨ u' = u.replaced locator) :=
    Always.probe rfl (fun _ => .inl rfl) (.inl rfl)
  unfold writeLocator
  have hreplace : Always (replaceLocator locator) u
      (fun _ u' => u' = u.replaced locator) (fun _ u' => u' = u ∨ u' = u.replaced locator)
      (fun u' => u' = u ∨ u' = u.replaced locator) := by
    refine hprobe.andThen fun _ u' h => ?_
    rw [h]
    refine hprobe.andThen fun _ u' h => ?_
    rw [h]
    refine hprobe.andThen fun _ u' h => ?_
    rw [h]
    exact Always.step rfl (fun _ => ⟨.inl rfl, .inr rfl⟩) ⟨.inl rfl, .inr rfl⟩
  refine hprobe.andThen fun _ u' h => ?_
  rw [h]
  refine hreplace.attempt_bind (fun _ _ h => Always.pure h) fun e u' h => ?_
  have hclean : Always (attempt probe : StorageM δ ω φ _) u'
      (fun _ u' => u' = u ∨ u' = u.replaced locator)
      (fun _ u' => u' = u ∨ u' = u.replaced locator)
      (fun u' => u' = u ∨ u' = u.replaced locator) :=
    Always.attempt (Always.probe h (fun _ => h) h)
  exact hclean.andThen fun _ _ h => Always.throw h

/-- The locator of a start whose change has failed. -/
def StorageLocator.dropped (locator : StorageLocator δ) (error : Text) : StorageLocator δ :=
  { locator with pendingDataDir := none, pendingAction := none, lastMigrationError := some error }

/-- Nothing is pending, or a migration to a directory that holds data. -/
def Blocked (defaultDir target : δ) (u : Disk δ ω φ) : Prop :=
  u.readLocator.pendingDataDir = none ∨
    (u.readLocator.pendingDataDir = some target ∧
      u.readLocator.pendingAction.getD .migrate = .migrate ∧
      u.readLocator.named defaultDir ≠ target ∧ (u.directory target).isManaged = true)

/-- At most the pending change is dropped. -/
def DroppedAt (u u' : Disk δ ω φ) : Prop :=
  u' = u ∨ ∃ error, u' = u.replaced (u.readLocator.dropped error)

theorem always_applyPending (h : Blocked defaultDir target u) :
    Always (applyPending nested validDatabase defaultDir pid u.readLocator
        (u.readLocator.named defaultDir)) u
      (fun r u' => r.1 = u.readLocator.named defaultDir ∧ DroppedAt u u' ∧
        u'.readLocator.pendingDataDir = none)
      (fun _ u' => DroppedAt u u') (DroppedAt u) := by
  unfold applyPending
  rcases h with hnone | ⟨hpending, haction, hne, hmanaged⟩
  · rw [hnone]
    exact Always.pure ⟨rfl, .inl rfl, hnone⟩
  · rw [hpending]
    dsimp only
    rw [haction, if_neg hne]
    have hchange : Always (changeDirectory nested validDatabase pid .migrate
        (u.readLocator.named defaultDir) target) u (fun _ _ => False) (fun _ u' => u' = u)
        (DroppedAt u) :=
      (always_migrateData hne hmanaged).mono (fun _ _ h => h) (fun _ _ h => h) fun _ h => .inl h
    refine hchange.attempt_bind (fun _ _ h => h.elim) fun error u' hu' => ?_
    rw [hu']
    refine ((always_writeLocator (u.readLocator.dropped (migrationError .migrate error)) u).mono
      (fun _ _ h => h) (fun _ _ h => h.imp_right fun h => ⟨_, h⟩) fun _ h =>
        h.imp_right fun h => ⟨_, h⟩).andThen fun _ u' hu' => ?_
    rw [hu']
    exact Always.pure ⟨rfl, .inr ⟨_, rfl⟩, rfl⟩

/-- **Where nothing is moved**, a start keeps the directories as they are, and chooses the one
    that the locator names. -/
theorem always_initializeAt (h : Blocked defaultDir target u) :
    Always (initializeAt nested validDatabase defaultDir pid) u
      (fun r u' => r.1 = u.readLocator.named defaultDir ∧ DroppedAt u u' ∧
        u'.readLocator.pendingDataDir = none)
      (fun _ u' => DroppedAt u u') (DroppedAt u) := by
  have hsame : DroppedAt u u := .inl rfl
  have hprobe : Always (probe : StorageM δ ω φ PUnit) u (fun _ u' => u' = u)
      (fun _ u' => DroppedAt u u') (DroppedAt u) := Always.probe rfl (fun _ => hsame) hsame
  unfold initializeAt readLocator
  refine hprobe.andThen fun _ u' hu' => ?_
  rw [hu']
  refine Always.andThen (Q := fun r u' => r = u.readLocator ∧ u' = u) ?_ fun r u' hr => ?_
  · refine hprobe.andThen fun _ u' hu' => ?_
    rw [hu']
    exact Always.get_bind (Always.pure ⟨rfl, rfl⟩)
  obtain ⟨rfl, hu'⟩ := hr
  rw [hu']
  refine Always.get_bind ?_
  split_ifs
  · exact Always.throw hsame
  · refine (always_applyPending h).andThen fun r u' hr => ?_
    exact (Always.probe (Q := fun _ u'' => u'' = u') rfl (fun _ => hr.2.1) hr.2.1).andThen
      fun _ u'' hu'' => by rw [hu'']; exact Always.pure hr

/-! ## The clean-up -/

/-- Some of the data of the one directory. -/
structure Directory.Rest (d d' : Directory ω φ) : Prop where
  database : d'.database = none ∨ d'.database = d.database
  filters : d'.filters = none ∨ d'.filters = d.filters

theorem Directory.Rest.refl (d : Directory ω φ) : d.Rest d := ⟨.inr rfl, .inr rfl⟩

theorem Directory.Rest.trans {d d' d'' : Directory ω φ} (h : d.Rest d') (h' : d'.Rest d'') :
    d.Rest d'' := by
  constructor
  · rcases h'.database with hnone | hsame
    · exact .inl hnone
    · rw [hsame]
      exact h.database
  · rcases h'.filters with hnone | hsame
    · exact .inl hnone
    · rw [hsame]
      exact h.filters

/-- Nothing but the directory `c` is touched. -/
structure Beside (c : δ) (u u' : Disk δ ω φ) : Prop where
  locator : u'.readLocator = u.readLocator
  others : ∀ d ≠ c, u'.directory d = u.directory d
  rest : (u.directory c).Rest (u'.directory c)

omit [DecidableEq δ] in
theorem Beside.refl (c : δ) (u : Disk δ ω φ) : Beside c u u := ⟨rfl, fun _ _ => rfl, .refl _⟩

theorem Beside.update {c : δ} (h : Beside c u v) {f : Directory ω φ → Directory ω φ}
    (hf : ∀ d : Directory ω φ, d.Rest (f d)) : Beside c u (v.update c f) where
  locator := h.locator
  others d hd := by rw [v.directory_update_of_ne hd, h.others d hd]
  rest := by rw [v.directory_update_self]; exact h.rest.trans (hf _)

theorem always_removePath {c : δ} (missing : Directory ω φ → Prop) (present : Directory ω φ → Bool)
    (f : Directory ω φ → Directory ω φ) (hf : ∀ d : Directory ω φ, d.Rest (f d))
    (hremoved : ∀ d, present (f d) = false) (hkeeps : ∀ d, missing d → missing (f d))
    (h : Beside c u v ∧ missing (v.directory c)) :
    Always (removePath c present f) v
      (fun _ u' => Beside c u u' ∧ missing (u'.directory c) ∧ present (u'.directory c) = false)
      (fun _ u' => Beside c u u') (Beside c u) := by
  have hdone := h.1.update hf
  unfold removePath
  refine Always.get_bind ?_
  split_ifs with hpresent
  · refine Always.step ⟨hdone, ?_, ?_⟩ (fun _ => ⟨h.1, hdone⟩) ⟨h.1, hdone⟩
    · rw [v.directory_update_self]
      exact hkeeps _ h.2
    · rw [v.directory_update_self]
      exact hremoved _
  · exact Always.pure ⟨h.1, h.2, Bool.not_eq_true _ ▸ hpresent⟩

theorem always_removeManagedData (c : δ) (u : Disk δ ω φ) :
    Always (removeManagedData c) u
      (fun _ u' => Beside c u u' ∧ (u'.directory c).isManaged = false)
      (fun _ u' => Beside c u u') (Beside c u) := by
  unfold removeManagedData
  refine (always_removePath (u := u) (c := c) (fun _ => True)
    (·.database.isSome) Directory.withoutDatabase
    (fun d => ⟨.inl rfl, .inr rfl⟩) (fun _ => rfl) (fun _ h => h)
    ⟨.refl c u, trivial⟩).andThen fun _ u₁ h₁ => ?_
  refine (always_removePath (fun d => d.database.isSome = false)
    (·.wal) (fun d => { d with wal := false })
    (fun d => ⟨.inr rfl, .inr rfl⟩) (fun _ => rfl) (fun _ h => h)
    ⟨h₁.1, h₁.2.2⟩).andThen fun _ u₂ h₂ => ?_
  refine (always_removePath (fun d => d.database.isSome = false ∧ d.wal = false)
    (·.shm) (fun d => { d with shm := false })
    (fun d => ⟨.inr rfl, .inr rfl⟩) (fun _ => rfl) (fun _ h => h)
    h₂).andThen fun _ u₃ h₃ => ?_
  refine (always_removePath (fun d =>
      (d.database.isSome = false ∧ d.wal = false) ∧ d.shm = false)
    (·.filters.isSome) Directory.withoutFilters
    (fun d => ⟨.inr rfl, .inl rfl⟩) (fun _ => rfl) (fun _ h => h)
    h₃).andThen fun _ u₄ h₄ => ?_
  have hfree : (u₄.directory c).isManaged = false := by
    unfold Directory.isManaged
    rw [h₄.2.1.1.1, h₄.2.1.1.2, h₄.2.1.2, h₄.2.2]
    rfl
  have hprobe : Always (attempt probe : StorageM δ ω φ _) u₄
      (fun _ u' => Beside c u u' ∧ (u'.directory c).isManaged = false) (fun _ u' => Beside c u u')
      (Beside c u) :=
    Always.attempt (Always.probe ⟨h₄.1, hfree⟩ (fun _ => ⟨h₄.1, hfree⟩) h₄.1)
  exact hprobe.andThen fun _ _ h => Always.pure h

/-- What the clean-up does where `current` is the data directory. -/
structure Finished (current : δ) (u u' : Disk δ ω φ) : Prop where
  locator : u'.readLocator = u.readLocator ∨
    u'.readLocator = { u.readLocator with cleanupDataDir := none } ∧
      ∀ c, u.readLocator.cleanupDataDir = some c → c ≠ current →
        (u'.directory c).isManaged = false
  others : ∀ d, (u.readLocator.cleanupDataDir = some d → d = current) →
    u'.directory d = u.directory d
  rest : ∀ d, (u.directory d).Rest (u'.directory d)

omit [DecidableEq δ] in
theorem Finished.refl (current : δ) (u : Disk δ ω φ) : Finished current u u :=
  ⟨.inl rfl, fun _ _ => rfl, fun _ => .refl _⟩

theorem Beside.finished {c current : δ} (hc : u.readLocator.cleanupDataDir = some c)
    (hne : c ≠ current) (h : Beside c u v) : Finished current u v where
  locator := .inl h.locator
  others d hd := h.others d fun heq => hne (heq ▸ hd (heq ▸ hc))
  rest d := by
    by_cases hd : d = c
    · rw [hd]
      exact h.rest
    · rw [h.others d hd]
      exact .refl _

theorem Beside.finished_replaced {c current : δ} (hc : u.readLocator.cleanupDataDir = some c)
    (hne : c ≠ current) (h : Beside c u v) (hfree : (v.directory c).isManaged = false) :
    Finished current u (v.replaced { u.readLocator with cleanupDataDir := none }) where
  locator := by
    refine .inr ⟨rfl, fun c' hc' _ => ?_⟩
    rw [hc] at hc'
    cases hc'
    exact hfree
  others := (h.finished hc hne).others
  rest := (h.finished hc hne).rest

theorem always_finishPendingCleanup (current : δ) (u : Disk δ ω φ) :
    Always (finishPendingCleanup current) u
      (fun _ u' => Finished current u u' ∧ u'.readLocator.cleanupDataDir = none)
      (fun _ u' => Finished current u u') (Finished current u) := by
  have hsame := Finished.refl current u
  have hread : Always (readLocator : StorageM δ ω φ _) u
      (fun r u' => r = u.readLocator ∧ u' = u) (fun _ u' => Finished current u u')
      (Finished current u) := by
    unfold readLocator
    refine (Always.probe (Q := fun _ u' => u' = u) rfl (fun _ => hsame) hsame).andThen
      fun _ u' hu' => ?_
    rw [hu']
    exact Always.get_bind (Always.pure ⟨rfl, rfl⟩)
  unfold finishPendingCleanup
  refine hread.andThen fun r u' hr => ?_
  obtain ⟨rfl, hu'⟩ := hr
  rw [hu']
  cases hcleanup : u.readLocator.cleanupDataDir with
  | none => exact Always.pure ⟨hsame, hcleanup⟩
  | some c =>
    dsimp only
    split_ifs with hcurrent
    · have hreplaced : Finished current u
          (u.replaced { u.readLocator with cleanupDataDir := none }) := by
        refine ⟨.inr ⟨rfl, fun c' hc' hne => ?_⟩, fun _ _ => rfl, fun _ => .refl _⟩
        rw [hcleanup] at hc'
        exact absurd (Option.some.inj hc' ▸ hcurrent) hne
      refine (always_writeLocator _ u).mono (fun _ u' h => ?_) (fun _ u' h => ?_) fun u' h => ?_
      · rw [h]
        exact ⟨hreplaced, rfl⟩
      · rcases h with h | h <;> rw [h]
        · exact hsame
        · exact hreplaced
      · rcases h with h | h <;> rw [h]
        · exact hsame
        · exact hreplaced
    · refine (always_removeManagedData c u).bind (fun _ _ h => h.finished hcleanup hcurrent)
        (fun _ h => h.finished hcleanup hcurrent) fun _ v h => ?_
      have hreplaced := h.1.finished_replaced hcleanup hcurrent h.2
      refine (always_writeLocator _ v).mono (fun _ u' h => ?_) (fun _ u' h' => ?_) fun u' h' => ?_
      · rw [h]
        exact ⟨hreplaced, rfl⟩
      · rcases h' with h' | h' <;> rw [h']
        · exact h.1.finished hcleanup hcurrent
        · exact hreplaced
      · rcases h' with h' | h' <;> rw [h']
        · exact h.1.finished hcleanup hcurrent
        · exact hreplaced

/-! ## A start where nothing is moved -/

/-- What such starts keep, where `d` is the data directory. -/
structure Kept (defaultDir target d : δ) (I : Disk δ ω φ → Prop) : Prop where
  blocked : ∀ u, I u → Blocked defaultDir target u
  named : ∀ u, I u → u.readLocator.named defaultDir = d
  dropped : ∀ u error, I u → I (u.replaced (u.readLocator.dropped error))
  opened : ∀ u, I u → u.readLocator.pendingDataDir = none → I (u.update d Directory.opened)
  finished : ∀ u u', I u → u.readLocator.pendingDataDir = none → Finished d u u' → I u'

omit [DecidableEq δ] in
theorem Finished.pendingDataDir {current : δ} (h : Finished current u v) :
    v.readLocator.pendingDataDir = u.readLocator.pendingDataDir := by
  rcases h.locator with h | ⟨h, -⟩ <;> rw [h]

theorem Kept.always_openStorage {d : δ} {I : Disk δ ω φ → Prop} (h : Kept defaultDir target d I)
    {r : δ × Option Text} (hr : r.1 = d) (hu : I u)
    (hpending : u.readLocator.pendingDataDir = none) :
    Always (openStorage r) u
      (fun _ u' => I u' ∧ u'.readLocator.pendingDataDir = none ∧
        u'.readLocator.cleanupDataDir = none)
      (fun _ u' => I u') I := by
  have hopened := h.opened u hu hpending
  unfold openStorage
  rw [hr]
  refine (always_modify d Directory.opened hu hopened).andThen fun _ u' hu' => ?_
  rw [hu']
  refine (always_finishPendingCleanup d _).bind
    (fun _ w hw => h.finished _ w hopened hpending hw)
    (fun w hw => h.finished _ w hopened hpending hw) fun _ w hw => ?_
  exact Always.pure ⟨h.finished _ w hopened hpending hw.1, hw.1.pendingDataDir.trans hpending, hw.2⟩

/-- **A start keeps what is kept**, wherever it ends. -/
theorem Kept.always_startStorage {d : δ} {I : Disk δ ω φ → Prop}
    (h : Kept defaultDir target d I) (hu : I u) :
    Always (startStorage nested validDatabase defaultDir pid) u
      (fun _ u' => I u' ∧ u'.readLocator.pendingDataDir = none ∧
        u'.readLocator.cleanupDataDir = none)
      (fun _ u' => I u') I := by
  have hdropped : ∀ v, DroppedAt u v → I v := by
    rintro v (rfl | ⟨error, rfl⟩)
    · exact hu
    · exact h.dropped u error hu
  unfold startStorage
  exact (always_initializeAt (h.blocked u hu)).bind (fun _ v hv => hdropped v hv)
    (fun v hv => hdropped v hv) fun r v ⟨hr, hv, hpending⟩ =>
      h.always_openStorage (hr.trans (h.named u hu)) (hdropped v hv) hpending

/-! ## A start whose steps succeed -/

omit [DecidableEq δ] in
theorem succeeds_writeLocator (locator : StorageLocator δ) (u : Disk δ ω φ) :
    Succeeds (writeLocator locator) u fun _ u' => u' = u.replaced locator := by
  unfold writeLocator
  refine (Succeeds.probe (Q := fun _ u' => u' = u) rfl).bind fun _ u' hu' => ?_
  rw [hu']
  have hreplace : Succeeds (replaceLocator locator) u fun _ u' => u' = u.replaced locator := by
    unfold replaceLocator
    refine (Succeeds.probe (Q := fun _ u' => u' = u) rfl).bind fun _ u' hu' => ?_
    rw [hu']
    refine (Succeeds.probe (Q := fun _ u' => u' = u) rfl).bind fun _ u' hu' => ?_
    rw [hu']
    refine (Succeeds.probe (Q := fun _ u' => u' = u) rfl).bind fun _ u' hu' => ?_
    rw [hu']
    exact Succeeds.step rfl
  refine (Succeeds.attempt (Q := fun r u' => r = .ok ⟨⟩ ∧ u' = u.replaced locator)
    (hreplace.mono fun _ _ h => ⟨rfl, h⟩)).bind ?_
  rintro _ u' ⟨rfl, hu'⟩
  exact Succeeds.pure hu'

omit [DecidableEq δ] in
theorem succeeds_readLocator (u : Disk δ ω φ) :
    Succeeds (readLocator : StorageM δ ω φ _) u fun r u' => r = u.readLocator ∧ u' = u := by
  unfold readLocator
  refine (Succeeds.probe (Q := fun _ u' => u' = u) rfl).bind fun _ u' hu' => ?_
  rw [hu']
  exact Succeeds.get_bind (Succeeds.pure ⟨rfl, rfl⟩)

theorem succeeds_removePath (c : δ) (present : Directory ω φ → Bool)
    (f : Directory ω φ → Directory ω φ) (u : Disk δ ω φ) :
    Succeeds (removePath c present f) u fun _ _ => True := by
  unfold removePath
  refine Succeeds.get_bind ?_
  split_ifs
  · exact Succeeds.step trivial
  · exact Succeeds.pure trivial

theorem succeeds_finishPendingCleanup (current : δ) (u : Disk δ ω φ) :
    Succeeds (finishPendingCleanup current) u fun _ _ => True := by
  unfold finishPendingCleanup
  refine (succeeds_readLocator u).bind fun r u' hr => ?_
  cases r.cleanupDataDir with
  | none => exact Succeeds.pure trivial
  | some c =>
    dsimp only
    split_ifs
    · exact (succeeds_writeLocator _ u').mono fun _ _ _ => trivial
    · refine Succeeds.bind (Q := fun _ _ => True) ?_ fun _ v _ =>
        (succeeds_writeLocator _ v).mono fun _ _ _ => trivial
      unfold removeManagedData
      refine (succeeds_removePath c _ _ _).bind fun _ v _ => ?_
      refine (succeeds_removePath c _ _ _).bind fun _ v _ => ?_
      refine (succeeds_removePath c _ _ _).bind fun _ v _ => ?_
      refine (succeeds_removePath c _ _ _).bind fun _ v _ => ?_
      have hprobe : Succeeds (attempt probe : StorageM δ ω φ _) v fun _ _ => True :=
        Succeeds.attempt (Succeeds.probe trivial)
      exact hprobe.bind fun _ _ _ => Succeeds.pure trivial

theorem succeeds_validateStorageDirectory (hne : source ≠ target)
    (hapart : nested target source = false) (u : Disk δ ω φ) :
    Succeeds (validateStorageDirectory nested source target) u fun _ u' => u' = u :=
  ⟨⟨⟩, u, (paced_validateStorageDirectory (D := fun _ _ => True) hne hapart
    fun _ _ => trivial).succeeds, rfl⟩

theorem fails_migrateData (hne : source ≠ target) (hapart : nested target source = false)
    (hmanaged : (u.directory target).isManaged = true) :
    Fails (migrateData nested pid source target) u targetConflict u := by
  unfold migrateData validateTargetDirectory
  refine Fails.bind (Fails.bind_of_succeeds (succeeds_validateStorageDirectory hne hapart u) ?_)
  intro _ u' hu'
  rw [hu', if_pos hne.symm]
  unfold ensureTargetAvailable
  refine Fails.get_bind ?_
  rw [if_pos hmanaged]
  exact Fails.throw

theorem succeeds_applyPending (h : Blocked defaultDir target u)
    (hapart : u.readLocator.named defaultDir ≠ target →
      nested target (u.readLocator.named defaultDir) = false) :
    Succeeds (applyPending nested validDatabase defaultDir pid u.readLocator
      (u.readLocator.named defaultDir)) u fun _ _ => True := by
  unfold applyPending
  rcases h with hnone | ⟨hpending, haction, hne, hmanaged⟩
  · rw [hnone]
    exact Succeeds.pure trivial
  · rw [hpending]
    dsimp only
    rw [haction, if_neg hne]
    refine Succeeds.attempt_bind_of_fails (fails_migrateData hne (hapart hne) hmanaged) ?_
    exact (succeeds_writeLocator _ u).bind fun _ _ _ => Succeeds.pure trivial

theorem succeeds_openStorage (r : δ × Option Text) (u : Disk δ ω φ) :
    Succeeds (openStorage r) u fun _ _ => True := by
  unfold openStorage
  refine (Succeeds.step (Q := fun _ _ => True) trivial).bind fun _ v _ => ?_
  exact (succeeds_finishPendingCleanup _ v).bind fun _ _ _ => Succeeds.pure trivial

theorem succeeds_startStorage (h : Blocked defaultDir target u)
    (hapart : u.readLocator.named defaultDir ≠ target →
      nested target (u.readLocator.named defaultDir) = false)
    (hdatabase : (u.directory (u.readLocator.named defaultDir)).database ≠ none) :
    Succeeds (startStorage nested validDatabase defaultDir pid) u fun _ _ => True := by
  unfold startStorage initializeAt
  refine Succeeds.bind (Q := fun _ _ => True) ?_ fun r v _ => ?_
  · refine (Succeeds.probe (Q := fun _ u' => u' = u) rfl).bind fun _ u' hu' => ?_
    rw [hu']
    refine (succeeds_readLocator u).bind ?_
    rintro _ u' ⟨rfl, hu'⟩
    rw [hu']
    refine Succeeds.get_bind ?_
    rw [if_neg fun h => hdatabase h.2]
    refine (succeeds_applyPending h hapart).bind fun _ v _ => ?_
    exact (Succeeds.probe (Q := fun _ _ => True) trivial).bind fun _ _ _ => Succeeds.pure trivial
  · exact succeeds_openStorage r v

/-! ## The directories behind an interrupted migration -/

variable {writes : List ω}

/-- The copy is left in the target, and nothing will remove it. -/
structure Abandoned (defaultDir source target : δ) (u : Disk δ ω φ) : Prop where
  named : u.readLocator.named defaultDir = source
  ne : source ≠ target
  blocked : Blocked defaultDir target u
  kept : u.readLocator.cleanupDataDir ≠ some target
  database : (u.directory target).database ≠ none

/-- The target is cleaned up, or is going to be. -/
structure Cleaning (defaultDir source target : δ) (u : Disk δ ω φ) : Prop where
  named : u.readLocator.named defaultDir = source
  ne : source ≠ target
  blocked : Blocked defaultDir target u
  database : (u.directory source).database ≠ none
  clean : u.readLocator.cleanupDataDir = some target ∨
    u.readLocator.cleanupDataDir = none ∧ u.readLocator.pendingDataDir = none ∧
      (u.directory target).isManaged = false

omit [DecidableEq δ] in
theorem Finished.named {current : δ} (h : Finished current u v) :
    v.readLocator.named defaultDir = u.readLocator.named defaultDir := by
  rcases h.locator with h | ⟨h, -⟩ <;> rw [h]
  rfl

omit [DecidableEq δ] in
theorem Finished.cleanupDataDir {current : δ} (h : Finished current u v) :
    v.readLocator.cleanupDataDir = u.readLocator.cleanupDataDir ∨
      v.readLocator.cleanupDataDir = none := by
  rcases h.locator with h | ⟨h, -⟩ <;> rw [h]
  · exact .inl rfl
  · exact .inr rfl

theorem kept_abandoned (defaultDir source target : δ) :
    Kept defaultDir target source (Abandoned (ω := ω) (φ := φ) defaultDir source target) where
  blocked _ h := h.blocked
  named _ h := h.named
  dropped _ _ h := ⟨h.named, h.ne, .inl rfl, h.kept, h.database⟩
  opened u h hpending := by
    refine ⟨h.named, h.ne, .inl hpending, h.kept, ?_⟩
    rw [u.directory_update_of_ne h.ne.symm]
    exact h.database
  finished u v h hpending hv := by
    refine ⟨hv.named.trans h.named, h.ne, .inl (hv.pendingDataDir.trans hpending), ?_, ?_⟩
    · rcases hv.cleanupDataDir with hc | hc <;> rw [hc]
      · exact h.kept
      · exact Option.some_ne_none _ |>.symm
    · rw [hv.others target fun hc => absurd hc h.kept]
      exact h.database

theorem kept_cleaning (defaultDir source target : δ) :
    Kept defaultDir target source (Cleaning (ω := ω) (φ := φ) defaultDir source target) where
  blocked _ h := h.blocked
  named _ h := h.named
  dropped _ _ h := by
    refine ⟨h.named, h.ne, .inl rfl, h.database, ?_⟩
    exact h.clean.imp_right fun hclean => ⟨hclean.1, rfl, hclean.2.2⟩
  opened u h hpending := by
    refine ⟨h.named, h.ne, .inl hpending, ?_, ?_⟩
    · rw [u.directory_update_self]
      exact Option.some_ne_none _
    · rw [u.directory_update_of_ne h.ne.symm]
      exact h.clean
  finished u v h hpending hv := by
    have hsource : v.directory source = u.directory source := by
      refine hv.others source fun hc => ?_
      rcases h.clean with hclean | ⟨hclean, -⟩
      · exact absurd (Option.some.inj (hc.symm.trans hclean)) h.ne
      · exact absurd (hc.symm.trans hclean) (Option.some_ne_none _)
    have hpending' := hv.pendingDataDir.trans hpending
    refine ⟨hv.named.trans h.named, h.ne, .inl hpending', hsource ▸ h.database, ?_⟩
    rcases h.clean with hclean | ⟨hclean, -, hfree⟩
    · rcases hv.locator with hsame | ⟨hreplaced, hcleaned⟩
      · exact .inl (by rw [hsame, hclean])
      · exact .inr ⟨by rw [hreplaced], hpending', hcleaned target hclean h.ne.symm⟩
    · refine .inr ⟨?_, hpending', ?_⟩
      · rcases hv.cleanupDataDir with hc | hc
        · exact hc.trans hclean
        · exact hc
      · rw [hv.others target fun hc => absurd (hclean.symm.trans hc) (Option.some_ne_none _).symm]
        exact hfree

theorem kept_moved (defaultDir : δ) (s : Disk δ ω φ) (source target : δ) (writes : List ω) :
    Kept defaultDir target target (Moved defaultDir s source target writes) where
  blocked _ h := .inl h.done
  named _ h := h.named
  dropped _ _ h := ⟨h.named, rfl, h.left, h.data.database, h.data.filters⟩
  opened u h hpending := by
    refine ⟨h.named, hpending, h.left, ?_, ?_⟩
    · rw [u.directory_update_self]
      exact congrArg (fun database => some (database.getD (Copy.complete []))) h.data.database
    · rw [u.directory_update_self]
      exact h.data.filters
  finished u v h hpending hv := by
    have htarget := hv.others target fun _ => rfl
    refine ⟨hv.named.trans h.named, hv.pendingDataDir.trans hpending, ?_, ?_, ?_⟩
    · rcases hv.cleanupDataDir with hc | hc <;> rw [hc]
      · exact h.left
      · exact Option.some_ne_none _ |>.symm
    · rw [htarget]
      exact h.data.database
    · rw [htarget]
      exact h.data.filters

/-! ## Interrupted migrations -/

section
variable (nested : δ → δ → Bool) (validDatabase : List ω → Except Text Unit) (defaultDir : δ)

/-- What the choice of `target` is classified as. -/
def Classified (target : δ) (t : Disk δ ω φ) (action : StorageTargetAction) : Prop :=
  Succeeds (resolveStorageTarget nested validDatabase (t.readLocator.named defaultDir) target) t
    fun a _ => a = action

/-- The target holds the data of `s` and is the data directory, or can be migrated to. -/
structure Settled (s : Disk δ ω φ) (source target : δ) (writes : List ω) (t : Disk δ ω φ) :
    Prop where
  ends : (t.readLocator.named defaultDir = target ∧ HoldsData s source target writes t) ∨
    ((t.directory target).isManaged = false ∧
      Classified nested validDatabase defaultDir target t .migrate)
  not_offered : ¬ Classified nested validDatabase defaultDir target t .useExisting

/-- The disk behind starts that die when a number of steps are done, if they take that many. -/
def restarted (disk : Disk δ ω φ) : List (ℕ × ℕ) → Disk δ ω φ
  | [] => disk
  | (pid, n) :: starts =>
    restarted (startStorage nested validDatabase defaultDir pid (diesAfter n) disk).state starts

end

/-- Up to the start that replaces the locator, none dies behind the renaming of the database. -/
def Unharmed (s : Disk δ ω φ) (source target : δ) : List (ℕ × ℕ) → Prop
  | [] => True
  | (pid, n) :: starts => locatorReplaced s source target pid ≤ n ∨
      n < databaseRenamed s source ∧ Unharmed s source target starts

theorem Kept.restarted {d : δ} {I : Disk δ ω φ → Prop} (h : Kept defaultDir target d I)
    (nested : δ → δ → Bool) (validDatabase : List ω → Except Text Unit) :
    ∀ {u : Disk δ ω φ} (starts : List (ℕ × ℕ)), I u →
      I (restarted nested validDatabase defaultDir u starts)
  | _, [], hu => hu
  | _, _ :: starts, hu =>
    h.restarted nested validDatabase starts
      (((h.always_startStorage hu).mono (fun _ _ h => h.1) (fun _ _ h => h)
      fun _ h => h).state _)

theorem Kept.succeeds {d : δ} {I : Disk δ ω φ → Prop} (h : Kept defaultDir target d I) (hu : I u)
    (hapart : d ≠ target → nested target d = false) (hdatabase : (u.directory d).database ≠ none) :
    Succeeds (startStorage nested validDatabase defaultDir pid) u fun _ u' =>
      I u' ∧ u'.readLocator.pendingDataDir = none ∧ u'.readLocator.cleanupDataDir = none := by
  have hnamed := h.named u hu
  refine (succeeds_startStorage (h.blocked u hu) ?_ ?_).of_always (h.always_startStorage hu)
  · rw [hnamed]
    exact hapart
  · rw [hnamed]
    exact hdatabase

theorem Classified.unique {t : Disk δ ω φ} {action action' : StorageTargetAction}
    (h : Classified nested validDatabase defaultDir target t action)
    (h' : Classified nested validDatabase defaultDir target t action') : action = action' := by
  obtain ⟨a, u, hu, rfl⟩ := h
  obtain ⟨a', u', hu', rfl⟩ := h'
  cases hu.symm.trans hu'
  rfl

theorem Moved.settled (h : Moved defaultDir s source target writes u) :
    Settled nested validDatabase defaultDir s source target writes u := by
  refine ⟨.inl ⟨h.named, h.data⟩, fun hoffered => ?_⟩
  obtain ⟨a, t, hreturned, rfl⟩ := hoffered
  have halways : Always (resolveStorageTarget nested validDatabase target target) u
      (fun a _ => a = .current) (fun _ _ => True) fun _ => True := by
    unfold resolveStorageTarget
    refine (always_validateStorageDirectory target target u).bind (fun _ _ _ => trivial)
      (fun _ _ => trivial) fun _ u' _ => ?_
    rw [if_pos rfl]
    exact Always.pure rfl
  have hends := halways.ends []
  rw [h.named] at hreturned
  rw [hreturned] at hends
  cases hends

theorem settled_of_free (hne : source ≠ target) (hapart : nested target source = false)
    (hnamed : u.readLocator.named defaultDir = source)
    (hfree : (u.directory target).isManaged = false) :
    Settled nested validDatabase defaultDir s source target writes u := by
  have hmigrate : Classified nested validDatabase defaultDir target u .migrate := by
    unfold Classified resolveStorageTarget
    rw [hnamed]
    refine (succeeds_validateStorageDirectory hne hapart u).bind fun _ u' hu' => ?_
    rw [hu', if_neg hne]
    refine Succeeds.get_bind ?_
    have hnone : (u.directory target).database = none := by
      cases h : (u.directory target).database with
      | none => rfl
      | some database =>
        unfold Directory.isManaged at hfree
        rw [h] at hfree
        cases hfree
    rw [hnone]
    refine Succeeds.bind (Q := fun _ _ => True) ?_ fun _ _ _ => Succeeds.pure rfl
    unfold ensureTargetAvailable
    refine Succeeds.get_bind ?_
    rw [if_neg (by rw [hfree]; exact Bool.false_ne_true)]
    exact Succeeds.pure trivial
  exact ⟨.inr ⟨hfree, hmigrate⟩, fun h => by cases hmigrate.unique h⟩

theorem Abandoned.not_settled (h : Abandoned defaultDir source target u) :
    ¬ Settled nested validDatabase defaultDir s source target writes u := by
  rintro ⟨⟨hnamed, -⟩ | ⟨hfree, -⟩, -⟩
  · exact h.ne (h.named.symm.trans hnamed)
  · unfold Directory.isManaged at hfree
    rw [Option.isSome_iff_ne_none.2 h.database] at hfree
    cases hfree

theorem Abandoned.starts (h : Abandoned defaultDir source target u) (starts : List (ℕ × ℕ)) :
    ¬ Succeeds (startStorage nested validDatabase defaultDir pid)
      (restarted nested validDatabase defaultDir u starts)
      (fun _ t => Settled nested validDatabase defaultDir s source target writes t) := by
  rintro ⟨a, t, hreturned, ht⟩
  have hkept := kept_abandoned (ω := ω) (φ := φ) defaultDir source target
  have halways : Always (startStorage nested validDatabase defaultDir pid)
      (restarted nested validDatabase defaultDir u starts) _ _ _ :=
    hkept.always_startStorage (hkept.restarted nested validDatabase starts h)
  have hends := halways.ends []
  rw [hreturned] at hends
  exact hends.1.not_settled ht

theorem Moved.starts (h : Moved defaultDir s source target writes u) (starts : List (ℕ × ℕ)) :
    Succeeds (startStorage nested validDatabase defaultDir pid)
      (restarted nested validDatabase defaultDir u starts)
      (fun _ t => Settled nested validDatabase defaultDir s source target writes t) := by
  have hkept := kept_moved defaultDir s source target writes
  have hends := hkept.restarted nested validDatabase starts h
  refine (hkept.succeeds hends (fun hne => absurd rfl hne) ?_).mono fun _ _ h => h.1.settled
  rw [hends.data.database]
  exact Option.some_ne_none _

theorem Cleaning.starts (h : Cleaning defaultDir source target u)
    (hapart : nested target source = false) (starts : List (ℕ × ℕ)) :
    Succeeds (startStorage nested validDatabase defaultDir pid)
      (restarted nested validDatabase defaultDir u starts)
      (fun _ t => Settled nested validDatabase defaultDir s source target writes t) := by
  have hkept := kept_cleaning (ω := ω) (φ := φ) defaultDir source target
  have hends := hkept.restarted nested validDatabase starts h
  refine (hkept.succeeds hends (fun _ => hapart) hends.database).mono ?_
  rintro _ t ⟨ht, -, hcleaned⟩
  refine settled_of_free ht.ne hapart ht.named ?_
  rcases ht.clean with hclean | ⟨-, -, hfree⟩
  · exact absurd (hclean.symm.trans hcleaned) (Option.some_ne_none _)
  · exact hfree

/-! ## The copy that a dead process leaves -/

omit [DecidableEq δ] in
theorem Renamed.blocked (hs : Pending nested defaultDir source target writes s)
    (hu : Renamed s source target writes u) : Blocked defaultDir target u := by
  refine .inr ⟨by rw [hu.locator, hs.pending], by rw [hu.locator, hs.migrate], ?_, ?_⟩
  · rw [hu.locator, hs.named]
    exact hs.ne
  · unfold Directory.isManaged
    rw [hu.database]
    rfl

omit [DecidableEq δ] in
theorem Renamed.abandoned (hs : Pending nested defaultDir source target writes s)
    (hu : Renamed s source target writes u)
    (hleft : s.readLocator.cleanupDataDir ≠ some target) :
    Abandoned defaultDir source target u where
  named := by rw [hu.locator, hs.named]
  ne := hs.ne
  blocked := hu.blocked hs
  kept := by rw [hu.locator]; exact hleft
  database := by rw [hu.database]; exact Option.some_ne_none _

omit [DecidableEq δ] in
theorem Renamed.cleaning (hs : Pending nested defaultDir source target writes s)
    (hu : Renamed s source target writes u)
    (hleft : s.readLocator.cleanupDataDir = some target) :
    Cleaning defaultDir source target u where
  named := by rw [hu.locator, hs.named]
  ne := hs.ne
  blocked := hu.blocked hs
  database := by rw [hu.kept, hs.database]; exact Option.some_ne_none _
  clean := .inl (by rw [hu.locator, hleft])

theorem startStorage_diesAfter (validDatabase : List ω → Except Text Unit) (pid : ℕ)
    {writes : List ω} (hs : Pending nested defaultDir source target writes s)
    (hu : Waiting s source target u) (n : ℕ) :
    let t := (startStorage nested validDatabase defaultDir pid (diesAfter n) u).state
    (n < databaseRenamed s source → Waiting s source target t) ∧
      (databaseRenamed s source ≤ n → n < locatorReplaced s source target pid →
        Renamed s source target writes t) ∧
      (locatorReplaced s source target pid ≤ n → Moved defaultDir s source target writes t) := by
  obtain ⟨v, hpaced, hv⟩ := paced_initializeAt validDatabase _ hs hu
  have hopen : Always (openStorage (target, none)) v
      (fun _ t => Moved defaultDir s source target writes t)
      (fun _ t => Moved defaultDir s source target writes t)
      (Moved defaultDir s source target writes) :=
    ((kept_moved defaultDir s source target writes).always_openStorage rfl hv hv.done).mono
      (fun _ _ h => h.1) (fun _ _ h => h) fun _ h => h
  obtain ⟨hdied, hbehind⟩ := hpaced.state_bind hopen n
  have hle : databaseRenamed s source ≤ locatorReplaced s source target pid := by
    unfold locatorReplaced
    omega
  by_cases hn : n < locatorReplaced s source target pid + 1
  · exact hdied hn
  · have hmoved := hbehind (by omega)
    exact ⟨fun hn' => absurd hn' (by omega), fun _ hn' => absurd hn' (by omega), fun _ => hmoved⟩

/-- **The starts behind an interrupted migration settle it** exactly where none of them dies
    between the renaming of the database and the replacement of the locator, or the target is to
    be cleaned up anyway. -/
theorem settles_iff {writes : List ω} (hs : Pending nested defaultDir source target writes s)
    (starts : List (ℕ × ℕ)) (pid : ℕ) :
    Succeeds (startStorage nested validDatabase defaultDir pid)
        (restarted nested validDatabase defaultDir s starts)
        (fun _ t => Settled nested validDatabase defaultDir s source target writes t) ↔
      s.readLocator.cleanupDataDir = some target ∨ Unharmed s source target starts := by
  have hwaiting : Waiting s source target s := ⟨rfl, rfl, hs.free, fun _ => rfl⟩
  suffices ∀ {u : Disk δ ω φ}, Waiting s source target u →
      (Succeeds (startStorage nested validDatabase defaultDir pid)
        (restarted nested validDatabase defaultDir u starts)
        (fun _ t => Settled nested validDatabase defaultDir s source target writes t) ↔
      s.readLocator.cleanupDataDir = some target ∨ Unharmed s source target starts) from
    this hwaiting
  induction starts with
  | nil =>
    intro u hu
    refine iff_of_true ?_ (.inr trivial)
    obtain ⟨v, hpaced, hv⟩ := paced_initializeAt validDatabase _ hs hu
    refine hpaced.succeeds_bind (((succeeds_openStorage _ v).of_always
      ((kept_moved defaultDir s source target writes).always_openStorage rfl hv hv.done)).mono ?_)
    exact fun _ _ h => h.1.settled
  | cons start starts ih =>
    obtain ⟨pid', n⟩ := start
    intro u hu
    obtain ⟨hwaits, hrenamed, hmoved⟩ := startStorage_diesAfter validDatabase pid' hs hu n
    have hle : databaseRenamed s source ≤ locatorReplaced s source target pid' := by
      unfold locatorReplaced
      omega
    unfold restarted Unharmed
    by_cases hbefore : n < databaseRenamed s source
    · rw [ih (hwaits hbefore)]
      have : ¬ locatorReplaced s source target pid' ≤ n := by omega
      simp only [this, hbefore, false_or, true_and]
    by_cases hbehind : locatorReplaced s source target pid' ≤ n
    · exact iff_of_true ((hmoved hbehind).starts starts) (.inr (.inl hbehind))
    have hcopied := hrenamed (by omega) (by omega)
    have hharmed : ¬ (locatorReplaced s source target pid' ≤ n ∨
        n < databaseRenamed s source ∧ Unharmed s source target starts) := by
      rintro (h | ⟨h, -⟩)
      · exact hbehind h
      · exact hbefore h
    rw [or_iff_left hharmed]
    constructor
    · intro hsettled
      by_contra hleft
      exact (hcopied.abandoned hs hleft).starts starts hsettled
    · exact fun hleft => (hcopied.cleaning hs hleft).starts hs.apart starts

/-- Two directories, and a migration from the one to the other that is pending. -/
def pendingDisk : Disk ℕ ℕ ℕ where
  locator := some ⟨none, some 1, some .migrate, none, none⟩
  directory d := if d = 0 then { Directory.empty with database := some (.complete [5]) }
    else Directory.empty

theorem pending_pendingDisk : Pending (fun _ _ => false) 0 0 1 [5] pendingDisk :=
  ⟨rfl, rfl, rfl, by decide, rfl, rfl, rfl⟩

/-- Starts that die while the database is copied, and before it is renamed. -/
theorem settles_pendingDisk :
    Succeeds (startStorage (fun _ _ => false) (fun _ => .ok ()) 0 9)
      (restarted (fun _ _ => false) (fun _ => .ok ()) 0 pendingDisk [(7, 8), (8, 11)])
      (fun _ t => Settled (fun _ _ => false) (fun _ => .ok ()) 0 pendingDisk 0 1 [5] t) :=
  (settles_iff pending_pendingDisk [(7, 8), (8, 11)] 9).2
    (.inr (.inr ⟨by decide, .inr ⟨by decide, trivial⟩⟩))

/-- The process dies when the database is renamed: the start behind it refuses the copy as
    foreign data, and offers it from then on. -/
theorem interruptedBehindRenaming_offered :
    Pending (fun _ _ => false) 0 0 1 [5] pendingDisk ∧
      Succeeds (startStorage (fun _ _ => false) (fun _ => .ok ()) 0 8)
        (restarted (fun _ _ => false) (fun _ => .ok ()) 0 pendingDisk [(7, 12)])
        (fun _ t => t.readLocator.named 0 = 0 ∧
          t.readLocator.lastMigrationError = some (migrationError .migrate targetConflict) ∧
          Classified (fun _ _ => false) (fun _ => .ok ()) 0 1 t .useExisting ∧
          ¬ Settled (fun _ _ => false) (fun _ => .ok ()) 0 pendingDisk 0 1 [5] t) := by
  refine ⟨pending_pendingDisk, _, _, rfl, rfl, rfl, ?_, fun h => h.not_offered ?_⟩
  · exact ⟨_, _, rfl, rfl⟩
  · exact ⟨_, _, rfl, rfl⟩

end DnsBlackhole.Storage
