/-
  What a start makes of a pending change, wherever it ends (`initialize_at`, `migrate_data`,
  `prepare_existing_data_for_adoption` of `storage.rs`).

  * `always_migrateData_target`, `always_prepareExistingDataForAdoption`: a change writes to its
    target only;
  * `always_initializeAt_started`: the data directory stays, or the target takes its place with
    a copy of the data (`Started`).
-/
import DnsBlackhole.Storage.Restarts

namespace DnsBlackhole.Storage
open Lib
open Steps

variable {δ ω φ : Type} [DecidableEq δ] {nested : δ → δ → Bool}
  {validDatabase : List ω → Except Text Unit} {defaultDir source target : δ} {s u v : Disk δ ω φ}
  {pid : ℕ} {writes : List ω}

/-- The filter files of a directory. -/
def Directory.files (d : Directory ω φ) : Files φ := d.filters.getD ∅

/-- What a migration of `d` may leave in a directory that was free. -/
structure Directory.PartOf (d d' : Directory ω φ) : Prop where
  database : d'.database = none ∨ d'.database = d.database
  filters : ∀ files, d'.filters = some files → Includes files d.files

/-- What a change may make of a directory `t`, where the data is in `d`: nothing that counts, or
    a part of the data, where nothing was. -/
def Directory.Becomes (d t t' : Directory ω φ) : Prop :=
  t'.database = t.database ∧ t'.filters = t.filters ∨ t.isManaged = false ∧ d.PartOf t'

/-- A change is carried out for the target, and has written there only. -/
structure Changing (s : Disk δ ω φ) (source target : δ) (u : Disk δ ω φ) : Prop where
  locator : u.readLocator = s.readLocator
  others : ∀ d ≠ target, u.directory d = s.directory d
  becomes : (s.directory source).Becomes (s.directory target) (u.directory target)

omit [DecidableEq δ] in
theorem Changing.refl (s : Disk δ ω φ) (source target : δ) : Changing s source target s :=
  ⟨rfl, fun _ _ => rfl, .inl ⟨rfl, rfl⟩⟩

theorem Changing.update (h : Changing s source target u) {f : Directory ω φ → Directory ω φ}
    (hf : (s.directory source).Becomes (s.directory target) (f (u.directory target))) :
    Changing s source target (u.update target f) where
  locator := h.locator
  others d hd := by rw [u.directory_update_of_ne hd, h.others d hd]
  becomes := by rw [u.directory_update_self]; exact hf

theorem Changing.update_same (h : Changing s source target u) {f : Directory ω φ → Directory ω φ}
    (hf : ∀ d : Directory ω φ, (f d).database = d.database ∧ (f d).filters = d.filters) :
    Changing s source target (u.update target f) := by
  refine h.update ?_
  obtain ⟨hdatabase, hfilters⟩ := hf (u.directory target)
  rcases h.becomes with ⟨h₁, h₂⟩ | ⟨hfree, hpart⟩
  · exact .inl ⟨hdatabase.trans h₁, hfilters.trans h₂⟩
  · exact .inr ⟨hfree, hdatabase ▸ hpart.database, hfilters ▸ hpart.filters⟩

theorem Changing.always_modify (h : Changing s source target u)
    {f : Directory ω φ → Directory ω φ} (hf : Changing s source target (u.update target f)) :
    Always (modify target f) u (fun _ v => v = u.update target f)
      (fun _ v => Changing s source target v) (Changing s source target) :=
  Storage.always_modify target f h hf

/-! ## Migration -/

/-- The target is free of data so far. -/
structure Copying (s : Disk δ ω φ) (source target : δ) (u : Disk δ ω φ) : Prop where
  changing : Changing s source target u
  free : (s.directory target).isManaged = false
  database : (u.directory target).database = none
  filters : (u.directory target).filters = none

theorem Copying.update (h : Copying s source target u) {f : Directory ω φ → Directory ω φ}
    (hf : ∀ d : Directory ω φ, (f d).database = d.database ∧ (f d).filters = d.filters) :
    Copying s source target (u.update target f) where
  changing := h.changing.update_same hf
  free := h.free
  database := by rw [u.directory_update_self, (hf _).1, h.database]
  filters := by rw [u.directory_update_self, (hf _).2, h.filters]

theorem Copying.always_modify (h : Copying s source target u) (f : Directory ω φ → Directory ω φ)
    (hf : ∀ d : Directory ω φ, (f d).database = d.database ∧ (f d).filters = d.filters) :
    Always (modify target f) u
      (fun _ v => v = u.update target f ∧ Copying s source target v)
      (fun _ v => Changing s source target v) (Changing s source target) :=
  (h.changing.always_modify (h.changing.update_same hf)).mono
    (fun _ _ hv => ⟨hv, hv ▸ h.update hf⟩) (fun _ _ h => h) fun _ h => h

theorem Includes.nil (files : Files φ) : Includes files ∅ := fun _ _ h => by cases h

/-- The data is in the target. -/
structure Copied (s : Disk δ ω φ) (source target : δ) (u : Disk δ ω φ) : Prop where
  changing : Changing s source target u
  database : (u.directory target).database = (s.directory source).database
  filters : Includes (u.directory target).files (s.directory source).files

/-- What a start makes of the disk `s`, where the data is in `source`, wherever it ends. -/
inductive Started (defaultDir source : δ) (s u : Disk δ ω φ) : Prop
  | stays (hnamed : u.readLocator.named defaultDir = source)
      (hcleanup : u.readLocator.cleanupDataDir = s.readLocator.cleanupDataDir)
      (hsource : u.directory source = s.directory source)
      (hbecomes : ∀ d, (s.directory source).Becomes (s.directory d) (u.directory d))
  | moves (target : δ) (hne : target ≠ source)
      (haction : s.readLocator.pendingAction.getD .migrate = .migrate)
      (hnamed : u.readLocator.named defaultDir = target)
      (hcleanup : u.readLocator.cleanupDataDir = some source)
      (hsource : u.directory source = s.directory source)
      (hdatabase : (s.directory source).database ≠ none)
      (hmoved : (u.directory target).database = (s.directory source).database)
      (hfilters : Includes (u.directory target).files (s.directory source).files)
  | adopts (target : δ) (hne : target ≠ source)
      (haction : s.readLocator.pendingAction = some .useExisting)
      (hnamed : u.readLocator.named defaultDir = target)
      (hcleanup : u.readLocator.cleanupDataDir = none)
      (hsource : u.directory source = s.directory source)
      (writes : List ω) (hdatabase : (u.directory target).database = some (.complete writes))

theorem Changing.stays (h : Changing s source target u) :
    ∀ d, (s.directory source).Becomes (s.directory d) (u.directory d) := by
  intro d
  by_cases hd : d = target
  · rw [hd]
    exact h.becomes
  · rw [h.others d hd]
    exact .inl ⟨rfl, rfl⟩

theorem Changing.started (hne : source ≠ target) (hnamed : s.readLocator.named defaultDir = source)
    (h : Changing s source target u) : Started defaultDir source s u :=
  .stays (by rw [h.locator, hnamed]) (by rw [h.locator]) (h.others source hne) h.stays

omit [DecidableEq δ] in
theorem Started.refl (hnamed : s.readLocator.named defaultDir = source) :
    Started defaultDir source s s := .stays hnamed rfl rfl fun _ => .inl ⟨rfl, rfl⟩

/-- What a change that succeeds has done. -/
def Changed (s : Disk δ ω φ) (source target : δ) (action : StorageTargetAction)
    (u : Disk δ ω φ) : Prop :=
  action = .migrate ∧ Copied s source target u ∧ (s.directory source).database ≠ none ∨
    action = .useExisting ∧ Changing s source target u ∧
      ∃ writes, (u.directory target).database = some (.complete writes)

omit [DecidableEq δ] in
theorem Changed.changing {action : StorageTargetAction} (h : Changed s source target action u) :
    Changing s source target u := by
  rcases h with ⟨-, h, -⟩ | ⟨-, h, -⟩
  · exact h.changing
  · exact h

theorem Changed.started (defaultDir : δ) {action : StorageTargetAction} (hne : source ≠ target)
    (haction : s.readLocator.pendingAction.getD .migrate = action)
    (h : Changed s source target action u) :
    Started defaultDir source s
      (u.replaced (changedLocator defaultDir action source target)) := by
  rcases h with ⟨rfl, h, hdatabase⟩ | ⟨rfl, h, writes, hdatabase⟩
  · exact .moves target hne.symm haction named_changedLocator rfl (h.changing.others source hne)
      hdatabase h.database h.filters
  · refine .adopts target hne.symm ?_ named_changedLocator rfl (h.others source hne) writes
      hdatabase
    cases hpending : s.readLocator.pendingAction with
    | none =>
      rw [hpending] at haction
      cases haction
    | some action =>
      rw [hpending] at haction
      exact congrArg some haction

end DnsBlackhole.Storage
