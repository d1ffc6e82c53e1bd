/-
  Migrations that are interrupted (`initialize_at`, `migrate_data` of `storage.rs`).

  * `Waiting`, `Renamed`, `Moved`: what a process that dies may leave, and what the starts
    behind it make of that;
  * `paced_initializeAt`: which of them it is, by the number of steps that were done.
-/
import DnsBlackhole.Lib.Interrupted
import DnsBlackhole.Storage.Directories

namespace DnsBlackhole.Storage
open Lib
open Steps

variable {δ ω φ : Type}

@[simp] theorem Directory.temporaryFilters_withTemporaryFilters (d : Directory ω φ) (pid : ℕ)
    (files : Option (Files φ)) : (d.withTemporaryFilters pid files).temporaryFilters pid = files :=
  Function.update_self ..

def Disk.replaced (disk : Disk δ ω φ) (locator : StorageLocator δ) : Disk δ ω φ :=
  { disk with locator := some locator }

@[simp] theorem Disk.readLocator_replaced (disk : Disk δ ω φ) (locator : StorageLocator δ) :
    (disk.replaced locator).readLocator = locator := rfl

@[simp] theorem Disk.directory_replaced (disk : Disk δ ω φ) (locator : StorageLocator δ) :
    (disk.replaced locator).directory = disk.directory := rfl

variable [DecidableEq δ]

@[simp] theorem Disk.directory_update_self (disk : Disk δ ω φ) (d : δ)
    (f : Directory ω φ → Directory ω φ) : (disk.update d f).directory d = f (disk.directory d) :=
  Function.update_self ..

theorem Disk.directory_update_of_ne (disk : Disk δ ω φ) {d d' : δ} (hne : d' ≠ d)
    (f : Directory ω φ → Directory ω φ) : (disk.update d f).directory d' = disk.directory d' :=
  Function.update_of_ne hne ..

/-- Every file of the one is in the other. -/
def Includes (files' files : Files φ) : Prop :=
  ∀ name content, files.lookup name = some content → files'.lookup name = some content

/-! ## What is left -/

/-- A migration is pending, and can be carried out. -/
structure Pending (nested : δ → δ → Bool) (defaultDir source target : δ) (writes : List ω)
    (s : Disk δ ω φ) : Prop where
  named : s.readLocator.named defaultDir = source
  pending : s.readLocator.pendingDataDir = some target
  migrate : s.readLocator.pendingAction.getD .migrate = .migrate
  ne : source ≠ target
  apart : nested target source = false
  database : (s.directory source).database = some (.complete writes)
  free : (s.directory target).isManaged = false

/-- The migration of `s` is still pending. -/
structure Waiting (s : Disk δ ω φ) (source target : δ) (u : Disk δ ω φ) : Prop where
  locator : u.readLocator = s.readLocator
  kept : u.directory source = s.directory source
  free : (u.directory target).isManaged = false
  leftover : (s.directory source).filters = none →
    (u.directory target).temporaryFilters = (s.directory target).temporaryFilters

/-- The database of the target is there, and the locator is the one of `s`. -/
structure Renamed (s : Disk δ ω φ) (source target : δ) (writes : List ω) (u : Disk δ ω φ) :
    Prop where
  locator : u.readLocator = s.readLocator
  kept : u.directory source = s.directory source
  database : (u.directory target).database = some (.complete writes)

/-- The target holds the data of the source in `s`. -/
structure HoldsData (s : Disk δ ω φ) (source target : δ) (writes : List ω) (u : Disk δ ω φ) :
    Prop where
  database : (u.directory target).database = some (.complete writes)
  filters : ∀ files, (s.directory source).filters = some files →
    ∃ files', (u.directory target).filters = some files' ∧ Includes files' files

/-- The steps that copy a filter cache. -/
def copySteps (filters : Option (Files φ)) : ℕ := (filters.map (·.entries.length + 1)).getD 0

/-- The steps up to the renaming of the database: the start looks for the locator (2), looks at
    the target (4), copies the database (4), verifies it (1), copies the filters and renames the
    database (1). -/
def databaseRenamed (s : Disk δ ω φ) (source : δ) : ℕ :=
  2 + 4 + 4 + 1 + copySteps (s.directory source).filters + 1

/-- The renaming of the filters, if there are any. -/
def renameSteps (s : Disk δ ω φ) (source target : δ) (pid : ℕ) : ℕ :=
  if (s.directory source).filters.isSome || ((s.directory target).temporaryFilters pid).isSome
  then 1 else 0

/-- The steps up to the replacement of the locator: its writing takes five. -/
def locatorReplaced (s : Disk δ ω φ) (source target : δ) (pid : ℕ) : ℕ :=
  databaseRenamed s source + renameSteps s source target pid + 5

variable {nested : δ → δ → Bool} {validDatabase : List ω → Except Text Unit}
  {defaultDir source target : δ} {writes : List ω} {s u : Disk δ ω φ} {pid : ℕ}

namespace Waiting

omit [DecidableEq δ] in
theorem pending (hs : Pending nested defaultDir source target writes s)
    (hu : Waiting s source target u) : Pending nested defaultDir source target writes u where
  named := by rw [hu.locator, hs.named]
  pending := by rw [hu.locator, hs.pending]
  migrate := by rw [hu.locator, hs.migrate]
  ne := hs.ne
  apart := hs.apart
  database := by rw [hu.kept, hs.database]
  free := hu.free

theorem update (hne : source ≠ target) (hu : Waiting s source target u)
    {f : Directory ω φ → Directory ω φ} (hfree : ∀ d, (f d).isManaged = d.isManaged)
    (hleft : (s.directory source).filters = none →
      ∀ d, (f d).temporaryFilters = d.temporaryFilters) :
    Waiting s source target (u.update target f) where
  locator := hu.locator
  kept := by rw [u.directory_update_of_ne hne, hu.kept]
  free := by rw [u.directory_update_self, hfree, hu.free]
  leftover hnone := by rw [u.directory_update_self, hleft hnone, hu.leftover hnone]

theorem update_temporaryDatabase (hne : source ≠ target) (hu : Waiting s source target u)
    (f : Directory ω φ → Option (Copy ω)) :
    Waiting s source target (u.update target fun d => d.withTemporaryDatabase (f d)) :=
  hu.update hne (fun _ => rfl) fun _ _ => rfl

theorem update_temporaryFilters (pid : ℕ) (hne : source ≠ target) (hu : Waiting s source target u)
    (hsome : (s.directory source).filters ≠ none) (f : Directory ω φ → Option (Files φ)) :
    Waiting s source target (u.update target fun d => d.withTemporaryFilters pid (f d)) :=
  hu.update hne (fun _ => rfl) fun hnone => absurd hnone hsome

end Waiting

/-! ## Copying -/

variable {D : ℕ → Disk δ ω φ → Prop}

theorem paced_modify {d : δ} {f : Directory ω φ → Directory ω φ} (h : D 0 u) :
    Paced (modify d f) u 1 D ⟨⟩ (u.update d f) := Paced.step h

theorem paced_validateStorageDirectory (hne : source ≠ target)
    (hapart : nested target source = false)
    (h : ∀ k < 4, D k u) :
    Paced (validateStorageDirectory nested source target) u 4 D ⟨⟩ u := by
  unfold validateStorageDirectory
  refine (Paced.probe (h 0 (by omega))).bind (n := 1) (m := 3) ?_
  refine (Paced.probe (h 1 (by omega))).bind (n := 1) (m := 2) ?_
  rw [if_neg (by rw [hapart]; exact fun h => Bool.noConfusion h.2), if_pos hne.symm]
  refine (Paced.probe (h 2 (by omega))).bind (n := 1) (m := 1) ?_
  exact Paced.probe (h 3 (by omega))

theorem paced_backupDatabase (hne : source ≠ target) (hu : Waiting s source target u)
    (hD : ∀ k < 4, ∀ u, Waiting s source target u → D k u) (database : Copy ω) :
    ∃ t, Paced (backupDatabase target database) u 4 D ⟨⟩ t ∧ Waiting s source target t ∧
      (t.directory target).temporaryDatabase = some database := by
  have h₁ := hu.update_temporaryDatabase hne fun d => some (d.temporaryDatabase.getD .torn)
  have h₂ := h₁.update_temporaryDatabase hne fun _ => some .torn
  have h₃ := h₂.update_temporaryDatabase hne fun _ => some database
  refine ⟨_, ?_, h₃, by rw [Disk.directory_update_self]; rfl⟩
  unfold backupDatabase
  refine (Paced.probe (hD 0 (by omega) _ hu)).bind (n := 1) (m := 3) ?_
  refine (paced_modify (hD 1 (by omega) _ hu)).bind (n := 1) (m := 2) ?_
  refine (paced_modify (hD 2 (by omega) _ h₁)).bind (n := 1) (m := 1) ?_
  exact paced_modify (hD 3 (by omega) _ h₂)

omit [DecidableEq δ] in
theorem paced_verifyDatabase (h : D 0 u) :
    Paced (verifyDatabase (some (.complete writes))) u 1 D ⟨⟩ u := Paced.probe h

theorem paced_copyFiles (hne : source ≠ target) (hsome : (s.directory source).filters ≠ none) :
    ∀ {files : List (Σ _ : Text, φ)} {u : Disk δ ω φ} {D : ℕ → Disk δ ω φ → Prop} {there : Files φ},
      files.NodupKeys → Waiting s source target u →
      (∀ k < files.length, ∀ u, Waiting s source target u → D k u) →
      (u.directory target).temporaryFilters pid = some there →
      ∃ t copied, Paced (copyFiles pid target files) u files.length D ⟨⟩ t ∧
        Waiting s source target t ∧
        (t.directory target).temporaryDatabase = (u.directory target).temporaryDatabase ∧
        (t.directory target).temporaryFilters pid = some copied ∧
        (∀ name content, ⟨name, content⟩ ∈ files → copied.lookup name = some content) ∧
        ∀ name, name ∉ files.keys → copied.lookup name = there.lookup name
  | [], u, D, there, _, hu, _, hthere =>
    ⟨u, there, Paced.pure, hu, rfl, hthere, fun _ _ h => absurd h List.not_mem_nil, fun _ _ => rfl⟩
  | ⟨name, content⟩ :: files, u, D, there, hnodup, hu, hD, hthere => by
    obtain ⟨hnew, hnodup⟩ := List.nodupKeys_cons.1 hnodup
    let f := fun d : Directory ω φ => (d.temporaryFilters pid).map (·.insert name content)
    have hcopied := hu.update_temporaryFilters pid hne hsome f
    have hinsert : ((u.update target fun d => d.withTemporaryFilters pid (f d)).directory
        target).temporaryFilters pid = some (there.insert name content) := by
      rw [Disk.directory_update_self, Directory.temporaryFilters_withTemporaryFilters]
      exact congrArg (Option.map _) hthere
    obtain ⟨t, copied, hpaced, ht, hdatabase, hfilters, hmem, hother⟩ :=
      paced_copyFiles hne hsome hnodup hcopied (D := fun k => D (1 + k))
        (fun k hk => hD (1 + k) (by rw [List.length_cons]; omega)) hinsert
    refine ⟨t, copied, ?_, ht, ?_, hfilters, fun name' content' h => ?_, fun name' h => ?_⟩
    · rw [List.length_cons, Nat.add_comm]
      exact (paced_modify (hD 0 (by rw [List.length_cons]; omega) _ hu)).bind hpaced
    · rw [hdatabase, Disk.directory_update_self]
      rfl
    · rcases List.mem_cons.1 h with h | h
      · cases h
        rw [hother _ hnew, AList.lookup_insert]
      · exact hmem name' content' h
    · rw [List.keys_cons, List.mem_cons, not_or] at h
      rw [hother _ h.2, AList.lookup_insert_ne h.1]

theorem paced_copyDirectory (pid : ℕ) (hne : source ≠ target) (hu : Waiting s source target u)
    {files : Files φ} (hfiles : (s.directory source).filters = some files)
    (hD : ∀ k < files.entries.length + 1, ∀ u, Waiting s source target u → D k u) :
    ∃ t copied, Paced (copyDirectory pid target files) u (files.entries.length + 1) D ⟨⟩ t ∧
      Waiting s source target t ∧
      (t.directory target).temporaryDatabase = (u.directory target).temporaryDatabase ∧
      (t.directory target).temporaryFilters pid = some copied ∧ Includes copied files := by
  have hsome : (s.directory source).filters ≠ none := by rw [hfiles]; exact Option.some_ne_none _
  let f := fun d : Directory ω φ => some ((d.temporaryFilters pid).getD ∅)
  have hmade := hu.update_temporaryFilters pid hne hsome f
  have hthere : ((u.update target fun d => d.withTemporaryFilters pid (f d)).directory
      target).temporaryFilters pid = f (u.directory target) := by
    rw [Disk.directory_update_self, Directory.temporaryFilters_withTemporaryFilters]
  obtain ⟨t, copied, hpaced, ht, hdatabase, hfilters, hmem, -⟩ :=
    paced_copyFiles hne hsome files.nodupKeys hmade (D := fun k => D (1 + k))
      (fun k hk => hD (1 + k) (by omega)) hthere
  refine ⟨t, copied, ?_, ht, ?_, hfilters, fun name content h => hmem name content ?_⟩
  · rw [Nat.add_comm]
    exact (paced_modify (hD 0 (by omega) _ hu)).bind hpaced
  · rw [hdatabase, Disk.directory_update_self]
    rfl
  · exact AList.mem_lookup_iff.1 h

/-! ## Carrying a migration out -/

/-- A state of the target, wherever the process dies: the migration waits up to the step `n`, and
    its database is renamed behind it. -/
def ByStep (s : Disk δ ω φ) (source target : δ) (writes : List ω) (n k : ℕ) (u : Disk δ ω φ) :
    Prop :=
  (k < n → Waiting s source target u) ∧ (n ≤ k → Renamed s source target writes u)

omit [DecidableEq δ] in
theorem ByStep.of_waiting {n k : ℕ} (hk : k < n) (h : Waiting s source target u) :
    ByStep s source target writes n k u := ⟨fun _ => h, fun hn => absurd hn (by omega)⟩

omit [DecidableEq δ] in
theorem ByStep.of_renamed {n k : ℕ} (hk : n ≤ k) (h : Renamed s source target writes u) :
    ByStep s source target writes n k u := ⟨fun hn => absurd hn (by omega), fun _ => h⟩

theorem Waiting.renamed (hne : source ≠ target) (hu : Waiting s source target u)
    (hdatabase : (u.directory target).temporaryDatabase = some (.complete writes)) :
    Renamed s source target writes (u.update target Directory.renamedDatabase) where
  locator := hu.locator
  kept := by rw [u.directory_update_of_ne hne, hu.kept]
  database := by rw [u.directory_update_self]; exact hdatabase

theorem Renamed.filters (hne : source ≠ target) (hu : Renamed s source target writes u) :
    Renamed s source target writes (u.update target (·.renamedFilters pid)) where
  locator := hu.locator
  kept := by rw [u.directory_update_of_ne hne, hu.kept]
  database := by rw [u.directory_update_self]; exact hu.database

theorem paced_copyFilters (pid : ℕ) (hne : source ≠ target) (hu : Waiting s source target u)
    (hD : ∀ k < copySteps (s.directory source).filters, ∀ u, Waiting s source target u → D k u) :
    ∃ t, Paced (copyFilters pid target (s.directory source).filters) u
        (copySteps (s.directory source).filters) D ⟨⟩ t ∧
      Waiting s source target t ∧
      (t.directory target).temporaryDatabase = (u.directory target).temporaryDatabase ∧
      ∀ files, (s.directory source).filters = some files →
        ∃ copied, (t.directory target).temporaryFilters pid = some copied ∧
          Includes copied files := by
  cases hfilters : (s.directory source).filters with
  | none => exact ⟨u, Paced.pure, hu, rfl, fun _ h => by cases h⟩
  | some files =>
    rw [hfilters] at hD
    obtain ⟨t, copied, hpaced, ht, hdatabase, hcopied, hincludes⟩ :=
      paced_copyDirectory pid hne hu hfilters hD
    refine ⟨t, hpaced, ht, hdatabase, fun files' h => ⟨copied, hcopied, ?_⟩⟩
    cases h
    exact hincludes

/-- The filters that were copied, or left by a process of the same number, are renamed. -/
theorem paced_renameFilters (pid : ℕ) (hne : source ≠ target)
    (hu : Renamed s source target writes u)
    (hD : ∀ k u, Renamed s source target writes u → D k u) :
    ∃ t, Paced (renameFilters pid target) u
        (if ((u.directory target).temporaryFilters pid).isSome then 1 else 0) D ⟨⟩ t ∧
      Renamed s source target writes t ∧
      ∀ copied, (u.directory target).temporaryFilters pid = some copied →
        (t.directory target).filters = some copied := by
  by_cases hsome : ((u.directory target).temporaryFilters pid).isSome
  · refine ⟨u.update target (·.renamedFilters pid), ?_, hu.filters hne, fun copied h => ?_⟩
    · unfold renameFilters
      refine Paced.get_bind ?_
      rw [if_pos hsome, if_pos hsome]
      exact paced_modify (hD 0 u hu)
    · rw [Disk.directory_update_self]
      exact h
  · refine ⟨u, ?_, hu, fun copied h => absurd (by rw [h]; rfl) hsome⟩
    unfold renameFilters
    refine Paced.get_bind ?_
    rw [if_neg hsome, if_neg hsome]
    exact Paced.pure

theorem paced_transferData (pid : ℕ) (hne : source ≠ target) (hu : Waiting s source target u)
    (hD : ∀ k u, ByStep s source target writes
      (4 + 1 + copySteps (s.directory source).filters + 1) k u → D k u) :
    ∃ t, Paced (transferData pid target (.complete writes) (s.directory source).filters) u
        (4 + 1 + copySteps (s.directory source).filters + 1 + renameSteps s source target pid)
        D ⟨⟩ t ∧
      Renamed s source target writes t ∧ HoldsData s source target writes t := by
  set copies := copySteps (s.directory source).filters with hcopies
  obtain ⟨t₁, hbackup, ht₁, hdatabase₁⟩ := paced_backupDatabase (D := D) hne hu
    (fun k hk u hu => hD k u (.of_waiting (by omega) hu)) (.complete writes)
  obtain ⟨t₂, hcopy, ht₂, hdatabase₂, hcopied⟩ :=
    paced_copyFilters pid (D := fun k => D (4 + (1 + k))) hne ht₁
      fun k hk u hu => hD _ u (.of_waiting (by omega) hu)
  have hdatabase := hdatabase₂.trans hdatabase₁
  have ht₃ := ht₂.renamed hne hdatabase
  obtain ⟨t₄, hfilters, ht₄, hrenamed⟩ := paced_renameFilters pid
    (D := fun k => D (4 + (1 + (copies + (1 + k))))) hne ht₃
    fun k u hu => hD _ u (.of_renamed (by omega) hu)
  have htemporary : ((t₂.update target Directory.renamedDatabase).directory
      target).temporaryFilters = (t₂.directory target).temporaryFilters := by
    rw [Disk.directory_update_self]
    rfl
  rw [htemporary] at hfilters hrenamed
  refine ⟨t₄, ?_, ht₄, ht₄.database, fun files hfiles => ?_⟩
  · have hsteps : (if ((t₂.directory target).temporaryFilters pid).isSome then 1 else 0) =
        renameSteps s source target pid := by
      unfold renameSteps
      cases hsource : (s.directory source).filters with
      | none => rw [ht₂.leftover hsource]; rfl
      | some files =>
        obtain ⟨copied, h, -⟩ := hcopied files hsource
        rw [h]
        rfl
    rw [hsteps] at hfilters
    have hsum : 4 + 1 + copies + 1 + renameSteps s source target pid =
        4 + (1 + (copies + (1 + renameSteps s source target pid))) := by omega
    rw [hsum]
    unfold transferData
    refine hbackup.bind (Paced.get_bind ?_)
    rw [hdatabase₁]
    refine (paced_verifyDatabase (hD 4 t₁ (.of_waiting (by omega) ht₁))).bind ?_
    refine hcopy.bind (Paced.bind (n := 1) (a := ⟨⟩) ?_ hfilters)
    unfold renameDatabase
    refine Paced.get_bind ?_
    rw [hdatabase]
    exact paced_modify (hD _ t₂ (.of_waiting (by omega) ht₂))
  · obtain ⟨copied, h, hincludes⟩ := hcopied files hfiles
    exact ⟨copied, hrenamed copied h, hincludes⟩

theorem paced_migrateData (pid : ℕ) (hu : Pending nested defaultDir source target writes u)
    (hwaiting : Waiting s source target u)
    (hD : ∀ k u, ByStep s source target writes
      (4 + (4 + 1 + copySteps (s.directory source).filters + 1)) k u → D k u) :
    ∃ t, Paced (migrateData nested pid source target) u
        (4 + (4 + 1 + copySteps (s.directory source).filters + 1 + renameSteps s source target pid))
        D ⟨⟩ t ∧
      Renamed s source target writes t ∧ HoldsData s source target writes t := by
  obtain ⟨t, htransfer, ht, hholds⟩ := paced_transferData pid (D := fun k => D (4 + k))
    hu.ne hwaiting fun k u h => hD _ u ⟨fun hk => h.1 (by omega), fun hk => h.2 (by omega)⟩
  refine ⟨t, ?_, ht, hholds⟩
  unfold migrateData
  refine Paced.bind (t := u) (a := ⟨⟩) ?_ (Paced.get_bind ?_)
  · unfold validateTargetDirectory
    refine Paced.bind (n := 4) (m := 0) (paced_validateStorageDirectory hu.ne hu.apart
      fun k hk => hD k u (.of_waiting (by omega) hwaiting)) ?_
    rw [if_pos hu.ne.symm]
    unfold ensureTargetAvailable
    refine Paced.get_bind ?_
    rw [if_neg (by rw [hu.free]; exact Bool.false_ne_true)]
    exact Paced.pure
  · dsimp only
    rw [hu.database, hwaiting.kept]
    exact Paced.bind (m := 0) htransfer.attempt Paced.pure

omit [DecidableEq δ] in
theorem paced_writeLocator {locator : StorageLocator δ} (hD : ∀ k < 5, D k u) :
    Paced (writeLocator locator) u 5 D ⟨⟩ (u.replaced locator) := by
  unfold writeLocator
  refine Paced.bind (n := 1) (m := 4) (Paced.probe (hD 0 (by omega))) ?_
  refine Paced.bind (n := 4) (m := 0) (a := .ok ⟨⟩) (Paced.attempt ?_) Paced.pure
  refine Paced.bind (n := 1) (m := 3) (Paced.probe (hD 1 (by omega))) ?_
  refine Paced.bind (n := 1) (m := 2) (Paced.probe (hD 2 (by omega))) ?_
  refine Paced.bind (n := 1) (m := 1) (Paced.probe (hD 3 (by omega))) ?_
  exact Paced.step (hD 4 (by omega))

/-- The target is the data directory, and holds the data. -/
structure Moved (defaultDir : δ) (s : Disk δ ω φ) (source target : δ) (writes : List ω)
    (u : Disk δ ω φ) : Prop where
  named : u.readLocator.named defaultDir = target
  done : u.readLocator.pendingDataDir = none
  left : u.readLocator.cleanupDataDir ≠ some target
  data : HoldsData s source target writes u

theorem named_changedLocator {action : StorageTargetAction} :
    (changedLocator defaultDir action source target).named defaultDir = target := by
  unfold StorageLocator.named changedLocator customDataDir
  dsimp only
  split_ifs with h
  · exact h
  · rfl

theorem HoldsData.moved (defaultDir : δ) (hne : source ≠ target)
    (hu : HoldsData s source target writes u) :
    Moved defaultDir s source target writes
      (u.replaced (changedLocator defaultDir .migrate source target)) where
  named := named_changedLocator
  done := rfl
  left h := hne (Option.some.inj h)
  data := ⟨hu.database, hu.filters⟩

/-- **A pending migration, step by step**: it waits until the database is renamed, and is done
    when the locator is replaced. -/
theorem paced_initializeAt (validDatabase : List ω → Except Text Unit) (pid : ℕ)
    (hs : Pending nested defaultDir source target writes s)
    (hu : Waiting s source target u) :
    ∃ t, Paced (initializeAt nested validDatabase defaultDir pid) u
        (locatorReplaced s source target pid + 1)
        (fun k u' => (k < databaseRenamed s source → Waiting s source target u') ∧
          (databaseRenamed s source ≤ k → k < locatorReplaced s source target pid →
            Renamed s source target writes u') ∧
          (locatorReplaced s source target pid ≤ k → Moved defaultDir s source target writes u'))
        (target, none) t ∧ Moved defaultDir s source target writes t := by
  have hpending := hu.pending hs
  set n := copySteps (s.directory source).filters with hn
  set m := renameSteps s source target pid with hm
  have hrenamed : databaseRenamed s source = 2 + (4 + (4 + 1 + n + 1)) := by
    unfold databaseRenamed
    omega
  have hreplaced : locatorReplaced s source target pid + 1 =
      1 + (1 + (4 + (4 + 1 + n + 1 + m) + (5 + 0) + 1)) := by
    unfold locatorReplaced
    omega
  set D : ℕ → Disk δ ω φ → Prop := fun k u' =>
    (k < databaseRenamed s source → Waiting s source target u') ∧
      (databaseRenamed s source ≤ k → k < locatorReplaced s source target pid →
        Renamed s source target writes u') ∧
      (locatorReplaced s source target pid ≤ k → Moved defaultDir s source target writes u')
    with hD
  have hwaits : ∀ {k}, k < databaseRenamed s source → D k u := fun hk =>
    ⟨fun _ => hu, fun hk' => absurd hk' (by omega), fun hk' => absurd hk' (by omega)⟩
  obtain ⟨t, hmigrate, ht, hholds⟩ := paced_migrateData pid
    (D := ByStep s source target writes (4 + (4 + 1 + n + 1))) hpending hu fun _ _ h => h
  have hchange : Paced (changeDirectory nested validDatabase pid .migrate source target) u
      (4 + (4 + 1 + n + 1 + m)) (fun k => D (2 + k)) ⟨⟩ t := by
    refine hmigrate.mono fun k u' hk h =>
      ⟨fun hk' => h.1 (by omega), fun hk' _ => h.2 (by omega), ?_⟩
    exact fun hk' => absurd hk' (by omega)
  have hmoved := hholds.moved defaultDir hpending.ne
  have happly : Paced (applyPending nested validDatabase defaultDir pid u.readLocator source) u
      (4 + (4 + 1 + n + 1 + m) + (5 + 0)) (fun k => D (2 + k)) (target, none)
      (t.replaced (changedLocator defaultDir .migrate source target)) := by
    unfold applyPending
    rw [hpending.pending]
    dsimp only
    rw [hpending.migrate, if_neg hpending.ne]
    refine hchange.attempt.bind ?_
    dsimp only
    refine (paced_writeLocator fun k hk => ?_).bind Paced.pure
    exact ⟨fun hk' => absurd hk' (by omega), fun _ _ => ht, fun hk' => absurd hk' (by omega)⟩
  refine ⟨_, ?_, hmoved⟩
  rw [hreplaced]
  unfold initializeAt readLocator
  refine Paced.bind (n := 1) (Paced.probe (hwaits (by omega))) ?_
  refine Paced.bind (a := u.readLocator) (t := u) ?_ (Paced.get_bind ?_)
  · exact Paced.bind (n := 1) (m := 0) (Paced.probe (hwaits (by omega))) (Paced.get_bind Paced.pure)
  · rw [hpending.named, if_neg fun h => Option.some_ne_none _ (hpending.database.symm.trans h.2)]
    refine Paced.bind (by simpa only [← Nat.add_assoc] using happly) ?_
    refine Paced.bind (n := 1) (m := 0) (Paced.probe ?_) Paced.pure
    exact ⟨fun hk' => absurd hk' (by omega), fun _ hk' => absurd hk' (by omega), fun _ => hmoved⟩

end DnsBlackhole.Storage
