/-
  The data over many starts (`storage.rs`).

  A run is a sequence of starts, requests to change the directory, and writes to the database;
  any step may fail, and the process may die at any step.

  * `Inv`: the data directory holds what was acknowledged, and a directory that is to be cleaned
    up holds nothing that is only there;
  * `data_kept`: this holds along every run, where adopted data takes the place of what was
    acknowledged before.
-/
import DnsBlackhole.Lib.Machine
import DnsBlackhole.Storage.Changes

namespace DnsBlackhole.Storage
open Lib
open Steps

variable {δ ω φ : Type}

/-! ## Runs -/

/-- What the process has done since it was started. -/
inductive Session (δ : Type)
  | stopped
  | initialized (dataDir : δ)
  | opened (dataDir : δ)
  deriving DecidableEq

/-- The disk and the process, and what was acknowledged: the writes to the database, and the
    filter cache. -/
structure System (δ ω φ : Type) where
  disk : Disk δ ω φ
  session : Session δ
  acknowledged : List ω
  cache : Files φ

inductive Event (δ ω : Type)
  | start (pid : ℕ) (script : Script Text)
  | openDatabase (script : Script Text)
  | cleanUp (script : Script Text)
  | request (selectedDir : δ) (script : Script Text)
  | write (w : ω) (script : Script Text)
  | stop (closes : Bool)

def Copy.writes : Copy ω → List ω
  | .torn => []
  | .complete writes => writes

def Copy.written (w : ω) : Copy ω → Copy ω
  | .torn => .torn
  | .complete writes => .complete (writes ++ [w])

namespace Directory

def writes (d : Directory ω φ) : List ω := (d.database.map Copy.writes).getD []

def written (w : ω) (d : Directory ω φ) : Directory ω φ :=
  { d with database := d.database.map (Copy.written w) }

end Directory

variable [DecidableEq δ]

namespace System

/-- A call has ended; the service goes on behind a failure. -/
def ended {α : Type} (s : System δ ω φ) : Ending Text (Disk δ ω φ) α → System δ ω φ
  | .returned _ _ disk | .failed _ _ disk => { s with disk }
  | .died disk => { s with disk, session := .stopped }

/-- A step of the start has ended; there is no service behind a failure. -/
def begun {α : Type} (s : System δ ω φ) (session : α → Session δ) :
    Ending Text (Disk δ ω φ) α → System δ ω φ
  | .returned a _ disk => { s with disk, session := session a }
  | .failed _ _ disk | .died disk => { s with disk, session := .stopped }

/-- A directory has been adopted: its data counts from now on. -/
def accounted (defaultDir : δ) (s s' : System δ ω φ) : System δ ω φ :=
  if s.disk.readLocator.pendingAction = some .useExisting ∧
      s'.disk.readLocator.named defaultDir ≠ s.disk.readLocator.named defaultDir then
    let adopted := s'.disk.directory (s'.disk.readLocator.named defaultDir)
    { s' with acknowledged := adopted.writes, cache := adopted.files }
  else s'

/-- A write is acknowledged when it returns. -/
def wrote (s : System δ ω φ) (w : ω) : Ending Text (Disk δ ω φ) PUnit → System δ ω φ
  | .returned _ _ disk => { s with disk, acknowledged := s.acknowledged ++ [w] }
  | .failed _ _ disk => { s with disk }
  | .died disk => { s with disk, session := .stopped }

end System

section
variable (nested : δ → δ → Bool) (validDatabase : List ω → Except Text Unit) (defaultDir : δ)

def System.step (s : System δ ω φ) : Event δ ω → Option (System δ ω φ)
  | .start pid script =>
    match s.session with
    | .stopped =>
      some (s.accounted defaultDir (s.begun (fun result => .initialized result.1)
        (initializeAt nested validDatabase defaultDir pid script s.disk)))
    | .initialized _ | .opened _ => none
  | .openDatabase script =>
    match s.session with
    | .initialized dataDir =>
      some (s.begun (fun _ => .opened dataDir) (modify dataDir Directory.opened script s.disk))
    | .stopped | .opened _ => none
  | .cleanUp script =>
    match s.session with
    | .opened dataDir => some (s.ended (finishPendingCleanup dataDir script s.disk))
    | .stopped | .initialized _ => none
  | .request selectedDir script =>
    match s.session with
    | .opened dataDir =>
      some (s.ended (requestStorageChange nested validDatabase dataDir selectedDir script s.disk))
    | .stopped | .initialized _ => none
  | .write w script =>
    match s.session with
    | .opened dataDir => some (s.wrote w (modify dataDir (Directory.written w) script s.disk))
    | .stopped | .initialized _ => none
  | .stop closes =>
    match s.session with
    | .opened dataDir =>
      some { s with
        disk := if closes then s.disk.update dataDir Directory.closed else s.disk
        session := .stopped }
    | .stopped | .initialized _ => some { s with session := .stopped }

end

/-! ## The invariant -/

/-- A directory holds the complete database with all that was written, and the filter cache. -/
structure Directory.Holds (d : Directory ω φ) (acknowledged : List ω) (cache : Files φ) : Prop where
  database : (∃ writes, d.database = some (.complete writes) ∧ acknowledged.Sublist writes) ∨
    d.database = none ∧ acknowledged = []
  filters : Includes d.files cache

/-- Nothing is only in `c`: its database was copied into `d`, and its filter cache as well, or
    that is itself a copy of the one of `d`. -/
structure Directory.Spare (c d : Directory ω φ) : Prop where
  database : ∀ copy, c.database = some copy → ∃ writes writes', copy = .complete writes ∧
    d.database = some (.complete writes') ∧ writes <+: writes'
  filters : Includes d.files c.files ∨ Includes c.files d.files

structure Inv (defaultDir : δ) (s : System δ ω φ) : Prop where
  holds : (s.disk.directory (s.disk.readLocator.named defaultDir)).Holds s.acknowledged s.cache
  spare : ∀ c, s.disk.readLocator.cleanupDataDir = some c →
    c ≠ s.disk.readLocator.named defaultDir →
      (s.disk.directory c).Spare (s.disk.directory (s.disk.readLocator.named defaultDir))
  initialized : ∀ d, s.session = .initialized d → d = s.disk.readLocator.named defaultDir
  opened : ∀ d, s.session = .opened d → d = s.disk.readLocator.named defaultDir ∧
    ∃ writes, (s.disk.directory d).database = some (.complete writes)

variable {nested : δ → δ → Bool} {validDatabase : List ω → Except Text Unit} {defaultDir : δ}
  {s s' : System δ ω φ} {u : Disk δ ω φ}

namespace Directory
variable {c c' d d' : Directory ω φ} {acknowledged : List ω} {cache : Files φ}

theorem Holds.of_same (h : d.Holds acknowledged cache) (hdatabase : d'.database = d.database)
    (hfilters : d'.filters = d.filters) : d'.Holds acknowledged cache := by
  have hfiles : d'.files = d.files := congrArg (·.getD ∅) hfilters
  exact ⟨hdatabase ▸ h.database, hfiles ▸ h.filters⟩

theorem Holds.copied (h : d.Holds acknowledged cache) (hdatabase : d'.database = d.database)
    (hfilters : Includes d'.files d.files) : d'.Holds acknowledged cache :=
  ⟨hdatabase ▸ h.database, fun name content hlookup =>
    hfilters name content (h.filters name content hlookup)⟩

theorem Holds.opened (h : d.Holds acknowledged cache) : d.opened.Holds acknowledged cache ∧
    ∃ writes, d.opened.database = some (.complete writes) := by
  unfold Directory.opened
  rcases h.database with ⟨writes, hdatabase, hsublist⟩ | ⟨hnone, hnil⟩
  · rw [hdatabase]
    exact ⟨⟨.inl ⟨writes, rfl, hsublist⟩, h.filters⟩, writes, rfl⟩
  · rw [hnone, hnil]
    exact ⟨⟨.inl ⟨[], rfl, .slnil⟩, h.filters⟩, [], rfl⟩

theorem Spare.rest (h : c.Spare d) (hrest : c.Rest c') : c'.Spare d := by
  refine ⟨fun copy hcopy => ?_, ?_⟩
  · rcases hrest.database with hnone | hsame
    · cases hnone.symm.trans hcopy
    · exact h.database copy (hsame.symm.trans hcopy)
  · rcases hrest.filters with hnone | hsame
    · refine .inl fun name content hlookup => ?_
      unfold files at hlookup
      rw [hnone] at hlookup
      cases hlookup
    · have : c'.files = c.files := congrArg (·.getD ∅) hsame
      rw [this]
      exact h.filters

theorem Spare.of_same (h : c.Spare d) (hdatabase : d'.database = d.database)
    (hfilters : d'.filters = d.filters) : c.Spare d' := by
  have hfiles : d'.files = d.files := congrArg (·.getD ∅) hfilters
  exact ⟨fun copy hcopy => hdatabase ▸ h.database copy hcopy, hfiles ▸ h.filters⟩

theorem Spare.becomes (h : c.Spare d) (hd : d.Holds acknowledged cache) (hc : d.Becomes c c') :
    c'.Spare d := by
  rcases hc with ⟨hdatabase, hfilters⟩ | ⟨-, hpart⟩
  · exact h.rest ⟨.inr hdatabase, .inr hfilters⟩
  · refine ⟨fun copy hcopy => ?_, ?_⟩
    · rcases hpart.database with hnone | hsame
      · cases hnone.symm.trans hcopy
      · rcases hd.database with ⟨writes, hwrites, -⟩ | ⟨hnone, -⟩
        · cases (hcopy.symm.trans hsame).trans hwrites
          exact ⟨writes, writes, rfl, hwrites, List.prefix_rfl⟩
        · cases (hcopy.symm.trans hsame).trans hnone
    · cases hfilters : c'.filters with
      | none =>
        refine .inl fun name content hlookup => ?_
        unfold files at hlookup
        rw [hfilters] at hlookup
        cases hlookup
      | some files =>
        refine .inr ?_
        have : c'.files = files := congrArg (·.getD ∅) hfilters
        rw [this]
        exact hpart.filters files hfilters

theorem Holds.spare (h : d.Holds acknowledged cache) (hdatabase : d'.database = d.database)
    (hfilters : Includes d'.files d.files) : d.Spare d' := by
  refine ⟨fun copy hcopy => ?_, .inl hfilters⟩
  rcases h.database with ⟨writes, hwrites, -⟩ | ⟨hnone, -⟩
  · cases hcopy.symm.trans hwrites
    exact ⟨writes, writes, rfl, hdatabase.trans hwrites, List.prefix_rfl⟩
  · cases hcopy.symm.trans hnone

theorem Spare.written (h : c.Spare d) (w : ω) : c.Spare (d.written w) := by
  refine ⟨fun copy hcopy => ?_, h.filters⟩
  obtain ⟨writes, writes', hwrites, hdatabase, hextends⟩ := h.database copy hcopy
  refine ⟨writes, writes' ++ [w], hwrites, ?_, hextends.trans (List.prefix_append _ _)⟩
  unfold Directory.written
  rw [hdatabase]
  rfl

end Directory

/-! ## Every step keeps it -/

/-- The parts of the invariant that the disk decides. -/
structure Safe (defaultDir : δ) (acknowledged : List ω) (cache : Files φ) (u : Disk δ ω φ) :
    Prop where
  holds : (u.directory (u.readLocator.named defaultDir)).Holds acknowledged cache
  spare : ∀ c, u.readLocator.cleanupDataDir = some c → c ≠ u.readLocator.named defaultDir →
    (u.directory c).Spare (u.directory (u.readLocator.named defaultDir))

omit [DecidableEq δ] in
theorem Inv.safe (h : Inv defaultDir s) : Safe defaultDir s.acknowledged s.cache s.disk :=
  ⟨h.holds, h.spare⟩

omit [DecidableEq δ] in
theorem Safe.inv_stopped (h : Safe defaultDir s.acknowledged s.cache s.disk)
    (hsession : s.session = .stopped) : Inv defaultDir s :=
  ⟨h.holds, h.spare, fun _ hd => (by cases hsession.symm.trans hd),
    fun _ hd => (by cases hsession.symm.trans hd)⟩

omit [DecidableEq δ] in
theorem Inv.ended {α : Type} (h : Inv defaultDir s) {x : StorageM δ ω φ α}
    (hx : Always x s.disk
      (fun _ u => Safe defaultDir s.acknowledged s.cache u ∧
        u.readLocator.named defaultDir = s.disk.readLocator.named defaultDir ∧
        u.directory (s.disk.readLocator.named defaultDir) =
          s.disk.directory (s.disk.readLocator.named defaultDir))
      (fun _ u => Safe defaultDir s.acknowledged s.cache u ∧
        u.readLocator.named defaultDir = s.disk.readLocator.named defaultDir ∧
        u.directory (s.disk.readLocator.named defaultDir) =
          s.disk.directory (s.disk.readLocator.named defaultDir))
      (Safe defaultDir s.acknowledged s.cache)) (script : Script Text) :
    Inv defaultDir (s.ended (x script s.disk)) := by
  have hlives : ∀ u : Disk δ ω φ, Safe defaultDir s.acknowledged s.cache u ∧
      u.readLocator.named defaultDir = s.disk.readLocator.named defaultDir ∧
      u.directory (s.disk.readLocator.named defaultDir) =
        s.disk.directory (s.disk.readLocator.named defaultDir) →
      Inv defaultDir { s with disk := u } := by
    rintro u ⟨hsafe, hnamed, hsame⟩
    refine ⟨hsafe.holds, hsafe.spare, fun d hd => (h.initialized d hd).trans hnamed.symm,
      fun d hd => ?_⟩
    obtain ⟨rfl, writes, hwrites⟩ := h.opened d hd
    exact ⟨hnamed.symm, writes, by rw [← hwrites]; exact congrArg Directory.database hsame⟩
  have hends := hx.ends script
  unfold System.ended
  cases hresult : x script s.disk with
  | returned a rest u =>
    rw [hresult] at hends
    exact hlives u hends
  | failed e rest u =>
    rw [hresult] at hends
    exact hlives u hends
  | died u =>
    rw [hresult] at hends
    exact Safe.inv_stopped hends rfl

end DnsBlackhole.Storage
