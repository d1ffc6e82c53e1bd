/-
  Local time in a zone whose offsets are whole hours, over milliseconds of the epoch.

  The offset may change at every hour.  Where the clock is put back a local hour
  comes twice, and the first one is meant; where it is put forward an hour is
  skipped, and its time is read with the offset before.

  * `localHour_utcHour`: a local hour that is not skipped is found again;
  * `setHoursZero_eq`, `setDateBack_eq`: the start of a day, and of an earlier one.
-/
import Mathlib.Algebra.Order.Ring.Int

namespace DnsBlackhole.Lib

def hourMs : ℤ := 3600000
def dayMs : ℤ := 86400000

structure Zone where
  /-- How far the local time is ahead, at an hour of the epoch. -/
  offset : ℤ → ℤ
  offset_lt : ∀ h, |offset h| < 24

namespace Zone
variable (z : Zone)

def localHour (h : ℤ) : ℤ := h + z.offset h

def localDay (h : ℤ) : ℤ := z.localHour h / 24

/-- The hours that may have a local time. -/
def candidates (w : ℤ) : List ℤ := (List.range 47).map fun i : ℕ => w - 23 + i

def firstHour? (w : ℤ) : Option ℤ := (candidates w).find? fun h => z.localHour h = w

def lastHour? (w : ℤ) : Option ℤ := (candidates w).reverse.find? fun h => z.localHour h = w

/-- The hour with a local time; a time that is skipped has the offset of the last one before. -/
def utcHour (w : ℤ) : ℤ :=
  match z.firstHour? w with
  | some h => h
  | none =>
    match (List.range 48).findSome? fun i : ℕ => z.lastHour? (w - 1 - i) with
    | some h => w - z.offset h
    | none => w

/-- A local time of which the clock shows every hour. -/
def Shown (w : ℤ) : Prop := ∃ h, z.localHour h = w

/-! ## Dates -/

/-- The local time of a date. -/
def localTime (t : ℤ) : ℤ := t + z.offset (t / hourMs) * hourMs

/-- The date with a local time. -/
def utc (t : ℤ) : ℤ := z.utcHour (t / hourMs) * hourMs + t % hourMs

/-- `setHours(0, 0, 0, 0)` -/
def setHoursZero (date : ℤ) : ℤ := z.utc (z.localTime date / dayMs * dayMs)

/-- `setMinutes(0, 0, 0)` -/
def setMinutesZero (date : ℤ) : ℤ := z.utc (z.localTime date / hourMs * hourMs)

/-- `setDate(getDate() - days)` -/
def setDateBack (date days : ℤ) : ℤ := z.utc (z.localTime date - days * dayMs)

variable {z}

theorem mem_candidates {h w : ℤ} : h ∈ candidates w ↔ w - 23 ≤ h ∧ h ≤ w + 23 := by
  simp only [candidates, List.mem_map, List.mem_range]
  constructor
  · rintro ⟨i, hi, rfl⟩
    omega
  · rintro ⟨hlow, hhigh⟩
    exact ⟨(h - (w - 23)).toNat, by omega, by omega⟩

/-- **A local time that is not skipped is found again.** -/
theorem localHour_utcHour {w : ℤ} (hw : z.Shown w) : z.localHour (z.utcHour w) = w := by
  obtain ⟨h, hh⟩ := hw
  have hmem : h ∈ candidates w := by
    have hoffset := abs_lt.1 (z.offset_lt h)
    rw [localHour] at hh
    exact mem_candidates.2 ⟨by omega, by omega⟩
  have hsome : (z.firstHour? w).isSome := by
    rw [firstHour?, List.find?_isSome]
    exact ⟨h, hmem, decide_eq_true hh⟩
  obtain ⟨first, hfirst⟩ := Option.isSome_iff_exists.1 hsome
  rw [utcHour, hfirst]
  exact of_decide_eq_true (List.find?_some (p := fun h => decide (z.localHour h = w)) hfirst)

theorem localTime_div_hourMs (t : ℤ) : z.localTime t / hourMs = z.localHour (t / hourMs) :=
  Int.add_mul_ediv_right _ _ (by decide)

theorem localTime_div_dayMs (t : ℤ) : z.localTime t / dayMs = z.localDay (t / hourMs) := by
  have hday : dayMs = hourMs * 24 := rfl
  rw [hday, ← Int.ediv_ediv_of_nonneg (by decide), localTime_div_hourMs, localDay]

theorem localTime_mul_hourMs (h : ℤ) : z.localTime (h * hourMs) = z.localHour h * hourMs := by
  rw [localTime, Int.mul_ediv_cancel _ (by decide), localHour, Int.add_mul]

theorem utc_mul_hourMs (w : ℤ) : z.utc (w * hourMs) = z.utcHour w * hourMs := by
  rw [utc, Int.mul_ediv_cancel _ (by decide), Int.mul_emod_left, Int.add_zero]

theorem setHoursZero_eq (t : ℤ) :
    z.setHoursZero t = z.utcHour (24 * z.localDay (t / hourMs)) * hourMs := by
  have hday : ∀ d : ℤ, d * dayMs = 24 * d * hourMs := fun d => by
    simp only [dayMs, hourMs]
    omega
  rw [setHoursZero, localTime_div_dayMs, hday, utc_mul_hourMs]

theorem setMinutesZero_eq (t : ℤ) :
    z.setMinutesZero t = z.utcHour (z.localHour (t / hourMs)) * hourMs := by
  rw [setMinutesZero, localTime_div_hourMs, utc_mul_hourMs]

theorem setDateBack_eq {m d : ℤ} (hm : z.localHour m = 24 * d) (days : ℤ) :
    z.setDateBack (m * hourMs) days = z.utcHour (24 * (d - days)) * hourMs := by
  have hday : 24 * d * hourMs - days * dayMs = 24 * (d - days) * hourMs := by
    simp only [dayMs, hourMs]
    omega
  rw [setDateBack, localTime_mul_hourMs, hm, hday, utc_mul_hourMs]

/-- The starts of two days that are not skipped are different. -/
theorem utcHour_inj {w w' : ℤ} (hw : z.Shown w) (hw' : z.Shown w') :
    z.utcHour w = z.utcHour w' ↔ w = w' := by
  constructor
  · intro h
    rw [← localHour_utcHour hw, h, localHour_utcHour hw']
  · rintro rfl
    rfl

end Zone

end DnsBlackhole.Lib
