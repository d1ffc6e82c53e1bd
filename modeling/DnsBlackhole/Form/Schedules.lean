/-
  Schedules that the service accepts, as the editor reads them.

  * `parseTime_eq`: it reads a time with two digits for the hour and the minute
    (`isClock`), and others not at all;
  * `parseWeekdays_of_ok`: it reads the same days;
  * `parseSchedule_eq`: so it reads a schedule if both times are written so
    (`plainSchedule`).
-/
import DnsBlackhole.Form.Policies
import DnsBlackhole.Lib.Fallible
import Mathlib.Data.Bool.AllAny

namespace DnsBlackhole.Form
open Text (flatten_words isWhitespace_toLower lower_lower mem_of_mem_dropWhile mem_or_of_mem
  mem_split_of_mem not_of_mem_split splitOnce_append splitOnce_eq_none splitOnce_eq_some
  split_cons_append split_filter split_of_not_mem toLower_cases trim_of_forall_not words
  words_flatMap words_of_forall_not words_trim)
open DnsBlackhole.Filter (ClientScheduleSpec)
open Config (okOr okOr_eq_ok require_eq_ok require_bind_eq_ok weekdayIndex weekdayNames)
open Lib (bind_eq_ok exists_of_mem_foldlM exists_of_mem_foldlM_option foldlM_option mapError_eq_ok pure_eq_ok)

/-! ## Times -/

/-- `HH:MM` -/
def isClock (t : Text) : Bool :=
  match t with
  | [h₁, h₂, colon, m₁, m₂] =>
    isDigit h₁ && isDigit h₂ && colon == ':' && isDigit m₁ && isDigit m₂
  | _ => false

/-- A text without white space. -/
def IsWord (t : Text) : Prop := ∀ c ∈ t, ¬ Text.isWhitespace c

theorem parseScheduleTime_eq_ok {t : Text} {minuteOfDay : ℕ} (hword : IsWord t)
    (h : Config.parseScheduleTime t = .ok minuteOfDay) :
    ∃ hourText minuteText : Text, ∃ hour minute : UInt16, t = hourText ++ ':' :: minuteText ∧
      ':' ∉ hourText ∧ hourText.parseU16 = some hour ∧ minuteText.parseU16 = some minute ∧
      hour.toNat ≤ 23 ∧ minute.toNat ≤ 59 ∧ minuteOfDay = hour.toNat * 60 + minute.toNat := by
  unfold Config.parseScheduleTime at h
  rw [trim_of_forall_not hword] at h
  obtain ⟨⟨hourText, minuteText⟩, hsplit, h⟩ := bind_eq_ok.1 h
  obtain ⟨hour, hhour, h⟩ := bind_eq_ok.1 h
  obtain ⟨minute, hminute, h⟩ := bind_eq_ok.1 h
  obtain ⟨⟨hle₁, hle₂⟩, hvalue⟩ := require_bind_eq_ok.1 h
  obtain ⟨rfl, hcolon⟩ := splitOnce_eq_some (okOr_eq_ok.1 hsplit)
  exact ⟨_, _, hour, minute, rfl, hcolon, okOr_eq_ok.1 hhour, okOr_eq_ok.1 hminute,
    UInt16.le_iff_toNat_le.1 hle₁, UInt16.le_iff_toNat_le.1 hle₂, (pure_eq_ok.1 hvalue).symm⟩

theorem parseTime_eq {t : Text} {minuteOfDay : ℕ} (hword : IsWord t)
    (h : Config.parseScheduleTime t = .ok minuteOfDay) :
    parseTime t = if isClock t then some minuteOfDay else none := by
  obtain ⟨hourText, minuteText, hour, minute, ht, hcolon, hhour, hminute, hle₁, hle₂, rfl⟩ :=
    parseScheduleTime_eq_ok hword h
  have hsplit := splitOnce_append (b := minuteText) hcolon
  rw [← ht] at hsplit
  unfold parseTime
  split
  · next h₁ h₂ colon m₁ m₂ =>
    by_cases hclock : isDigit h₁ && isDigit h₂ && colon == ':' && isDigit m₁ && isDigit m₂
    · rw [if_pos hclock, if_pos (show isClock [h₁, h₂, colon, m₁, m₂] from hclock)]
      simp only [Bool.and_eq_true, beq_iff_eq] at hclock
      obtain ⟨⟨⟨⟨hh₁, hh₂⟩, rfl⟩, hm₁⟩, hm₂⟩ := hclock
      have hnot : ':' ∉ [h₁, h₂] := by
        rintro hmem
        rcases List.mem_pair.1 hmem with rfl | rfl
        · cases hh₁
        · cases hh₂
      have heq := (splitOnce_append (b := [m₁, m₂]) hnot).symm.trans hsplit
      obtain ⟨rfl, rfl⟩ := Prod.mk.inj (Option.some.inj heq)
      have hhourNumber := number_of_parseU16 hhour (by simp [hh₁, hh₂])
      have hminuteNumber := number_of_parseU16 hminute (by simp [hm₁, hm₂])
      rw [hhourNumber, hminuteNumber, if_pos ⟨hle₁, hle₂⟩]
    · rw [if_neg hclock, if_neg (show ¬ isClock [h₁, h₂, colon, m₁, m₂] from hclock)]
  · next hshape =>
    have hclock : isClock t = false := by
      unfold isClock
      split
      · exact absurd rfl (hshape _ _ _ _ _)
      · rfl
    rw [hclock]
    rfl

/-! ## Days -/

theorem isSome_weekdayIndex {value : Text} {day : ℕ} (hword : IsWord value)
    (h : weekdayIndex value = some day) :
    clientPolicyWeekdays.idxOf? value = some day ∧ value ∈ weekdayNames := by
  rw [weekdayIndex, trim_of_forall_not hword] at h
  exact ⟨h, List.isSome_idxOf?.1 (Option.isSome_of_eq_some h)⟩

/-- The characters of the names of days and of their lists. -/
def isDayChar (c : Char) : Bool := c.isLower || c == ',' || c == '-'

theorem isDayChar_of_mem {value : Text} (h : value ∈ weekdayNames) :
    '-' ∉ value ∧ ∀ c ∈ value, isDayChar c := by
  have hall : ∀ name ∈ weekdayNames, (!name.contains '-' && name.all isDayChar) = true :=
    List.all_eq_true.1 (by decide)
  have hname := hall value h
  rw [Bool.and_eq_true, Bool.not_eq_true', List.contains_eq_mem, decide_eq_false_iff_not] at hname
  exact ⟨hname.1, List.all_eq_true.1 hname.2⟩

theorem weekdayRange {part start finish : Text} {first last : ℕ} (hword : IsWord part)
    (hparts : (part.splitOnce (· == '-')).getD (part, part) = (start, finish))
    (hfirst : weekdayIndex start = some first) (hlast : weekdayIndex finish = some last) :
    clientPolicyWeekdays.idxOf? ((part.split (· == '-')).getD 0 []) = some first ∧
      clientPolicyWeekdays.idxOf? ((part.split (· == '-')).getD 1
        ((part.split (· == '-')).getD 0 [])) = some last ∧ (∀ c ∈ part, isDayChar c) ∧
      (part.split (· == '-')).length ≤ 2 := by
  cases hsplit : part.splitOnce (· == '-') with
  | none =>
    rw [hsplit] at hparts
    obtain ⟨rfl, rfl⟩ := Prod.mk.inj hparts
    obtain ⟨hindex, hmem⟩ := isSome_weekdayIndex hword hfirst
    rw [split_of_not_mem (splitOnce_eq_none.1 hsplit)]
    exact ⟨hindex, Option.some_inj.1 (hfirst.symm.trans hlast) ▸ hindex,
      (isDayChar_of_mem hmem).2, Nat.le_succ 1⟩
  | some parts =>
    rw [hsplit] at hparts
    obtain rfl : parts = (start, finish) := hparts
    obtain ⟨rfl, hdash⟩ := splitOnce_eq_some hsplit
    have hstart : IsWord start := fun c hc => hword c (List.mem_append_left _ hc)
    have hfinish : IsWord finish := fun c hc =>
      hword c (List.mem_append_right _ (List.mem_cons_of_mem _ hc))
    obtain ⟨hindex, hmem⟩ := isSome_weekdayIndex hstart hfirst
    obtain ⟨hindex', hmem'⟩ := isSome_weekdayIndex hfinish hlast
    rw [split_cons_append hdash, split_of_not_mem (isDayChar_of_mem hmem').1]
    refine ⟨hindex, hindex', fun c hc => ?_, le_rfl⟩
    rcases List.mem_append.1 hc with hc | hc
    · exact (isDayChar_of_mem hmem).2 c hc
    · rcases List.mem_cons.1 hc with rfl | hc
      · rfl
      · exact (isDayChar_of_mem hmem').2 c hc

theorem isWord_lower {t : Text} (h : IsWord t) : IsWord t.toAsciiLowercase := by
  intro c hc
  obtain ⟨d, hd, rfl⟩ := List.mem_map.1 hc
  rw [isWhitespace_toLower]
  exact h d hd

theorem parseScheduleWeekdays_eq_ok {days : Text} {weekdays : List Bool}
    (h : Config.parseScheduleWeekdays days = .ok weekdays) :
    (days.toAsciiLowercase = "daily".toList ∧ weekdays = List.replicate 7 true) ∨
      (days.toAsciiLowercase ≠ "daily".toList ∧ weekdays.any id ∧
        (days.toAsciiLowercase.split (· == ',')).foldlM (fun weekdays part => do
          let (start, finish) := (part.splitOnce (· == '-')).getD (part, part)
          let first ← okOr (weekdayIndex start) ("未知星期：".toList ++ start)
          let last ← okOr (weekdayIndex finish) ("未知星期：".toList ++ finish)
          return List.zipWith (· || ·) weekdays (Config.weekdaysBetween first last))
          (List.replicate 7 false) = .ok weekdays) := by
  unfold Config.parseScheduleWeekdays at h
  have hdaily : "daily".toList = Text.toAsciiLowercase "daily".toList := by decide
  split_ifs at h with heq
  · cases h
    exact .inl ⟨hdaily ▸ eq_of_beq heq, rfl⟩
  · obtain ⟨weekdays', hloop, h⟩ := bind_eq_ok.1 h
    obtain ⟨hany, h⟩ := require_bind_eq_ok.1 h
    obtain rfl := pure_eq_ok.1 h
    refine .inr ⟨fun hlower => heq ?_, hany, hloop⟩
    rw [Text.eqIgnoreAsciiCase, hlower, ← hdaily]
    exact beq_self_eq_true _

theorem isWord_part {days part : Text} (hword : IsWord days)
    (hpart : part ∈ days.toAsciiLowercase.split (· == ',')) : IsWord part :=
  fun c hc => isWord_lower hword c (Text.mem_of_mem_split hpart c hc)

section
variable {days : Text} {weekdays : List Bool} (hword : IsWord days)
  (h : Config.parseScheduleWeekdays days = .ok weekdays)
include hword h

theorem isDayChar_of_ok : ∀ c ∈ days.toAsciiLowercase, isDayChar c := by
  rcases parseScheduleWeekdays_eq_ok h with ⟨hdaily, -⟩ | ⟨-, -, hloop⟩
  · rw [hdaily]
    exact List.all_iff_forall_prop.1 (by decide)
  · intro c hc
    by_cases hcomma : c = ','
    · rw [hcomma]
      rfl
    · obtain ⟨part, hpart, hmem⟩ := mem_split_of_mem (p := (· == ',')) hc
        fun heq => hcomma (eq_of_beq heq)
      obtain ⟨bs, bs', hstep⟩ := exists_of_mem_foldlM hloop hpart
      obtain ⟨first, hfirst, hstep⟩ := bind_eq_ok.1 hstep
      obtain ⟨last, hlast, -⟩ := bind_eq_ok.1 hstep
      exact (weekdayRange (isWord_part hword hpart) rfl (okOr_eq_ok.1 hfirst)
        (okOr_eq_ok.1 hlast)).2.2.1 c hmem

/-- **The editor reads the days that the service reads.** -/
theorem parseWeekdays_of_ok {days' : Text} (hlower : toLowerCase days' = days.toAsciiLowercase) :
    parseWeekdays days' = some weekdays := by
  unfold parseWeekdays
  rw [hlower]
  rcases parseScheduleWeekdays_eq_ok h with ⟨hdaily, rfl⟩ | ⟨hdaily, hany, hloop⟩
  · rw [if_pos hdaily]
  · rw [if_neg hdaily]
    change (Option.bind _ _) = _
    rw [foldlM_option (fun part hpart bs bs' hstep => ?_) hloop]
    · exact if_pos hany
    · obtain ⟨first, hfirst, hstep⟩ := bind_eq_ok.1 hstep
      obtain ⟨last, hlast, hstep⟩ := bind_eq_ok.1 hstep
      cases pure_eq_ok.1 hstep
      obtain ⟨hindex, hindex', -⟩ := weekdayRange (isWord_part hword hpart) rfl
        (okOr_eq_ok.1 hfirst) (okOr_eq_ok.1 hlast)
      simp only [hindex, hindex']
      rfl

end

/-! ## Schedules -/

theorem parseClientSchedule_eq_ok {index : ℕ} {value : Text} {spec : ClientScheduleSpec}
    (h : Config.parseClientSchedule index value = .ok spec) :
    ∃ days time start finish, value.splitWhitespace = [days, time] ∧
      Text.splitOnce (· == '-') time = some (start, finish) ∧
      Config.parseScheduleWeekdays days = .ok spec.weekdays ∧
      Config.parseScheduleTime start = .ok spec.startMinute ∧
      Config.parseScheduleTime finish = .ok spec.endMinute := by
  unfold Config.parseClientSchedule at h
  obtain ⟨days, hdays, h⟩ := bind_eq_ok.1 h
  obtain ⟨time, htime, h⟩ := bind_eq_ok.1 h
  obtain ⟨hwords, h⟩ := require_bind_eq_ok.1 h
  obtain ⟨weekdays, hweekdays, h⟩ := bind_eq_ok.1 h
  obtain ⟨⟨start, finish⟩, hsplit, h⟩ := bind_eq_ok.1 h
  obtain ⟨startMinute, hstart, h⟩ := bind_eq_ok.1 h
  obtain ⟨endMinute, hend, h⟩ := bind_eq_ok.1 h
  obtain rfl := pure_eq_ok.1 h
  refine ⟨days, time, start, finish, ?_, okOr_eq_ok.1 hsplit, mapError_eq_ok.1 hweekdays,
    mapError_eq_ok.1 hstart, mapError_eq_ok.1 hend⟩
  have hdays := okOr_eq_ok.1 hdays
  have htime := okOr_eq_ok.1 htime
  generalize value.splitWhitespace = words at *
  obtain _ | ⟨first, _ | ⟨second, _ | ⟨third, words⟩⟩⟩ := words
  · cases hdays
  · cases htime
  · cases hdays
    cases htime
    rfl
  · cases hwords

/-- Both times are written as the editor reads them. -/
def plainSchedule (value : Text) : Bool :=
  match value.splitWhitespace with
  | [_, time] =>
    match Text.splitOnce (· == '-') time with
    | some (start, finish) => isClock start && isClock finish
    | none => true
  | _ => true

theorem isWord_of_mem_splitWhitespace {t word : Text} (h : word ∈ t.splitWhitespace) :
    IsWord word := fun _ hc => not_of_mem_split (List.mem_filter.1 h).1 hc

/-- The characters of a rule, without its arrow and the sign before the schedule. -/
def isRuleChar (c : Char) : Bool := c.toNat < 128 && c != '=' && c != '@'

theorem isRuleChar_of_toLower {c : Char} (h : isRuleChar c.toLower) : isRuleChar c := by
  rcases toLower_cases c with heq | ⟨hlow, hhigh, -⟩
  · rwa [heq] at h
  · have hne : ∀ d : Char, d.toNat < 65 → c ≠ d := fun d hd heq => by
      rw [heq] at hlow
      omega
    simp [isRuleChar, hne '=' (by decide), hne '@' (by decide)]
    omega

theorem isRuleChar_of_isDayChar {c : Char} (h : isDayChar c) : isRuleChar c ∧ c.toNat < 128 := by
  have hlt : c.toNat < 128 := by
    unfold isDayChar Char.isLower at h
    rw [Bool.or_eq_true, Bool.or_eq_true, beq_iff_eq, beq_iff_eq] at h
    rcases h with (h | rfl) | rfl
    · rw [Bool.and_eq_true, decide_eq_true_iff, decide_eq_true_iff] at h
      have hle : c.toNat ≤ 122 := h.2
      omega
    · decide
    · decide
  refine ⟨?_, hlt⟩
  have heq : c ≠ '=' := fun heq => by rw [heq] at h; cases h
  have hat : c ≠ '@' := fun heq => by rw [heq] at h; cases h
  simp [isRuleChar, hlt, heq, hat]

theorem isRuleChar_of_days {days : Text} (h : ∀ c ∈ days.toAsciiLowercase, isDayChar c) :
    (∀ c ∈ days, isRuleChar c) ∧ IsCaseless days := by
  have hchars : ∀ c ∈ days, isRuleChar c := fun c hc =>
    isRuleChar_of_toLower (isRuleChar_of_isDayChar (h _ (List.mem_map_of_mem hc))).1
  refine ⟨hchars, fun c hc => .inl ?_⟩
  have hchar := hchars c hc
  rw [isRuleChar, Bool.and_eq_true, Bool.and_eq_true, decide_eq_true_iff] at hchar
  exact hchar.1.1

theorem isRuleChar_of_isDigit {c : Char} (h : isDigit c ∨ c = '+' ∨ c = ':') :
    isRuleChar c ∧ c ≠ '-' := by
  rcases h with h | rfl | rfl
  · rw [isDigit, Bool.and_eq_true, decide_eq_true_iff, decide_eq_true_iff] at h
    have hlow : 48 ≤ c.toNat := h.1
    have hhigh : c.toNat ≤ 57 := h.2
    have hne : ∀ d : Char, d.toNat < 48 ∨ 57 < d.toNat → c ≠ d := fun d hd heq => by
      rw [heq] at hlow hhigh
      omega
    refine ⟨?_, hne '-' (by decide)⟩
    simp [isRuleChar, hne '=' (by decide), hne '@' (by decide)]
    omega
  · decide
  · decide

theorem isRuleChar_of_time {t : Text} {minuteOfDay : ℕ} (hword : IsWord t)
    (h : Config.parseScheduleTime t = .ok minuteOfDay) : ∀ c ∈ t, isRuleChar c ∧ c ≠ '-' := by
  obtain ⟨hourText, minuteText, hour, minute, rfl, -, hhour, hminute, -⟩ :=
    parseScheduleTime_eq_ok hword h
  have hnumber : ∀ {t : Text} {value : UInt16}, t.parseU16 = some value →
      ∀ c ∈ t, isDigit c ∨ c = '+' ∨ c = ':' := by
    intro t value hvalue c hc
    obtain ⟨digits, rfl | rfl, -, hdigits, -⟩ := parseU16_eq_some hvalue
    · exact .inl (hdigits c hc)
    · rcases List.mem_cons.1 hc with rfl | hc
      · exact .inr (.inl rfl)
      · exact .inl (hdigits c hc)
  intro c hc
  refine isRuleChar_of_isDigit ?_
  rcases List.mem_append.1 hc with hc | hc
  · exact hnumber hhour c hc
  · rcases List.mem_cons.1 hc with rfl | hc
    · exact .inr (.inr rfl)
    · exact hnumber hminute c hc

/-- **The editor reads a schedule that the service reads**, if both times are plain. -/
theorem parseSchedule_eq {index : ℕ} {schedule : Text} {spec : ClientScheduleSpec}
    (hspace : SameSpace schedule)
    (h : Config.parseClientSchedule index schedule.trim = .ok spec) :
    ∃ days start finish, parseWeekdays days = some spec.weekdays ∧
      parseTime start = (if isClock start then some spec.startMinute else none) ∧
      parseTime finish = (if isClock finish then some spec.endMinute else none) ∧
      plainSchedule schedule.trim = (isClock start && isClock finish) ∧
      parseSchedule schedule =
        if plainSchedule schedule.trim then some ⟨days, start, finish⟩ else none := by
  obtain ⟨days, time, start, finish, hwords, htime, hdays, hstart, hfinish⟩ :=
    parseClientSchedule_eq_ok h
  have hwordTime : IsWord time := isWord_of_mem_splitWhitespace (t := schedule.trim) (hwords ▸ by simp)
  have hwordDays : IsWord days := isWord_of_mem_splitWhitespace (t := schedule.trim) (hwords ▸ by simp)
  obtain ⟨rfl, hdash⟩ := splitOnce_eq_some htime
  have hwordStart : IsWord start := fun c hc => hwordTime c (List.mem_append_left _ hc)
  have hwordFinish : IsWord finish := fun c hc =>
    hwordTime c (List.mem_append_right _ (List.mem_cons_of_mem _ hc))
  have hcaseless := (isRuleChar_of_days (isDayChar_of_ok hwordDays hdays)).2
  have hlower := toLowerCase_eq hcaseless
  have hagain : toLowerCase (toLowerCase days) = days.toAsciiLowercase := by
    rw [hlower, toLowerCase_eq (isCaseless_lower hcaseless), lower_lower]
  have hweekdays := parseWeekdays_of_ok hwordDays hdays hagain
  have hstartTime := parseTime_eq hwordStart hstart
  have hfinishTime := parseTime_eq hwordFinish hfinish
  have hplain : plainSchedule schedule.trim = (isClock start && isClock finish) := by
    rw [plainSchedule, hwords]
    dsimp only
    rw [htime]
  refine ⟨toLowerCase days, start, finish, hweekdays, hstartTime, hfinishTime, hplain, ?_⟩
  have hne : schedule.trim ≠ [] := fun hnil => by
    rw [hnil] at hwords
    cases hwords
  have hsplit : Text.split (· == '-') (start ++ '-' :: finish) = [start, finish] := by
    rw [split_cons_append hdash, split_of_not_mem fun hmem =>
      (isRuleChar_of_time hwordFinish hfinish _ hmem).2 rfl]
  rw [hplain, parseSchedule, trimmedWords_eq hspace, if_neg hne, hwords]
  dsimp only
  rw [hsplit]
  dsimp only
  have hvalid : validateSchedule ⟨toLowerCase days, start, finish⟩ =
      (isClock start && isClock finish) := by
    rw [validateSchedule, hweekdays, hstartTime, hfinishTime]
    cases isClock start <;> cases isClock finish <;> rfl
  rw [hvalid]

theorem isRuleChar_of_schedule {index : ℕ} {value : Text} {spec : ClientScheduleSpec}
    (h : Config.parseClientSchedule index value = .ok spec) :
    ∀ c ∈ value, Text.isWhitespace c ∨ isRuleChar c := by
  obtain ⟨days, time, start, finish, hwords, htime, hdays, hstart, hfinish⟩ :=
    parseClientSchedule_eq_ok h
  have hwordTime : IsWord time := isWord_of_mem_splitWhitespace (t := value) (hwords ▸ by simp)
  have hwordDays : IsWord days := isWord_of_mem_splitWhitespace (t := value) (hwords ▸ by simp)
  obtain ⟨rfl, hdash⟩ := splitOnce_eq_some htime
  have hwordStart : IsWord start := fun c hc => hwordTime c (List.mem_append_left _ hc)
  have hwordFinish : IsWord finish := fun c hc =>
    hwordTime c (List.mem_append_right _ (List.mem_cons_of_mem _ hc))
  intro c hc
  by_cases hspace : Text.isWhitespace c
  · exact .inl hspace
  right
  obtain ⟨word, hword, hmem⟩ := mem_split_of_mem hc hspace
  have hword : word ∈ value.splitWhitespace :=
    List.mem_filter.2 ⟨hword, decide_eq_true (List.ne_nil_of_mem hmem)⟩
  rw [hwords] at hword
  rcases List.mem_pair.1 hword with rfl | rfl
  · exact (isRuleChar_of_days (isDayChar_of_ok hwordDays hdays)).1 c hmem
  · rcases List.mem_append.1 hmem with hmem | hmem
    · exact (isRuleChar_of_time hwordStart hstart c hmem).1
    · rcases List.mem_cons.1 hmem with rfl | hmem
      · rfl
      · exact (isRuleChar_of_time hwordFinish hfinish c hmem).1

/-! ## U+0085 -/

theorem length_split_of_ok {days item : Text} {weekdays : List Bool} (hword : IsWord days)
    (h : Config.parseScheduleWeekdays days = .ok weekdays)
    (hitem : item ∈ days.toAsciiLowercase.split (· == ',')) :
    (Text.split (· == '-') item).length ≤ 2 := by
  rcases parseScheduleWeekdays_eq_ok h with ⟨hdaily, -⟩ | ⟨-, -, hloop⟩
  · have hall : ∀ item ∈ Text.split (· == ',') "daily".toList,
        (Text.split (· == '-') item).length ≤ 2 := by decide
    exact hall item (hdaily ▸ hitem)
  · obtain ⟨bs, bs', hstep⟩ := exists_of_mem_foldlM hloop hitem
    obtain ⟨first, hfirst, hstep⟩ := bind_eq_ok.1 hstep
    obtain ⟨last, hlast, -⟩ := bind_eq_ok.1 hstep
    exact (weekdayRange (isWord_part hword hitem) rfl (okOr_eq_ok.1 hfirst)
      (okOr_eq_ok.1 hlast)).2.2.2

theorem isDigit_of_parseTime {t : Text} (h : (parseTime t).isSome) :
    ∀ c ∈ t, isDigit c ∨ c = ':' := by
  unfold parseTime at h
  split at h
  · split_ifs at h with hclock
    · simp only [Bool.and_eq_true, beq_iff_eq] at hclock
      simp [hclock]
    · cases h
  · cases h

theorem not_isWhitespace_of_isDigit {c : Char} (h : isDigit c ∨ c = ':') :
    ¬ Text.isWhitespace c := by
  rcases h with h | rfl
  · exact (toNat_of_isDigit h).2
  · decide

theorem mem_weekdays_of_read {part : Text} {bs bs' : List Bool}
    (h : (do
      let parts := part.split (· == '-')
      let startValue := parts.getD 0 []
      let start ← clientPolicyWeekdays.idxOf? startValue
      let finish ← clientPolicyWeekdays.idxOf? (parts.getD 1 startValue)
      some (List.zipWith (· || ·) bs (Config.weekdaysBetween start finish))) = some bs')
    (hlen : (part.split (· == '-')).length ≤ 2) :
    ∀ name ∈ part.split (· == '-'), name ∈ clientPolicyWeekdays := by
  obtain ⟨start, hstart, h⟩ := Option.bind_eq_some_iff.1 h
  obtain ⟨finish, hfinish, -⟩ := Option.bind_eq_some_iff.1 h
  have hstart := List.isSome_idxOf?.1 (Option.isSome_of_eq_some hstart)
  have hfinish := List.isSome_idxOf?.1 (Option.isSome_of_eq_some hfinish)
  generalize part.split (· == '-') = parts at *
  obtain _ | ⟨a, _ | ⟨b, _ | ⟨c, parts⟩⟩⟩ := parts
  · exact fun name hname => absurd hname List.not_mem_nil
  · exact List.forall_mem_singleton.2 hstart
  · exact List.forall_mem_cons.2 ⟨hstart, List.forall_mem_singleton.2 hfinish⟩
  · simp only [List.length_cons] at hlen
    omega

theorem nextLine_not_mem_days {days days' : Text} {weekdays : List Bool}
    (hcaseless : IsCaseless days') (hwords : words Text.isWhitespace days' = [days])
    (h : Config.parseScheduleWeekdays days = .ok weekdays)
    (hread : (parseWeekdays (toLowerCase days')).isSome) : nextLine ∉ days' := by
  intro hmem
  have hword : IsWord days := isWord_of_mem_splitWhitespace (t := days') (by
    change days ∈ words Text.isWhitespace days'
    rw [hwords]
    exact List.mem_singleton_self days)
  -- the days of the service are these without their white space
  have hdays : days.toAsciiLowercase =
      days'.toAsciiLowercase.filter fun c => !Text.isWhitespace c := by
    have hflat := flatten_words Text.isWhitespace days'
    rw [hwords, List.flatten_singleton] at hflat
    have hsame : (fun c => !Text.isWhitespace c) ∘ Char.toLower = fun c => !Text.isWhitespace c :=
      funext fun c => congrArg (!·) (isWhitespace_toLower c)
    rw [hflat, Text.toAsciiLowercase, Text.toAsciiLowercase, List.filter_map, hsame]
  have hlower : toLowerCase (toLowerCase days') = days'.toAsciiLowercase := by
    rw [toLowerCase_eq hcaseless, toLowerCase_eq (isCaseless_lower hcaseless), lower_lower]
  have hnext : nextLine ∈ days'.toAsciiLowercase := List.mem_map.2 ⟨nextLine, hmem, rfl⟩
  unfold parseWeekdays at hread
  rw [hlower] at hread
  split_ifs at hread with hdaily
  · rw [hdaily] at hnext
    revert hnext
    decide
  · obtain ⟨read, hread⟩ := Option.isSome_iff_exists.1 hread
    obtain ⟨weekdays', hloop, -⟩ := Option.bind_eq_some_iff.1 hread
    obtain ⟨item, hitem, hmem⟩ := mem_split_of_mem (p := (· == ',')) hnext (by decide)
    obtain ⟨bs, bs', hstep⟩ := exists_of_mem_foldlM_option hloop hitem
    have hlen : (Text.split (· == '-') item).length ≤ 2 := by
      have hitem' := List.mem_map_of_mem (f := List.filter fun c => !Text.isWhitespace c) hitem
      rw [← split_filter (by rintro c hc; rw [eq_of_beq hc]; rfl), ← hdays] at hitem'
      have hle := length_split_of_ok hword h hitem'
      rwa [split_filter (by rintro c hc; rw [eq_of_beq hc]; rfl), List.length_map] at hle
    obtain ⟨name, hname, hmem⟩ := mem_split_of_mem (p := (· == '-')) hmem (by decide)
    have hnames : ∀ name ∈ clientPolicyWeekdays, nextLine ∉ name := by decide
    exact hnames name (mem_weekdays_of_read hstep hlen name hname) hmem

/-- **A schedule with U+0085 in it is none** to the editor. -/
theorem nextLine_not_mem_schedule {index : ℕ} {schedule : Text} {spec : ClientScheduleSpec}
    {read : ClientPolicySchedule} (h : Config.parseClientSchedule index schedule.trim = .ok spec)
    (hread : parseSchedule schedule = some read) : nextLine ∉ schedule := by
  have hcaseless : IsCaseless schedule := by
    intro c hc
    rcases mem_or_of_mem (p := Text.isWhitespace) hc with hspace | hmem
    · exact .inr hspace
    · rcases isRuleChar_of_schedule h c hmem with hspace | hchar
      · exact .inr hspace
      · rw [isRuleChar, Bool.and_eq_true, Bool.and_eq_true, decide_eq_true_iff] at hchar
        exact .inl hchar.1.1
  obtain ⟨days, time, start, finish, hwords, -, hdays, -⟩ := parseClientSchedule_eq_ok h
  unfold parseSchedule at hread
  split at hread
  · next days' time' hwords' =>
    split at hread
    · next start' finish' hsplit =>
      dsimp only at hread
      split_ifs at hread with hvalid
      rw [validateSchedule, Bool.and_eq_true, Bool.and_eq_true] at hvalid
      obtain ⟨⟨hdays', hstart'⟩, hfinish'⟩ := hvalid
      -- the words of the editor, and those of the service in them
      have hform : words isWhitespace (trim schedule) = [days', time'] := by
        rw [trimmedWords] at hwords'
        split_ifs at hwords' with hnil
        · cases hwords'
        · exact hwords'
      have hmark := not_mem_of_isCaseless hcaseless
      have hsub : ∀ c ∈ trim schedule, c ∈ schedule := fun c hc => mem_of_mem_dropWhile hc
      have hservice : words Text.isWhitespace days' ++ words Text.isWhitespace time' =
          [days, time] := by
        have hflat := words_flatMap (t := trim schedule) fun c hc =>
          isWhitespace_of_form fun heq => hmark (heq ▸ hsub c hc)
        rw [hform, ← words_trim, trim_trim hmark] at hflat
        simp only [List.flatMap_cons, List.flatMap_nil, List.append_nil] at hflat
        exact hflat.symm.trans hwords
      have htime : ∀ c ∈ time', ¬ Text.isWhitespace c := by
        intro c hc
        by_cases hdash : c = '-'
        · rw [hdash]
          decide
        obtain ⟨part, hpart, hmem⟩ := mem_split_of_mem (p := (· == '-')) hc
          fun heq => hdash (eq_of_beq heq)
        rw [hsplit] at hpart
        rcases List.mem_pair.1 hpart with rfl | rfl
        · exact not_isWhitespace_of_isDigit (isDigit_of_parseTime hstart' c hmem)
        · exact not_isWhitespace_of_isDigit (isDigit_of_parseTime hfinish' c hmem)
      have hparts : ∀ part ∈ [days', time'], part ≠ [] ∧ ∀ c ∈ part, c ∈ schedule := by
        intro part hpart
        rw [← hform] at hpart
        obtain ⟨hmem, hne⟩ := List.mem_filter.1 hpart
        exact ⟨of_decide_eq_true hne, fun c hc => hsub c (Text.mem_of_mem_split hmem c hc)⟩
      rw [words_of_forall_not (hparts time' (by simp)).1 htime] at hservice
      have hone : words Text.isWhitespace days' = [days] :=
        (List.append_inj' (show _ ++ [time'] = [days] ++ [time] from hservice) rfl).1
      have hnone := nextLine_not_mem_days
        (fun c hc => hcaseless c ((hparts days' (by simp)).2 c hc)) hone hdays hdays'
      intro hmem
      rcases mem_or_of_mem (p := isWhitespace) hmem with hspace | hmem
      · cases hspace
      obtain ⟨part, hpart, hmem⟩ := mem_split_of_mem (p := isWhitespace) hmem (by decide)
      have hpart : part ∈ words isWhitespace (trim schedule) :=
        List.mem_filter.2 ⟨hpart, decide_eq_true (List.ne_nil_of_mem hmem)⟩
      rw [hform] at hpart
      rcases List.mem_pair.1 hpart with rfl | rfl
      · exact hnone hmem
      · exact htime _ hmem rfl
    · cases hread
  · cases hread

end DnsBlackhole.Form
