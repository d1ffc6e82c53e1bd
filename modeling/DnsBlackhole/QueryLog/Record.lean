/-
  The records of the query log as the interface has them (`types.ts`), and what it
  needs to show them: translated texts (`i18n/index.ts`), names of rule sources
  (`blocklist-source.ts`) and dates.

  Whole numbers that a record has from the wire are natural numbers; the durations
  are doubles, and how these are written is a parameter.

  * `exists_toISOString_iff`: the dates that there are.
-/
import DnsBlackhole.Form.Strings
import DnsBlackhole.Decimal

namespace DnsBlackhole.QueryLog

/-! ## Records -/

inductive Transport
  | udp
  | tcp
  deriving DecidableEq

/-- `record.transport?.toUpperCase()` -/
def Transport.toUpperCase : Transport → Text
  | udp => "UDP".toList
  | tcp => "TCP".toList

inductive ResponseSource
  | upstream
  | cache
  | rewrite
  | blocked
  | refused
  | localReverse
  deriving DecidableEq

/-- How a response source is named in a record. -/
def ResponseSource.name : ResponseSource → Text
  | upstream => "upstream".toList
  | cache => "cache".toList
  | rewrite => "rewrite".toList
  | blocked => "blocked".toList
  | refused => "refused".toList
  | localReverse => "local_reverse".toList

structure QueryLogResponseAnswer where
  recordType : ℕ
  value : Text
  ttl : ℕ

structure QueryLogResponseSummary where
  code : ℕ
  answerCount : ℕ
  answers : List QueryLogResponseAnswer
  truncated : Bool

/-- A record, with durations in `ν`. -/
structure QueryLogRecord (ν : Type*) where
  timestamp : ℕ
  domain : Text
  queryType : Option ℕ
  queryClass : Option ℕ
  transport : Option Transport
  responseSource : Option ResponseSource
  response : Option QueryLogResponseSummary
  clientIp : Option Text
  blocked : Bool
  failed : Bool
  upstreamServer : Option Text
  upstreamDurationMs : Option ν
  processingDurationMs : Option ν
  error : Option Text
  matchedRule : Option Text
  ruleSource : Option Text
  ruleType : Option Text
  importantOverrode : Bool
  allowlistRule : Option Text

/-- `String` of a whole number. -/
def numberText (n : ℕ) : Text := Nat.toDigits 10 n

/-! ## Translations -/

/-- `t`, over what the dictionary gives for a text, or else the text. -/
def translate (dictionary : Text → Text) (text : Text) (params : List (Text × Text)) : Text :=
  params.foldl
    (fun result param => Text.join (Form.splitOn ('{' :: param.1 ++ ['}']) result) param.2)
    (dictionary text)

/-! ## Sources of rules -/

def filterSourcePrefix : Text := "f:".toList

def filterIdFromSource (source : Text) : Option Text := source.stripPrefix filterSourcePrefix

def blocklistSourceLabel (dictionary : Text → Text) (source : Text)
    (filterNames : Text → Option Text) : Text :=
  match filterIdFromSource source with
  | none => source
  | some id => (filterNames id).getD (dictionary "已删除的清单".toList)

/-! ## Dates -/

/-- The last second that a `Date` can have. -/
def maxDateSecond : ℕ := 8640000000000

structure CivilDate where
  year : ℕ
  month : ℕ
  day : ℕ
  deriving DecidableEq

/-- The date of a day since the start of 1970: in eras of 400 years, each of which
    begins with a March. -/
def civilDate (days : ℕ) : CivilDate :=
  let shifted := days + 719468
  let dayOfEra := shifted % 146097
  let yearOfEra := (dayOfEra - dayOfEra / 1460 + dayOfEra / 36524 - dayOfEra / 146096) / 365
  let dayOfYear := dayOfEra - (365 * yearOfEra + yearOfEra / 4 - yearOfEra / 100)
  let march := (5 * dayOfYear + 2) / 153
  let month := if march < 10 then march + 3 else march - 9
  { year := yearOfEra + shifted / 146097 * 400 + if month ≤ 2 then 1 else 0
    month
    day := dayOfYear - (153 * march + 2) / 5 + 1 }

/-- A number with zeroes in front. -/
def padded (width n : ℕ) : Text := (numberText n).leftpad width '0'

def yearText (year : ℕ) : Text := if year < 10000 then padded 4 year else '+' :: padded 6 year

/-- `new Date(timestamp * 1000).toISOString()`, which throws a `RangeError` beyond the
    last date. -/
def toISOString (timestamp : ℕ) : Except Text Text :=
  if maxDateSecond < timestamp then .error "Invalid time value".toList
  else
    let date := civilDate (timestamp / 86400)
    let second := timestamp % 86400
    .ok (yearText date.year ++ '-' :: padded 2 date.month ++ '-' :: padded 2 date.day ++
      'T' :: padded 2 (second / 3600) ++ ':' :: padded 2 (second / 60 % 60) ++
      ':' :: padded 2 (second % 60) ++ ".000Z".toList)

theorem exists_toISOString_iff {timestamp : ℕ} :
    (∃ date, toISOString timestamp = .ok date) ↔ timestamp ≤ maxDateSecond := by
  unfold toISOString
  split_ifs with h
  · exact iff_of_false (fun ⟨date, hdate⟩ => by cases hdate) (not_le.2 h)
  · exact iff_of_true ⟨_, rfl⟩ (not_lt.1 h)

example : toISOString 1700000000 = .ok "2023-11-14T22:13:20.000Z".toList := by rfl

theorem head?_padded (width n : ℕ) : ∃ c, (padded width n).head? = some c ∧ c.isDigit := by
  unfold padded List.leftpad
  cases hzeroes : width - (numberText n).length with
  | zero =>
    cases hdigits : numberText n with
    | nil => exact absurd hdigits Nat.toDigits_ne_nil
    | cons c rest =>
      have hmem : c ∈ numberText n := hdigits ▸ List.mem_cons_self
      exact ⟨c, rfl, Text.isDigit_of_mem_toDigits hmem⟩
  | succ zeroes => exact ⟨'0', rfl, rfl⟩

theorem head?_toISOString {timestamp : ℕ} {date : Text} (h : toISOString timestamp = .ok date) :
    ∃ c, date.head? = some c ∧ (c.isDigit ∨ c = '+') := by
  unfold toISOString at h
  split_ifs at h
  cases h
  unfold yearText
  split_ifs
  · obtain ⟨c, hc, hdigit⟩ := head?_padded 4 (civilDate (timestamp / 86400)).year
    refine ⟨c, ?_, .inl hdigit⟩
    simp only [List.head?_append, hc, Option.some_or]
  · exact ⟨'+', rfl, .inr rfl⟩

end DnsBlackhole.QueryLog
