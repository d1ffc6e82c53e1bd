/-
  The exported query log (`serializeQueryLogsCsv` of `query-log-export.ts`).

  Every field is written in quotes.  A field that begins like a formula gets an
  apostrophe in front, where the text begins with one of four characters.

  * `read_serializeQueryLogsCsv`: the file is read back field by field;
  * `serializeQueryLogsCsv_inert_iff`: when no field that is read begins like a
    formula.
-/
import DnsBlackhole.Lib.Csv
import DnsBlackhole.Lib.Fallible
import DnsBlackhole.QueryLog.Record

namespace DnsBlackhole.QueryLog
open Lib

/-! ## The file -/

/-- `/^[=+\-@]/` -/
def beginsGuarded (text : Text) : Bool := text.head?.any fun c => c ∈ ['=', '+', '-', '@']

/-- The text that a spreadsheet is to show. -/
def guarded (text : Text) : Text := if beginsGuarded text then '\'' :: text else text

/-- `csvCell`, of the text of a value. -/
def csvCell (text : Text) : Text := Csv.quote (guarded text)

section
variable {ν : Type} (durationText : ν → Text) (dictionary : Text → Text)
  (filterNames : Text → Option Text)

def csvHeader : List Text :=
  ["时间", "域名", "查询类型", "传输协议", "客户端", "状态", "响应来源", "上游服务器", "上游耗时(ms)",
    "总耗时(ms)", "响应代码", "响应记录", "命中规则", "规则来源", "错误"].map fun heading =>
      translate dictionary heading.toList []

def csvStatus (record : QueryLogRecord ν) : Text :=
  translate dictionary (if record.failed then "失败".toList
    else if record.blocked then "已拦截".toList else "已处理".toList) []

def csvAnswer (answer : QueryLogResponseAnswer) : Text :=
  numberText answer.recordType ++ ' ' :: answer.value

/-- The texts of a row behind the date. -/
def csvDetails (record : QueryLogRecord ν) : List Text :=
  [record.domain,
    (record.queryType.map numberText).getD [],
    (record.transport.map (·.toUpperCase)).getD [],
    record.clientIp.getD [],
    csvStatus dictionary record,
    (record.responseSource.map (·.name)).getD [],
    record.upstreamServer.getD [],
    (record.upstreamDurationMs.map durationText).getD [],
    (record.processingDurationMs.map durationText).getD [],
    (record.response.map fun response => numberText response.code).getD [],
    (record.response.map fun response =>
      Text.join (response.answers.map csvAnswer) " | ".toList).getD [],
    record.matchedRule.getD [],
    -- an empty source is no source
    ((record.ruleSource.filter (· ≠ [])).map fun source =>
      blocklistSourceLabel dictionary source filterNames).getD [],
    record.error.getD []]

def csvRow (record : QueryLogRecord ν) : Except Text (List Text) :=
  (toISOString record.timestamp).map (· :: csvDetails durationText dictionary filterNames record)

/-- The file, unless a date throws. -/
def serializeQueryLogsCsv (records : List (QueryLogRecord ν)) : Except Text Text :=
  (records.mapM (csvRow durationText dictionary filterNames)).map fun rows =>
    '\uFEFF' :: Text.join
      ((csvHeader dictionary :: rows).map fun row => Text.join (row.map csvCell) ",".toList)
      "\r\n".toList ++ "\r\n".toList

end

/-! ## What is read -/

/-- A cell shows a text, perhaps behind an apostrophe. -/
def Shows (text cell : Text) : Prop := cell = text ∨ cell = '\'' :: text

/-- A spreadsheet takes the text for a formula. -/
def beginsFormula (text : Text) : Bool :=
  text.head?.any fun c => c ∈ ['=', '+', '-', '@', '\t', '\r']

/-- The text begins with a tab or a carriage return. -/
def beginsBlank (text : Text) : Bool := text.head?.any fun c => c ∈ ['\t', '\r']

theorem shows_guarded (text : Text) : Shows text (guarded text) := by
  unfold guarded Shows
  split_ifs
  · exact .inr rfl
  · exact .inl rfl

/-- The apostrophe comes where the text begins like a formula, but for two characters. -/
theorem beginsFormula_guarded (text : Text) : beginsFormula (guarded text) = beginsBlank text := by
  unfold guarded
  cases text with
  | nil => rfl
  | cons c text =>
    by_cases hc : beginsGuarded (c :: text)
    · rw [if_pos hc]
      have hmem : c ∈ ['=', '+', '-', '@'] := of_decide_eq_true hc
      have hnot : ∀ d ∈ ['=', '+', '-', '@'], beginsBlank [d] = false := by simp [beginsBlank]
      exact (hnot c hmem).symm
    · rw [if_neg hc]
      have hmem : c ∉ ['=', '+', '-', '@'] := fun h => hc (decide_eq_true h)
      show decide (c ∈ ['=', '+', '-', '@', '\t', '\r']) = decide (c ∈ ['\t', '\r'])
      refine decide_eq_decide.2 ?_
      simp only [List.mem_cons, not_or] at hmem ⊢
      simp only [hmem, false_or]

variable {ν : Type} {durationText : ν → Text} {dictionary : Text → Text}
  {filterNames : Text → Option Text} {records : List (QueryLogRecord ν)}

theorem length_csvRow {record : QueryLogRecord ν} {row : List Text}
    (h : csvRow durationText dictionary filterNames record = .ok row) : row.length = 15 := by
  unfold csvRow at h
  cases hdate : toISOString record.timestamp with
  | error e =>
    rw [hdate] at h
    cases h
  | ok date =>
    rw [hdate] at h
    cases h
    rfl

theorem serializeQueryLogsCsv_eq {rows : List (List Text)}
    (h : records.mapM (csvRow durationText dictionary filterNames) = .ok rows) :
    serializeQueryLogsCsv durationText dictionary filterNames records =
      .ok ('\uFEFF' :: Csv.write ((csvHeader dictionary :: rows).map (·.map guarded))) := by
  have hrow : ∀ row : List Text, Csv.writeRow (row.map guarded) =
      Text.join (row.map csvCell) ",".toList := fun row => by
    rw [Csv.writeRow, List.map_map]
    rfl
  unfold serializeQueryLogsCsv
  rw [h]
  show Except.ok _ = Except.ok _
  rw [Csv.write, List.map_map]
  simp only [Function.comp_def, hrow]
  rfl

/-- **The exported file is faithful**: the header and a row for every record. -/
theorem read_serializeQueryLogsCsv {rows : List (List Text)}
    (h : records.mapM (csvRow durationText dictionary filterNames) = .ok rows) :
    Csv.read (Csv.write ((csvHeader dictionary :: rows).map (·.map guarded))) =
      some ((csvHeader dictionary :: rows).map (·.map guarded)) := by
  refine Csv.read_write (List.cons_ne_nil _ _) fun row hmem hnil => ?_
  obtain ⟨texts, htexts, rfl⟩ := List.mem_map.1 hmem
  have hlength : texts.length = 15 := by
    rcases List.mem_cons.1 htexts with rfl | htexts
    · rfl
    · obtain ⟨record, -, hrow⟩ := exists_of_mem_mapM h htexts
      exact length_csvRow hrow
  rw [List.map_eq_nil_iff] at hnil
  rw [hnil] at hlength
  cases hlength

/-! ## Formulas -/

theorem csvRow_eq_ok {record : QueryLogRecord ν} {row : List Text} :
    csvRow durationText dictionary filterNames record = .ok row ↔
      ∃ date, toISOString record.timestamp = .ok date ∧
        row = date :: csvDetails durationText dictionary filterNames record := by
  unfold csvRow
  cases toISOString record.timestamp with
  | error e => exact iff_of_false (fun h => by cases h) fun ⟨_, h, _⟩ => by cases h
  | ok date =>
    constructor
    · intro h
      cases h
      exact ⟨date, rfl, rfl⟩
    · rintro ⟨date', hdate, rfl⟩
      cases hdate
      rfl

/-- The row of a record that has a date. -/
def rowOf (durationText : ν → Text) (dictionary : Text → Text)
    (filterNames : Text → Option Text) (record : QueryLogRecord ν) : List Text :=
  (csvRow durationText dictionary filterNames record).toOption.getD []

theorem rowOf_eq {record : QueryLogRecord ν} {row : List Text}
    (h : csvRow durationText dictionary filterNames record = .ok row) :
    rowOf durationText dictionary filterNames record = row := by
  rw [rowOf, h]
  rfl

theorem beginsBlank_toISOString {timestamp : ℕ} {date : Text}
    (h : toISOString timestamp = .ok date) : beginsBlank date = false := by
  obtain ⟨c, hc, hdigit⟩ := head?_toISOString h
  have hnot : ∀ d ∈ ['\t', '\r'], ¬ (d.isDigit ∨ d = '+') := by simp [Char.isDigit]
  unfold beginsBlank
  rw [hc]
  exact decide_eq_false fun hmem => hnot c hmem hdigit

/-- What the export is to be: the file of the records, and inert in a spreadsheet. -/
def Exported (durationText : ν → Text) (dictionary : Text → Text)
    (filterNames : Text → Option Text) (records : List (QueryLogRecord ν)) : Prop :=
  ∃ content rows cells,
    serializeQueryLogsCsv durationText dictionary filterNames records =
      .ok ('\uFEFF' :: content) ∧
    records.mapM (csvRow durationText dictionary filterNames) = .ok rows ∧
    Csv.read content = some cells ∧
    List.Forall₂ (List.Forall₂ Shows) (csvHeader dictionary :: rows) cells ∧
    (∀ row ∈ cells, row.length = 15) ∧ ∀ row ∈ cells, ∀ cell ∈ row, beginsFormula cell = false

/-- The fields are read as they are shown, and begin like formulas where their texts begin
    with a tab or a carriage return. -/
theorem exported_iff_of_mapM {rows : List (List Text)}
    (h : records.mapM (csvRow durationText dictionary filterNames) = .ok rows) :
    Exported durationText dictionary filterNames records ↔
      ∀ row ∈ csvHeader dictionary :: rows, ∀ text ∈ row, beginsBlank text = false := by
  have hread := read_serializeQueryLogsCsv h
  constructor
  · rintro ⟨content, rows', cells, hfile, hrows, hcells, -, -, hinert⟩ row hrow text htext
    cases h.symm.trans hrows
    cases (serializeQueryLogsCsv_eq h).symm.trans hfile
    cases hread.symm.trans hcells
    rw [← beginsFormula_guarded]
    exact hinert _ (List.mem_map_of_mem hrow) _ (List.mem_map_of_mem htext)
  · intro hblank
    refine ⟨_, rows, _, serializeQueryLogsCsv_eq h, h, hread, ?_, ?_, ?_⟩
    · refine List.forall₂_map_right_iff.2 (List.forall₂_same.2 fun row _ => ?_)
      exact List.forall₂_map_right_iff.2 (List.forall₂_same.2 fun text _ => shows_guarded text)
    · intro row hrow
      obtain ⟨texts, htexts, rfl⟩ := List.mem_map.1 hrow
      rw [List.length_map]
      rcases List.mem_cons.1 htexts with rfl | htexts
      · rfl
      · obtain ⟨record, -, hrecord⟩ := exists_of_mem_mapM h htexts
        exact length_csvRow hrecord
    · intro row hrow cell hcell
      obtain ⟨texts, htexts, rfl⟩ := List.mem_map.1 hrow
      obtain ⟨text, htext, rfl⟩ := List.mem_map.1 hcell
      rw [beginsFormula_guarded]
      exact hblank texts htexts text htext

theorem Exported.of_mem (h : Exported durationText dictionary filterNames records)
    {record : QueryLogRecord ν} (hmem : record ∈ records) :
    record.timestamp ≤ maxDateSecond ∧
      ∀ text ∈ csvDetails durationText dictionary filterNames record, beginsBlank text = false := by
  obtain ⟨_, rows, _, _, hrows, _⟩ := id h
  rw [exported_iff_of_mapM hrows, List.forall_mem_cons] at h
  obtain ⟨row, hrow⟩ := exists_ok_of_mapM hrows hmem
  obtain ⟨date, hdate, rfl⟩ := csvRow_eq_ok.1 hrow
  have hmem' : date :: csvDetails durationText dictionary filterNames record ∈ rows := by
    rw [eq_map_of_mapM hrows fun _ _ _ h => (rowOf_eq h).symm, ← rowOf_eq hrow]
    exact List.mem_map_of_mem hmem
  exact ⟨exists_toISOString_iff.1 ⟨date, hdate⟩,
    fun text htext => h.2 _ hmem' text (List.mem_cons_of_mem _ htext)⟩

/-- **The exported file is inert** exactly if no text in it begins with a tab or a carriage
    return; that it is faithful asks for dates only. -/
theorem serializeQueryLogsCsv_inert_iff (durationText : ν → Text) (dictionary : Text → Text)
    (filterNames : Text → Option Text) (records : List (QueryLogRecord ν)) :
    Exported durationText dictionary filterNames records ↔
      (∀ record ∈ records, record.timestamp ≤ maxDateSecond) ∧
        (∀ text ∈ csvHeader dictionary, beginsBlank text = false) ∧
        ∀ record ∈ records, ∀ text ∈ csvDetails durationText dictionary filterNames record,
          beginsBlank text = false := by
  constructor
  · intro h
    obtain ⟨_, rows, _, _, hrows, _⟩ := id h
    exact ⟨fun record hmem => (h.of_mem hmem).1,
      (exported_iff_of_mapM hrows).1 h _ List.mem_cons_self,
      fun record hmem => (h.of_mem hmem).2⟩
  · rintro ⟨hdates, hheader, hdetails⟩
    obtain ⟨rows, hrows⟩ : ∃ rows,
        records.mapM (csvRow durationText dictionary filterNames) = .ok rows := by
      have hrow : ∀ record ∈ records, csvRow durationText dictionary filterNames record =
          .ok (rowOf durationText dictionary filterNames record) := by
        intro record hmem
        obtain ⟨date, hdate⟩ := exists_toISOString_iff.2 (hdates record hmem)
        have hok : csvRow durationText dictionary filterNames record = .ok _ :=
          csvRow_eq_ok.2 ⟨date, hdate, rfl⟩
        rw [rowOf_eq hok]
        exact hok
      exact ⟨_, mapM_eq_ok hrow⟩
    rw [exported_iff_of_mapM hrows, List.forall_mem_cons]
    refine ⟨hheader, fun row hmem text htext => ?_⟩
    obtain ⟨record, hrecord, hrow⟩ := exists_of_mem_mapM hrows hmem
    obtain ⟨date, hdate, rfl⟩ := csvRow_eq_ok.1 hrow
    rcases List.mem_cons.1 htext with rfl | htext
    · exact beginsBlank_toISOString hdate
    · exact hdetails record hrecord text htext

/-- A query for a name whose label begins with a tab. -/
def tabbedRecord : QueryLogRecord ℕ where
  timestamp := 1700000000
  domain := "\t=1+1".toList
  queryType := some 1
  queryClass := some 1
  transport := some .udp
  responseSource := some .upstream
  response := none
  clientIp := some "192.168.1.20".toList
  blocked := false
  failed := false
  upstreamServer := some "1.1.1.1:53".toList
  upstreamDurationMs := some 12
  processingDurationMs := some 13
  error := none
  matchedRule := none
  ruleSource := none
  ruleType := none
  importantOverrode := false
  allowlistRule := none

theorem tabbedRecord_not_inert :
    ¬ Exported numberText id (fun _ => none) [tabbedRecord] := by
  intro h
  have htext := (h.of_mem List.mem_cons_self).2 "\t=1+1".toList List.mem_cons_self
  revert htext
  decide

end DnsBlackhole.QueryLog
