/-
  The query log, page by page (`query_logs_advanced` of `database.rs`).

  * `queryLogsAdvanced` gives one page: of a page number, or of a cursor; the
    next page starts after the row that its cursor names;
  * `Traversal`: the pages that one gets by following the cursors, each from the
    table as it is at the time of its request.

  The order by the processing time is a parameter, as this column is not
  modelled.  The full-text index holds the columns of the rows, under their ids.
-/
import DnsBlackhole.Database.Store
import DnsBlackhole.Lib.Fallible
import DnsBlackhole.Lib.Keyset

namespace DnsBlackhole.Database
open Lib

structure QueryLogQuery where
  retentionHours : UInt32
  hours : Option UInt32
  filter : Text
  search : Text
  domain : Option Text
  source : Text
  queryType : Text
  sort : Text
  cursor : Option Text
  page : UInt32
  pageSize : UInt32

structure QueryLogPage where
  records : List QueryLogRow
  total : ℕ
  page : ℕ
  pageSize : ℕ
  nextCursor : Option Text

/-! ## Cursors -/

structure QueryLogCursorPosition where
  timestamp : ℕ
  id : ℕ
  deriving DecidableEq

def parseCursorNumber (value : Text) (message : String) : Except DatabaseError ℕ :=
  match value.parseI64.filter (0 ≤ ·) with
  | some number => .ok number.toNat
  | none => .error (.invalidCursor message.toList)

def parseQueryLogCursor (cursor : Option Text) (sort : Text) :
    Except DatabaseError (Option QueryLogCursorPosition) :=
  match (cursor.map Text.trim).filter (· ≠ []) with
  | none => .ok none
  | some cursor =>
    if sort ≠ "newest".toList ∧ sort ≠ "oldest".toList then
      .error (.invalidCursor "当前排序方式不支持游标分页".toList)
    else match Text.split (· == ':') cursor with
      | [version, cursorSort, timestamp, id] =>
        if version ≠ "v1".toList ∨ cursorSort ≠ sort then
          .error (.invalidCursor "查询日志分页游标无效或已过期".toList)
        else do
          let timestamp ← parseCursorNumber timestamp "查询日志分页游标时间戳无效"
          let id ← parseCursorNumber id "查询日志分页游标记录 ID 无效"
          return some { timestamp, id }
      | _ => .error (.invalidCursor "查询日志分页游标无效或已过期".toList)

def encodeQueryLogCursor (sort : Text) (timestamp id : ℕ) : Text :=
  "v1:".toList ++ sort ++ [':'] ++ Nat.toDigits 10 timestamp ++ [':'] ++ Nat.toDigits 10 id

/-! ## Conditions -/

/-- `LIKE`: `%` stands for any text and `_` for any character; ASCII letters match in
    either case. -/
def sqlLike : Text → Text → Bool
  | [], text => text.isEmpty
  | '%' :: pattern, text => text.tails.any fun rest => sqlLike pattern rest
  | '_' :: pattern, text => match text with
    | [] => false
    | _ :: text => sqlLike pattern text
  | c :: pattern, text => match text with
    | [] => false
    | d :: text => c.toLower = d.toLower ∧ sqlLike pattern text

def effectiveHours (retentionHours : UInt32) (hours : Option UInt32) : UInt32 :=
  match hours with
  | some requested => if retentionHours = 0 then requested else min retentionHours requested
  | none => retentionHours

/-- The time from which on the rows are shown. -/
def querySince (query : QueryLogQuery) (now : ℕ) : ℕ :=
  if effectiveHours query.retentionHours query.hours = 0 then 0
  else now - (effectiveHours query.retentionHours query.hours).toNat * 3600

section
variable (row : QueryLogRow)

def filterCondition (filter : Text) : Bool :=
  if filter = "blocked".toList then row.blocked
  else if filter = "processed".toList then !row.blocked && !row.failed
  else if filter = "failed".toList then row.failed
  else true

/-- The sources that can be asked for; others are ignored. -/
def knownSources : List Text :=
  ["upstream", "cache", "rewrite", "blocked", "refused", "local_reverse"].map String.toList

def sourceCondition (source : Text) : Bool :=
  if knownSources.contains source then row.responseSource == some source else true

def queryTypeCondition (queryType : Text) : Bool :=
  if queryType = "a".toList then row.queryType = some 1
  else if queryType = "aaaa".toList then row.queryType = some 28
  else if queryType = "https".toList then row.queryType = some 65
  else if queryType = "other".toList then
    row.queryType = none ∨ row.queryType.any fun number => number ∉ [1, 28, 65]
  else true

/-- A pattern that the trigram index can look up. -/
def queryLogSearchIsIndexable (search : Text) : Bool :=
  3 ≤ search.length && search.all fun c => !(['%', '_', '\x00'].contains c)

/-- `id IN (SELECT rowid FROM query_logs_search ..)`: a column that is `NULL` is not found. -/
def searchIndexCondition (search : Text) : Bool :=
  !queryLogSearchIsIndexable search ||
    [some row.domain, row.clientIp, row.upstreamServer, row.error].any fun column =>
      column.any (sqlLike (['%'] ++ search ++ ['%']))

def searchCondition (search : Text) : Bool :=
  search.isEmpty ||
    [some row.domain, row.clientIp, row.upstreamServer, row.error].any fun column =>
      sqlLike (['%'] ++ search ++ ['%']) (column.getD [])

/-- `domain = :domain COLLATE NOCASE`, for a domain that is not blank. -/
def domainCondition (domain : Option Text) : Bool :=
  ((domain.map Text.trim).filter (· ≠ [])).all fun domain => row.domain.eqIgnoreAsciiCase domain

/-- The condition of a query without its cursor (`base_where_sql`). -/
def baseWhere (query : QueryLogQuery) (since : ℕ) : Bool :=
  since ≤ row.timestamp ∧ searchIndexCondition row query.search.trim ∧
    searchCondition row query.search.trim ∧ domainCondition row query.domain ∧
    filterCondition row query.filter ∧ sourceCondition row query.source ∧
    queryTypeCondition row query.queryType

/-- What follows a cursor in the order of the pages (`cursor_sql`). -/
def cursorCondition (sort : Text) : Option QueryLogCursorPosition → Bool
  | none => true
  | some position =>
    if sort = "oldest".toList then
      position.timestamp < row.timestamp ∨
        (row.timestamp = position.timestamp ∧ position.id < row.id)
    else
      row.timestamp < position.timestamp ∨
        (row.timestamp = position.timestamp ∧ row.id < position.id)

end

/-! ## Pages -/

/-- The place of a row: by the timestamp and then by the id, both downwards unless the
    oldest rows come first. -/
def sortKey (sort : Text) (timestamp id : ℕ) : ℤ ×ₗ ℤ :=
  if sort = "oldest".toList then toLex ((timestamp : ℤ), (id : ℤ))
  else toLex (-(timestamp : ℤ), -(id : ℤ))

def rowKey (sort : Text) (row : QueryLogRow) : ℤ ×ₗ ℤ := sortKey sort row.timestamp row.id

def readQueryLogRecord (row : QueryLogRow) : Except SqlError QueryLogRow := do
  let timestamp ← readU64 row.timestamp
  let upstreamDurationMs ← readOptionalU64 row.upstreamDurationMs
  return { row with timestamp, upstreamDurationMs }

section
variable (slowest : List QueryLogRow → List QueryLogRow)

/-- `ORDER BY`; `slowest` orders by the processing time. -/
def orderRows (sort : Text) (rows : List QueryLogRow) : List QueryLogRow :=
  if sort = "slowest".toList then slowest rows else Keyset.inOrder (rowKey sort) rows

/-- The total is counted without the cursor. -/
def queryLogsAdvanced (db : Database) (query : QueryLogQuery) (now : ℕ) :
    Except DatabaseError QueryLogPage := do
  let since ← u64ToDbI64 (querySince query now) "查询日志起始时间戳".toList
  let cursorMode := query.cursor.isSome
  let position ← parseQueryLogCursor query.cursor query.sort
  let found := db.queryLogs.filter fun row => baseWhere row query since
  let rows := found.filter fun row => cursorCondition row query.sort position
  let page := max query.page.toNat 1
  let pageSize := max 20 (min query.pageSize.toNat 200)
  let limit := pageSize + cursorMode.toNat
  let offset := if cursorMode then 0 else (page - 1) * pageSize
  let records ← ((((orderRows slowest query.sort rows).drop offset).take limit).mapM
    readQueryLogRecord).mapError (.sql "解析查询日志".toList)
  let hasMore := cursorMode && pageSize < records.length
  let records := if hasMore then records.dropLast else records
  let nextCursor := if hasMore then
      records.getLast?.map fun record => encodeQueryLogCursor query.sort record.timestamp record.id
    else none
  return { records, total := found.length, page, pageSize, nextCursor }

/-- The pages from a cursor on, with the table and the time of each request. -/
inductive Traversal (query : QueryLogQuery) : Text → List (Database × ℕ) → List QueryLogPage → Prop
  | last {cursor : Text} {db : Database} {now : ℕ} {page : QueryLogPage}
    (hpage : queryLogsAdvanced slowest db { query with cursor := some cursor } now = .ok page)
    (hnone : page.nextCursor = none) : Traversal query cursor [(db, now)] [page]
  | next {cursor cursor' : Text} {db : Database} {now : ℕ} {page : QueryLogPage}
    {requests : List (Database × ℕ)} {pages : List QueryLogPage}
    (hpage : queryLogsAdvanced slowest db { query with cursor := some cursor } now = .ok page)
    (hcursor : page.nextCursor = some cursor') (hrest : Traversal query cursor' requests pages) :
    Traversal query cursor ((db, now) :: requests) (page :: pages)

end

/-- The numbers of the stored rows are integers of SQLite, and their ids are different. -/
structure StoredQueryLogs (db : Database) : Prop where
  id_le : ∀ row ∈ db.queryLogs, row.id ≤ i64Max
  timestamp_le : ∀ row ∈ db.queryLogs, row.timestamp ≤ i64Max
  upstreamDurationMs_le : ∀ row ∈ db.queryLogs, ∀ ms ∈ row.upstreamDurationMs, ms ≤ i64Max
  nodup : (db.queryLogs.map (·.id)).Nodup

/-! ## Cursors are read back -/

/-- The two orders that pages by cursors are offered in. -/
def IsCursorSort (sort : Text) : Prop := sort = "newest".toList ∨ sort = "oldest".toList

theorem parseCursorNumber_toDigits {n : ℕ} (h : n ≤ i64Max) (message : String) :
    parseCursorNumber (Nat.toDigits 10 n) message = .ok n := by
  have hfilter : (some (n : ℤ)).filter (0 ≤ ·) = some (n : ℤ) := by
    rw [Option.filter_some, if_pos (decide_eq_true (Int.natCast_nonneg n))]
  rw [parseCursorNumber, Text.parseI64_toDigits h, hfilter]
  rfl

theorem encodeQueryLogCursor_eq (sort : Text) (timestamp id : ℕ) :
    encodeQueryLogCursor sort timestamp id = ['v', '1'] ++ ':' :: (sort ++
      ':' :: (Nat.toDigits 10 timestamp ++ ':' :: Nat.toDigits 10 id)) := by
  change ['v', '1', ':'] ++ sort ++ [':'] ++ _ ++ [':'] ++ _ = _
  simp only [List.append_assoc, List.cons_append, List.nil_append]

theorem split_encodeQueryLogCursor {sort : Text} (hsort : IsCursorSort sort) (timestamp id : ℕ) :
    Text.split (· == ':') (encodeQueryLogCursor sort timestamp id) =
      ["v1".toList, sort, Nat.toDigits 10 timestamp, Nat.toDigits 10 id] := by
  have hdigits : ∀ n : ℕ, ∀ c ∈ Nat.toDigits 10 n, ¬ (c == ':') := fun n c hc heq => by
    have hdigit := Text.isDigit_of_mem_toDigits hc
    rw [eq_of_beq heq] at hdigit
    cases hdigit
  have hnone : ∀ {t : Text}, t.all (· != ':') → ∀ c ∈ t, ¬ (c == ':') := fun h c hc => by
    simpa using List.all_eq_true.1 h c hc
  have hname : ∀ c ∈ sort, ¬ (c == ':') := by
    rcases hsort with rfl | rfl
    · exact hnone rfl
    · exact hnone rfl
  have hcolon : ((':' : Char) == ':') := rfl
  rw [encodeQueryLogCursor_eq, Text.split_append (p := (· == ':')) hcolon,
    Text.split_append (p := (· == ':')) hcolon, Text.split_append (p := (· == ':')) hcolon,
    Text.split_of_forall_not (hnone rfl),
    Text.split_of_forall_not hname, Text.split_of_forall_not (hdigits _),
    Text.split_of_forall_not (hdigits _)]
  rfl

theorem trim_encodeQueryLogCursor (sort : Text) (timestamp id : ℕ) :
    (encodeQueryLogCursor sort timestamp id).trim = encodeQueryLogCursor sort timestamp id := by
  refine Text.trim_eq_self (fun c hc => ?_) fun c hc => ?_
  · cases hc
    decide
  · -- the last character is a digit
    have hlast : (encodeQueryLogCursor sort timestamp id).getLast? =
        (Nat.toDigits 10 id).getLast? := List.getLast?_append_of_ne_nil _ Nat.toDigits_ne_nil
    rw [hlast] at hc
    obtain ⟨h0, h9⟩ := Char.isDigit_iff_toNat.1
      (Text.isDigit_of_mem_toDigits (List.mem_of_getLast? hc))
    change 48 ≤ c.toNat at h0
    change c.toNat ≤ 57 at h9
    simp only [Text.isWhitespace, Bool.or_eq_true, Bool.and_eq_true, decide_eq_true_eq, beq_iff_eq]
    omega

/-- **A cursor that is given out is accepted** for the same order, and stands for its row. -/
theorem parse_encodeQueryLogCursor {sort : Text} (hsort : IsCursorSort sort) {timestamp id : ℕ}
    (htimestamp : timestamp ≤ i64Max) (hid : id ≤ i64Max) :
    parseQueryLogCursor (some (encodeQueryLogCursor sort timestamp id)) sort =
      .ok (some ⟨timestamp, id⟩) := by
  have hne : encodeQueryLogCursor sort timestamp id ≠ [] := List.cons_ne_nil _ _
  have hsort' : ¬ (sort ≠ "newest".toList ∧ sort ≠ "oldest".toList) := fun h =>
    hsort.elim h.1 h.2
  rw [parseQueryLogCursor, Option.map_some, trim_encodeQueryLogCursor, Option.filter_some,
    if_pos (decide_eq_true hne)]
  dsimp only
  rw [if_neg hsort', split_encodeQueryLogCursor hsort]
  simp only [ne_eq, not_true_eq_false, or_self, if_false, parseCursorNumber_toDigits htimestamp,
    parseCursorNumber_toDigits hid]
  rfl

/-! ## One page -/

section
variable {slowest : List QueryLogRow → List QueryLogRow} {db : Database} {query : QueryLogQuery}
  {now : ℕ} {sort : Text}

/-- The rows that a query without a cursor finds. -/
def foundRows (db : Database) (query : QueryLogQuery) (now : ℕ) : List QueryLogRow :=
  db.queryLogs.filter fun row => baseWhere row query (querySince query now)

/-- The number of rows on a full page. -/
def fullPage (query : QueryLogQuery) : ℕ := max 20 (min query.pageSize.toNat 200)

/-- The place of a position, as `Keyset` has it. -/
def positionKey (sort : Text) (position : Option QueryLogCursorPosition) : Option (ℤ ×ₗ ℤ) :=
  position.map fun position => sortKey sort position.timestamp position.id

theorem sortKey_lt_iff {timestamp id timestamp' id' : ℕ} :
    sortKey sort timestamp id < sortKey sort timestamp' id' ↔
      if sort = "oldest".toList then timestamp < timestamp' ∨ (timestamp' = timestamp ∧ id < id')
      else timestamp' < timestamp ∨ (timestamp' = timestamp ∧ id' < id) := by
  unfold sortKey
  split_ifs <;> rw [Prod.Lex.toLex_lt_toLex] <;> dsimp only <;> omega

theorem cursorCondition_iff {position : Option QueryLogCursorPosition} {row : QueryLogRow} :
    cursorCondition row sort position ↔
      Keyset.After (rowKey sort) (positionKey sort position) row := by
  cases position with
  | none => exact ⟨fun _ k hk => (by cases hk), fun _ => rfl⟩
  | some position =>
    have hafter : Keyset.After (rowKey sort) (positionKey sort (some position)) row ↔
        sortKey sort position.timestamp position.id < rowKey sort row :=
      ⟨fun h => h _ rfl, fun h k hk => Option.some.inj hk ▸ h⟩
    rw [hafter, rowKey, sortKey_lt_iff, cursorCondition]
    split_ifs <;> exact decide_eq_true_iff

theorem filter_cursorCondition (position : Option QueryLogCursorPosition)
    (rows : List QueryLogRow) : (rows.filter fun row => cursorCondition row sort position) =
      Keyset.rest (rowKey sort) (positionKey sort position) rows := by
  refine List.filter_congr fun row _ => ?_
  rw [Bool.eq_iff_iff, cursorCondition_iff, decide_eq_true_iff]

theorem mapM_readQueryLogRecord (hstored : StoredQueryLogs db) {rows : List QueryLogRow}
    (h : ∀ row ∈ rows, row ∈ db.queryLogs) : rows.mapM readQueryLogRecord = .ok rows := by
  induction rows with
  | nil => rfl
  | cons row rows ih =>
    have hrow := h row List.mem_cons_self
    have hread : readQueryLogRecord row = .ok row := by
      have hms : readOptionalU64 row.upstreamDurationMs = .ok row.upstreamDurationMs := by
        cases hduration : row.upstreamDurationMs with
        | none => rfl
        | some ms =>
          rw [readOptionalU64, readU64, if_pos (hstored.upstreamDurationMs_le row hrow ms hduration)]
          rfl
      rw [readQueryLogRecord, readU64, if_pos (hstored.timestamp_le row hrow), hms]
      rfl
    rw [List.mapM_cons, hread, ih fun row' hrow' => h row' (List.mem_cons_of_mem _ hrow')]
    rfl

theorem mem_of_mem_foundRows {row : QueryLogRow} (h : row ∈ foundRows db query now) :
    row ∈ db.queryLogs := (List.mem_filter.1 h).1

theorem nodup_rowKey (hstored : StoredQueryLogs db) :
    ((foundRows db query now).map (rowKey sort)).Nodup := by
  have hid : (fun key : ℤ ×ₗ ℤ => (ofLex key).2.natAbs) ∘ rowKey sort = (·.id) := funext fun row => by
    unfold rowKey sortKey Function.comp
    split_ifs
    · rfl
    · exact Int.natAbs_neg _
  refine List.Nodup.of_map (fun key : ℤ ×ₗ ℤ => (ofLex key).2.natAbs) ?_
  rw [List.map_map, hid]
  exact hstored.nodup.sublist (List.filter_sublist.map _)

theorem cut_take_succ {α : Type} (n : ℕ) (rows : List α) :
    (if n < (rows.take (n + 1)).length then (rows.take (n + 1)).dropLast else rows.take (n + 1)) =
      rows.take n := by
  rw [List.length_take]
  split_ifs with h
  · rw [List.dropLast_eq_take, List.length_take, List.take_take]
    congr 1
    omega
  · rw [List.take_of_length_le (by omega), List.take_of_length_le (by omega)]

/-- The page of a cursor at some position. -/
def cursorPage (db : Database) (query : QueryLogQuery) (now : ℕ)
    (position : Option QueryLogCursorPosition) : QueryLogPage :=
  let found := foundRows db query now
  let cursor := positionKey query.sort position
  let records := Keyset.page (rowKey query.sort) (fullPage query) cursor found
  { records
    total := found.length
    page := max query.page.toNat 1
    pageSize := fullPage query
    nextCursor :=
      if Keyset.HasMore (rowKey query.sort) (fullPage query) cursor found then
        records.getLast?.map fun row => encodeQueryLogCursor query.sort row.timestamp row.id
      else none }

/-- **One page of a cursor** is a page of the rows it finds. -/
theorem queryLogsAdvanced_cursor (hsort : IsCursorSort query.sort) (hstored : StoredQueryLogs db)
    {cursor : Text} {position : Option QueryLogCursorPosition}
    (hcursor : parseQueryLogCursor (some cursor) query.sort = .ok position)
    (hsince : querySince query now ≤ i64Max) :
    queryLogsAdvanced slowest db { query with cursor := some cursor } now =
      .ok (cursorPage db query now position) := by
  have hslowest : query.sort ≠ "slowest".toList := by
    rcases hsort with h | h <;> rw [h] <;> decide
  have hsinceOk : u64ToDbI64 (querySince query now) "查询日志起始时间戳".toList =
      .ok (querySince query now) := if_pos hsince
  have hread : ((Keyset.inOrder (rowKey query.sort) (Keyset.rest (rowKey query.sort)
      (positionKey query.sort position) (foundRows db query now))).take
        (fullPage query + 1)).mapM readQueryLogRecord = .ok _ :=
    mapM_readQueryLogRecord hstored fun row hrow => mem_of_mem_foundRows
      (Keyset.mem_rest.1 ((Keyset.perm_inOrder _).mem_iff.1 (List.mem_of_mem_take hrow))).1
  have hmore : fullPage query < ((Keyset.inOrder (rowKey query.sort) (Keyset.rest
      (rowKey query.sort) (positionKey query.sort position) (foundRows db query now))).take
        (fullPage query + 1)).length ↔ Keyset.HasMore (rowKey query.sort) (fullPage query)
          (positionKey query.sort position) (foundRows db query now) := by
    rw [List.length_take, (Keyset.perm_inOrder _).length_eq, Keyset.HasMore]
    omega
  unfold queryLogsAdvanced
  dsimp only
  change (u64ToDbI64 (querySince query now) _ >>= _) = _
  rw [hsinceOk, ok_bind, hcursor, ok_bind, filter_cursorCondition]
  change (Except.mapError _ ((((orderRows slowest query.sort (Keyset.rest _ _
    (foundRows db query now))).drop 0).take (fullPage query + 1)).mapM _) >>= _) = _
  rw [orderRows, if_neg hslowest, List.drop_zero, hread]
  change Except.ok _ = Except.ok _
  refine congrArg Except.ok ?_
  have hcut := cut_take_succ (fullPage query) (Keyset.inOrder (rowKey query.sort)
    (Keyset.rest (rowKey query.sort) (positionKey query.sort position) (foundRows db query now)))
  have hsize : max 20 (min query.pageSize.toNat 200) = fullPage query := rfl
  simp only [hmore] at hcut
  simp only [Option.isSome_some, Bool.true_and, decide_eq_true_eq, hsize, hmore, hcut]
  rfl

/-! ## All pages -/

/-- What a table gives at its time. -/
def foundAt (query : QueryLogQuery) (request : Database × ℕ) : List QueryLogRow :=
  foundRows request.1 query request.2

/-- A request that can be answered: the start of its window is a number of the database. -/
def Answerable (query : QueryLogQuery) (request : Database × ℕ) : Prop :=
  StoredQueryLogs request.1 ∧ querySince query request.2 ≤ i64Max

theorem querySince_le_of_ok {cursor : Text} {page : QueryLogPage}
    (h : queryLogsAdvanced slowest db { query with cursor := some cursor } now = .ok page) :
    querySince query now ≤ i64Max := by
  obtain ⟨since, hsince, -⟩ := bind_eq_ok.1 h
  unfold u64ToDbI64 at hsince
  split_ifs at hsince with hle
  exact hle

theorem nextCursor_cursorPage (hsort : IsCursorSort query.sort) (hstored : StoredQueryLogs db)
    {position : Option QueryLogCursorPosition} {cursor : Text}
    (h : (cursorPage db query now position).nextCursor = some cursor) :
    Keyset.HasMore (rowKey query.sort) (fullPage query) (positionKey query.sort position)
        (foundRows db query now) ∧
      ∃ row, (cursorPage db query now position).records.getLast? = some row ∧
        parseQueryLogCursor (some cursor) query.sort = .ok (some ⟨row.timestamp, row.id⟩) := by
  change (if _ then _ else none) = some cursor at h
  split_ifs at h with hmore
  obtain ⟨row, hrow, rfl⟩ := Option.map_eq_some_iff.1 h
  refine ⟨hmore, row, hrow, ?_⟩
  have hmem := mem_of_mem_foundRows (Keyset.mem_of_mem_page (List.mem_of_getLast? hrow)).1
  exact parse_encodeQueryLogCursor hsort (hstored.timestamp_le row hmem) (hstored.id_le row hmem)

variable {requests : List (Database × ℕ)} {pages : List QueryLogPage} {cursor : Text}
  {position : Option QueryLogCursorPosition}

/-- **A traversal is a walk** over the rows that are found at each request. -/
theorem Traversal.walk (h : Traversal slowest query cursor requests pages)
    (hsort : IsCursorSort query.sort) (hstored : ∀ request ∈ requests, StoredQueryLogs request.1)
    (hcursor : parseQueryLogCursor (some cursor) query.sort = .ok position) :
    Keyset.Walk (rowKey query.sort) (fullPage query) (positionKey query.sort position)
      (requests.map (foundAt query)) (pages.map (·.records)) := by
  induction h generalizing position with
  | @last cursor db now page hpage hnone =>
    rw [queryLogsAdvanced_cursor hsort (hstored _ List.mem_cons_self) hcursor
      (querySince_le_of_ok hpage)] at hpage
    cases hpage
    refine .last fun hmore => ?_
    -- a page that is not the last one has a last row
    have hlength := Keyset.length_page_of_hasMore hmore
    have hlast := Option.map_eq_none_iff.1 ((if_pos hmore).symm.trans hnone)
    have hnil : Keyset.page _ _ _ _ = [] := List.getLast?_eq_none_iff.1 hlast
    rw [foundAt, hnil] at hlength
    have hpos : 20 ≤ fullPage query := le_max_left _ _
    rw [← hlength] at hpos
    cases hpos
  | @next cursor cursor' db now page requests pages hpage hnext hrest ih =>
    have hdb := hstored _ List.mem_cons_self
    rw [queryLogsAdvanced_cursor hsort hdb hcursor (querySince_le_of_ok hpage)] at hpage
    cases hpage
    obtain ⟨hmore, row, hrow, hcursor'⟩ := nextCursor_cursorPage hsort hdb hnext
    exact .next hmore hrow
      (ih (fun request hrequest => hstored request (List.mem_cons_of_mem _ hrequest)) hcursor')

theorem exists_traversal (hsort : IsCursorSort query.sort) {key : Option (ℤ ×ₗ ℤ)}
    {tables rows : List (List QueryLogRow)}
    (h : Keyset.Walk (rowKey query.sort) (fullPage query) key tables rows)
    (hkey : key = positionKey query.sort position) (htables : tables = requests.map (foundAt query))
    (hrequests : ∀ request ∈ requests, Answerable query request)
    (hcursor : parseQueryLogCursor (some cursor) query.sort = .ok position) :
    ∃ pages, Traversal slowest query cursor requests pages ∧ pages.map (·.records) = rows := by
  induction h generalizing position requests cursor with
  | @last key found hmore =>
    subst hkey
    obtain ⟨⟨db, now⟩, rfl, rfl⟩ := List.map_eq_singleton_iff.1 htables.symm
    obtain ⟨hstored, hsince⟩ := hrequests _ List.mem_cons_self
    refine ⟨[_], .last (queryLogsAdvanced_cursor hsort hstored hcursor hsince) (if_neg hmore), ?_⟩
    rfl
  | @next key found row tables rows hmore hlast hrest ih =>
    subst hkey
    obtain ⟨⟨db, now⟩, requests, rfl, rfl, hrequests'⟩ := List.map_eq_cons_iff.1 htables.symm
    obtain ⟨hstored, hsince⟩ := hrequests _ List.mem_cons_self
    have hnext : (cursorPage db query now position).nextCursor =
        some (encodeQueryLogCursor query.sort row.timestamp row.id) := by
      refine (if_pos hmore).trans ?_
      exact congrArg (Option.map _) hlast
    obtain ⟨-, row', hrow', hcursor'⟩ := nextCursor_cursorPage hsort hstored hnext
    cases hrow'.symm.trans hlast
    obtain ⟨pages, hpages, hrows⟩ := ih rfl hrequests'.symm
      (fun request hrequest => hrequests request (List.mem_cons_of_mem _ hrequest)) hcursor'
    refine ⟨_, .next (queryLogsAdvanced_cursor hsort hstored hcursor hsince) hnext hpages, ?_⟩
    rw [List.map_cons, hrows]
    rfl

theorem Traversal.page_eq (h : Traversal slowest query cursor requests pages)
    (hsort : IsCursorSort query.sort) (hstored : ∀ request ∈ requests, StoredQueryLogs request.1)
    (hcursor : parseQueryLogCursor (some cursor) query.sort = .ok position) {page : QueryLogPage}
    (hpage : page ∈ pages) :
    ∃ request ∈ requests, ∃ position, page = cursorPage request.1 query request.2 position := by
  induction h generalizing position with
  | @last cursor db now page' hok hnone =>
    rw [queryLogsAdvanced_cursor hsort (hstored _ List.mem_cons_self) hcursor
      (querySince_le_of_ok hok)] at hok
    cases List.mem_singleton.1 hpage
    exact ⟨_, List.mem_cons_self, position, (Except.ok.inj hok).symm⟩
  | @next cursor cursor' db now page' requests pages hok hnext hrest ih =>
    have hdb := hstored _ List.mem_cons_self
    rw [queryLogsAdvanced_cursor hsort hdb hcursor (querySince_le_of_ok hok)] at hok
    cases hok
    rcases List.mem_cons.1 hpage with rfl | hpage
    · exact ⟨_, List.mem_cons_self, position, rfl⟩
    · obtain ⟨-, row, -, hcursor'⟩ := nextCursor_cursorPage hsort hdb hnext
      obtain ⟨request, hrequest, heq⟩ := ih
        (fun request hrequest => hstored request (List.mem_cons_of_mem _ hrequest)) hcursor' hpage
      exact ⟨request, List.mem_cons_of_mem _ hrequest, heq⟩

/-- **Following the cursors** from a blank one.

    In a table that does not change it ends, and gives the rows in their order.  In tables
    that do, no row is given twice, and a row that every request finds is given once. -/
theorem traversal_complete (hsort : IsCursorSort query.sort) (hstart : cursor.trim = []) :
    (∀ db now, Answerable query (db, now) →
      (∃ pages, Traversal slowest query cursor (List.replicate pages.length (db, now)) pages) ∧
      ∀ n pages, Traversal slowest query cursor (List.replicate n (db, now)) pages →
        pages.flatMap (·.records) =
          Keyset.inOrder (rowKey query.sort) (foundRows db query now)) ∧
    ∀ requests pages, (∀ request ∈ requests, StoredQueryLogs request.1) →
      Traversal slowest query cursor requests pages →
        ((pages.flatMap (·.records)).Pairwise fun row row' =>
          rowKey query.sort row < rowKey query.sort row') ∧
        (∀ row, (∀ request ∈ requests, row ∈ foundAt query request) →
          (pages.flatMap (·.records)).count row = 1) ∧
        (∀ page ∈ pages.dropLast, page.records.length = fullPage query) ∧
        ∀ page ∈ pages, ∀ next ∈ page.nextCursor, ∃ row, page.records.getLast? = some row ∧
          parseQueryLogCursor (some next) query.sort = .ok (some ⟨row.timestamp, row.id⟩) := by
  have hcursor : parseQueryLogCursor (some cursor) query.sort = .ok none := by
    rw [parseQueryLogCursor, Option.map_some, hstart]
    rfl
  have hflat : ∀ pages : List QueryLogPage,
      pages.flatMap (·.records) = (pages.map (·.records)).flatten := fun _ => List.flatMap_def
  constructor
  · intro db now hanswerable
    have hanswerables : ∀ n, ∀ request ∈ List.replicate n (db, now), Answerable query request :=
      fun n request hrequest => List.eq_of_mem_replicate hrequest ▸ hanswerable
    have hwalk : ∀ n, (List.replicate n (db, now)).map (foundAt query) =
        List.replicate n (foundRows db query now) := fun n => List.map_replicate ..
    constructor
    · have hsize : 0 < fullPage query := Nat.lt_of_lt_of_le (by decide) (le_max_left 20 _)
      obtain ⟨rows, hrows⟩ : ∃ rows, Keyset.Walk (rowKey query.sort) (fullPage query) none
          (List.replicate rows.length (foundRows db query now)) rows :=
        Keyset.exists_walk hsize none _
      have hkey : none = positionKey query.sort none := rfl
      obtain ⟨pages, hpages, hmap⟩ :=
        exists_traversal hsort hrows hkey (hwalk _).symm (hanswerables _) hcursor
      have hlength : rows.length = pages.length := by rw [← hmap, List.length_map]
      exact ⟨pages, hlength ▸ hpages⟩
    · intro n pages hpages
      have h := hpages.walk hsort (fun request hrequest => (hanswerables n request hrequest).1) hcursor
      rw [hwalk] at h
      rw [hflat, h.flatten_eq (nodup_rowKey hanswerable.1)]
      refine congrArg _ (List.filter_eq_self.2 fun row _ => decide_eq_true fun k hk => ?_)
      cases hk
  · intro requests pages hstored htraversal
    have h := htraversal.walk hsort hstored hcursor
    have hn : ∀ rows ∈ requests.map (foundAt query), (rows.map (rowKey query.sort)).Nodup := by
      intro rows hrows
      obtain ⟨request, hrequest, rfl⟩ := List.mem_map.1 hrows
      exact nodup_rowKey (hstored request hrequest)
    have hpairwise := h.pairwise hn
    refine ⟨(hflat pages).symm ▸ hpairwise, fun row hrow => ?_, fun page hpage => ?_, ?_⟩
    · rw [hflat]
      refine List.count_eq_one_of_mem (hpairwise.imp fun hlt heq => ?_) ?_
      · rw [heq] at hlt
        exact lt_irrefl _ hlt
      · refine h.mem hn (fun rows hrows => ?_) fun k hk => by cases hk
        obtain ⟨request, hrequest, rfl⟩ := List.mem_map.1 hrows
        exact hrow request hrequest
    · refine h.length_eq ?_
      rw [← List.map_dropLast]
      exact List.mem_map_of_mem hpage
    · intro page hpage next hnext
      obtain ⟨request, hrequest, position, rfl⟩ := htraversal.page_eq hsort hstored hcursor hpage
      exact (nextCursor_cursorPage hsort (hstored request hrequest) hnext).2

end

/-! ### Two queries in one second -/

/-- The row of an unanswered query at second 7. -/
def sampleRow (id : ℕ) : QueryLogRow where
  id
  timestamp := 7
  domain := "a.example".toList
  clientIp := none
  blocked := false
  forwarded := true
  failed := true
  upstreamServer := none
  upstreamDurationMs := none
  error := none
  matchedRule := none
  ruleSource := none
  ruleType := none
  importantOverrode := false
  allowlistRule := none
  queryType := none
  queryClass := none
  transport := none
  responseSource := none

/-- The failed queries, the newest first. -/
def failedQueries : QueryLogQuery where
  retentionHours := 0
  hours := none
  filter := "failed".toList
  search := []
  domain := none
  source := "all".toList
  queryType := "all".toList
  sort := "newest".toList
  cursor := none
  page := 1
  pageSize := 20

theorem traversal_complete_sample :
    ∃ pages, Traversal id failedQueries []
      (List.replicate pages.length ({ queryLogs := [sampleRow 1, sampleRow 2] }, 9)) pages ∧
        pages.flatMap (·.records) = [sampleRow 2, sampleRow 1] := by
  have hanswerable : Answerable failedQueries ({ queryLogs := [sampleRow 1, sampleRow 2] }, 9) :=
    ⟨⟨by decide, by decide, by decide, by decide⟩, by decide⟩
  have hsort : IsCursorSort failedQueries.sort := .inl rfl
  have hstart : Text.trim [] = [] := rfl
  obtain ⟨⟨pages, hpages⟩, hflat⟩ := (traversal_complete hsort hstart).1 _ _ hanswerable
  exact ⟨pages, hpages, (hflat _ pages hpages).trans (by decide)⟩

end DnsBlackhole.Database
