/-
  The export of the query log (`collectQueryLogExportRecords` of `query-log-export.ts`).

  The interface asks for one page after the other, and stops at a short page, once
  it has as many rows as match, or without a cursor to go on.  Between two requests
  queries are logged, old rows are pruned, and the window of the query moves on.

  * `collectPages_rule`: what each page that is not the last one keeps holds to the
    end of the export, which comes;
  * `export_complete`: no row is exported twice, a table that does not change is
    exported in its order up to the limit, and a row that matches all the time is
    exported or the export is reported as truncated, where no matching row leaves
    before one that stays; for the newest rows first this is always so;
  * `movedWindow_loses_row`: with the oldest first a row is lost without a word.

  Time stands still between the two statements of one request.
-/
import DnsBlackhole.Database.Pruning
import DnsBlackhole.Lib.Paging

namespace DnsBlackhole.Database
open Lib Lib.Keyset

def exportPageSize : ℕ := 200
def exportRecordLimit : ℕ := 50000

/-- The records with the result that the interface shows; `asked` counts the pages. -/
structure CollectedQueryLogExport where
  records : List QueryLogRow
  exported : ℕ
  total : ℕ
  truncated : Bool
  asked : ℕ

/-! ## The loop -/

section
variable (slowest : List QueryLogRow → List QueryLogRow)

/-- The request of a page. -/
def exportRequest (query : QueryLogQuery) (page : ℕ) (cursor : Option Text) : QueryLogQuery :=
  { query with page := UInt32.ofNat page, pageSize := UInt32.ofNat exportPageSize, cursor }

/-- The three signs of the end. -/
def isLastPage (cursor : Option Text) (result : QueryLogPage) (exported : ℕ) : Bool :=
  result.records.length < exportPageSize || result.total ≤ exported ||
    (cursor.isSome && result.nextCursor.isNone)

def exportedWith (records : List QueryLogRow) (result : QueryLogPage) : List QueryLogRow :=
  records ++ result.records.take (exportRecordLimit - records.length)

def collectedExport (records : List QueryLogRow) (total asked : ℕ) : CollectedQueryLogExport :=
  { records, exported := records.length, total, truncated := records.length < total, asked }

/-- The loop, with the table and the time at each request; page numbers start at 1. -/
def collectPages (query : QueryLogQuery) (requests : ℕ → Database × ℕ) (asked total : ℕ)
    (cursor : Option Text) (records : List QueryLogRow) :
    Except DatabaseError CollectedQueryLogExport :=
  if _hlimit : records.length < exportRecordLimit then
    match queryLogsAdvanced slowest (requests asked).1 (exportRequest query (asked + 1) cursor)
        (requests asked).2 with
    | .error e => .error e
    | .ok result =>
      if hlast : isLastPage cursor result (exportedWith records result).length then
        .ok (collectedExport (exportedWith records result) result.total (asked + 1))
      else collectPages query requests (asked + 1) result.total
        (cursor.bind fun _ => result.nextCursor) (exportedWith records result)
  else .ok (collectedExport records total asked)
termination_by exportRecordLimit - records.length
decreasing_by
  -- a page that is not the last one is full
  simp only [isLastPage, Bool.or_eq_true, decide_eq_true_eq, not_or] at hlast
  have hfull := hlast.1.1
  simp only [exportedWith, exportPageSize, exportRecordLimit, List.length_append,
    List.length_take] at _hlimit hfull ⊢
  omega

def collectQueryLogExportRecords (query : QueryLogQuery) (requests : ℕ → Database × ℕ) :
    Except DatabaseError CollectedQueryLogExport :=
  collectPages slowest query requests 0 0
    (if query.sort = "slowest".toList then none else some []) []

end

/-! ## The table between two requests -/

/-- Queries are logged with the current time, old rows are pruned, and time goes on. -/
inductive TableMove : Database × ℕ → Database × ℕ → Prop
  | insertQueryEvents {db db' : Database} {now : ℕ} (entries : List QueryPersistenceEntry)
    (h : insertQueryEvents db entries now = .ok db') : TableMove (db, now) (db', now)
  | pruneExpired {db db' : Database} {now : ℕ} (queryLogRetentionHours statisticsRetentionHours
      securityEventRetentionHours : UInt32)
    (h : pruneExpired db queryLogRetentionHours statisticsRetentionHours
      securityEventRetentionHours now = .ok db') : TableMove (db, now) (db', now)
  | later {db : Database} {now now' : ℕ} (h : now ≤ now') : TableMove (db, now) (db, now')

/-- Ids are given out in order, and none twice (`AUTOINCREMENT`). -/
def Numbered (db : Database) : Prop := ∀ row ∈ db.queryLogs, row.id ≤ db.queryLogsSequence

/-- What becomes of the query log in a while. -/
structure Moved (s s' : Database × ℕ) : Prop where
  now_le : s.2 ≤ s'.2
  sequence_le : s.1.queryLogsSequence ≤ s'.1.queryLogsSequence
  numbered : Numbered s'.1
  old_or_new : ∀ row ∈ s'.1.queryLogs, row ∈ s.1.queryLogs ∨ s.1.queryLogsSequence < row.id
  keeps : ∀ x ∈ s.1.queryLogs, x ∈ s'.1.queryLogs →
    ∀ r ∈ s.1.queryLogs, x.timestamp ≤ r.timestamp → r ∈ s'.1.queryLogs

namespace Moved
variable {s s' s'' : Database × ℕ}

theorem of_eq {db db' : Database} {now : ℕ} (h : Numbered db)
    (hlogs : db'.queryLogs = db.queryLogs)
    (hsequence : db'.queryLogsSequence = db.queryLogsSequence) : Moved (db, now) (db', now) where
  now_le := Nat.le_refl _
  sequence_le := hsequence.ge
  numbered := by
    intro row hrow
    rw [hlogs] at hrow
    exact hsequence ▸ h row hrow
  old_or_new := fun row hrow => .inl (hlogs ▸ hrow)
  keeps := fun _ _ _ r hr _ => hlogs.symm ▸ hr

theorem refl (h : Numbered s.1) : Moved s s := .of_eq h rfl rfl

/-- A row that is there before and after is there in between, as its id is never given out again. -/
theorem mem_between (h : Moved s s') (h' : Moved s' s'') (hs : Numbered s.1) {x : QueryLogRow}
    (hx : x ∈ s.1.queryLogs) (hx'' : x ∈ s''.1.queryLogs) : x ∈ s'.1.queryLogs := by
  rcases h'.old_or_new x hx'' with hmem | hlt
  · exact hmem
  · have hle := (hs x hx).trans h.sequence_le
    exact absurd hlt hle.not_gt

theorem trans (h : Moved s s') (h' : Moved s' s'') (hs : Numbered s.1) : Moved s s'' where
  now_le := h.now_le.trans h'.now_le
  sequence_le := h.sequence_le.trans h'.sequence_le
  numbered := h'.numbered
  old_or_new := by
    intro row hrow
    rcases h'.old_or_new row hrow with hmem | hlt
    · exact h.old_or_new row hmem
    · exact .inr (h.sequence_le.trans_lt hlt)
  keeps := by
    intro x hx hx'' r hr hle
    have hx' := h.mem_between h' hs hx hx''
    exact h'.keeps x hx' hx'' r (h.keeps x hx hx' r hr hle) hle

end Moved

section
variable {db db' : Database} {now : ℕ}

theorem moved_executeQueryLogInsert {entry : QueryLogEntry} {anonymizeClientIp : Bool}
    {timestamp : ℕ} (hdb : Numbered db)
    (h : executeQueryLogInsert db entry anonymizeClientIp timestamp = .ok db') :
    Moved (db, now) (db', now) := by
  simp only [executeQueryLogInsert, bind_eq_ok, pure_eq_ok] at h
  obtain ⟨_, -, _, -, rfl⟩ := h
  refine ⟨Nat.le_refl _, Nat.le_succ _, fun row hrow => ?_, fun row hrow => ?_,
    fun _ _ _ r hr _ => List.mem_append_left _ hr⟩
  · rcases List.mem_append.1 hrow with hrow | hrow
    · exact (hdb row hrow).trans (Nat.le_succ _)
    · rw [List.mem_singleton.1 hrow]
  · rcases List.mem_append.1 hrow with hrow | hrow
    · exact .inl hrow
    · rw [List.mem_singleton.1 hrow]
      exact .inr (Nat.lt_succ_self _)

theorem moved_executeStatUpserts {timestamp : ℕ} {row : Row HourlyStatKey StatDelta}
    (hdb : Numbered db) (h : executeStatUpserts timestamp db row = .ok db') :
    Moved (db, now) (db', now) := by
  obtain ⟨_, -, h⟩ := bind_eq_ok.1 h
  split_ifs at h
  · obtain ⟨_, -, h⟩ := bind_eq_ok.1 h
    cases pure_eq_ok.1 h
    exact .of_eq hdb rfl rfl
  · cases pure_eq_ok.1 h
    exact .of_eq hdb rfl rfl

theorem moved_insertQueryEvents {entries : List QueryPersistenceEntry} {timestamp : ℕ}
    (hdb : Numbered db) (h : insertQueryEvents db entries timestamp = .ok db') :
    Moved (db, now) (db', now) := by
  unfold insertQueryEvents at h
  split_ifs at h
  · cases h
    exact .refl hdb
  · obtain ⟨logged, hlogged, h⟩ := bind_eq_ok.1 h
    have hmoved : Moved (db, now) (logged, now) := by
      refine foldlM_inv (P := fun d => Moved (db, now) (d, now)) ?_ (.refl hdb) hlogged
      intro d entry d' _ hd hstep
      exact hd.trans (moved_executeQueryLogInsert hd.numbered hstep) hdb
    refine foldlM_inv (P := fun d => Moved (db, now) (d, now)) ?_ hmoved h
    intro d row d' _ hd hstep
    exact hd.trans (moved_executeStatUpserts hd.numbered hstep) hdb

theorem moved_pruneExpired {queryLog statistics securityEvent : UInt32} (hdb : Numbered db)
    (h : pruneExpired db queryLog statistics securityEvent now = .ok db') :
    Moved (db, now) (db', now) := by
  have hlogs := (pruneExpired_keeps h).2
  have hsequence : db'.queryLogsSequence = db.queryLogsSequence := by
    simp only [pruneExpired, bind_eq_ok, pure_eq_ok] at h
    obtain ⟨_, -, _, -, _, -, _, -, _, -, rfl⟩ := h
    rfl
  have hsub : ∀ row ∈ db'.queryLogs, row ∈ db.queryLogs := fun row hrow => by
    rw [hlogs] at hrow
    exact List.mem_of_mem_filter hrow
  refine ⟨Nat.le_refl _, hsequence.ge, fun row hrow => hsequence ▸ hdb row (hsub row hrow),
    fun row hrow => .inl (hsub row hrow), ?_⟩
  intro x _ hx r hr hle
  change x ∈ db'.queryLogs at hx
  change r ∈ db'.queryLogs
  rw [hlogs, List.mem_filter, decide_eq_true_iff] at hx ⊢
  exact ⟨hr, hx.2.trans hle⟩

end

theorem moved_of_move {s s' : Database × ℕ} (hs : Numbered s.1) (h : TableMove s s') :
    Moved s s' := by
  cases h with
  | insertQueryEvents entries h => exact moved_insertQueryEvents hs h
  | pruneExpired _ _ _ h => exact moved_pruneExpired hs h
  | later h => exact ⟨h, Nat.le_refl _, hs, fun _ hrow => .inl hrow, fun _ _ _ _ hr _ => hr⟩

theorem moved_of_moves {s s' : Database × ℕ} (hs : Numbered s.1)
    (h : Relation.ReflTransGen TableMove s s') : Moved s s' := by
  induction h with
  | refl => exact .refl hs
  | tail _ hmove ih => exact ih.trans (moved_of_move ih.numbered hmove) hs

/-! ## One page -/

section
variable {slowest : List QueryLogRow → List QueryLogRow} {db : Database} {query : QueryLogQuery}
  {now : ℕ}

/-- **One page of a number** is a piece of the rows it finds. -/
theorem queryLogsAdvanced_offset (hsort : query.sort = "slowest".toList)
    (hperm : ∀ rows, (slowest rows).Perm rows) (hanswer : Answerable query (db, now)) :
    queryLogsAdvanced slowest db { query with cursor := none } now = .ok
      { records := ((slowest (foundRows db query now)).drop
          ((max query.page.toNat 1 - 1) * fullPage query)).take (fullPage query)
        total := (foundRows db query now).length
        page := max query.page.toNat 1
        pageSize := fullPage query
        nextCursor := none } := by
  have hsince : u64ToDbI64 (querySince query now) "查询日志起始时间戳".toList =
      .ok (querySince query now) := if_pos hanswer.2
  have hread : (((slowest (foundRows db query now)).drop
      ((max query.page.toNat 1 - 1) * fullPage query)).take (fullPage query)).mapM
        readQueryLogRecord = .ok _ :=
    mapM_readQueryLogRecord hanswer.1 fun row hrow => mem_of_mem_foundRows
      ((hperm _).mem_iff.1 (List.mem_of_mem_drop (List.mem_of_mem_take hrow)))
  have hall : (foundRows db query now).filter (fun row => cursorCondition row query.sort none) =
      foundRows db query now := List.filter_eq_self.2 fun _ _ => rfl
  unfold queryLogsAdvanced
  dsimp only
  change (u64ToDbI64 (querySince query now) _ >>= _) = _
  rw [hsince, ok_bind]
  change (Except.mapError _ ((((orderRows slowest query.sort ((foundRows db query now).filter
    fun row => cursorCondition row query.sort none)).drop
      ((max query.page.toNat 1 - 1) * fullPage query)).take (fullPage query + 0)).mapM _) >>= _) = _
  rw [hall, orderRows, if_pos hsort, Nat.add_zero, hread]
  rfl

/-! ## The rule of the loop -/

variable {requests : ℕ → Database × ℕ} {asked total : ℕ} {cursor : Option Text}
  {records : List QueryLogRow}

theorem collectPages_last {result : QueryLogPage} (hlimit : records.length < exportRecordLimit)
    (hresult : queryLogsAdvanced slowest (requests asked).1 (exportRequest query (asked + 1) cursor)
      (requests asked).2 = .ok result)
    (hlast : isLastPage cursor result (exportedWith records result).length) :
    collectPages slowest query requests asked total cursor records =
      .ok (collectedExport (exportedWith records result) result.total (asked + 1)) := by
  rw [collectPages, dif_pos hlimit]
  simp only [hresult]
  rw [dif_pos hlast]

theorem collectPages_next {result : QueryLogPage} (hlimit : records.length < exportRecordLimit)
    (hresult : queryLogsAdvanced slowest (requests asked).1 (exportRequest query (asked + 1) cursor)
      (requests asked).2 = .ok result)
    (hlast : ¬ isLastPage cursor result (exportedWith records result).length) :
    collectPages slowest query requests asked total cursor records =
      collectPages slowest query requests (asked + 1) result.total
        (cursor.bind fun _ => result.nextCursor) (exportedWith records result) := by
  rw [collectPages, dif_pos hlimit]
  simp only [hresult]
  rw [dif_neg hlast]

theorem collectPages_rule {Inv : ℕ → Option Text → List QueryLogRow → Prop}
    {Post : CollectedQueryLogExport → Prop}
    (hpage : ∀ asked cursor records, records.length < exportRecordLimit → Inv asked cursor records →
      ∃ result, queryLogsAdvanced slowest (requests asked).1
          (exportRequest query (asked + 1) cursor) (requests asked).2 = .ok result ∧
        (isLastPage cursor result (exportedWith records result).length ∨
            exportRecordLimit ≤ (exportedWith records result).length →
          Post (collectedExport (exportedWith records result) result.total (asked + 1))) ∧
        (¬ isLastPage cursor result (exportedWith records result).length →
          Inv (asked + 1) (cursor.bind fun _ => result.nextCursor) (exportedWith records result)))
    (hinv : Inv asked cursor records) (hlimit : records.length < exportRecordLimit) :
    ∃ r, collectPages slowest query requests asked total cursor records = .ok r ∧ Post r := by
  -- the rows that are still missing to the limit become fewer
  induction hn : exportRecordLimit - records.length using Nat.strong_induction_on
    generalizing asked total cursor records with
  | _ n ih =>
    obtain ⟨result, hresult, hpost, hnext⟩ := hpage asked cursor records hlimit hinv
    by_cases hlast : isLastPage cursor result (exportedWith records result).length
    · rw [collectPages_last hlimit hresult hlast]
      exact ⟨_, rfl, hpost (.inl hlast)⟩
    · rw [collectPages_next hlimit hresult hlast]
      by_cases hfull : (exportedWith records result).length < exportRecordLimit
      · refine ih _ ?_ (hnext hlast) hfull rfl
        simp only [isLastPage, Bool.or_eq_true, decide_eq_true_eq, not_or] at hlast
        have hlength := hlast.1.1
        simp only [exportedWith, exportPageSize, exportRecordLimit, List.length_append,
          List.length_take] at hlimit hlength hn ⊢
        omega
      · rw [collectPages, dif_neg hfull]
        exact ⟨_, rfl, hpost (.inr (Nat.le_of_not_lt hfull))⟩

end

/-! ## What an export promises -/

section
variable {κ : Type} [LinearOrder κ] (speed : QueryLogRow → κ) (query : QueryLogQuery)
  (requests : ℕ → Database × ℕ)

/-- The order of the slowest: by the processing time, and then the newest first. -/
def slowKey (row : QueryLogRow) : κ ×ₗ (ℤ ×ₗ ℤ) := toLex (speed row, rowKey "slowest".toList row)

def bySpeed (rows : List QueryLogRow) : List QueryLogRow := inOrder (slowKey speed) rows

/-- The orders that the interface offers. -/
def IsExportSort (sort : Text) : Prop := IsCursorSort sort ∨ sort = "slowest".toList

/-- One row is shown before another. -/
def ShownBefore (sort : Text) (r x : QueryLogRow) : Prop :=
  if sort = "slowest".toList then slowKey speed r < slowKey speed x
  else rowKey sort r < rowKey sort x

/-- No matching row leaves before one that stays, whether it is pruned or the window moves on. -/
def Steady : Prop :=
  ∀ k, Paging.KeepsBefore (ShownBefore speed query.sort) (foundAt query (requests k))
    (foundAt query (requests (k + 1)))

/-- What is said of an export: its rows, and whether it is reported as truncated. -/
structure ExportPromise (r : CollectedQueryLogExport) : Prop where
  nodup : IsCursorSort query.sort → r.records.Nodup
  complete : Steady speed query requests →
    ∀ row, (∀ k < r.asked, row ∈ foundAt query (requests k)) → row ∈ r.records ∨ r.truncated
  constant : (∀ k < r.asked, foundAt query (requests k) = foundAt query (requests 0)) →
    r.records = (orderRows (bySpeed speed) query.sort (foundAt query (requests 0))).take
        exportRecordLimit ∧
      (r.truncated ↔ exportRecordLimit < (foundAt query (requests 0)).length)

end

theorem length_bySpeed {κ : Type} [LinearOrder κ] (speed : QueryLogRow → κ)
    (rows : List QueryLogRow) : (bySpeed speed rows).length = rows.length :=
  (perm_inOrder rows).length_eq

theorem nodup_slowKey {κ : Type} {speed : QueryLogRow → κ} {query : QueryLogQuery}
    {request : Database × ℕ} (h : StoredQueryLogs request.1) :
    ((foundAt query request).map (slowKey speed)).Nodup := by
  refine List.Nodup.of_map (fun key : κ ×ₗ (ℤ ×ₗ ℤ) => (ofLex key).2) ?_
  have hsnd : (fun key : κ ×ₗ (ℤ ×ₗ ℤ) => (ofLex key).2) ∘ slowKey speed =
      rowKey "slowest".toList := rfl
  rw [List.map_map, hsnd]
  exact nodup_rowKey h

/-! ## By cursors -/

/-- The first rows up to a page that is the last one, or the one that reaches the limit. -/
theorem eq_take_limit {α : Type} {rows all : List α} {asked : ℕ}
    (hrows : rows = all.take ((asked + 1) * exportPageSize))
    (hasked : asked * exportPageSize < exportRecordLimit)
    (hend : (asked + 1) * exportPageSize < all.length → exportRecordLimit ≤ rows.length) :
    rows = all.take exportRecordLimit ∧
      (rows.length < all.length ↔ exportRecordLimit < all.length) := by
  have hlength : rows.length = min ((asked + 1) * exportPageSize) all.length := by
    rw [hrows, List.length_take]
  simp only [exportPageSize, exportRecordLimit] at *
  by_cases hmore : (asked + 1) * 200 < all.length
  · have hlimit := hend hmore
    have heq : (asked + 1) * 200 = 50000 := by omega
    rw [heq] at hrows hlength
    exact ⟨hrows, by omega⟩
  · rw [List.take_of_length_le (by omega)] at hrows
    rw [List.take_of_length_le (by omega)]
    exact ⟨hrows, by rw [hrows]; omega⟩

section
variable {query : QueryLogQuery} {requests : ℕ → Database × ℕ} {asked : ℕ} {cursor : Option Text}
  {records page : List QueryLogRow}

/-- The key of the last row so far. -/
def lastKey (sort : Text) (records : List QueryLogRow) : Option (ℤ ×ₗ ℤ) :=
  records.getLast?.map (rowKey sort)

/-- The rows of the first pages, whatever the table does. -/
structure Collected (query : QueryLogQuery) (requests : ℕ → Database × ℕ) (asked : ℕ)
    (records : List QueryLogRow) : Prop where
  pairwise : records.Pairwise fun r r' => rowKey query.sort r < rowKey query.sort r'
  found : ∀ r ∈ records, ∃ k < asked, r ∈ foundAt query (requests k)
  complete : ∀ x, (∀ k < asked, x ∈ foundAt query (requests k)) →
    x ∈ records ∨ After (rowKey query.sort) (lastKey query.sort records) x
  constant : (∀ k < asked, foundAt query (requests k) = foundAt query (requests 0)) →
    records = (inOrder (rowKey query.sort) (foundAt query (requests 0))).take
      (asked * exportPageSize)

theorem not_after_of_mem (h : Collected query requests asked records) {r : QueryLogRow}
    (hr : r ∈ records) : ∀ k ∈ lastKey query.sort records, rowKey query.sort r ≤ k := by
  intro k hk
  obtain ⟨last, hlast, rfl⟩ := Option.map_eq_some_iff.1 hk
  obtain ⟨front, heq⟩ := List.getLast?_eq_some_iff.1 hlast
  have hpairwise := h.pairwise
  rw [heq] at hr hpairwise
  rcases List.mem_append.1 hr with hr | hr
  · exact ((List.pairwise_append.1 hpairwise).2.2 r hr last (List.mem_singleton_self _)).le
  · rw [List.mem_singleton.1 hr]

theorem lastKey_append_of_ne_nil (hne : page ≠ []) :
    lastKey query.sort (records ++ page) = lastKey query.sort page := by
  rw [lastKey, List.getLast?_append_of_ne_nil _ hne, lastKey]

/-- In a table that does not change, the rows that are not collected yet are the others. -/
theorem Collected.inOrder_rest (h : Collected query requests asked records)
    (hfull : records.length = asked * exportPageSize)
    (hn : ((foundAt query (requests 0)).map (rowKey query.sort)).Nodup)
    (hconstant : ∀ k < asked, foundAt query (requests k) = foundAt query (requests 0)) :
    inOrder (rowKey query.sort) (rest (rowKey query.sort) (lastKey query.sort records)
        (foundAt query (requests 0))) =
      (inOrder (rowKey query.sort) (foundAt query (requests 0))).drop (asked * exportPageSize) := by
  cases hlast : records.getLast? with
  | none =>
    rw [List.getLast?_eq_none_iff] at hlast
    rw [hlast, List.length_nil] at hfull
    rw [← hfull, List.drop_zero, lastKey, hlast]
    refine congrArg _ (List.filter_eq_self.2 fun row _ => decide_eq_true fun k hk => ?_)
    cases hk
  | some last =>
    rw [lastKey, hlast, Option.map_some]
    exact Paging.inOrder_rest hn (h.constant hconstant ▸ hlast)

theorem Collected.append (h : Collected query requests asked records)
    (hfull : records.length = asked * exportPageSize)
    (hn : ((foundAt query (requests asked)).map (rowKey query.sort)).Nodup)
    (hpage : page = Keyset.page (rowKey query.sort) exportPageSize (lastKey query.sort records)
      (foundAt query (requests asked))) :
    Collected query requests (asked + 1) (records ++ page) where
  pairwise := by
    rw [List.pairwise_append]
    refine ⟨h.pairwise, hpage ▸ pairwise_page hn, fun r hr r' hr' => ?_⟩
    rw [hpage] at hr'
    have hafter := (mem_of_mem_page hr').2
    cases hlast : lastKey query.sort records with
    | none =>
      rw [lastKey, Option.map_eq_none_iff, List.getLast?_eq_none_iff] at hlast
      rw [hlast] at hr
      cases hr
    | some k => exact (not_after_of_mem h hr k hlast).trans_lt (hafter k hlast)
  found := by
    intro r hr
    rcases List.mem_append.1 hr with hr | hr
    · obtain ⟨k, hk, hmem⟩ := h.found r hr
      exact ⟨k, Nat.lt_succ_of_lt hk, hmem⟩
    · rw [hpage] at hr
      exact ⟨asked, Nat.lt_succ_self _, (mem_of_mem_page hr).1⟩
  complete := by
    intro x hx
    have hrow := hx asked (Nat.lt_succ_self _)
    rcases h.complete x fun k hk => hx k (Nat.lt_succ_of_lt hk) with hmem | hafter
    · exact .inl (List.mem_append_left _ hmem)
    · cases hlast : page.getLast? with
      | none =>
        -- an empty page has no rows to leave out
        rw [List.getLast?_eq_none_iff] at hlast
        have hmem : x ∈ inOrder (rowKey query.sort) (rest (rowKey query.sort)
            (lastKey query.sort records) (foundAt query (requests asked))) :=
          (perm_inOrder _).mem_iff.2 (mem_rest.2 ⟨hrow, hafter⟩)
        rw [hlast, Keyset.page, eq_comm, List.take_eq_nil_iff] at hpage
        rcases hpage with hzero | hnil
        · cases hzero
        · rw [hnil] at hmem
          cases hmem
      | some last =>
        have hne : page ≠ [] := fun hnil => by
          rw [hnil] at hlast
          cases hlast
        rcases mem_page_or_after hrow hafter (hpage ▸ hlast) hn with hmem | hlt
        · exact .inl (List.mem_append_right _ (hpage ▸ hmem))
        · refine .inr fun k hk => ?_
          rw [lastKey_append_of_ne_nil hne, lastKey, hlast] at hk
          obtain rfl := Option.some.inj hk
          exact hlt
  constant := by
    intro hconstant
    have hbefore := fun k hk => hconstant k (Nat.lt_succ_of_lt hk)
    rw [hconstant asked (Nat.lt_succ_self _)] at hpage hn
    rw [hpage, Keyset.page, h.inOrder_rest hfull hn hbefore, Nat.succ_mul, List.take_add,
      ← h.constant hbefore]

/-- **A row that is left out is counted**: the rows before it are all still there. -/
theorem Collected.length_lt {κ : Type} [LinearOrder κ] {speed : QueryLogRow → κ}
    (h : Collected query requests (asked + 1) records) (hsort : query.sort ≠ "slowest".toList)
    (hsteady : Steady speed query requests) {x : QueryLogRow}
    (hx : ∀ k < asked + 1, x ∈ foundAt query (requests k)) (hout : x ∉ records) :
    records.length < (foundAt query (requests asked)).length := by
  have hafter := (h.complete x hx).resolve_left hout
  have hbefore : ∀ r ∈ records, rowKey query.sort r < rowKey query.sort x := by
    intro r hr
    cases hlast : lastKey query.sort records with
    | none =>
      rw [lastKey, Option.map_eq_none_iff, List.getLast?_eq_none_iff] at hlast
      rw [hlast] at hr
      cases hr
    | some k => exact (not_after_of_mem h hr k hlast).trans_lt (hafter k hlast)
  have hstays : ∀ r ∈ records, r ∈ foundAt query (requests asked) := by
    intro r hr
    obtain ⟨k, hk, hmem⟩ := h.found r hr
    have hshown : ShownBefore speed query.sort r x := by
      rw [ShownBefore, if_neg hsort]
      exact hbefore r hr
    exact @Paging.mem_of_keepsBefore _ _ (fun k => foundAt query (requests k)) asked k x r
      (fun k _ => hsteady k) (fun k hk => hx k (Nat.lt_succ_of_le hk)) (Nat.le_of_lt_succ hk) hmem
      hshown
  have hnodup : (x :: records).Nodup := by
    refine List.nodup_cons.2 ⟨hout, h.pairwise.imp fun hlt heq => ?_⟩
    rw [heq] at hlt
    exact lt_irrefl _ hlt
  have hsub : (x :: records) ⊆ foundAt query (requests asked) := by
    intro r hr
    rcases List.mem_cons.1 hr with rfl | hr
    · exact hx asked (Nat.lt_succ_self _)
    · exact hstays r hr
  exact (List.subperm_of_subset hnodup hsub).length_le

end

section
variable {κ : Type} [LinearOrder κ] {speed : QueryLogRow → κ} {query : QueryLogQuery}
  {requests : ℕ → Database × ℕ} {slowest : List QueryLogRow → List QueryLogRow}

/-- What the loop keeps while it goes on with a cursor. -/
structure CursorLoop (query : QueryLogQuery) (requests : ℕ → Database × ℕ) (asked : ℕ)
    (cursor : Option Text) (records : List QueryLogRow) : Prop
    extends Collected query requests asked records where
  full : records.length = asked * exportPageSize
  position : ∃ text position, cursor = some text ∧
    parseQueryLogCursor (some text) query.sort = .ok position ∧
    positionKey query.sort position = lastKey query.sort records

theorem exportedWith_eq {asked : ℕ} {records : List QueryLogRow} {result : QueryLogPage}
    (hfull : records.length = asked * exportPageSize) (hlimit : records.length < exportRecordLimit)
    (hlength : result.records.length ≤ exportPageSize) :
    exportedWith records result = records ++ result.records := by
  rw [exportedWith, List.take_of_length_le]
  simp only [exportPageSize, exportRecordLimit] at *
  omega

theorem exists_cursorPage {asked : ℕ} {cursor : Option Text} {records : List QueryLogRow}
    (h : CursorLoop query requests asked cursor records) (hsort : IsCursorSort query.sort)
    (hanswer : Answerable query (requests asked)) :
    ∃ result, queryLogsAdvanced slowest (requests asked).1 (exportRequest query (asked + 1) cursor)
        (requests asked).2 = .ok result ∧
      result.records = Keyset.page (rowKey query.sort) exportPageSize (lastKey query.sort records)
        (foundAt query (requests asked)) ∧
      result.total = (foundAt query (requests asked)).length ∧
      (result.nextCursor = none ↔ ¬ HasMore (rowKey query.sort) exportPageSize
        (lastKey query.sort records) (foundAt query (requests asked))) ∧
      ∀ next, result.nextCursor = some next → ∃ position,
        parseQueryLogCursor (some next) query.sort = .ok position ∧
        positionKey query.sort position = lastKey query.sort (records ++ result.records) := by
  obtain ⟨text, position, rfl, hparse, hkey⟩ := h.position
  have hpage := @queryLogsAdvanced_cursor slowest (requests asked).1
    (exportRequest query (asked + 1) none) (requests asked).2 hsort hanswer.1 text position hparse
    hanswer.2
  have hrecords : (cursorPage (requests asked).1 (exportRequest query (asked + 1) none)
      (requests asked).2 position).records = Keyset.page (rowKey query.sort) exportPageSize
        (lastKey query.sort records) (foundAt query (requests asked)) := by
    rw [← hkey]
    rfl
  have hmore : HasMore (rowKey query.sort) (fullPage (exportRequest query (asked + 1) none))
      (positionKey query.sort position) (foundAt query (requests asked)) ↔
        HasMore (rowKey query.sort) exportPageSize (lastKey query.sort records)
          (foundAt query (requests asked)) := by
    rw [hkey]
    rfl
  refine ⟨_, hpage, hrecords, rfl, ?_, fun next hnext => ?_⟩
  · rw [← hmore]
    change (if _ then _ else none) = none ↔ _
    split_ifs with hif
    · refine iff_of_false (fun hnone => ?_) (not_not.2 hif)
      -- a page with rows after it has a last row
      rw [Option.map_eq_none_iff, List.getLast?_eq_none_iff] at hnone
      have hlength := length_page_of_hasMore hif
      change (Keyset.page _ _ _ _).length = _ at hlength
      rw [show Keyset.page _ _ _ _ = [] from hnone] at hlength
      cases hlength
    · exact iff_of_true rfl hif
  · have hsort' : IsCursorSort (exportRequest query (asked + 1) none).sort := hsort
    obtain ⟨-, row, hrow, hposition⟩ := nextCursor_cursorPage hsort' hanswer.1 hnext
    refine ⟨_, hposition, ?_⟩
    have hne : (cursorPage (requests asked).1 (exportRequest query (asked + 1) none)
        (requests asked).2 position).records ≠ [] := fun hnil => by
      rw [hnil] at hrow
      cases hrow
    rw [lastKey_append_of_ne_nil hne, lastKey, hrow]
    rfl

/-- **Newest or oldest first.**  Every page keeps what the loop keeps, and the last one keeps
    the promise. -/
theorem cursorLoop_page {asked : ℕ} {cursor : Option Text} {records : List QueryLogRow}
    (h : CursorLoop query requests asked cursor records) (hsort : IsCursorSort query.sort)
    (hanswer : Answerable query (requests asked)) (hlimit : records.length < exportRecordLimit) :
    ∃ result, queryLogsAdvanced slowest (requests asked).1 (exportRequest query (asked + 1) cursor)
        (requests asked).2 = .ok result ∧
      (isLastPage cursor result (exportedWith records result).length ∨
          exportRecordLimit ≤ (exportedWith records result).length →
        ExportPromise speed query requests
          (collectedExport (exportedWith records result) result.total (asked + 1))) ∧
      (¬ isLastPage cursor result (exportedWith records result).length →
        CursorLoop query requests (asked + 1) (cursor.bind fun _ => result.nextCursor)
          (exportedWith records result)) := by
  have hslowest : query.sort ≠ "slowest".toList := by
    rcases hsort with h | h <;> rw [h] <;> decide
  obtain ⟨result, hresult, hrecords, htotal, hnone, hnext⟩ := exists_cursorPage h hsort hanswer
  have hlength : result.records.length ≤ exportPageSize := by
    rw [hrecords, Keyset.page, List.length_take]
    exact min_le_left _ _
  have hcollected := h.toCollected.append h.full (nodup_rowKey hanswer.1) hrecords
  obtain ⟨text, position, rfl, -⟩ := h.position
  refine ⟨result, hresult, ?_, ?_⟩
  · rw [exportedWith_eq h.full hlimit hlength]
    intro hend
    refine ⟨fun _ => ?_, fun hsteady x hx => ?_, fun hconstant => ?_⟩
    · refine hcollected.pairwise.imp fun hlt heq => ?_
      rw [heq] at hlt
      exact lt_irrefl _ hlt
    · by_cases hmem : x ∈ records ++ result.records
      · exact .inl hmem
      · refine .inr (decide_eq_true ?_)
        rw [htotal]
        exact hcollected.length_lt hslowest hsteady hx hmem
    · have hlater := hconstant asked (Nat.lt_succ_self _)
      have hall : (inOrder (rowKey query.sort) (foundAt query (requests 0))).length =
          (foundAt query (requests 0)).length := (perm_inOrder _).length_eq
      have hrows := hcollected.constant hconstant
      have hstop : (asked + 1) * exportPageSize <
          (inOrder (rowKey query.sort) (foundAt query (requests 0))).length →
            exportRecordLimit ≤ (records ++ result.records).length := by
        intro hmore
        -- the page is full and others follow, so that only the limit stops the loop
        have hfull := congrArg List.length hrows
        rw [List.length_take, Nat.min_eq_left hmore.le, List.length_append, h.full] at hfull
        refine hend.resolve_left fun hlast => ?_
        rw [isLastPage, Bool.or_eq_true, Bool.or_eq_true, decide_eq_true_iff, decide_eq_true_iff,
          htotal, hlater, ← hall, List.length_append, h.full] at hlast
        have hsucc := Nat.add_one_mul asked exportPageSize
        rcases hlast with (hshort | htotal) | hcursor
        · omega
        · omega
        · rw [Option.isSome_some, Bool.true_and, Option.isNone_iff_eq_none, hnone,
            hlater] at hcursor
          have hn : ((foundAt query (requests 0)).map (rowKey query.sort)).Nodup :=
            hlater ▸ nodup_rowKey hanswer.1
          have hrest := congrArg List.length (h.inOrder_rest h.full hn fun k hk =>
            hconstant k (Nat.lt_succ_of_lt hk))
          rw [(perm_inOrder _).length_eq, List.length_drop] at hrest
          refine hcursor ?_
          rw [HasMore, hrest]
          omega
      obtain ⟨htake, hiff⟩ := eq_take_limit hrows (h.full ▸ hlimit) hstop
      rw [hall] at hiff
      refine ⟨?_, ?_⟩
      · rw [orderRows, if_neg hslowest]
        exact htake
      · rw [← hiff, ← hlater, ← htotal]
        exact decide_eq_true_iff
  · rw [exportedWith_eq h.full hlimit hlength]
    intro hlast
    rw [isLastPage, Bool.or_eq_true, Bool.or_eq_true, decide_eq_true_iff, decide_eq_true_iff,
      Option.isSome_some, Bool.true_and, Option.isNone_iff_eq_none, not_or, not_or] at hlast
    obtain ⟨⟨hshort, -⟩, hcursor⟩ := hlast
    obtain ⟨next, hcursor⟩ := Option.ne_none_iff_exists'.1 hcursor
    obtain ⟨position', hparse, hkey⟩ := hnext next hcursor
    refine ⟨hcollected, ?_, next, position', hcursor, hparse, hkey⟩
    rw [List.length_append, h.full, Nat.le_antisymm hlength (Nat.le_of_not_lt hshort), Nat.succ_mul]

/-! ## By page numbers -/

/-- What the loop keeps while it counts the pages. -/
structure OffsetLoop (speed : QueryLogRow → κ) (query : QueryLogQuery)
    (requests : ℕ → Database × ℕ) (asked : ℕ) (cursor : Option Text)
    (records : List QueryLogRow) : Prop where
  cursor_eq : cursor = none
  full : records.length = asked * exportPageSize
  complete : Steady speed query requests → ∀ x, (∀ k ≤ asked, x ∈ foundAt query (requests k)) →
    x ∈ records ∨ asked * exportPageSize ≤
      Paging.numberBefore (slowKey speed) x (foundAt query (requests asked))
  constant : (∀ k < asked, foundAt query (requests k) = foundAt query (requests 0)) →
    records = (bySpeed speed (foundAt query (requests 0))).take (asked * exportPageSize)

theorem exists_offsetPage {asked : ℕ} (hsort : query.sort = "slowest".toList)
    (hanswer : Answerable query (requests asked)) (hasked : asked + 1 < 2 ^ 32) :
    ∃ result, queryLogsAdvanced (bySpeed speed) (requests asked).1
        (exportRequest query (asked + 1) none) (requests asked).2 = .ok result ∧
      result.records = ((bySpeed speed (foundAt query (requests asked))).drop
        (asked * exportPageSize)).take exportPageSize ∧
      result.total = (foundAt query (requests asked)).length ∧ result.nextCursor = none := by
  have hresult := @queryLogsAdvanced_offset (bySpeed speed) (requests asked).1
    (exportRequest query (asked + 1) none) (requests asked).2 hsort (fun rows => perm_inOrder rows)
    hanswer
  have hnumber : (exportRequest query (asked + 1) none).page.toNat = asked + 1 :=
    UInt32.toNat_ofNat_of_lt' hasked
  rw [hnumber, Nat.max_eq_left (Nat.le_add_left 1 asked), Nat.add_sub_cancel] at hresult
  exact ⟨_, hresult, rfl, rfl, rfl⟩

/-- **The slowest first.** -/
theorem offsetLoop_page {asked : ℕ} {cursor : Option Text} {records : List QueryLogRow}
    (h : OffsetLoop speed query requests asked cursor records)
    (hsort : query.sort = "slowest".toList) (hanswer : ∀ k, Answerable query (requests k))
    (hlimit : records.length < exportRecordLimit) :
    ∃ result, queryLogsAdvanced (bySpeed speed) (requests asked).1
        (exportRequest query (asked + 1) cursor) (requests asked).2 = .ok result ∧
      (isLastPage cursor result (exportedWith records result).length ∨
          exportRecordLimit ≤ (exportedWith records result).length →
        ExportPromise speed query requests
          (collectedExport (exportedWith records result) result.total (asked + 1))) ∧
      (¬ isLastPage cursor result (exportedWith records result).length →
        OffsetLoop speed query requests (asked + 1) (cursor.bind fun _ => result.nextCursor)
          (exportedWith records result)) := by
  obtain rfl := h.cursor_eq
  have hasked : asked + 1 < 2 ^ 32 := by
    have hfull := h.full
    simp only [exportPageSize, exportRecordLimit] at *
    omega
  obtain ⟨result, hresult, hrecords, htotal, hnone⟩ :=
    @exists_offsetPage κ _ speed query requests asked hsort (hanswer asked) hasked
  have hn : ((foundAt query (requests asked)).map (slowKey speed)).Nodup :=
    nodup_slowKey (hanswer asked).1
  have hall : ∀ k, (bySpeed speed (foundAt query (requests k))).length =
      (foundAt query (requests k)).length := fun k => length_bySpeed speed _
  have hlength : result.records.length =
      min exportPageSize ((foundAt query (requests asked)).length - asked * exportPageSize) := by
    rw [hrecords, List.length_take, List.length_drop, hall]
  have hfits : result.records.length ≤ exportPageSize := hlength ▸ min_le_left _ _
  have hsucc := Nat.add_one_mul asked exportPageSize
  have hrows : (records ++ result.records).length ≤ (asked + 1) * exportPageSize := by
    rw [List.length_append, h.full]
    omega
  -- a row that is always there is collected, or its place is on a later page
  have hcomplete : Steady speed query requests →
      ∀ x, (∀ k ≤ asked, x ∈ foundAt query (requests k)) → x ∈ records ++ result.records ∨
        (asked + 1) * exportPageSize ≤
          Paging.numberBefore (slowKey speed) x (foundAt query (requests asked)) := by
    intro hsteady x hx
    rcases h.complete hsteady x hx with hmem | hplace
    · exact .inl (List.mem_append_left _ hmem)
    · by_cases hlater : (asked + 1) * exportPageSize ≤
          Paging.numberBefore (slowKey speed) x (foundAt query (requests asked))
      · exact .inr hlater
      · refine .inl (List.mem_append_right _ ?_)
        rw [hrecords]
        exact Paging.mem_slice_of_le hn (hx asked (Nat.le_refl _)) hplace (by omega)
  have hconstant : (∀ k < asked + 1, foundAt query (requests k) = foundAt query (requests 0)) →
      records ++ result.records =
        (bySpeed speed (foundAt query (requests 0))).take ((asked + 1) * exportPageSize) := by
    intro hsame
    rw [hrecords, hsame asked (Nat.lt_succ_self _), hsucc, List.take_add,
      ← h.constant fun k hk => hsame k (Nat.lt_succ_of_lt hk)]
  refine ⟨result, hresult, ?_, ?_⟩
  · rw [exportedWith_eq h.full hlimit hfits]
    intro hend
    refine ⟨fun hcursor => ?_, fun hsteady x hx => ?_, fun hsame => ?_⟩
    · rw [IsCursorSort, hsort] at hcursor
      exact absurd hcursor (by decide)
    · rcases hcomplete hsteady x fun k hk => hx k (Nat.lt_succ_of_le hk) with hmem | hplace
      · exact .inl hmem
      · refine .inr (decide_eq_true ?_)
        have hlt := Paging.numberBefore_lt hn (hx asked (Nat.lt_succ_self _))
        rw [htotal]
        omega
    · have hlater := hsame asked (Nat.lt_succ_self _)
      have hstop : (asked + 1) * exportPageSize <
          (bySpeed speed (foundAt query (requests 0))).length →
            exportRecordLimit ≤ (records ++ result.records).length := by
        intro hmore
        refine hend.resolve_left fun hlast => ?_
        rw [isLastPage, Bool.or_eq_true, Bool.or_eq_true, decide_eq_true_iff, decide_eq_true_iff,
          htotal, hlater, ← hall, List.length_append, h.full, hlength, hlater, ← hall] at hlast
        rcases hlast with (hshort | htotal) | hcursor
        · omega
        · omega
        · cases hcursor
      obtain ⟨htake, hiff⟩ := eq_take_limit (hconstant hsame) (h.full ▸ hlimit) hstop
      rw [hall] at hiff
      refine ⟨?_, ?_⟩
      · rw [orderRows, if_pos hsort]
        exact htake
      · rw [← hiff, ← hlater, ← htotal]
        exact decide_eq_true_iff
  · rw [exportedWith_eq h.full hlimit hfits]
    intro hlast
    rw [isLastPage, Bool.or_eq_true, Bool.or_eq_true, decide_eq_true_iff, not_or, not_or] at hlast
    refine ⟨rfl, ?_, fun hsteady x hx => ?_, hconstant⟩
    · rw [List.length_append, h.full, hsucc]
      omega
    · rcases hcomplete hsteady x fun k hk => hx k (Nat.le_succ_of_le hk) with hmem | hplace
      · exact .inl hmem
      · -- the row does not move forward
        refine .inr (hplace.trans ?_)
        refine Paging.numberBefore_le (List.Nodup.of_map _ hn) ?_ (hx asked (Nat.le_succ _))
          (hx _ (Nat.le_refl _))
        intro y hy hy' r hr hlt
        refine hsteady asked y hy hy' r hr ?_
        rw [ShownBefore, if_pos hsort]
        exact hlt

end

/-! ## Whole exports -/

section
variable {κ : Type} [LinearOrder κ] {speed : QueryLogRow → κ} {query : QueryLogQuery}
  {requests : ℕ → Database × ℕ}

theorem baseWhere_of_le {row : QueryLogRow} {since since' : ℕ} (h : baseWhere row query since)
    (hle : since' ≤ row.timestamp) : baseWhere row query since' := by
  rw [baseWhere, decide_eq_true_iff] at h ⊢
  exact ⟨hle, h.2⟩

/-- **The newest first**: the rows that leave are the last ones. -/
theorem steady_newest (hsort : query.sort = "newest".toList) (hnumbered : Numbered (requests 0).1)
    (hmoves : ∀ k, Relation.ReflTransGen TableMove (requests k) (requests (k + 1))) :
    Steady speed query requests := by
  have hslowest : query.sort ≠ "slowest".toList := by rw [hsort]; decide
  have holdest : query.sort ≠ "oldest".toList := by rw [hsort]; decide
  have hnumbers : ∀ k, Numbered (requests k).1 := by
    intro k
    induction k with
    | zero => exact hnumbered
    | succ k ih => exact (moved_of_moves ih (hmoves k)).numbered
  intro k x hx hx' r hr hbefore
  have hmoved := moved_of_moves (hnumbers k) (hmoves k)
  rw [ShownBefore, if_neg hslowest, rowKey, rowKey, sortKey_lt_iff, if_neg holdest] at hbefore
  have hle : x.timestamp ≤ r.timestamp := by omega
  rw [foundAt, foundRows, List.mem_filter] at hx hx' hr ⊢
  refine ⟨hmoved.keeps x hx.1 hx'.1 r hr.1 hle, baseWhere_of_le hr.2 ?_⟩
  have hsince := hx'.2
  rw [baseWhere, decide_eq_true_iff] at hsince
  exact hsince.1.trans hle

theorem cursorLoop_start : CursorLoop query requests 0 (some []) [] where
  pairwise := .nil
  found := fun _ hr => by cases hr
  complete := fun _ _ => .inr fun _ hk => by cases hk
  constant := fun _ => by rw [Nat.zero_mul, List.take_zero]
  full := by rw [Nat.zero_mul, List.length_nil]
  position := ⟨[], none, rfl, rfl, rfl⟩

theorem offsetLoop_start : OffsetLoop speed query requests 0 none [] where
  cursor_eq := rfl
  full := by rw [Nat.zero_mul, List.length_nil]
  complete := fun _ _ _ => .inr (by rw [Nat.zero_mul]; exact Nat.zero_le _)
  constant := fun _ => by rw [Nat.zero_mul, List.take_zero]

/-- **The export of the query log**, while queries are logged and pruned.

    It ends.  By cursors no row is exported twice.  Where no matching row leaves before one
    that stays, a row that matches all the time is exported, or the export is reported as
    truncated; with the newest first this is always so.  Where the matching rows stay the same
    they are exported in their order up to the limit. -/
theorem export_complete (hsort : IsExportSort query.sort)
    (hanswer : ∀ k, Answerable query (requests k)) (hnumbered : Numbered (requests 0).1)
    (hmoves : ∀ k, Relation.ReflTransGen TableMove (requests k) (requests (k + 1))) :
    (∃ r, collectQueryLogExportRecords (bySpeed speed) query requests = .ok r ∧
      ExportPromise speed query requests r) ∧
    (query.sort = "newest".toList → Steady speed query requests) := by
  refine ⟨?_, fun hnewest => steady_newest hnewest hnumbered hmoves⟩
  have hlimit : ([] : List QueryLogRow).length < exportRecordLimit := by decide
  rw [collectQueryLogExportRecords]
  rcases hsort with hcursor | hslowest
  · have hsort : query.sort ≠ "slowest".toList := by
      rcases hcursor with h | h <;> rw [h] <;> decide
    rw [if_neg hsort]
    exact collectPages_rule (fun asked cursor records hlimit h =>
      cursorLoop_page h hcursor (hanswer asked) hlimit) cursorLoop_start hlimit
  · rw [if_pos hslowest]
    exact collectPages_rule (fun asked cursor records hlimit h =>
      offsetLoop_page h hslowest hanswer hlimit) offsetLoop_start hlimit

end

/-! ### Two hundred queries in a second -/

/-- Two hundred queries of second 1, and others of second 2. -/
def busyRow (i : ℕ) : QueryLogRow :=
  { sampleRow (i + 1) with timestamp := if i < 200 then 1 else 2 }

def busyRows : List QueryLogRow := (List.range 401).map busyRow

def busyDatabase : Database := { queryLogs := busyRows, queryLogsSequence := 401 }

/-- The last hour, which leaves second 1 behind after the first request. -/
def busyRequests (k : ℕ) : Database × ℕ := (busyDatabase, if k = 0 then 3601 else 3602)

def lastHour (sort : Text) : QueryLogQuery :=
  { failedQueries with retentionHours := 1, filter := "all".toList, sort }

theorem mem_busyRows {row : QueryLogRow} : row ∈ busyRows ↔ ∃ i < 401, busyRow i = row := by
  simp [busyRows]

theorem answerable_busyRequests (sort : Text) (k : ℕ) :
    Answerable (lastHour sort) (busyRequests k) := by
  have hstored : StoredQueryLogs busyDatabase := by
    refine ⟨fun row hrow => ?_, fun row hrow => ?_, fun row hrow => ?_, ?_⟩
    · obtain ⟨i, hi, rfl⟩ := mem_busyRows.1 hrow
      change i + 1 ≤ i64Max
      simp only [i64Max]
      omega
    · obtain ⟨i, hi, rfl⟩ := mem_busyRows.1 hrow
      change (if i < 200 then 1 else 2) ≤ i64Max
      split_ifs <;> decide
    · obtain ⟨i, hi, rfl⟩ := mem_busyRows.1 hrow
      intro ms hms
      cases hms
    · change (((List.range 401).map busyRow).map (·.id)).Nodup
      rw [List.map_map]
      exact List.nodup_range.map fun i j h => Nat.succ.inj h
  refine ⟨hstored, ?_⟩
  change (busyRequests k).2 - 1 * 3600 ≤ i64Max
  have hle : (busyRequests k).2 ≤ 3602 := by
    unfold busyRequests
    split_ifs <;> simp
  exact (Nat.sub_le _ _).trans (hle.trans (by decide))

theorem numbered_busyDatabase : Numbered busyDatabase := by
  intro row hrow
  obtain ⟨i, hi, rfl⟩ := mem_busyRows.1 hrow
  exact hi

theorem moves_busyRequests (k : ℕ) :
    Relation.ReflTransGen TableMove (busyRequests k) (busyRequests (k + 1)) := by
  cases k with
  | zero => exact .single (.later (by decide))
  | succ k => exact .refl

theorem export_complete_busyRequests :
    (∃ r, collectQueryLogExportRecords (bySpeed fun _ => 0) (lastHour "newest".toList)
        busyRequests = .ok r ∧
      ExportPromise (fun _ => 0) (lastHour "newest".toList) busyRequests r) ∧
    Steady (fun _ => 0) (lastHour "newest".toList) busyRequests := by
  have hsort : IsExportSort (lastHour "newest".toList).sort := .inl (.inl rfl)
  obtain ⟨hexport, hsteady⟩ := @export_complete ℕ _ (fun _ => 0) (lastHour "newest".toList)
    busyRequests hsort (answerable_busyRequests _) numbered_busyDatabase moves_busyRequests
  exact ⟨hexport, hsteady rfl⟩

theorem lastRow_found (k : ℕ) :
    busyRow 400 ∈ foundAt (lastHour "oldest".toList) (busyRequests k) := by
  have hmem : busyRow 400 ∈ busyRows := mem_busyRows.2 ⟨400, by decide, rfl⟩
  refine List.mem_filter.2 ⟨hmem, ?_⟩
  by_cases hk : k = 0
  · simp only [busyRequests, hk, if_true]
    decide
  · simp only [busyRequests, hk, if_false]
    decide

/-- **The oldest first**: the first page leaves the window, so that after the second one the
    export has more rows than match, and stops without the last row or a word of it. -/
theorem movedWindow_loses_row :
    IsExportSort (lastHour "oldest".toList).sort ∧
    (∀ k, Answerable (lastHour "oldest".toList) (busyRequests k)) ∧
    Numbered (busyRequests 0).1 ∧
    (∀ k, Relation.ReflTransGen TableMove (busyRequests k) (busyRequests (k + 1))) ∧
    (∀ k, busyRow 400 ∈ foundAt (lastHour "oldest".toList) (busyRequests k)) ∧
    ∃ r, collectQueryLogExportRecords (bySpeed fun _ => 0) (lastHour "oldest".toList)
        busyRequests = .ok r ∧
      busyRow 400 ∉ r.records ∧ r.truncated = false := by
  have hcursor : IsCursorSort (lastHour "oldest".toList).sort := .inr rfl
  have hanswer := answerable_busyRequests "oldest".toList
  refine ⟨.inl hcursor, hanswer, numbered_busyDatabase, moves_busyRequests, lastRow_found, ?_⟩
  have hlimit : ([] : List QueryLogRow).length < exportRecordLimit := by decide
  obtain ⟨first, hfirst, -, hnext⟩ := @cursorLoop_page ℕ _ (fun _ => 0) _ _
    (bySpeed fun _ => 0) 0 _ _ cursorLoop_start hcursor (hanswer 0) hlimit
  obtain ⟨first', hfirst', hrecords, htotal, hnone, -⟩ := @exists_cursorPage _ _
    (bySpeed fun _ => (0 : ℕ)) 0 _ _ cursorLoop_start hcursor (hanswer 0)
  cases hfirst.symm.trans hfirst'
  have hrows : exportedWith [] first = busyRows.take 200 := by
    rw [exportedWith, hrecords]
    decide +kernel
  have hcount : (foundAt (lastHour "oldest".toList) (busyRequests 0)).length = 401 := by
    decide +kernel
  have hlast : ¬ isLastPage (some []) first (exportedWith [] first).length := by
    have hmore : HasMore (rowKey "oldest".toList) exportPageSize (lastKey "oldest".toList [])
        (foundAt (lastHour "oldest".toList) (busyRequests 0)) := by
      decide +kernel
    have hnext : first.nextCursor ≠ none := fun h => hnone.1 h hmore
    have hlength : first.records.length = exportPageSize :=
      hrecords ▸ length_page_of_hasMore hmore
    rw [hrows, isLastPage, hlength, htotal, hcount]
    simp [hnext, busyRows]
  have hloop := hnext hlast
  rw [hrows] at hloop
  have hlimit' : (busyRows.take 200).length < exportRecordLimit := by
    simp [busyRows, exportRecordLimit]
  obtain ⟨second, hsecond, hrecords', htotal', -⟩ := @exists_cursorPage _ _
    (bySpeed fun _ => (0 : ℕ)) 1 _ _ hloop hcursor (hanswer 1)
  have hrows' : exportedWith (busyRows.take 200) second = busyRows.take 400 := by
    rw [exportedWith, hrecords']
    decide +kernel
  have hcount' : (foundAt (lastHour "oldest".toList) (busyRequests 1)).length = 201 := by
    decide +kernel
  rw [hcount'] at htotal'
  have hlast' : isLastPage ((some ([] : Text)).bind fun _ => first.nextCursor) second
      (exportedWith (busyRows.take 200) second).length := by
    rw [hrows', isLastPage, htotal']
    simp [busyRows]
  have hsort : (lastHour "oldest".toList).sort ≠ "slowest".toList := by decide
  refine ⟨collectedExport (exportedWith (busyRows.take 200) second) second.total 2, ?_, ?_, ?_⟩
  · rw [collectQueryLogExportRecords, if_neg hsort, collectPages_next hlimit hfirst hlast, hrows]
    exact collectPages_last hlimit' hsecond hlast'
  · have hout : busyRow 400 ∉ busyRows.take 400 := by decide +kernel
    rw [collectedExport, hrows']
    exact hout
  · rw [collectedExport, hrows', htotal']
    simp [busyRows]

end DnsBlackhole.Database
