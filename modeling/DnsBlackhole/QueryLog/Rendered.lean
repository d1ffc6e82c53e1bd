/-
  What a browser makes of the rows of the query log (`query-log-render.ts`).

  * `complete_queryLogRow`: a row is read to its end, and everything that is put in is
    text or part of the value of an attribute;
  * `skeleton_queryLogRow`: the layout of a record decides what is written in its row;
  * `renderQueryLogRow_safe`: records with the same layout have the same tags.
-/
import DnsBlackhole.QueryLog.Render

namespace DnsBlackhole.QueryLog
open Lib.Html

/-! ## Texts that are put in as they are -/

theorem markup_ofList (cs : List Char) : markup (String.ofList cs) = .markup cs :=
  congrArg Part.markup String.toList_ofList

theorem plain_append {a b : Text} (ha : Plain a) (hb : Plain b) : Plain (a ++ b) :=
  List.forall_mem_append.2 ⟨ha, hb⟩

theorem mem_of_mem_splitOn {separator t part : Text} (h : part ∈ Form.splitOn separator t) :
    ∀ c ∈ part, c ∈ t := by
  have hsteps : ∀ fuel {t : Text}, part ∈ Form.splitSteps separator fuel t → ∀ c ∈ part, c ∈ t := by
    intro fuel
    induction fuel with
    | zero =>
      intro t h c hc
      cases List.mem_singleton.1 h
      exact hc
    | succ fuel ih =>
      intro t h c hc
      rw [Form.splitSteps] at h
      split at h
      · next first rest hsplit =>
        rw [Text.splitOnceAt_eq_some hsplit]
        rcases List.mem_cons.1 h with rfl | h
        · exact List.mem_append_left _ (List.mem_append_left _ hc)
        · exact List.mem_append_right _ (ih h c hc)
      · cases List.mem_singleton.1 h
        exact hc
  exact hsteps _ h

theorem plain_join {parts : List Text} {separator : Text} (h : ∀ part ∈ parts, Plain part)
    (hs : Plain separator) : Plain (Text.join parts separator) := by
  induction parts with
  | nil => exact fun c hc => absurd hc List.not_mem_nil
  | cons part parts ih =>
    obtain ⟨hpart, hparts⟩ := List.forall_mem_cons.1 h
    cases parts with
    | nil =>
      simp only [Text.join, List.intercalate_singleton]
      exact hpart
    | cons next parts =>
      have hjoin : Text.join (part :: next :: parts) separator =
          part ++ (separator ++ Text.join (next :: parts) separator) := by
        simp [Text.join, List.intercalate]
      rw [hjoin]
      exact plain_append hpart (plain_append hs (ih hparts))

section
variable {ν : Type*} (dictionary : Dictionary) (formats : Formats ν)

theorem plain_tr {text : String} (h : text.toList ∈ unescapedTexts) :
    Plain (tr dictionary text) := dictionary.plain _ h

theorem plain_tr₁ {t : String} (h : t.toList ∈ unescapedTexts) {p0 : Text}
    (hp : Plain p0) : Plain (tr₁ dictionary t p0) := by
  refine plain_join (fun part hpart c hc => ?_) hp
  exact dictionary.plain _ h c (mem_of_mem_splitOn hpart c hc)

theorem plain_queryLogStatus (record : QueryLogRecord ν) :
    Plain (queryLogStatus dictionary formats record).1 ∧
      Plain (queryLogStatus dictionary formats record).2 := by
  unfold queryLogStatus
  split_ifs
  · exact ⟨plain_tr dictionary (by decide), (by decide : Plain "failed".toList)⟩
  · exact ⟨plain_tr dictionary (by decide), (by decide : Plain "blocked".toList)⟩
  · exact ⟨plain_tr dictionary (by decide), (by decide : Plain "refused".toList)⟩
  · exact ⟨plain_tr dictionary (by decide), (by decide : Plain "processed".toList)⟩

theorem plain_durationText (record : QueryLogRecord ν) :
    Plain (durationText dictionary formats record) := by
  unfold durationText
  cases record.processingDurationMs.or record.upstreamDurationMs with
  | none => exact fun c hc => absurd hc List.not_mem_nil
  | some duration => exact plain_tr₁ dictionary (by decide) (formats.plain_elapsed duration)

/-! ## The pieces are complete -/

@[simp] theorem isPlain_markup (text : String) : (markup text).IsPlain := trivial

@[simp] theorem isPlain_value (text : Text) : (Part.value text).IsPlain := trivial

@[simp] theorem isPlain_plain {text : Text} : (Part.plain text).IsPlain ↔ Plain text := Iff.rfl

/-- The pieces that are written between tags, without the texts that are put in. -/
def blankPieces : List (List Part) :=
  [renderLogEyeIcon [], renderLogQuestionIcon, renderDetailRow ([], []), renderPopoverStart [] [],
    [markup "\n      </dl>\n      "], [markup "\n    </div>\n  "], renderAnswerRow [] [] [],
    renderParagraph [], renderAnswersStart [], [markup "\n      </div>\n      "],
    [markup "\n    </section>\n  "], strong [], [markup "<span>", .value [], markup "</span>"],
    renderRowStart [] [] [] [], [markup "\n          </button>\n          "],
    renderRowRequest [] [] [] [] [], renderDetailsButton [],
    [markup "\n            </button>\n            "], renderRowResponse [] [] [],
    [markup "<small>", .plain [], markup "</small>"],
    [markup "\n          </div>\n        </div>\n      </div>\n      ",
      markup "<div class=\"log-client\" role=\"cell\">\n        "],
    [markup "\n      </div>\n    </div>\n  "]]

theorem read_blankPieces : ∀ piece ∈ blankPieces, (∀ part ∈ piece, part.IsPlain) ∧
    (readTemplate {} piece).map (fun result => result.1.skeleton) = some {} := by
  simp only [blankPieces, renderLogEyeIcon, renderLogQuestionIcon, renderDetailRow,
    renderPopoverStart, renderAnswerRow, renderParagraph, renderAnswersStart, strong,
    renderRowStart, renderRowRequest, renderDetailsButton, renderRowResponse]
  -- the kernel does not read the literals
  repeat rw [markup_ofList]
  decide +kernel

theorem complete_piece {b : List Part} (hblank : b ∈ blankPieces) {piece : List Part}
    (h : piece.map Part.skeleton = b.map Part.skeleton)
    (hp : ∀ part ∈ piece, part.IsPlain) : Complete piece := by
  obtain ⟨hplain, hread⟩ := read_blankPieces b hblank
  exact .of_skeleton h hp hplain hread

theorem complete_blank {blank : List Part} (hblank : blank ∈ blankPieces) : Complete blank :=
  complete_piece hblank rfl (read_blankPieces blank hblank).1

theorem complete_renderLogEyeIcon {className : Text} (h : Plain className) :
    Complete (renderLogEyeIcon className) :=
  complete_piece (b := renderLogEyeIcon []) (by simp [blankPieces]) rfl
    (by simp [renderLogEyeIcon, h])

theorem complete_renderDetailRow (row : Text × Text) : Complete (renderDetailRow row) :=
  complete_piece (b := renderDetailRow ([], [])) (by simp [blankPieces]) rfl
    (by simp [renderDetailRow])

theorem complete_renderPopoverStart {popoverClass : Text} (h : Plain popoverClass)
    (title : Text) : Complete (renderPopoverStart popoverClass title) :=
  complete_piece (b := renderPopoverStart [] []) (by simp [blankPieces]) rfl
    (by simp [renderPopoverStart, h])

theorem complete_renderLogDetailPopover (title : Text) (rows : List (Text × Text))
    {extraContent : List Part} (h : Complete extraContent) :
    Complete (renderLogDetailPopover title rows extraContent) := by
  have hclass : Plain (if print extraContent = [] then [] else " log-response-popover".toList) := by
    split_ifs <;> decide
  refine ((((complete_renderPopoverStart hclass title).append
    (.flatMap fun row _ => complete_renderDetailRow row)).append ?_).append h).append ?_
  · exact complete_blank (by simp [blankPieces])
  · exact complete_blank (by simp [blankPieces])

theorem complete_renderAnswer (answer : QueryLogResponseAnswer) :
    Complete (renderAnswer dictionary formats answer) := by
  have hplain := plain_tr₁ dictionary (t := "TTL {p0} 秒") (by decide)
    (formats.plain_formatCount answer.ttl)
  exact complete_piece (b := renderAnswerRow [] [] []) (by simp [blankPieces]) rfl
    (by simp [renderAnswer, renderAnswerRow, hplain])

theorem complete_renderParagraph {text : Text} (h : Plain text) :
    Complete (renderParagraph text) :=
  complete_piece (b := renderParagraph []) (by simp [blankPieces]) rfl
    (by simp [renderParagraph, h])

theorem complete_renderAnswersStart {heading : Text} (h : Plain heading) :
    Complete (renderAnswersStart heading) :=
  complete_piece (b := renderAnswersStart []) (by simp [blankPieces]) rfl
    (by simp [renderAnswersStart, h])

theorem complete_ite {condition : Prop} [Decidable condition] {as bs : List Part}
    (ha : Complete as) (hb : Complete bs) : Complete (if condition then as else bs) := by
  split_ifs
  · exact ha
  · exact hb

theorem complete_renderQueryLogResponseAnswers (record : QueryLogRecord ν) :
    Complete (renderQueryLogResponseAnswers dictionary formats record) := by
  unfold renderQueryLogResponseAnswers
  cases record.response with
  | none => exact .nil
  | some response =>
    refine complete_ite .nil ?_
    refine ((((complete_renderAnswersStart (plain_tr dictionary (by decide))).append
      (complete_ite ?_ ?_)).append ?_).append (complete_ite ?_ .nil)).append ?_
    · exact complete_renderParagraph (plain_tr dictionary (by decide))
    · exact .flatMap fun answer _ => complete_renderAnswer dictionary formats answer
    · exact complete_blank (by simp [blankPieces])
    · exact complete_renderParagraph
        (plain_tr₁ dictionary (by decide) (formats.plain_formatCount _))
    · exact complete_blank (by simp [blankPieces])

theorem complete_strong (text : Text) : Complete (strong text) :=
  complete_piece (b := strong []) (by simp [blankPieces]) rfl (by simp [strong])

theorem complete_renderClientCell (ip : Option Text)
    (clientDisplayName : Option Text → Option Text) :
    Complete (renderClientCell dictionary ip clientDisplayName) := by
  unfold renderClientCell
  cases truthy ip with
  | none => exact complete_strong _
  | some ip =>
    dsimp only
    cases clientLabel ip (clientDisplayName _) with
    | none => exact complete_strong _
    | some label =>
      refine (complete_strong label).append (complete_piece
        (b := [markup "<span>", .value [], markup "</span>"]) ?_ rfl ?_)
      · simp [blankPieces]
      · simp

theorem complete_renderRowStart {rowClass detailsLabel : Text} (hclass : Plain rowClass)
    (hlabel : Plain detailsLabel) (time date : Text) :
    Complete (renderRowStart rowClass time date detailsLabel) :=
  complete_piece (b := renderRowStart [] [] [] []) (by simp [blankPieces]) rfl
    (by simp [renderRowStart, hclass, hlabel])

theorem complete_renderRowRequest {action actionLabel rewriteLabel : Text} (haction : Plain action)
    (hlabel : Plain actionLabel) (hrewrite : Plain rewriteLabel) (domain requestMeta : Text) :
    Complete (renderRowRequest domain requestMeta action actionLabel rewriteLabel) :=
  complete_piece (b := renderRowRequest [] [] [] [] []) (by simp [blankPieces]) rfl
    (by simp [renderRowRequest, haction, hlabel, hrewrite])

theorem complete_renderDetailsButton {detailsLabel : Text} (h : Plain detailsLabel) :
    Complete (renderDetailsButton detailsLabel) :=
  complete_piece (b := renderDetailsButton []) (by simp [blankPieces]) rfl
    (by simp [renderDetailsButton, h])

theorem complete_renderRowResponse {className statusLabel : Text} (hclass : Plain className)
    (hlabel : Plain statusLabel) (detail : Text) :
    Complete (renderRowResponse className statusLabel detail) :=
  complete_piece (b := renderRowResponse [] [] []) (by simp [blankPieces]) rfl
    (by simp [renderRowResponse, hclass, hlabel])

theorem complete_renderDuration {duration : Text} (h : Plain duration) :
    Complete (renderDuration duration) := by
  refine complete_ite .nil (complete_piece
    (b := [markup "<small>", .plain [], markup "</small>"]) ?_ rfl ?_)
  · simp [blankPieces]
  · simp [h]

theorem complete_queryLogRowStart (record : QueryLogRecord ν) (options : QueryLogRenderOptions) :
    Complete (queryLogRowStart dictionary formats record options) := by
  obtain ⟨hlabel, hclass⟩ := plain_queryLogStatus dictionary formats record
  have hrow : Plain (if record.failed then " failed".toList
      else if record.blocked then " blocked".toList else []) := by
    split_ifs <;> decide
  have haction : Plain (if record.blocked then "allow".toList else "block".toList) := by
    split_ifs <;> decide
  have hactionLabel : Plain (if record.blocked then tr dictionary "放行"
      else tr dictionary "拦截") := by
    split_ifs
    · exact plain_tr dictionary (by decide)
    · exact plain_tr dictionary (by decide)
  refine ((((((((((((complete_renderRowStart hrow (plain_tr dictionary (by decide)) _ _).append
    (complete_renderLogEyeIcon hclass)).append ?_).append
    (complete_renderLogDetailPopover _ _ .nil)).append
    (complete_renderRowRequest haction hactionLabel (plain_tr dictionary (by decide)) _ _)).append
    (complete_renderDetailsButton (plain_tr dictionary (by decide)))).append ?_).append ?_).append
    (complete_renderLogDetailPopover _ _
      (complete_renderQueryLogResponseAnswers dictionary formats record))).append
    (complete_renderRowResponse hclass hlabel _)).append
    (complete_renderDuration (plain_durationText dictionary formats record))).append ?_)
  · exact complete_blank (by simp [blankPieces])
  · exact complete_blank (by simp [blankPieces])
  · exact complete_blank (by simp [blankPieces])
  · exact complete_blank (by simp [blankPieces])

/-- **A row is read to its end**, with the texts of its record where they are put in. -/
theorem complete_queryLogRow (record : QueryLogRecord ν) (options : QueryLogRenderOptions) :
    Complete (queryLogRow dictionary formats record options) := by
  refine ((complete_queryLogRowStart dictionary formats record options).append
    (complete_renderClientCell dictionary _ _)).append ?_
  exact complete_blank (by simp [blankPieces])

/-! ## The layout of a row -/

/-- Whether a text is empty. -/
def mark (text : Text) : Text := if text = [] then [] else ['x']

/-- A record without its texts: the flags, the numbers, which fields and how many answers
    there are, and which of three texts are empty. -/
def QueryLogRecord.layout (record : QueryLogRecord ν) : QueryLogRecord ν :=
  { record with
    domain := []
    response := record.response.map fun response =>
      { response with answers := response.answers.map fun answer => { answer with value := [] } }
    clientIp := record.clientIp.map mark
    upstreamServer := record.upstreamServer.map mark
    error := record.error.map mark
    matchedRule := record.matchedRule.map fun _ => []
    ruleSource := record.ruleSource.map fun _ => []
    ruleType := record.ruleType.map fun _ => []
    allowlistRule := record.allowlistRule.map fun _ => [] }

/-- The records differ in their texts only, and both clients have a name that is shown, or
    neither. -/
structure SameLayout (record record' : QueryLogRecord ν)
    (options options' : QueryLogRenderOptions) : Prop where
  layout : record.layout = record'.layout
  name : (options.clientDisplayName record.clientIp).map mark =
    (options'.clientDisplayName record'.clientIp).map mark
  named : options.clientDisplayName record.clientIp = record.clientIp ↔
    options'.clientDisplayName record'.clientIp = record'.clientIp

theorem mark_eq_nil {text : Text} : mark text = [] ↔ text = [] := by
  unfold mark
  split_ifs with h
  · exact iff_of_true rfl h
  · exact iff_of_false nofun h

theorem truthy_isSome_congr {a b : Option Text} (h : a.map mark = b.map mark) :
    (truthy a).isSome = (truthy b).isSome := by
  have hmark : ∀ c : Option Text, (truthy c).isSome = (truthy (c.map mark)).isSome := by
    intro c
    cases c with
    | none => rfl
    | some text => simp [truthy, mark_eq_nil, Option.filter_some, apply_ite Option.isSome]
  rw [hmark, hmark b, h]

theorem skeleton_flatMap {α : Type*} {f : α → List Part} {g : α → List Part}
    (hf : ∀ x y, (f x).map Part.skeleton = (g y).map Part.skeleton) :
    ∀ {xs ys : List α}, xs.length = ys.length →
      (xs.flatMap f).map Part.skeleton = (ys.flatMap g).map Part.skeleton
  | [], [], _ => rfl
  | x :: xs, y :: ys, h => by
    rw [List.flatMap_cons, List.flatMap_cons, List.map_append, List.map_append, hf x y,
      skeleton_flatMap hf (Nat.succ.inj h)]

theorem skeleton_renderLogDetailPopover {title title' : Text} {rows rows' : List (Text × Text)}
    {extra extra' : List Part} (hrows : rows.length = rows'.length)
    (hextra : extra.map Part.skeleton = extra'.map Part.skeleton) :
    (renderLogDetailPopover title rows extra).map Part.skeleton =
      (renderLogDetailPopover title' rows' extra').map Part.skeleton := by
  have hflat := skeleton_flatMap (f := renderDetailRow) (g := renderDetailRow)
    (fun _ _ => rfl) hrows
  simp only [renderLogDetailPopover, List.map_append, hflat, hextra]
  rfl

/-! ### The parts of a layout -/

section
variable {record record' : QueryLogRecord ν}

theorem blocked_congr (h : record.layout = record'.layout) :
    record.blocked = record'.blocked := by
  show record.layout.blocked = record'.layout.blocked
  rw [h]

theorem upstreamDurationMs_congr (h : record.layout = record'.layout) :
    record.upstreamDurationMs = record'.upstreamDurationMs := by
  show record.layout.upstreamDurationMs = record'.layout.upstreamDurationMs
  rw [h]

theorem processingDurationMs_congr (h : record.layout = record'.layout) :
    record.processingDurationMs = record'.processingDurationMs := by
  show record.layout.processingDurationMs = record'.layout.processingDurationMs
  rw [h]

theorem upstreamServer_congr (h : record.layout = record'.layout) :
    (truthy record.upstreamServer).isSome = (truthy record'.upstreamServer).isSome := by
  refine truthy_isSome_congr ?_
  show record.layout.upstreamServer = record'.layout.upstreamServer
  rw [h]

theorem error_congr (h : record.layout = record'.layout) :
    (truthy record.error).isSome = (truthy record'.error).isSome := by
  refine truthy_isSome_congr ?_
  show record.layout.error = record'.layout.error
  rw [h]

theorem response_congr (h : record.layout = record'.layout) :
    (record.response = none ∧ record'.response = none) ∨ ∃ response response',
      record.response = some response ∧ record'.response = some response' ∧
      response.answerCount = response'.answerCount ∧ response.truncated = response'.truncated ∧
      response.answers.length = response'.answers.length := by
  have hresponse : record.layout.response = record'.layout.response := by rw [h]
  unfold QueryLogRecord.layout at hresponse
  cases hr : record.response with
  | none =>
    rw [hr] at hresponse
    exact .inl ⟨rfl, Option.map_eq_none_iff.1 hresponse.symm⟩
  | some response =>
    rw [hr] at hresponse
    obtain ⟨response', hr', heq⟩ := Option.map_eq_some_iff.1 hresponse.symm
    obtain ⟨-, hcount, hanswers, htruncated⟩ := QueryLogResponseSummary.mk.inj heq
    have hlength := congrArg List.length hanswers
    simp only [List.length_map] at hlength
    exact .inr ⟨response, response', rfl, hr', hcount.symm, htruncated.symm, hlength.symm⟩

theorem length_toList_map {α β : Type*} (a : Option α) (f : α → β) :
    (a.map f).toList.length = if a.isSome then 1 else 0 := by
  cases a <;> rfl

theorem length_ite {α : Type*} {condition : Prop} [Decidable condition] (as bs : List α) :
    (if condition then as else bs).length = if condition then as.length else bs.length := by
  split_ifs <;> rfl

theorem length_responseDetailRows (h : record.layout = record'.layout)
    (statusLabel statusLabel' : Text) (filterNames filterNames' : Text → Option Text) :
    (responseDetailRows dictionary formats record statusLabel filterNames).length =
      (responseDetailRows dictionary formats record' statusLabel' filterNames').length := by
  unfold responseDetailRows
  simp only [List.length_append, length_toList_map, length_ite]
  rw [upstreamServer_congr h, error_congr h, upstreamDurationMs_congr h,
    processingDurationMs_congr h, blocked_congr h]
  rcases response_congr h with ⟨hr, hr'⟩ | ⟨response, response', hr, hr', -, htruncated, -⟩
  · rw [hr, hr']
    rfl
  · rw [hr, hr', Option.map_some, Option.map_some, htruncated]
    rfl

theorem print_renderAnswers_eq_nil {answers : List QueryLogResponseAnswer} :
    print (answers.flatMap (renderAnswer dictionary formats)) = [] ↔ answers.length = 0 := by
  cases answers with
  | nil => exact iff_of_true rfl rfl
  | cons answer answers =>
    refine iff_of_false ?_ (Nat.succ_ne_zero _)
    simp [print, renderAnswer, renderAnswerRow, markup, Part.print]

theorem skeleton_renderQueryLogResponseAnswers (h : record.layout = record'.layout) :
    (renderQueryLogResponseAnswers dictionary formats record).map Part.skeleton =
      (renderQueryLogResponseAnswers dictionary formats record').map Part.skeleton := by
  unfold renderQueryLogResponseAnswers
  rcases response_congr h with ⟨hr, hr'⟩ | ⟨response, response', hr, hr', hcount, -, hlength⟩
  · rw [hr, hr']
  · rw [hr, hr']
    dsimp only
    have hanswers : (response.answers.flatMap (renderAnswer dictionary formats)).map
        Part.skeleton = (response'.answers.flatMap (renderAnswer dictionary formats)).map
          Part.skeleton := skeleton_flatMap (f := renderAnswer dictionary formats)
            (g := renderAnswer dictionary formats) (fun _ _ => rfl) hlength
    rw [hcount, hlength]
    simp only [print_renderAnswers_eq_nil, hlength]
    split_ifs
    · rfl
    all_goals simp only [List.map_append, hanswers]

theorem clientLabel_isSome {ip : Text} {name : Option Text} :
    (clientLabel ip name).isSome ↔ (truthy name).isSome ∧ name ≠ some ip := by
  unfold clientLabel truthy
  cases name with
  | none => simp
  | some text =>
    by_cases htext : text = []
    · simp [htext]
    · by_cases hip : text = ip
      · subst hip
        simp [htext]
      · simp [Option.filter_some, htext, hip]

theorem skeleton_renderClientCell {options options' : QueryLogRenderOptions}
    (h : SameLayout record record' options options') :
    (renderClientCell dictionary record.clientIp options.clientDisplayName).map Part.skeleton =
      (renderClientCell dictionary record'.clientIp options'.clientDisplayName).map
        Part.skeleton := by
  have hip : (truthy record.clientIp).isSome = (truthy record'.clientIp).isSome := by
    refine truthy_isSome_congr ?_
    show record.layout.clientIp = record'.layout.clientIp
    rw [h.layout]
  unfold renderClientCell
  cases hfirst : truthy record.clientIp with
  | none =>
    rw [hfirst] at hip
    rw [Option.isSome_eq_false_iff.1 hip.symm |> Option.isNone_iff_eq_none.1]
    rfl
  | some ip =>
    rw [hfirst] at hip
    obtain ⟨ip', hsecond⟩ := Option.isSome_iff_exists.1 hip.symm
    have hfirst' := (Option.filter_eq_some_iff.1 hfirst).1
    have hsecond' := (Option.filter_eq_some_iff.1 hsecond).1
    have hlabel : (clientLabel ip (options.clientDisplayName record.clientIp)).isSome ↔
        (clientLabel ip' (options'.clientDisplayName record'.clientIp)).isSome := by
      rw [clientLabel_isSome, clientLabel_isSome, truthy_isSome_congr h.name, ← hfirst',
        ← hsecond']
      exact and_congr_right fun _ => not_congr h.named
    rw [hsecond]
    dsimp only
    cases hname : clientLabel ip (options.clientDisplayName record.clientIp) with
    | none =>
      rw [hname] at hlabel
      rw [Option.not_isSome_iff_eq_none.1 fun hsome => Bool.false_ne_true (hlabel.2 hsome)]
      rfl
    | some label =>
      rw [hname] at hlabel
      obtain ⟨label', hname'⟩ := Option.isSome_iff_exists.1 (hlabel.1 rfl)
      rw [hname']
      rfl

theorem durationText_congr (h : record.layout = record'.layout) :
    durationText dictionary formats record = durationText dictionary formats record' := by
  unfold durationText
  rw [processingDurationMs_congr h, upstreamDurationMs_congr h]

end

/-- **The layout decides what is written in a row.** -/
theorem skeleton_queryLogRow {record record' : QueryLogRecord ν}
    {options options' : QueryLogRenderOptions} (h : SameLayout record record' options options') :
    (queryLogRow dictionary formats record options).map Part.skeleton =
      (queryLogRow dictionary formats record' options').map Part.skeleton := by
  have hrequest : (renderQueryLogRequestDetail dictionary formats record
      options.formatClientLabel).map Part.skeleton = (renderQueryLogRequestDetail dictionary
        formats record' options'.formatClientLabel).map Part.skeleton :=
    skeleton_renderLogDetailPopover rfl rfl
  have hresponse : ∀ label label', (renderQueryLogResponseDetail dictionary formats record label
      options.filterNames).map Part.skeleton = (renderQueryLogResponseDetail dictionary formats
        record' label' options'.filterNames).map Part.skeleton := fun label label' =>
    skeleton_renderLogDetailPopover
      (length_responseDetailRows dictionary formats h.layout _ _ _ _)
      (skeleton_renderQueryLogResponseAnswers dictionary formats h.layout)
  simp only [queryLogRow, queryLogRowStart, List.map_append, hrequest, skeleton_renderClientCell dictionary h,
    durationText_congr dictionary formats h.layout]
  rw [hresponse]
  rfl

/-- **Log rendering cannot be injected into**: the rows of two records with the same layout
    are read to their ends and have the same tags, and every text that is put in escaped is
    found, as it was, in a text or in the value of an attribute. -/
theorem renderQueryLogRow_safe {record record' : QueryLogRecord ν}
    {options options' : QueryLogRenderOptions} (h : SameLayout record record' options options')
    (hdate : record.timestamp ≤ maxDateSecond) :
    ∃ html html' tokens tokens',
      renderQueryLogRow dictionary formats record options = .ok html ∧
      renderQueryLogRow dictionary formats record' options' = .ok html' ∧
      read html = some tokens ∧ read html' = some tokens' ∧ tags tokens = tags tokens' ∧
      (readTemplate {} (queryLogRow dictionary formats record options)).map Prod.snd =
        some tokens ∧
      ∀ value, .value value ∈ queryLogRow dictionary formats record options →
        Shown value tokens := by
  have hdate' : record'.timestamp ≤ maxDateSecond := by
    show record'.layout.timestamp ≤ maxDateSecond
    rw [← h.layout]
    exact hdate
  obtain ⟨result, hresult, hreader, hread⟩ :=
    (complete_queryLogRow dictionary formats record options).read
  obtain ⟨result', hresult', -, hread'⟩ :=
    (complete_queryLogRow dictionary formats record' options').read
  refine ⟨_, _, result.2, result'.2, if_neg (not_lt.2 hdate), if_neg (not_lt.2 hdate'), hread,
    hread', ?_, ?_, fun value hvalue => ?_⟩
  · exact tags_eq_of_skeleton_eq (skeleton_queryLogRow dictionary formats h) hresult hresult'
  · rw [hresult]
    rfl
  · exact shown_of_mem hresult (congrArg Reader.mode hreader) hvalue

end

/-! ## Names that are addresses -/

theorem plain_numberText (n : ℕ) : Plain (numberText n) := by
  intro c hc
  have hdigit := Text.isDigit_of_mem_toDigits hc
  refine ⟨?_, ?_, ?_⟩
  all_goals
    rintro rfl
    exact Bool.false_ne_true hdigit

/-- Durations in whole milliseconds. -/
def wholeFormats : Formats ℕ where
  formatCount := numberText
  elapsed := numberText
  isZero duration := duration == 0
  formatLogTime := numberText
  formatLogDate := numberText
  plain_formatCount := plain_numberText
  plain_elapsed := plain_numberText

def sampleRecord : QueryLogRecord ℕ where
  timestamp := 1700000000
  domain := "<b>.example".toList
  queryType := some 1
  queryClass := some 1
  transport := some .udp
  responseSource := some .cache
  response := none
  clientIp := some "10.0.0.7".toList
  blocked := false
  failed := false
  upstreamServer := none
  upstreamDurationMs := none
  processingDurationMs := some 1
  error := none
  matchedRule := none
  ruleSource := none
  ruleType := none
  importantOverrode := false
  allowlistRule := none

/-- All clients have this name. -/
def namedAs (name : String) : QueryLogRenderOptions where
  clientDisplayName _ := some name.toList
  formatClientLabel _ := []
  filterNames _ := none

/-- The markup of two names for one client. -/
theorem renderQueryLogRow_safe_sample : ∃ html html' tokens tokens',
    renderQueryLogRow chinese wholeFormats sampleRecord (namedAs "<i>") = .ok html ∧
    renderQueryLogRow chinese wholeFormats sampleRecord (namedAs "a&b") = .ok html' ∧
    read html = some tokens ∧ read html' = some tokens' ∧ tags tokens = tags tokens' := by
  have hlayout : SameLayout sampleRecord sampleRecord (namedAs "<i>") (namedAs "a&b") :=
    ⟨rfl, by decide, by decide⟩
  obtain ⟨html, html', tokens, tokens', h, h', hread, hread', htags, -⟩ :=
    renderQueryLogRow_safe chinese wholeFormats hlayout (by decide)
  exact ⟨html, html', tokens, tokens', h, h', hread, hread', htags⟩

/-- What is the same in records that have the same fields, whatever the texts are. -/
def QueryLogRecord.presence {ν : Type*} (record : QueryLogRecord ν) : QueryLogRecord ν :=
  { record.layout with
    clientIp := record.clientIp.map fun _ => []
    upstreamServer := record.upstreamServer.map fun _ => []
    error := record.error.map fun _ => [] }

theorem tagsOf_queryLogRow {record : QueryLogRecord ℕ} {options : QueryLogRenderOptions} :
    tagsOf (queryLogRow chinese wholeFormats record options) =
      tagsOf (queryLogRowStart chinese wholeFormats record options) ++
      tagsOf (renderClientCell chinese record.clientIp options.clientDisplayName) ++
      tagsOf [markup "\n      </div>\n    </div>\n  "] := by
  have hstart := complete_queryLogRowStart chinese wholeFormats record options
  have hcell := complete_renderClientCell chinese record.clientIp options.clientDisplayName
  rw [queryLogRow, tagsOf_append (hstart.append hcell) (complete_blank (by simp [blankPieces])),
    tagsOf_append hstart hcell]

/-- A name that is the address is not written twice, so the tags depend on it. -/
theorem namedAddress_changes_tags : ¬ ∀ (record record' : QueryLogRecord ℕ)
    (options options' : QueryLogRenderOptions), record.presence = record'.presence →
    (options.clientDisplayName record.clientIp).isSome =
      (options'.clientDisplayName record'.clientIp).isSome →
    ∀ html html' tokens tokens',
      renderQueryLogRow chinese wholeFormats record options = .ok html →
      renderQueryLogRow chinese wholeFormats record' options' = .ok html' →
      read html = some tokens → read html' = some tokens' → tags tokens = tags tokens' := by
  intro h
  obtain ⟨result, hresult, -, hread⟩ :=
    (complete_queryLogRow chinese wholeFormats sampleRecord (namedAs "phone")).read
  obtain ⟨result', hresult', -, hread'⟩ :=
    (complete_queryLogRow chinese wholeFormats sampleRecord (namedAs "10.0.0.7")).read
  have htags := h sampleRecord sampleRecord (namedAs "phone") (namedAs "10.0.0.7") rfl rfl
    _ _ _ _ rfl rfl hread hread'
  rw [← tagsOf_eq rfl hresult, ← tagsOf_eq rfl hresult', tagsOf_queryLogRow, tagsOf_queryLogRow]
    at htags
  -- the rest of the row is the same
  have hcell : tagsOf (renderClientCell chinese sampleRecord.clientIp
      (namedAs "phone").clientDisplayName) = tagsOf (renderClientCell chinese
        sampleRecord.clientIp (namedAs "10.0.0.7").clientDisplayName) :=
    List.append_cancel_left (List.append_cancel_right htags)
  revert hcell
  decide +kernel

end DnsBlackhole.QueryLog
