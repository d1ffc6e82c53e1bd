/-
  The text of all rules (`build_effective_rules` of `config.rs`): the shared
  rules, and behind a marker the custom ones.

  Scanning it gives the events of the shared rules, a blank line if they end
  with a newline, the source of the custom rules, and the events of the custom
  rules (`scan_effective`).  As long as the table of sources is not full, the
  rules of the text are those of the two parts (`refRules_effective`).
-/
import Mathlib.Data.List.Dedup
import Mathlib.Data.List.Perm.Subperm
import DnsBlackhole.Rules.Precedence

namespace DnsBlackhole.Rules
open Lib Text

def customMarker : Text := sourceMarkerPrefix ++ ['"'] ++ defaultSource ++ ['"']

/-- `build_effective_rules`, with filters in use; `remote` is what
    `build_remote_rules` gives, `custom` the blacklist. -/
def buildEffectiveRules (remote custom : Text) : Text :=
  if custom.trim = [] then remote
  else (if remote = [] then [] else remote ++ ['\n']) ++ (customMarker ++ ['\n']) ++ custom

/-! ## Lines -/

section
variable (jsonString : Text → Option Text)

theorem scanLine_congr {disabled : List Text} {a b : Text} (h : a.trim = b.trim) :
    scanLine jsonString disabled a = scanLine jsonString disabled b := by
  unfold scanLine parseRule
  rw [h]

theorem badfilterTarget_congr {a b : Text} (h : a.trim = b.trim) :
    badfilterTarget a = badfilterTarget b := by
  unfold badfilterTarget
  rw [h]

theorem flatMap_congr_trim {α : Type*} {f : Text → List α}
    (hf : ∀ a b : Text, a.trim = b.trim → f a = f b) {ls ms : List Text}
    (h : ls.map trim = ms.map trim) : ls.flatMap f = ms.flatMap f := by
  induction ls generalizing ms with
  | nil => rw [List.map_eq_nil_iff.1 h.symm]
  | cons l ls ih =>
    cases ms with
    | nil => cases h
    | cons m ms =>
      rw [List.map_cons, List.map_cons, List.cons.injEq] at h
      rw [List.flatMap_cons, List.flatMap_cons, hf l m h.1, ih h.2]

theorem flatMap_lines_append {α : Type*} {f : Text → List α}
    (hf : ∀ a b : Text, a.trim = b.trim → f a = f b) (a b : Text) :
    (lines (a ++ '\n' :: b)).flatMap f =
      (lines a).flatMap f ++ (if a = [] ∨ a.getLast? = some '\n' then f [] else []) ++
        (lines b).flatMap f := by
  rw [lines_append, List.flatMap_append, flatMap_congr_trim hf (map_trim_split a),
    List.flatMap_append]
  split_ifs <;> simp

theorem flatMap_lines_marker {α : Type*} (f : Text → List α) (custom : Text) :
    (lines ((customMarker ++ ['\n']) ++ custom)).flatMap f =
      f customMarker ++ (lines custom).flatMap f := by
  have hsplit : (split (· == '\n') customMarker).map stripReturn = [customMarker] := by decide
  rw [List.append_assoc, List.singleton_append, lines_append, hsplit, List.flatMap_append,
    List.flatMap_singleton]

theorem flatMap_lines_effective {α : Type*} {f : Text → List α}
    (hf : ∀ a b : Text, a.trim = b.trim → f a = f b) (remote : Text) {custom : Text}
    (h : custom.trim ≠ []) :
    (lines (buildEffectiveRules remote custom)).flatMap f =
      (lines remote).flatMap f ++ (if remote.getLast? = some '\n' then f [] else []) ++
        f customMarker ++ (lines custom).flatMap f := by
  unfold buildEffectiveRules
  rw [if_neg h]
  by_cases hremote : remote = []
  · rw [if_pos hremote, List.nil_append, flatMap_lines_marker, hremote]
    rfl
  · have hlines := flatMap_lines_append hf remote ((customMarker ++ ['\n']) ++ custom)
    simp only [hremote, false_or] at hlines
    rw [if_neg hremote, List.append_assoc, List.append_assoc, List.singleton_append,
      hlines, flatMap_lines_marker, ← List.append_assoc]

/-! ## Events -/

theorem disabledLines_eq (raw : Text) :
    disabledLines raw = raw.lines.flatMap fun line => (badfilterTarget line).toList :=
  List.filterMap_eq_flatMap_toList _ _

theorem disabledLines_custom {custom : Text} (h : customRulesHaveBadfilter custom = false) :
    disabledLines custom = [] := by
  rw [disabledLines, List.filterMap_eq_nil_iff]
  intro line hline
  simpa using List.any_eq_false.1 h line hline

theorem disabledLines_effective (remote : Text) {custom : Text}
    (h : customRulesHaveBadfilter custom = false) :
    disabledLines (buildEffectiveRules remote custom) = disabledLines remote := by
  by_cases hblank : custom.trim = []
  · rw [buildEffectiveRules, if_pos hblank]
  · have hmarker : badfilterTarget customMarker = none := by decide
    have hnil : badfilterTarget [] = none := rfl
    rw [disabledLines_eq, flatMap_lines_effective (fun a b h => by rw [badfilterTarget_congr h])
      remote hblank, ← disabledLines_eq, ← disabledLines_eq, disabledLines_custom h, hmarker, hnil]
    simp

theorem scanLine_nil (disabled : List Text) :
    scanLine jsonString disabled [] =
      if [] ∈ disabled then [] else [.rule (.ignored .comment)] := rfl

/-- What the JSON reader does with the name of the custom rules. -/
def ReadsDefaultSource : Prop := jsonString (['"'] ++ defaultSource ++ ['"']) = some defaultSource

theorem scanLine_customMarker (h : ReadsDefaultSource jsonString) (disabled : List Text) :
    scanLine jsonString disabled customMarker = [.source defaultSource] := by
  have htrim : customMarker.trim = customMarker := by decide
  have hbegin : customMarker.stripPrefix sourceMarkerPrefix =
      some (['"'] ++ defaultSource ++ ['"']) := by decide
  unfold scanLine
  dsimp only
  rw [htrim, hbegin]
  dsimp only
  rw [h]
  rfl

theorem scan_remote (remote : Text) :
    scanRulesWithDisabled jsonString remote [] =
      (lines remote).flatMap (scanLine jsonString (disabledLines remote)) := by
  rw [scanRulesWithDisabled, List.append_nil]

theorem scan_custom {custom : Text} (h : customRulesHaveBadfilter custom = false)
    (disabled : List Text) :
    scanRulesWithDisabled jsonString custom disabled =
      (lines custom).flatMap (scanLine jsonString disabled) := by
  rw [scanRulesWithDisabled, disabledLines_custom h, List.nil_append]

/-- **Scanning the text of all rules.** -/
theorem scan_effective (hjson : ReadsDefaultSource jsonString) (remote : Text) {custom : Text}
    (h : customRulesHaveBadfilter custom = false) (hblank : custom.trim ≠ []) :
    scanRulesWithDisabled jsonString (buildEffectiveRules remote custom) [] =
      scanRulesWithDisabled jsonString remote [] ++
        (if remote.getLast? = some '\n' ∧ [] ∉ disabledLines remote then
          [.rule (.ignored .comment)] else []) ++
        .source defaultSource ::
          scanRulesWithDisabled jsonString custom (disabledLines remote) := by
  rw [scan_remote, scan_remote, scan_custom jsonString h, disabledLines_effective remote h,
    flatMap_lines_effective (fun a b h => scanLine_congr jsonString h) remote hblank,
    scanLine_customMarker jsonString hjson, scanLine_nil, List.append_assoc, List.singleton_append]
  refine congrArg (· ++ _) (congrArg (_ ++ ·) ?_)
  by_cases hlast : remote.getLast? = some '\n'
  · by_cases hmem : [] ∈ disabledLines remote <;> simp [hlast, hmem]
  · simp [hlast]

/-! ## Sources -/

/-- The names of the sources in a text. -/
def sourceNames (raw : Text) : List Text :=
  raw.lines.filterMap fun line => (line.trim.stripPrefix sourceMarkerPrefix).bind jsonString

/-- The name of the source an event begins. -/
def ScanEvent.sourceName : ScanEvent → Option Text
  | .source name => some name
  | .rule _ => none

theorem filterMap_sourceName_scanLine (disabled : List Text) (line : Text) :
    (scanLine jsonString disabled line).filterMap ScanEvent.sourceName =
      ((line.trim.stripPrefix sourceMarkerPrefix).bind jsonString).toList := by
  unfold scanLine
  dsimp only
  cases line.trim.stripPrefix sourceMarkerPrefix with
  | some encoded =>
    cases hj : jsonString encoded with
    | none => simp [hj]
    | some name => simp [hj, ScanEvent.sourceName]
  | none =>
    have hnone : ∀ parsed, ScanEvent.sourceName (.rule parsed) = none := fun _ => rfl
    dsimp only
    split_ifs
    · rfl
    · cases parseHostsRules line.trim with
      | none => rfl
      | some r =>
        refine List.filterMap_eq_nil_iff.2 fun e he => ?_
        obtain ⟨domain, -, rfl⟩ := List.mem_map.1 he
        cases domain <;> rfl

theorem filterMap_sourceName_scan (raw : Text) (extraDisabled : List Text) :
    (scanRulesWithDisabled jsonString raw extraDisabled).filterMap ScanEvent.sourceName =
      sourceNames jsonString raw := by
  rw [scanRulesWithDisabled, List.filterMap_flatMap, sourceNames,
    List.filterMap_eq_flatMap_toList]
  exact List.flatMap_congr fun line _ => filterMap_sourceName_scanLine jsonString _ line

end

/-- The rules that are scanned, with the names of their sources as they stand. -/
def plainRules (source : Text) : List ScanEvent → List RefRule
  | [] => []
  | .source name :: es => plainRules name es
  | .rule (.block rule) :: es => RefRule.ofData false source rule :: plainRules source es
  | .rule (.allow rule) :: es => RefRule.ofData true source rule :: plainRules source es
  | .rule (.ignored _) :: es | .rule .disable :: es => plainRules source es

theorem sourceOf_eq {known names : List Text} (hknown : known.Nodup)
    (hsub : known ⊆ defaultSource :: names) (hnames : names.dedup.length < 65536) {name : Text}
    (hname : name ∈ defaultSource :: names) :
    ∃ known', sourceOf known name = (known', name) ∧ known'.Nodup ∧
      known' ⊆ defaultSource :: names := by
  unfold sourceOf
  by_cases hmem : name ∈ known
  · exact ⟨known, by rw [if_pos (List.contains_iff_mem.2 hmem)], hknown, hsub⟩
  · have hnew : (name :: known).Nodup := List.nodup_cons.2 ⟨hmem, hknown⟩
    have hsub' : name :: known ⊆ defaultSource :: names.dedup := by
      intro x hx
      have hx : x ∈ defaultSource :: names := by
        rcases List.mem_cons.1 hx with rfl | hx
        · exact hname
        · exact hsub hx
      rcases List.mem_cons.1 hx with rfl | hx
      · exact List.mem_cons_self
      · exact List.mem_cons_of_mem _ (List.mem_dedup.2 hx)
    have hlen := (hnew.subperm hsub').length_le
    rw [List.length_cons, List.length_cons] at hlen
    refine ⟨known ++ [name], ?_, ?_, ?_⟩
    · rw [if_neg fun hc => hmem (List.contains_iff_mem.1 hc), if_neg (by omega)]
    · exact (List.perm_append_singleton name known).nodup_iff.2 hnew
    · intro x hx
      rcases List.mem_append.1 hx with hx | hx
      · exact hsub hx
      · exact List.mem_singleton.1 hx ▸ hname

theorem rulesOfEvents_eq {names : List Text} (hnames : names.dedup.length < 65536) :
    ∀ {es : List ScanEvent} {known : List Text}, known.Nodup → known ⊆ defaultSource :: names →
      es.filterMap ScanEvent.sourceName ⊆ defaultSource :: names → ∀ source,
      rulesOfEvents known source es = plainRules source es := by
  intro es
  induction es with
  | nil => intros; rfl
  | cons e es ih =>
    intro known hknown hsub hes source
    cases e with
    | source name =>
      change name :: es.filterMap ScanEvent.sourceName ⊆ defaultSource :: names at hes
      obtain ⟨known', hof, hknown', hsub'⟩ :=
        sourceOf_eq hknown hsub hnames (hes List.mem_cons_self)
      rw [rulesOfEvents, hof, plainRules]
      exact ih hknown' hsub' (fun x hx => hes (List.mem_cons_of_mem _ hx)) name
    | rule parsed =>
      change es.filterMap ScanEvent.sourceName ⊆ defaultSource :: names at hes
      have ih := ih hknown hsub hes source
      cases parsed with
      | block rule => rw [rulesOfEvents, plainRules, ih]
      | allow rule => rw [rulesOfEvents, plainRules, ih]
      | ignored reason => rw [rulesOfEvents, plainRules, ih]
      | disable => rw [rulesOfEvents, plainRules, ih]

theorem plainRules_append_source (es : List ScanEvent) (source name : Text)
    (fs : List ScanEvent) :
    plainRules source (es ++ .source name :: fs) = plainRules source es ++ plainRules name fs := by
  induction es generalizing source with
  | nil => rfl
  | cons e es ih =>
    cases e with
    | source name' => exact ih name'
    | rule parsed =>
      cases parsed with
      | block rule => exact congrArg (_ :: ·) (ih source)
      | allow rule => exact congrArg (_ :: ·) (ih source)
      | ignored reason => exact ih source
      | disable => exact ih source

theorem plainRules_append_ignored (es : List ScanEvent) (source : Text)
    {fs : List ScanEvent} (hfs : ∀ e ∈ fs, ∃ reason, e = .rule (.ignored reason)) :
    plainRules source (es ++ fs) = plainRules source es := by
  induction es generalizing source with
  | nil =>
    induction fs with
    | nil => rfl
    | cons f fs ih =>
      obtain ⟨reason, rfl⟩ := hfs f List.mem_cons_self
      exact ih fun e he => hfs e (List.mem_cons_of_mem _ he)
  | cons e es ih =>
    cases e with
    | source name' => exact ih name'
    | rule parsed =>
      cases parsed with
      | block rule => exact congrArg (_ :: ·) (ih source)
      | allow rule => exact congrArg (_ :: ·) (ih source)
      | ignored reason => exact ih source
      | disable => exact ih source

/-! ## The rules of all -/

section
variable (jsonString : Text → Option Text)

/-- What the two parts of all rules are assumed to be: the custom rules disable
    nothing, and the table of sources has room for all names. -/
structure Mergeable (remote custom : Text) : Prop where
  readsDefaultSource : ReadsDefaultSource jsonString
  noBadfilter : customRulesHaveBadfilter custom = false
  fewSources : (sourceNames jsonString remote ++ sourceNames jsonString custom).dedup.length < 65536

end

/-- A reader of JSON strings, for those without escapes. -/
def plainJsonString (encoded : Text) : Option Text :=
  ((encoded.stripPrefix ['"']).bind fun rest => rest.stripSuffix ['"']).filter fun t =>
    t.all fun c => c != '"' && c != '\\' && 0x20 ≤ c.toNat

def smallRemote : Text := "! dnsblackhole-source:\"f:a\"\n||a.b^\n||c.d^$dnsrewrite=1.2.3.4".toList

def smallCustom : Text := "@@||x.a.b^\n||c.d^$important".toList

theorem smallRules_mergeable : Mergeable plainJsonString smallRemote smallCustom where
  readsDefaultSource := by unfold ReadsDefaultSource; decide
  noBadfilter := by decide
  fewSources := by decide

section
variable (jsonString : Text → Option Text)

theorem trim_eq_nil_of_mem_lines {custom line : Text} (h : custom.trim = [])
    (hline : line ∈ custom.lines) : line.trim = trim [] := by
  rw [trim_eq_nil_iff] at h
  exact (trim_eq_nil_iff line).2 fun c hc => h c (mem_of_mem_lines hline c hc)

theorem scan_blank {custom : Text} (h : custom.trim = []) (disabled : List Text) :
    scanRulesWithDisabled jsonString custom disabled =
      if [] ∈ disabled then []
      else custom.lines.map fun _ => .rule (.ignored .comment) := by
  have hbad : disabledLines custom = [] := by
    rw [disabledLines, List.filterMap_eq_nil_iff]
    intro line hline
    rw [badfilterTarget_congr (trim_eq_nil_of_mem_lines h hline)]
    rfl
  have hline : ∀ line ∈ custom.lines, scanLine jsonString disabled line =
      if [] ∈ disabled then [] else [.rule (.ignored .comment)] := by
    intro line hline
    rw [scanLine_congr jsonString (trim_eq_nil_of_mem_lines h hline), scanLine_nil]
  rw [scanRulesWithDisabled, hbad, List.nil_append, List.flatMap_congr hline]
  split_ifs
  · simp
  · rw [← List.map_eq_flatMap]

/-- **The rules of the text of all rules** are those of the two parts. -/
theorem refRules_effective {remote custom : Text} (h : Mergeable jsonString remote custom) :
    refRules jsonString (buildEffectiveRules remote custom) =
      refRules jsonString remote ++
        refRulesWithDisabled jsonString custom (disabledLines remote) := by
  have hplain : ∀ raw extraDisabled,
      (scanRulesWithDisabled jsonString raw extraDisabled).filterMap ScanEvent.sourceName ⊆
        defaultSource :: (sourceNames jsonString remote ++ sourceNames jsonString custom) →
      rulesOfEvents [defaultSource] defaultSource
          (scanRulesWithDisabled jsonString raw extraDisabled) =
        plainRules defaultSource (scanRulesWithDisabled jsonString raw extraDisabled) :=
    fun raw extraDisabled hsub => rulesOfEvents_eq h.fewSources (List.nodup_singleton _)
      (List.cons_subset_cons _ (List.nil_subset _)) hsub defaultSource
  have hremote : (scanRulesWithDisabled jsonString remote []).filterMap ScanEvent.sourceName ⊆
      defaultSource :: (sourceNames jsonString remote ++ sourceNames jsonString custom) := by
    rw [filterMap_sourceName_scan]
    exact fun x hx => List.mem_cons_of_mem _ (List.mem_append_left _ hx)
  have hcustom : ∀ disabled, (scanRulesWithDisabled jsonString custom disabled).filterMap
      ScanEvent.sourceName ⊆
        defaultSource :: (sourceNames jsonString remote ++ sourceNames jsonString custom) := by
    intro disabled
    rw [filterMap_sourceName_scan]
    exact fun x hx => List.mem_cons_of_mem _ (List.mem_append_right _ hx)
  unfold refRules refRulesWithDisabled
  by_cases hblank : custom.trim = []
  · have hnone : plainRules defaultSource
        (scanRulesWithDisabled jsonString custom (disabledLines remote)) = [] := by
      have hignored : ∀ e ∈ scanRulesWithDisabled jsonString custom (disabledLines remote),
          ∃ reason, e = .rule (.ignored reason) := by
        intro e he
        rw [scan_blank jsonString hblank] at he
        split_ifs at he
        · cases he
        · obtain ⟨line, -, rfl⟩ := List.mem_map.1 he
          exact ⟨.comment, rfl⟩
      exact plainRules_append_ignored [] defaultSource hignored
    rw [buildEffectiveRules, if_pos hblank, hplain custom _ (hcustom _), hnone, List.append_nil]
  · rw [hplain remote [] hremote, hplain custom _ (hcustom _), hplain _ _ ?_,
      scan_effective jsonString h.readsDefaultSource remote h.noBadfilter hblank,
      plainRules_append_source, plainRules_append_ignored]
    · intro e he
      split_ifs at he
      · exact ⟨.comment, List.mem_singleton.1 he⟩
      · cases he
    · rw [scan_effective jsonString h.readsDefaultSource remote h.noBadfilter hblank,
        List.filterMap_append, List.filterMap_append]
      intro x hx
      rcases List.mem_append.1 hx with hx | hx
      · rcases List.mem_append.1 hx with hx | hx
        · exact hremote hx
        · split_ifs at hx <;> cases hx
      · rcases List.mem_cons.1 hx with rfl | hx
        · exact List.mem_cons_self
        · exact hcustom _ hx

end

end DnsBlackhole.Rules
