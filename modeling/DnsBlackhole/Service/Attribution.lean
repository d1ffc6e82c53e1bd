/-
  Which list a block is put down to (`build_remote_rules` and
  `build_effective_rules` of `config.rs`, compiled).

  The contents of the lists and the custom rules are put into one text, each
  behind a marker with its name.  A content can have markers of its own.

  * `buildEffectiveRules_eq`: the text is its sections, one behind the other;
  * `refRules_sections`: its rules are those of the sections, each section scanned
    from its own name on;
  * **`blocks_attributed`**: all rules have the name of their section if and only if
    no rule of a section stands below a marker in it with another name; then
    whatever is reported is put down to a list that has the line.
-/
import DnsBlackhole.Config.Load
import DnsBlackhole.Pieces
import DnsBlackhole.Rules.Blocked
import DnsBlackhole.Rules.Statistics
import DnsBlackhole.Service.Build

namespace DnsBlackhole.Service
open Admin (AppConfig FilterSubscription filterSourceTag)
open Lib
open Rules hiding buildEffectiveRules
open Text

/-! ## The text of all rules -/

/-- A list or the custom rules, with the name in JSON. -/
structure RuleSection where
  name : Text
  encoded : Text
  content : Text

/-- The line in front of a section. -/
def RuleSection.marker (s : RuleSection) : Text := sourceMarkerPrefix ++ s.encoded

/-- What the JSON of a name is assumed to be: one line in quotes that gives the name back. -/
structure RuleSection.Encodes (jsonString : Text → Option Text) (s : RuleSection) : Prop where
  reads : jsonString s.encoded = some s.name
  oneLine : '\n' ∉ s.encoded
  ends : s.encoded.getLast? = some '"'

instance (jsonString : Text → Option Text) (s : RuleSection) : Decidable (s.Encodes jsonString) :=
  decidable_of_iff (jsonString s.encoded = some s.name ∧ '\n' ∉ s.encoded ∧
    s.encoded.getLast? = some '"')
    ⟨fun h => ⟨h.1, h.2.1, h.2.2⟩, fun h => ⟨h.reads, h.oneLine, h.ends⟩⟩

/-- A section behind the ones before. -/
def pushSection (rules : Text) (s : RuleSection) : Text :=
  (if rules = [] then [] else rules ++ ['\n']) ++ (s.marker ++ ['\n']) ++ s.content

section
variable (env : Environment) (config : AppConfig)

/-- The section of a list that is on and can be read. -/
def listSection (filter : FilterSubscription) : Option RuleSection :=
  if filter.enabled then (env.filterCache filter.id).map fun content =>
    ⟨filterSourceTag filter.id, env.quote (filterSourceTag filter.id), content⟩
  else none

def customSection : RuleSection :=
  ⟨defaultSource, ['"'] ++ defaultSource ++ ['"'], config.blacklist⟩

/-- The sections of the text of all rules. -/
def ruleSections : List RuleSection :=
  if config.useFilters then config.filters.filterMap (listSection env) ++
    if config.blacklist.trim = [] then [] else [customSection config]
  else []

theorem buildRemoteRules_eq (h : config.useFilters) : buildRemoteRules env config =
    (config.filters.filterMap (listSection env)).foldl pushSection [] := by
  have hfold : ∀ (filters : List FilterSubscription) (rules : Text),
      filters.foldl (appendFilterRules env) rules =
        (filters.filterMap (listSection env)).foldl pushSection rules := by
    intro filters
    induction filters with
    | nil => exact fun _ => rfl
    | cons filter filters ih =>
      intro rules
      rw [List.foldl_cons, ih, List.filterMap_cons, listSection, appendFilterRules]
      cases filter.enabled with
      | false => rfl
      | true =>
        cases env.filterCache filter.id with
        | none => rfl
        | some content =>
          refine congrArg (List.foldl pushSection · _) ?_
          simp only [if_true, pushSection, RuleSection.marker, List.append_assoc,
            List.cons_append, List.nil_append]
  rw [buildRemoteRules, if_pos h]
  exact hfold config.filters []

/-- **The text of all rules** is its sections. -/
theorem buildEffectiveRules_eq :
    buildEffectiveRules env config = (ruleSections env config).foldl pushSection [] := by
  unfold buildEffectiveRules ruleSections
  by_cases hfilters : config.useFilters
  · rw [if_pos hfilters, if_pos hfilters, List.foldl_append, ← buildRemoteRules_eq env config
      hfilters, Rules.buildEffectiveRules]
    by_cases hblank : config.blacklist.trim = []
    · rw [if_pos hblank, if_pos hblank]
      rfl
    · rw [if_neg hblank, if_neg hblank]
      rfl
  · rw [if_neg hfilters, if_neg hfilters]
    rfl

end

/-! ## Markers -/

section
variable {jsonString : Text → Option Text} {s : RuleSection} (h : s.Encodes jsonString)
include h

theorem RuleSection.Encodes.newline_not_mem : '\n' ∉ s.marker := by
  have hprefix : '\n' ∉ sourceMarkerPrefix := by decide
  intro hmem
  exact (List.mem_append.1 hmem).elim hprefix h.oneLine

theorem RuleSection.Encodes.getLast?_marker : s.marker.getLast? = some '"' := by
  rw [marker, List.getLast?_append, h.ends]
  rfl

theorem RuleSection.Encodes.trim_marker : s.marker.trim = s.marker := by
  refine trim_eq_self ?_ ?_
  · intro c hc
    cases hc
    decide
  · intro c hc
    rw [h.getLast?_marker] at hc
    cases hc
    decide

theorem RuleSection.Encodes.stripPrefix_marker :
    s.marker.trim.stripPrefix sourceMarkerPrefix = some s.encoded := by
  rw [h.trim_marker]
  exact stripPrefix_eq_some.2 rfl

theorem RuleSection.Encodes.scanLine_marker (disabled : List Text) :
    scanLine jsonString disabled s.marker = [.source s.name] := by
  unfold scanLine
  dsimp only
  rw [h.stripPrefix_marker]
  dsimp only
  rw [h.reads]
  rfl

theorem RuleSection.Encodes.flatMap_lines {α : Type*} (f : Text → List α) :
    (lines ((s.marker ++ ['\n']) ++ s.content)).flatMap f =
      f s.marker ++ (lines s.content).flatMap f := by
  have hreturn : stripReturn s.marker = s.marker := by
    unfold stripReturn
    cases hstrip : s.marker.stripSuffix ['\r'] with
    | none => rfl
    | some rest =>
      have hlast := h.getLast?_marker
      rw [stripSuffix_eq_some.1 hstrip, List.getLast?_concat] at hlast
      exact absurd hlast (by decide)
  have hsplit : (split (· == '\n') s.marker).map stripReturn = [s.marker] := by
    rw [split_of_not_mem h.newline_not_mem, List.map_singleton, hreturn]
  rw [List.append_assoc, List.singleton_append, lines_append, hsplit, List.flatMap_append,
    List.flatMap_singleton]

/-- The lines of a text with one more section: a blank line may stand in front of it. -/
theorem RuleSection.Encodes.flatMap_lines_pushSection {α : Type*} {f : Text → List α}
    (hf : ∀ a b : Text, a.trim = b.trim → f a = f b) (rules : Text) :
    (lines (pushSection rules s)).flatMap f =
      (lines rules).flatMap f ++ (if rules.getLast? = some '\n' then f [] else []) ++
        f s.marker ++ (lines s.content).flatMap f := by
  unfold pushSection
  by_cases hrules : rules = []
  · rw [if_pos hrules, List.nil_append, h.flatMap_lines, hrules]
    rfl
  · have hlines := flatMap_lines_append hf rules ((s.marker ++ ['\n']) ++ s.content)
    simp only [hrules, false_or] at hlines
    rw [if_neg hrules, List.append_assoc, List.append_assoc, List.singleton_append, hlines,
      h.flatMap_lines, ← List.append_assoc]

end

/-! ## The rules of the sections -/

/-- The rule that an event adds to a source. -/
def refRuleOf (source : Text) (e : ScanEvent) : Option RefRule :=
  e.rule?.map fun r => .ofData r.1 source r.2

section
variable (jsonString : Text → Option Text) (disabled : List Text)

/-- What is scanned from a content. -/
def contentEvents (content : Text) : List ScanEvent :=
  content.lines.flatMap (scanLine jsonString disabled)

/-- The rules of a section as the text of all rules has them: from its name on, the markers in
    the content change the source. -/
def sectionRules (s : RuleSection) : List RefRule :=
  plainRules s.name (contentEvents jsonString disabled s.content)

/-- The rules of a section, all with its name. -/
def ownRules (s : RuleSection) : List RefRule :=
  (contentEvents jsonString disabled s.content).filterMap (refRuleOf s.name)

/-- No rule of a section stands below a marker in it that gives another name. -/
def OwnSource (s : RuleSection) : Prop :=
  ∀ r ∈ sectionRules jsonString disabled s, r.source = s.name

instance (s : RuleSection) : Decidable (OwnSource jsonString disabled s) :=
  inferInstanceAs (Decidable (∀ r ∈ _, _))

end

theorem length_plainRules (source name : Text) (es : List ScanEvent) :
    (plainRules source es).length = (es.filterMap (refRuleOf name)).length := by
  induction es generalizing source with
  | nil => rfl
  | cons e es ih =>
    cases e with
    | source name' => exact ih name'
    | rule parsed =>
      cases parsed with
      | block rule => exact congrArg (· + 1) (ih source)
      | allow rule => exact congrArg (· + 1) (ih source)
      | ignored reason => exact ih source
      | disable => exact ih source

theorem ofData_eq_iff {isAllow : Bool} {source name : Text} {rule : RuleData} :
    RefRule.ofData isAllow source rule = .ofData isAllow name rule ↔ source = name := by
  constructor
  · exact fun h => congrArg RefRule.source h
  · rintro rfl
    rfl

theorem plainRules_eq_iff (source name : Text) (es : List ScanEvent) :
    plainRules source es = es.filterMap (refRuleOf name) ↔
      ∀ r ∈ plainRules source es, r.source = name := by
  induction es generalizing source with
  | nil => exact iff_of_true rfl fun r hr => absurd hr List.not_mem_nil
  | cons e es ih =>
    cases e with
    | source name' => exact ih name'
    | rule parsed =>
      cases parsed with
      | block rule =>
        rw [plainRules, List.forall_mem_cons, ← ih source]
        exact List.cons_eq_cons.trans (and_congr_left' ofData_eq_iff)
      | allow rule =>
        rw [plainRules, List.forall_mem_cons, ← ih source]
        exact List.cons_eq_cons.trans (and_congr_left' ofData_eq_iff)
      | ignored reason => exact ih source
      | disable => exact ih source

section
variable {jsonString : Text → Option Text} {disabled : List Text}

theorem sectionRules_eq_iff (s : RuleSection) :
    sectionRules jsonString disabled s = ownRules jsonString disabled s ↔
      OwnSource jsonString disabled s :=
  plainRules_eq_iff s.name s.name _

theorem flatMap_eq_flatMap_iff {α β : Type*} {f g : α → List β}
    (hlen : ∀ a, (f a).length = (g a).length) (l : List α) :
    l.flatMap f = l.flatMap g ↔ ∀ a ∈ l, f a = g a := by
  induction l with
  | nil => exact iff_of_true rfl fun a ha => absurd ha List.not_mem_nil
  | cons a l ih =>
    rw [List.flatMap_cons, List.flatMap_cons, List.forall_mem_cons, ← ih]
    constructor
    · exact fun h => List.append_inj h (hlen a)
    · rintro ⟨ha, hl⟩
      rw [ha, hl]

/-- **The text of the sections, scanned**: each section from its own name on. -/
theorem plainRules_sections {secs : List RuleSection}
    (hjson : ∀ s ∈ secs, s.Encodes jsonString) (rules source : Text) :
    plainRules source (contentEvents jsonString disabled (secs.foldl pushSection rules)) =
      plainRules source (contentEvents jsonString disabled rules) ++
        secs.flatMap (sectionRules jsonString disabled) := by
  induction secs generalizing rules with
  | nil => exact (List.append_nil _).symm
  | cons s secs ih =>
    rw [List.foldl_cons, ih fun s' hs' => hjson s' (List.mem_cons_of_mem _ hs'),
      List.flatMap_cons, ← List.append_assoc]
    refine congrArg (· ++ _) ?_
    have hevents : contentEvents jsonString disabled (pushSection rules s) =
        (contentEvents jsonString disabled rules ++ (if rules.getLast? = some '\n' then
          scanLine jsonString disabled [] else [])) ++
          .source s.name :: contentEvents jsonString disabled s.content := by
      rw [contentEvents, (hjson s List.mem_cons_self).flatMap_lines_pushSection
          (fun a b h => scanLine_congr jsonString h),
        (hjson s List.mem_cons_self).scanLine_marker,
        List.append_assoc _ [ScanEvent.source s.name]]
      rfl
    rw [hevents, plainRules_append_source, plainRules_append_ignored]
    · rfl
    · intro e he
      rw [scanLine_nil] at he
      split_ifs at he
      · cases he
      · exact ⟨.comment, List.mem_singleton.1 he⟩
      · cases he

end

/-! ## Sources -/

section
variable (jsonString : Text → Option Text)

/-- The names in a text with its sections, in their order. -/
def sectionNames (secs : List RuleSection) : List Text :=
  secs.flatMap fun s => s.name :: sourceNames jsonString s.content

theorem sourceNames_foldl {secs : List RuleSection}
    (hjson : ∀ s ∈ secs, s.Encodes jsonString) (rules : Text) :
    sourceNames jsonString (secs.foldl pushSection rules) =
      sourceNames jsonString rules ++ sectionNames jsonString secs := by
  induction secs generalizing rules with
  | nil => exact (List.append_nil _).symm
  | cons s secs ih =>
    rw [List.foldl_cons, ih fun s' hs' => hjson s' (List.mem_cons_of_mem _ hs'), sectionNames,
      sectionNames, List.flatMap_cons, ← List.append_assoc]
    refine congrArg (· ++ _) ?_
    have hnil : (trim []).stripPrefix sourceMarkerPrefix = none := by decide
    rw [sourceNames, List.filterMap_eq_flatMap_toList,
      (hjson s List.mem_cons_self).flatMap_lines_pushSection (fun a b h => by rw [h]) rules,
      (hjson s List.mem_cons_self).stripPrefix_marker, hnil, Option.bind_some,
      (hjson s List.mem_cons_self).reads, ← List.filterMap_eq_flatMap_toList,
      ← List.filterMap_eq_flatMap_toList, List.append_assoc _ (Option.toList _)]
    refine congrArg₂ (· ++ ·) ?_ rfl
    split_ifs
    · exact List.append_nil _
    · exact List.append_nil _

end

theorem mem_sourceOf {known : List Text} {name : Text} (h : (sourceOf known name).2 = name)
    (hfirst : defaultSource ∈ known) {x : Text} :
    x ∈ (sourceOf known name).1 ↔ x ∈ known ∨ x = name := by
  unfold sourceOf at h ⊢
  split_ifs at h ⊢ with hmem hfull
  · refine ⟨Or.inl, ?_⟩
    rintro (hx | rfl)
    · exact hx
    · exact List.contains_iff_mem.1 hmem
  · exact absurd (List.contains_iff_mem.2 (h ▸ hfirst)) hmem
  · rw [List.mem_append, List.mem_singleton]

/-- As long as there is room, every name that is scanned is a source, and nothing else is. -/
theorem mem_sources_foldl {names : List Text} (hnames : names.dedup.length < 65536)
    {es : List ScanEvent} : ∀ {s : CompileState}, SourceTable s.sources → s.sources.Nodup →
      s.sources ⊆ defaultSource :: names →
      es.filterMap ScanEvent.sourceName ⊆ defaultSource :: names → ∀ x,
      x ∈ (es.foldl compileEvent s).sources ↔
        x ∈ s.sources ∨ x ∈ es.filterMap ScanEvent.sourceName := by
  induction es with
  | nil => exact fun _ _ _ _ x => (or_iff_left List.not_mem_nil).symm
  | cons e es ih =>
    intro s htable hnodup hsub hes x
    rw [List.foldl_cons]
    cases e with
    | source name =>
      change name :: es.filterMap ScanEvent.sourceName ⊆ defaultSource :: names at hes
      obtain ⟨more, sourceId, hintern, htable', -, hof⟩ := internSource_eq htable name
      obtain ⟨known', hknown, hnodup', hsub'⟩ :=
        sourceOf_eq hnodup hsub hnames (hes List.mem_cons_self)
      have hsources : (compileEvent s (.source name)).sources = known' := by
        rw [compileEvent, hintern]
        exact congrArg Prod.fst (hof.symm.trans hknown)
      have hmore : s.sources ++ more = known' := congrArg Prod.fst (hof.symm.trans hknown)
      have hfirst : defaultSource ∈ s.sources := List.mem_of_getElem? htable.first
      have hroom : (sourceOf s.sources name).2 = name := by rw [hknown]
      have hmem := mem_sourceOf hroom hfirst (x := x)
      rw [hknown] at hmem
      rw [ih (hsources ▸ hmore ▸ htable') (hsources ▸ hnodup') (hsources ▸ hsub')
        (fun y hy => hes (List.mem_cons_of_mem _ hy)) x, hsources, hmem, or_assoc]
      exact or_congr_right (List.mem_cons).symm
    | rule parsed =>
      change es.filterMap ScanEvent.sourceName ⊆ defaultSource :: names at hes
      have hsources : (compileEvent s (.rule parsed)).sources = s.sources := by
        cases parsed <;> rfl
      have ih := ih (hsources.symm ▸ htable) (hsources.symm ▸ hnodup) (hsources.symm ▸ hsub) hes x
      rw [hsources] at ih
      exact ih

/-- **The sources of a compiled text**: the default one and the names in the text. -/
theorem mem_sources_compileRules (jsonString : Text → Option Text) {text : Text}
    (h : (sourceNames jsonString text).dedup.length < 65536) (x : Text) :
    x ∈ (compileRules jsonString text).sources ↔
      x = defaultSource ∨ x ∈ sourceNames jsonString text := by
  have hnew := (compiled_new).sources
  have hmem := @mem_sources_foldl _ h
    (scanRulesWithDisabled jsonString text []) newCompileState hnew (List.nodup_singleton _)
    (List.cons_subset_cons _ (List.nil_subset _)) (by
      rw [filterMap_sourceName_scan]
      exact fun y hy => List.mem_cons_of_mem _ hy) x
  rw [filterMap_sourceName_scan] at hmem
  exact hmem.trans (or_congr_left List.mem_singleton)

/-! ## Reports -/

theorem mem_of_mem_chosenRewrites {blocks : List RefRule} {domain : Text} {qtype : UInt16}
    {r : RefRule} (h : r ∈ chosenRewrites domain qtype blocks) : r ∈ blocks := by
  refine (@rewrites_sublist_self domain qtype blocks).subset ?_
  unfold chosenRewrites at h
  dsimp only at h
  cases hrcode : (rewrites domain qtype blocks).find? RefRule.isRcode with
  | some first =>
    rw [hrcode] at h
    exact List.mem_singleton.1 h ▸ List.mem_of_find?_eq_some hrcode
  | none =>
    rw [hrcode] at h
    cases hcname : (rewrites domain qtype blocks).find? RefRule.isCname with
    | some first =>
      rw [hcname] at h
      exact List.mem_singleton.1 h ▸ List.mem_of_find?_eq_some hcname
    | none =>
      rw [hcname] at h
      exact h

/-- Where a report comes from: the rule that decides, or the first of several with
    `$dnsrewrite`, whose lines are listed. -/
theorem exists_of_reference {rules : List RefRule} {domain : Text} {qtype : UInt16}
    {m : BlockMatch} (h : reference rules domain qtype = some m) :
    ∃ r ∈ rules, r.source = m.source ∧
      (m.rule = r.raw ∨ m.dnsrewrite.isSome ∧ ∃ more, m.rule = r.raw ++ '\n' :: more) := by
  have hblock : ∀ important r, firstMatch domain qtype (candidates rules false domain) important =
      some r → r ∈ rules := fun important r hr =>
    (mem_candidates.1 (List.mem_of_find?_eq_some hr)).1
  unfold reference verdict at h
  dsimp only at h
  cases hrewrite : rewriteVerdict rewriteText
      (chosenRewrites domain qtype (candidates rules false domain))
      (firstMatch domain qtype (candidates rules true domain) false) with
  | some rewrite =>
    rw [hrewrite] at h
    cases h
    obtain ⟨r, hhead, rfl⟩ := Option.map_eq_some_iff.1 hrewrite
    obtain ⟨rest, hchosen⟩ : ∃ rest,
        chosenRewrites domain qtype (candidates rules false domain) = r :: rest := by
      cases hl : chosenRewrites domain qtype (candidates rules false domain) with
      | nil =>
        rw [hl] at hhead
        cases hhead
      | cons first rest =>
        rw [hl] at hhead
        cases hhead
        exact ⟨rest, rfl⟩
    have hmem : r ∈ candidates rules false domain := by
      have hr : r ∈ chosenRewrites domain qtype (candidates rules false domain) := by
        rw [hchosen]
        exact List.mem_cons_self
      exact mem_of_mem_chosenRewrites hr
    refine ⟨r, (mem_candidates.1 hmem).1, rfl, ?_⟩
    rw [hchosen]
    dsimp only
    rw [rewriteText, firstOf_cons, linesText, List.map_cons]
    cases (firstOf RefRule.identity
        (rest.filter fun b => b.identity ≠ r.identity)).map RefRule.raw with
    | nil => exact .inl (joined_singleton '\n' r.raw)
    | cons raw raws => exact .inr ⟨rfl, _, joined_cons_cons '\n' r.raw raw raws⟩
  | none =>
    rw [hrewrite] at h
    dsimp only at h
    by_cases hexception : (firstMatch domain qtype (candidates rules true domain) true).isSome
    · rw [if_pos hexception] at h
      cases h
    rw [if_neg hexception] at h
    cases himportant : firstMatch domain qtype (candidates rules false domain) true with
    | some r =>
      rw [himportant] at h
      cases h
      exact ⟨r, hblock true r himportant, rfl, .inl rfl⟩
    | none =>
      rw [himportant] at h
      dsimp only at h
      split_ifs at h
      obtain ⟨r, hr, rfl⟩ := Option.map_eq_some_iff.1 h
      exact ⟨r, hblock false r hr, rfl, .inl rfl⟩

section
variable {jsonString : Text → Option Text} {disabled : List Text}

theorem exists_of_mem_plainRules {source : Text} {es : List ScanEvent} {r : RefRule}
    (h : r ∈ plainRules source es) :
    ∃ rule, (ScanEvent.rule (.block rule) ∈ es ∨ ScanEvent.rule (.allow rule) ∈ es) ∧
      r.raw = rule.raw := by
  induction es generalizing source with
  | nil => cases h
  | cons e es ih =>
    have hlater : ∀ {source}, r ∈ plainRules source es → ∃ rule,
        (ScanEvent.rule (.block rule) ∈ e :: es ∨ ScanEvent.rule (.allow rule) ∈ e :: es) ∧
          r.raw = rule.raw := by
      intro source hr
      obtain ⟨rule, hmem, hraw⟩ := ih hr
      exact ⟨rule, hmem.imp (List.mem_cons_of_mem _) (List.mem_cons_of_mem _), hraw⟩
    cases e with
    | source name => exact hlater h
    | rule parsed =>
      cases parsed with
      | block rule =>
        rcases List.mem_cons.1 h with rfl | h
        · exact ⟨rule, .inl List.mem_cons_self, rfl⟩
        · exact hlater h
      | allow rule =>
        rcases List.mem_cons.1 h with rfl | h
        · exact ⟨rule, .inr List.mem_cons_self, rfl⟩
        · exact hlater h
      | ignored reason => exact hlater h
      | disable => exact hlater h

theorem raw_of_mem_sectionRules {s : RuleSection} {r : RefRule}
    (h : r ∈ sectionRules jsonString disabled s) : ∃ line ∈ s.content.lines, line.trim = r.raw := by
  obtain ⟨rule, hrule, hraw⟩ := exists_of_mem_plainRules h
  rcases hrule with hrule | hrule
  · obtain ⟨line, hline, hmem⟩ := List.mem_flatMap.1 hrule
    exact ⟨line, hline, ((fromLine_of_mem_scanLine hmem).2.symm.trans hraw.symm)⟩
  · obtain ⟨line, hline, hmem⟩ := List.mem_flatMap.1 hrule
    exact ⟨line, hline, ((fromLine_of_mem_scanLine hmem).2.symm.trans hraw.symm)⟩

end

section
variable (env : Environment) (config : AppConfig)

/-- The list with this tag, or the custom rules under their name, have the line, up to the
    white space around it. -/
def HoldsLine (source line : Text) : Prop :=
  (∃ filter ∈ config.filters, filter.enabled ∧ filterSourceTag filter.id = source ∧
    ∃ content, env.filterCache filter.id = some content ∧
      ∃ l ∈ content.lines, l.trim = line) ∨
  (source = defaultSource ∧ ∃ l ∈ config.blacklist.lines, l.trim = line)

/-- A report is put down to a source that has its rule.  Answers that several rules with
    `$dnsrewrite` give together are put down to the source of the first. -/
def Attributed (m : BlockMatch) : Prop :=
  ∃ line, HoldsLine env config m.source line ∧
    (m.rule = line ∨ m.dnsrewrite.isSome ∧ ∃ more, m.rule = line ++ '\n' :: more)

theorem holdsLine_of_mem_ruleSections {s : RuleSection} (h : s ∈ ruleSections env config)
    {line : Text} (hline : line ∈ s.content.lines) :
    HoldsLine env config s.name line.trim := by
  unfold ruleSections at h
  by_cases hon : config.useFilters
  · rw [if_pos hon] at h
    rcases List.mem_append.1 h with h | h
    · obtain ⟨filter, hfilter, hsection⟩ := List.mem_filterMap.1 h
      unfold listSection at hsection
      split_ifs at hsection with henabled
      obtain ⟨content, hcontent, rfl⟩ := Option.map_eq_some_iff.1 hsection
      exact .inl ⟨filter, hfilter, henabled, rfl, content, hcontent, line, hline, rfl⟩
    · split_ifs at h
      · cases h
      · cases List.mem_singleton.1 h
        exact .inr ⟨rfl, line, hline, rfl⟩
  · rw [if_neg hon] at h
    cases h

variable {env config}
  (hjson : ∀ s ∈ ruleSections env config, s.Encodes env.jsonString)
  (hroom : (sectionNames env.jsonString (ruleSections env config)).dedup.length < 65536)
include hjson

theorem sourceNames_effectiveRules :
    sourceNames env.jsonString (buildEffectiveRules env config) =
      sectionNames env.jsonString (ruleSections env config) := by
  rw [buildEffectiveRules_eq env config, sourceNames_foldl env.jsonString hjson]
  rfl

include hroom

/-- **The rules of the text of all rules** are those of its sections. -/
theorem refRules_effectiveRules :
    refRules env.jsonString (buildEffectiveRules env config) =
      (ruleSections env config).flatMap
        (sectionRules env.jsonString (disabledLines (buildEffectiveRules env config))) := by
  rw [← sourceNames_effectiveRules hjson] at hroom
  rw [refRules, rulesOfEvents_eq hroom (List.nodup_singleton _)
    (List.cons_subset_cons _ (List.nil_subset _)), scanRulesWithDisabled, List.append_nil]
  · have hplain := @plainRules_sections env.jsonString
      (disabledLines (buildEffectiveRules env config)) _ hjson [] defaultSource
    rw [← buildEffectiveRules_eq env config] at hplain
    exact hplain
  · rw [filterMap_sourceName_scan]
    exact List.subset_cons_self ..

/-- **Blocks are put down to the list that has them** exactly if no content has a marker with
    another name above a rule of its: the rules of the compiled text have the names of the
    sections they stand in if and only if no rule of a section stands below such a marker,
    the sources are the lists and the custom rules if and only if no marker in a content
    gives another name, and where the rules have the names of their sections every report is
    put down to a list that has its line. -/
theorem blocks_attributed :
    (refRules env.jsonString (buildEffectiveRules env config) =
        (ruleSections env config).flatMap
          (ownRules env.jsonString (disabledLines (buildEffectiveRules env config))) ↔
      ∀ s ∈ ruleSections env config,
        OwnSource env.jsonString (disabledLines (buildEffectiveRules env config)) s) ∧
    ((∀ x ∈ (compileRules env.jsonString (buildEffectiveRules env config)).sources,
        x = defaultSource ∨ x ∈ (ruleSections env config).map RuleSection.name) ↔
      ∀ s ∈ ruleSections env config, ∀ name ∈ sourceNames env.jsonString s.content,
        name = defaultSource ∨ name ∈ (ruleSections env config).map RuleSection.name) ∧
    ((∀ s ∈ ruleSections env config,
        OwnSource env.jsonString (disabledLines (buildEffectiveRules env config)) s) →
      ∀ domain qtype m, (compileRules env.jsonString
          (buildEffectiveRules env config)).blockingMatch domain qtype = some m →
        Attributed env config m) := by
  refine ⟨?_, ?_, ?_⟩
  · have hlen : ∀ s, (sectionRules env.jsonString
        (disabledLines (buildEffectiveRules env config)) s).length =
        (ownRules env.jsonString (disabledLines (buildEffectiveRules env config)) s).length :=
      fun s => length_plainRules s.name s.name _
    rw [refRules_effectiveRules hjson hroom, flatMap_eq_flatMap_iff hlen]
    exact forall₂_congr fun s _ => sectionRules_eq_iff s
  · have hnames := sourceNames_effectiveRules hjson
    have hmem := mem_sources_compileRules env.jsonString (hnames ▸ hroom)
    rw [hnames] at hmem
    constructor
    · intro hsources s hs name hname
      refine hsources name ((hmem name).2 (.inr ?_))
      exact List.mem_flatMap.2 ⟨s, hs, List.mem_cons_of_mem _ hname⟩
    · intro hcontents x hx
      rcases (hmem x).1 hx with rfl | hx
      · exact .inl rfl
      obtain ⟨s, hs, hx⟩ := List.mem_flatMap.1 hx
      rcases List.mem_cons.1 hx with rfl | hx
      · exact .inr (List.mem_map_of_mem hs)
      · exact hcontents s hs x hx
  · intro hown domain qtype m hm
    rw [compileRules_blockingMatch, refRules_effectiveRules hjson hroom] at hm
    obtain ⟨r, hr, hsource, hrule⟩ := exists_of_reference hm
    obtain ⟨s, hs, hr⟩ := List.mem_flatMap.1 hr
    obtain ⟨line, hline, hraw⟩ := raw_of_mem_sectionRules hr
    refine ⟨r.raw, ?_, hrule⟩
    rw [← hsource, hown s hs r hr, ← hraw]
    exact holdsLine_of_mem_ruleSections env config hs hline

end

/-! ### Two lists -/

/-- A list with an id. -/
def subscription (id : Text) : FilterSubscription where
  id := id
  name := id
  url := "https://lists.example/".toList ++ id
  enabled := true
  ruleCount := 0
  blockRuleCount := 0
  allowRuleCount := 0
  ignoredRuleCount := 0
  ignoredCommentCount := 0
  ignoredRegexCount := 0
  ignoredUnsupportedCount := 0
  ignoredInvalidCount := 0
  lastUpdated := none
  lastError := none

/-- Two lists, and a custom rule. -/
def twoLists : AppConfig :=
  { (default : AppConfig) with
    useFilters := true
    filters := [subscription ['a'], subscription ['b']]
    blacklist := "||custom.example^".toList }

/-- Their contents: the first one names the second in a marker of its own if it is `forged`. -/
def listContents (forged : Bool) (id : Text) : Option Text :=
  if id = ['a'] then
    some ((if forged then "! dnsblackhole-source:\"f:b\"\n" else "! title\n").toList ++
      "||victim.example^".toList)
  else if id = ['b'] then some "||ads.example^".toList
  else none

/-- What the program reads with these lists. -/
def listsOf (forged : Bool) : Environment where
  parseUrl := Config.noUrl
  jsonString := plainJsonString
  quote := fun name => ['"'] ++ name ++ ['"']
  filterCache := listContents forged
  systemHosts := none

/-- A block of the first list is put down to the second, which does not have the rule. -/
theorem forgedMarker_misattributes :
    ∃ m, (compileRules plainJsonString (buildEffectiveRules (listsOf true) twoLists)).blockingMatch
        "victim.example".toList 1 = some m ∧
      m.source = filterSourceTag ['b'] ∧ m.rule = "||victim.example^".toList ∧
      ¬ Attributed (listsOf true) twoLists m := by
  have hsome : ((compileRules plainJsonString (buildEffectiveRules
      (listsOf true) twoLists)).blockingMatch "victim.example".toList 1).any (fun m =>
        m.source = filterSourceTag ['b'] ∧ m.rule = "||victim.example^".toList ∧
          m.dnsrewrite = none) := by
    decide +kernel
  obtain ⟨m, hm, hfields⟩ := (Option.any_eq_true _ _).1 hsome
  obtain ⟨hsource, hrule, hrewrite⟩ := of_decide_eq_true hfields
  refine ⟨m, hm, hsource, hrule, ?_⟩
  rintro ⟨line, hline, hrule'⟩
  have heq : line = "||victim.example^".toList := by
    rcases hrule' with h | ⟨h, -⟩
    · exact h.symm.trans hrule
    · rw [hrewrite] at h
      cases h
  rw [hsource, heq] at hline
  rcases hline with ⟨filter, hfilter, -, htag, content, hcontent, l, hl, hraw⟩ | ⟨htag, -⟩
  · have hid : filter.id = ['b'] := List.append_cancel_left htag
    rw [hid] at hcontent
    cases hcontent
    have hnone : ∀ l ∈ Text.lines "||ads.example^".toList,
        Text.trim l ≠ "||victim.example^".toList := by
      decide
    exact hnone l hl hraw
  · exact absurd htag (by decide)

/-- Without the marker it is put down to the first. -/
theorem honestLists_attributed :
    ∃ m, (compileRules plainJsonString (buildEffectiveRules (listsOf false) twoLists)).blockingMatch
        "victim.example".toList 1 = some m ∧ m.source = filterSourceTag ['a'] ∧
      Attributed (listsOf false) twoLists m := by
  have hsome : ((compileRules plainJsonString (buildEffectiveRules
      (listsOf false) twoLists)).blockingMatch "victim.example".toList 1).any (fun m =>
        m.source = filterSourceTag ['a']) := by
    decide +kernel
  obtain ⟨m, hm, hsource⟩ := (Option.any_eq_true _ _).1 hsome
  have hjson : ∀ s ∈ ruleSections (listsOf false) twoLists,
      s.Encodes plainJsonString := by decide +kernel
  have hroom : (sectionNames plainJsonString
      (ruleSections (listsOf false) twoLists)).dedup.length < 65536 := by decide +kernel
  have hown : ∀ s ∈ ruleSections (listsOf false) twoLists, OwnSource plainJsonString
      (disabledLines (buildEffectiveRules (listsOf false) twoLists)) s := by decide +kernel
  exact ⟨m, hm, of_decide_eq_true hsource,
    (blocks_attributed hjson hroom).2.2 hown "victim.example".toList 1 m hm⟩

end DnsBlackhole.Service
