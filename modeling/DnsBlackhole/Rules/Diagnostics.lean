/-
  Rule diagnostics (`analyze_rules` of `dns/rules.rs`).

  A line is flagged by what it says on its own; what a text means also depends on the lines
  that a line disables, and a hosts line has several rules.

  * `refRules_eraseIdx`: a line without rules, whose target has none either, can be deleted;
  * `plain_of_target`: the target of a flagged line is a rule without modifiers;
  * **`truthful_iff`**: what is said about a line is true of every text if and only if a line
    that is flagged has no rule and disables none.
-/
import DnsBlackhole.Rules.Blocked
import DnsBlackhole.Rules.Canonical
import DnsBlackhole.Rules.Statistics

namespace DnsBlackhole.Rules
open Lib Text

/-! ## The analysis -/

structure RuleLineDiagnostic where
  line : ℕ
  severity : Text
  reason : Text
  message : Text

structure RuleAnalysis where
  summary : RuleSummary
  disabledRules : ℕ
  diagnostics : List RuleLineDiagnostic

/-- The severity, the reason and the message for a line with these counts. -/
def lineDiagnostic (summary : RuleSummary) : Option (Text × Text × Text) :=
  if 0 < summary.ignoredRegexRules then
    some ("warning".toList, "regex".toList, "暂不支持正则表达式规则，该行不会生效".toList)
  else if 0 < summary.ignoredUnsupportedRules then
    some ("warning".toList, "unsupported".toList, "包含不支持的修饰符，该行不会生效".toList)
  else if 0 < summary.ignoredInvalidRules then
    some ("error".toList, "invalid".toList, "规则格式或域名无效，该行不会生效".toList)
  else none

section
variable (jsonString : Text → Option Text)

def summarizeRules (raw : Text) : RuleSummary :=
  summaryOf (scanRulesWithDisabled jsonString raw [])

def analyzeRules (raw : Text) : RuleAnalysis where
  summary := summarizeRules jsonString raw
  disabledRules := raw.lines.countP fun line => (badfilterTarget line).isSome
  diagnostics := raw.lines.zipIdx.filterMap fun (line, index) =>
    (lineDiagnostic (summarizeRules jsonString line)).map fun (severity, reason, message) =>
      ⟨index + 1, severity, reason, message⟩

/-- The line with this index is flagged. -/
def Flagged (raw : Text) (index : ℕ) : Prop :=
  ∃ diagnostic ∈ (analyzeRules jsonString raw).diagnostics, diagnostic.line = index + 1

/-! ## What is said, and when it is true -/

/-- What the analysis says of a line is true of every text with the line: flagged, it can be
    deleted, and otherwise it is a comment, a marker, a `badfilter` line or counted. -/
structure Truthful (line : Text) : Prop where
  deletable : ∀ raw raw' index, raw.lines[index]? = some line → Flagged jsonString raw index →
    raw'.lines = raw.lines.eraseIdx index → ∀ domain qtype,
      (compileRules jsonString raw').blockingMatch domain qtype =
        (compileRules jsonString raw).blockingMatch domain qtype
  counted : ∀ raw index, raw.lines[index]? = some line → ¬ Flagged jsonString raw index →
    ¬ (line.trim = [] ∨ line.trim.startsWith '#' ∨ line.trim.startsWith '!') →
    line.trim.stripPrefix sourceMarkerPrefix = none → badfilterTarget line = none →
      0 < (summarizeRules jsonString line).blockRules + (summarizeRules jsonString line).allowRules

end

section
variable (jsonString : Text → Option Text)

/-- The line has no rule, and the line that it disables has none either. -/
structure NoEffect (line : Text) : Prop where
  rules : lineRules jsonString line = []
  target : ∀ target, badfilterTarget line = some target → target.trim = target →
    lineRules jsonString target = []

end

/-! ## Events without rules -/

section
variable {jsonString : Text → Option Text} {disabled disabled' : List Text} {line : Text}

theorem mem_scanLine_of_not_marker (hmarker : line.trim.stripPrefix sourceMarkerPrefix = none)
    {e : ScanEvent} (h : e ∈ scanLine jsonString disabled line) : ∃ parsed, e = .rule parsed := by
  unfold scanLine at h
  dsimp only at h
  rw [hmarker] at h
  dsimp only at h
  split at h
  · cases h
  · split at h
    · obtain ⟨domain, -, rfl⟩ := List.mem_map.1 h
      cases domain <;> exact ⟨_, rfl⟩
    · exact ⟨_, List.mem_singleton.1 h⟩

/-- The event counts for the rules of a text. -/
def ScanEvent.Counts : ScanEvent → Bool
  | .source _ => true
  | .rule parsed => (ScanEvent.rule parsed).rule?.isSome

theorem rulesOfEvents_filter (known : List Text) (source : Text) (es : List ScanEvent) :
    rulesOfEvents known source (es.filter ScanEvent.Counts) = rulesOfEvents known source es := by
  induction es generalizing known source with
  | nil => rfl
  | cons e es ih =>
    cases e with
    | source name => exact ih _ _
    | rule parsed =>
      cases parsed with
      | block rule | allow rule => exact congrArg (List.cons _) (ih _ _)
      | ignored reason | disable => exact ih _ _

theorem filter_scanLine_eq_nil (hmarker : line.trim.stripPrefix sourceMarkerPrefix = none)
    (h : lineRules jsonString line = []) :
    (scanLine jsonString [] line).filter ScanEvent.Counts = [] := by
  rw [List.filter_eq_nil_iff]
  intro e he
  obtain ⟨parsed, rfl⟩ := mem_scanLine_of_not_marker hmarker he
  have hnone := List.filterMap_eq_nil_iff.1 h _ he
  rw [ScanEvent.Counts, hnone]
  exact Bool.false_ne_true

theorem filter_scanLine_congr
    (h : line.trim ∈ disabled ↔ line.trim ∈ disabled' ∨
      line.trim ∈ disabled ∧ lineRules jsonString line = []) :
    (scanLine jsonString disabled line).filter ScanEvent.Counts =
      (scanLine jsonString disabled' line).filter ScanEvent.Counts := by
  cases hmarker : line.trim.stripPrefix sourceMarkerPrefix with
  | some encoded => rw [scanLine_of_marker hmarker, scanLine_of_marker hmarker]
  | none =>
    by_cases hmem : line.trim ∈ disabled
    · rw [scanLine_of_mem hmarker hmem]
      by_cases hmem' : line.trim ∈ disabled'
      · rw [scanLine_of_mem hmarker hmem']
      · rw [scanLine_of_not_mem hmem',
          filter_scanLine_eq_nil hmarker ((h.1 hmem).resolve_left hmem').2]
        rfl
    · have hmem' : line.trim ∉ disabled' := fun hmem' => hmem (h.2 (.inl hmem'))
      rw [scanLine_of_not_mem hmem, scanLine_of_not_mem hmem']

end

/-! ## Lines on their own -/

section
variable {jsonString : Text → Option Text} {line target raw : Text}

/-- The modifiers of a line but for the `badfilter` ones. -/
def keptModifiers (modifiers : Text) : List Text :=
  (modifiers.split (· == ',')).filter fun modifier => !modifier.eqIgnoreAsciiCase badfilterName

theorem not_mem_keptModifiers {modifiers modifier : Text} (h : modifier ∈ keptModifiers modifiers) :
    ',' ∉ modifier := fun hmem =>
  not_of_mem_split (List.mem_of_mem_filter h) hmem (beq_self_eq_true ',')

theorem badfilterTarget_eq_some (h : badfilterTarget line = some target) :
    ∃ pattern modifiers : Text, line.trim = pattern ++ '$' :: modifiers ∧ '$' ∉ pattern ∧
      (keptModifiers modifiers).length < (modifiers.split (· == ',')).length ∧
      target = if keptModifiers modifiers = [] then pattern
        else pattern ++ '$' :: join (keptModifiers modifiers) [','] := by
  obtain ⟨⟨pattern, modifiers⟩, hsplit, htarget⟩ := Option.bind_eq_some_iff.1 h
  obtain ⟨htrim, hpattern⟩ := splitOnce_eq_some hsplit
  dsimp only at htarget
  split_ifs at htarget with hlength hnil
  · refine ⟨pattern, modifiers, htrim, hpattern, ?_, ?_⟩
    · exact lt_of_le_of_ne (List.length_filter_le _ _) hlength
    · rw [keptModifiers, if_pos hnil]
      exact (Option.some.inj htarget).symm
  · refine ⟨pattern, modifiers, htrim, hpattern, ?_, ?_⟩
    · exact lt_of_le_of_ne (List.length_filter_le _ _) hlength
    · rw [keptModifiers, if_neg hnil]
      exact (Option.some.inj htarget).symm

theorem badfilterTarget_ne (h : badfilterTarget line = some target) : target ≠ line.trim := by
  obtain ⟨pattern, modifiers, htrim, -, hlength, rfl⟩ := badfilterTarget_eq_some h
  rw [htrim]
  split_ifs with hnil
  · intro heq
    exact absurd (List.append_cancel_left (heq.symm.trans (List.append_nil pattern).symm))
      (List.cons_ne_nil _ _)
  · intro heq
    have hjoin : join (keptModifiers modifiers) [','] = modifiers :=
      (List.cons.inj (List.append_cancel_left heq)).2
    have hsplit := split_join hnil fun modifier => not_mem_keptModifiers
    rw [hjoin] at hsplit
    rw [hsplit] at hlength
    exact lt_irrefl _ hlength

theorem scanRules_line (h : '\n' ∉ line) (hne : line ≠ []) :
    scanRulesWithDisabled jsonString line [] = scanLine jsonString [] line := by
  rw [scanRulesWithDisabled, disabledLines, lines_of_not_mem h hne, List.flatMap_singleton,
    List.append_nil]
  refine scanLine_of_not_mem fun hmem => ?_
  obtain ⟨other, hother, htarget⟩ := List.mem_filterMap.1 hmem
  rw [List.mem_singleton.1 hother] at htarget
  exact badfilterTarget_ne htarget rfl

theorem flagged_iff {index : ℕ} : Flagged jsonString raw index ↔ ∃ line,
    raw.lines[index]? = some line ∧ lineDiagnostic (summarizeRules jsonString line) ≠ none := by
  constructor
  · rintro ⟨diagnostic, hmem, hline⟩
    obtain ⟨⟨line, index'⟩, hzip, hdiagnostic⟩ := List.mem_filterMap.1 hmem
    obtain ⟨⟨severity, reason, message⟩, hsome, rfl⟩ := Option.map_eq_some_iff.1 hdiagnostic
    cases Nat.succ.inj hline
    exact ⟨line, List.mk_mem_zipIdx_iff_getElem?.1 hzip, fun hnone => by
      cases hsome.symm.trans hnone⟩
  · rintro ⟨line, hget, hne⟩
    obtain ⟨⟨severity, reason, message⟩, hsome⟩ := Option.ne_none_iff_exists'.1 hne
    refine ⟨⟨index + 1, severity, reason, message⟩, List.mem_filterMap.2 ⟨(line, index), ?_, ?_⟩,
      rfl⟩
    · exact List.mk_mem_zipIdx_iff_getElem?.2 hget
    · dsimp only
      rw [hsome]
      rfl

theorem flagged_iff_of_getElem {index : ℕ} (h : raw.lines[index]? = some line) :
    Flagged jsonString raw index ↔ lineDiagnostic (summarizeRules jsonString line) ≠ none := by
  rw [flagged_iff, h]
  exact ⟨fun ⟨_, heq, hne⟩ => Option.some.inj heq ▸ hne, fun hne => ⟨line, rfl, hne⟩⟩

/-! ## Deleting a line -/

/-- **A line without effect** can be deleted. -/
theorem refRules_eraseIdx {raw' : Text} {index : ℕ} (h : NoEffect jsonString line)
    (hline : raw.lines[index]? = some line)
    (hmarker : line.trim.stripPrefix sourceMarkerPrefix = none)
    (hraw' : raw'.lines = raw.lines.eraseIdx index) :
    refRules jsonString raw' = refRules jsonString raw := by
  obtain ⟨before, after, hlines, hlines'⟩ : ∃ before after,
      raw.lines = before ++ line :: after ∧ raw'.lines = before ++ after := by
    obtain ⟨hlt, rfl⟩ := List.getElem?_eq_some_iff.1 hline
    refine ⟨raw.lines.take index, raw.lines.drop (index + 1), ?_, ?_⟩
    · rw [List.getElem_cons_drop, List.take_append_drop]
    · rw [hraw', List.eraseIdx_eq_take_drop_succ]
  have hmem : ∀ text, text ∈ disabledLines raw ↔
      text ∈ disabledLines raw' ∨ badfilterTarget line = some text := by
    intro text
    simp only [disabledLines, hlines, hlines', List.mem_filterMap, List.mem_append, List.mem_cons]
    constructor
    · rintro ⟨other, hother | rfl | hother, htarget⟩
      · exact .inl ⟨other, .inl hother, htarget⟩
      · exact .inr htarget
      · exact .inl ⟨other, .inr hother, htarget⟩
    · rintro (⟨other, hother | hother, htarget⟩ | htarget)
      · exact ⟨other, .inl hother, htarget⟩
      · exact ⟨other, .inr (.inr hother), htarget⟩
      · exact ⟨line, .inr (.inl rfl), htarget⟩
  have hother : ∀ other, (scanLine jsonString (disabledLines raw') other).filter ScanEvent.Counts =
      (scanLine jsonString (disabledLines raw) other).filter ScanEvent.Counts := by
    intro other
    refine (filter_scanLine_congr ⟨fun hmem' => ?_, fun h => ?_⟩).symm
    · refine ((hmem _).1 hmem').imp_right fun htarget => ⟨hmem', ?_⟩
      rw [← h.target _ htarget (trim_trim other), lineRules_congr (trim_trim other)]
    · exact h.elim (fun hmem' => (hmem _).2 (.inl hmem')) And.left
  have hself : (scanLine jsonString (disabledLines raw) line).filter ScanEvent.Counts = [] := by
    by_cases hdisabled : line.trim ∈ disabledLines raw
    · rw [scanLine_of_mem hmarker hdisabled]
      rfl
    · rw [scanLine_of_not_mem hdisabled, filter_scanLine_eq_nil hmarker h.rules]
  rw [refRules, refRules, ← rulesOfEvents_filter, ← rulesOfEvents_filter _ _
    (scanRulesWithDisabled jsonString raw [])]
  congr 1
  rw [scanRulesWithDisabled, scanRulesWithDisabled, List.append_nil, List.append_nil,
    List.filter_flatMap, List.filter_flatMap, hlines, hlines', List.flatMap_append,
    List.flatMap_append, List.flatMap_cons, hself, List.nil_append, funext hother]

end

/-! ## Modifiers -/

section
variable {parsed parsed' : Modifiers} {modifier modifiers : Text}

theorem parseModifier_badfilter (h : modifier.eqIgnoreAsciiCase badfilterName)
    (parsed : Modifiers) :
    parseModifier parsed modifier = some { parsed with badfilter := true } := by
  have hlower : modifier.toAsciiLowercase = "badfilter".toList := by
    rw [eq_of_beq h]
    decide
  have hrewrite : stripPrefixIgnoreAsciiCase modifier "dnsrewrite=".toList = none := by
    have hlength : modifier.length = 9 := by
      have hmap := congrArg List.length hlower
      rwa [Text.toAsciiLowercase, List.length_map] at hmap
    refine if_neg fun heq => ?_
    have hmap := congrArg List.length (eq_of_beq heq)
    rw [Text.toAsciiLowercase, Text.toAsciiLowercase, List.length_map, List.length_map,
      List.length_take, hlength] at hmap
    exact absurd hmap (by decide)
  have himportant : "badfilter".toList ≠ "important".toList := by decide
  unfold parseModifier
  rw [hrewrite]
  dsimp only
  rw [hlower, if_neg himportant, if_pos rfl]

theorem isSome_parseModifier (parsed parsed' : Modifiers) (modifier : Text) :
    (parseModifier parsed modifier).isSome = (parseModifier parsed' modifier).isSome := by
  unfold parseModifier
  cases stripPrefixIgnoreAsciiCase modifier "dnsrewrite=".toList with
  | some value => simp only [Option.isSome_map]
  | none =>
    dsimp only
    split_ifs
    · rfl
    · rfl
    · cases modifier.toAsciiLowercase.stripPrefix "dnstype=".toList with
      | some value => simp only [Option.isSome_map]
      | none =>
        cases modifier.toAsciiLowercase.stripPrefix "denyallow=".toList with
        | none => rfl
        | some value =>
          dsimp only
          cases (value.split (· == '|')).mapM normalizeDomain with
          | none => rfl
          | some domains =>
            rw [Option.bind_some, Option.bind_some]
            split_ifs
            · rfl
            · rfl

theorem isSome_foldlM_parseModifier (l : List Text) (parsed : Modifiers) :
    (l.foldlM parseModifier parsed).isSome ↔
      ∀ modifier ∈ l, (parseModifier noModifiers modifier).isSome := by
  induction l generalizing parsed with
  | nil => exact iff_of_true rfl fun modifier h => absurd h List.not_mem_nil
  | cons modifier l ih =>
    rw [List.foldlM_cons, List.forall_mem_cons, isSome_parseModifier noModifiers parsed]
    cases parseModifier parsed modifier with
    | none => exact iff_of_false Bool.false_ne_true fun h => Bool.false_ne_true h.1
    | some next => exact (ih next).trans (and_iff_right rfl).symm

theorem badfilter_of_parseModifier (hbad : parsed.badfilter)
    (h : parseModifier parsed modifier = some parsed') : parsed'.badfilter := by
  unfold parseModifier at h
  split at h
  · obtain ⟨action, -, rfl⟩ := Option.map_eq_some_iff.1 h
    exact hbad
  · dsimp only at h
    split_ifs at h
    · cases h
      exact hbad
    · cases h
      rfl
    · split at h
      · obtain ⟨types, -, rfl⟩ := Option.map_eq_some_iff.1 h
        exact hbad
      · obtain ⟨domains, -, h⟩ := Option.bind_eq_some_iff.1 h
        split_ifs at h
        cases h
        exact hbad
      · cases h

theorem badfilter_of_foldlM {l : List Text} (hmem : modifier ∈ l)
    (hmodifier : modifier.eqIgnoreAsciiCase badfilterName)
    (h : l.foldlM parseModifier parsed = some parsed') : parsed'.badfilter := by
  have hkeep : ∀ {l : List Text} {parsed : Modifiers}, parsed.badfilter →
      l.foldlM parseModifier parsed = some parsed' → parsed'.badfilter := by
    intro l
    induction l with
    | nil =>
      intro parsed hbad h
      cases h
      exact hbad
    | cons first l ih =>
      intro parsed hbad h
      rw [List.foldlM_cons] at h
      obtain ⟨next, hnext, h⟩ := Option.bind_eq_some_iff.1 h
      exact ih (badfilter_of_parseModifier hbad hnext) h
  induction l generalizing parsed with
  | nil => cases hmem
  | cons first l ih =>
    rw [List.foldlM_cons] at h
    obtain ⟨next, hnext, h⟩ := Option.bind_eq_some_iff.1 h
    rcases List.mem_cons.1 hmem with rfl | hmem
    · rw [parseModifier_badfilter hmodifier] at hnext
      cases hnext
      exact hkeep rfl h
    · exact ih hmem h

theorem exists_badfilter
    (h : (keptModifiers modifiers).length < (modifiers.split (· == ',')).length) :
    ∃ modifier ∈ modifiers.split (· == ','), modifier.eqIgnoreAsciiCase badfilterName := by
  by_contra hnone
  push Not at hnone
  refine absurd h (not_lt.2 (Eq.ge ?_))
  rw [keptModifiers, List.filter_eq_self.2]
  intro modifier hmem
  rw [Bool.not_eq_true', Bool.eq_false_iff]
  exact hnone modifier hmem

/-- The modifiers of a `badfilter` line that are not understood are not understood without
    `badfilter` either, unless nothing is left of them. -/
theorem join_keptModifiers_eq_nil
    (hnone : parseModifiers modifiers = none)
    (hsome : (parseModifiers (join (keptModifiers modifiers) [','])).isSome) :
    join (keptModifiers modifiers) [','] = [] := by
  by_contra hne
  have hkept : keptModifiers modifiers ≠ [] := fun hnil => hne (by rw [hnil]; rfl)
  rw [parseModifiers, if_neg hne, split_join hkept fun modifier => not_mem_keptModifiers,
    isSome_foldlM_parseModifier] at hsome
  unfold parseModifiers at hnone
  split_ifs at hnone
  refine absurd ((isSome_foldlM_parseModifier _ noModifiers).2 fun modifier hmem => ?_)
    (by rw [hnone]; exact Bool.false_ne_true)
  by_cases hmodifier : modifier.eqIgnoreAsciiCase badfilterName
  · rw [parseModifier_badfilter hmodifier]
    rfl
  · refine hsome modifier (List.mem_filter.2 ⟨hmem, ?_⟩)
    rw [Bool.not_eq_true', Bool.eq_false_iff]
    exact hmodifier

end

/-! ## Filter lines -/

/-- What stands behind the `$` of a line. -/
def filterModifiers (line : Text) : Text :=
  (((splitAllow line).2.splitOnce (· == '$')).getD ((splitAllow line).2, [])).2

section
variable {line : Text}

theorem filterModifiers_of_not_mem (h : '$' ∉ line) : filterModifiers line = [] := by
  have hrest : '$' ∉ (splitAllow line).2 := by
    unfold splitAllow
    cases hstart : line.stripPrefix ['@', '@'] with
    | none => exact h
    | some rest =>
      rw [stripPrefix_eq_some.1 hstart] at h
      exact fun hmem => h (List.mem_append_right _ hmem)
  rw [filterModifiers, splitOnce_eq_none.2 hrest]
  rfl

theorem filterModifiers_append {pattern : Text} (h : '$' ∉ pattern) (modifiers : Text) :
    filterModifiers (pattern ++ '$' :: modifiers) = modifiers := by
  obtain ⟨rest, hrest, hmem⟩ : ∃ rest, (splitAllow (pattern ++ '$' :: modifiers)).2 =
      rest ++ '$' :: modifiers ∧ '$' ∉ rest := by
    unfold splitAllow
    cases hstart : (pattern ++ '$' :: modifiers).stripPrefix ['@', '@'] with
    | none => exact ⟨pattern, rfl, h⟩
    | some rest =>
      have hsplit := stripPrefix_eq_some.1 hstart
      match pattern, h, hsplit with
      | [], _, hsplit => cases hsplit
      | [_], _, hsplit => cases hsplit
      | _ :: _ :: pattern, h, hsplit =>
        cases hsplit
        exact ⟨pattern, rfl, fun hmem => h (List.mem_append_right ['@', '@'] hmem)⟩
  rw [filterModifiers, hrest, splitOnce_append hmem]
  rfl

theorem parseFilterRule_of_none (h : parseModifiers (filterModifiers line) = none) :
    parseFilterRule line = .ignored .unsupported := by
  unfold parseFilterRule
  dsimp only
  rw [show (((splitAllow line).2.splitOnce (· == '$')).getD ((splitAllow line).2, [])).2 =
    filterModifiers line from rfl, h]

theorem parseFilterRule_of_badfilter {modifiers : Modifiers}
    (h : parseModifiers (filterModifiers line) = some modifiers) (hbad : modifiers.badfilter) :
    parseFilterRule line = .disable := by
  unfold parseFilterRule
  dsimp only
  rw [show (((splitAllow line).2.splitOnce (· == '$')).getD ((splitAllow line).2, [])).2 =
    filterModifiers line from rfl, h]
  exact if_pos hbad

/-- A rule that only has a domain. -/
structure RuleData.Plain (rule : RuleData) : Prop where
  important : rule.important = false
  queryTypes : rule.queryTypes = .any
  denyallow : rule.denyallow = []
  dnsrewrite : rule.dnsrewrite = none

theorem plain_of_parseFilterRule {rule : Bool × RuleData}
    (hrule : (ScanEvent.rule (parseFilterRule line)).rule? = some rule)
    (h : filterModifiers line = []) : rule.2.Plain := by
  unfold parseFilterRule at hrule
  dsimp only at hrule
  rw [show (((splitAllow line).2.splitOnce (· == '$')).getD ((splitAllow line).2, [])).2 =
    filterModifiers line from rfl, h, show parseModifiers [] = some noModifiers from rfl] at hrule
  dsimp only at hrule
  rw [if_neg (show ¬ noModifiers.badfilter = true from Bool.false_ne_true)] at hrule
  split at hrule
  · cases hrule
  · rename_i data hdata
    unfold ruleOfLine at hrule
    split_ifs at hrule
    · cases hrule
    · cases hrule
      exact ⟨rfl, rfl, rfl, rfl⟩
    · cases hrule
      exact ⟨rfl, rfl, rfl, rfl⟩

theorem parseFilterRule_badfilter {pattern modifiers : Text} (h : '$' ∉ pattern)
    (hbad : (keptModifiers modifiers).length < (modifiers.split (· == ',')).length)
    (hsome : (parseModifiers modifiers).isSome) :
    parseFilterRule (pattern ++ '$' :: modifiers) = .disable := by
  obtain ⟨parsed, hparsed⟩ := Option.isSome_iff_exists.1 hsome
  refine parseFilterRule_of_badfilter ((filterModifiers_append h modifiers).symm ▸ hparsed) ?_
  obtain ⟨modifier, hmem, hmodifier⟩ := exists_badfilter hbad
  unfold parseModifiers at hparsed
  split_ifs at hparsed with hnil
  · rw [hnil] at hmem
    rw [List.mem_singleton.1 hmem] at hmodifier
    exact absurd hmodifier (by decide)
  · exact badfilter_of_foldlM hmem hmodifier hparsed

end

/-! ## The rules of flagged lines -/

section
variable {jsonString : Text → Option Text} {line target : Text}

theorem plain_of_hosts {kind : SimpleKind} {domains : List (Option Text)}
    (hhosts : parseHostsRules line.trim = some (kind, domains)) {rule : Bool × RuleData}
    (h : rule ∈ lineRules jsonString line) : rule.1 = false ∧ rule.2.Plain := by
  obtain ⟨e, he, hrule⟩ := List.mem_filterMap.1 h
  unfold scanLine at he
  dsimp only at he
  split at he
  · obtain ⟨name, -, rfl⟩ := Option.map_eq_some_iff.1 (Option.mem_toList.1 he)
    cases hrule
  · rw [if_neg List.not_mem_nil, hhosts] at he
    obtain ⟨domain, -, rfl⟩ := List.mem_map.1 he
    cases domain with
    | none => cases hrule
    | some domain =>
      cases hrule
      exact ⟨rfl, rfl, rfl, rfl, rfl⟩

theorem scanLine_of_not_hosts (hmarker : line.trim.stripPrefix sourceMarkerPrefix = none)
    (hhosts : parseHostsRules line.trim = none) :
    scanLine jsonString [] line = [.rule (parseRule line)] := by
  unfold scanLine
  dsimp only
  rw [hmarker]
  dsimp only
  rw [if_neg List.not_mem_nil, hhosts]

theorem not_marker_of_flagged
    (h : lineDiagnostic (summaryOf (scanLine jsonString [] line)) ≠ none) :
    line.trim.stripPrefix sourceMarkerPrefix = none := by
  by_contra hmarker
  obtain ⟨encoded, hencoded⟩ := Option.ne_none_iff_exists'.1 hmarker
  rw [scanLine_of_marker hencoded] at h
  cases hjson : jsonString encoded <;> rw [hjson] at h <;> exact h rfl

theorem parseRule_of_flagged
    (h : lineDiagnostic (summaryOf (scanLine jsonString [] line)) ≠ none)
    (hhosts : parseHostsRules line.trim = none) :
    parseRule line = parseFilterRule line.trim ∧ parseRule line ≠ .disable ∧
      (ScanEvent.rule (parseRule line)).rule? = none := by
  rw [scanLine_of_not_hosts (not_marker_of_flagged h) hhosts] at h
  refine ⟨?_, fun hdisable => ?_, ?_⟩
  · unfold parseRule at h ⊢
    dsimp only at h ⊢
    split_ifs at h ⊢
    · exact absurd rfl h
    · rfl
  · rw [hdisable] at h
    exact h rfl
  · cases hparsed : parseRule line with
    | block rule | allow rule =>
      rw [hparsed] at h
      exact absurd rfl h
    | ignored reason | disable => rfl

theorem parseHostsRules_append {pattern modifiers : Text}
    (h : parseHostsRules (pattern ++ '$' :: modifiers) ≠ none) (modifiers' : Text) :
    parseHostsRules (pattern ++ '$' :: modifiers') ≠ none := by
  unfold parseHostsRules at h ⊢
  cases hwords : (pattern ++ '$' :: modifiers).splitWhitespace with
  | nil =>
    rw [hwords] at h
    exact absurd rfl h
  | cons ip parts =>
    rw [hwords] at h
    cases hkind : hostsKinds.lookup ip with
    | none =>
      dsimp only at h
      rw [hkind] at h
      exact absurd rfl h
    | some kind =>
      have hdollar : '$' ∉ ip := by
        have hall : ∀ entry ∈ hostsKinds, '$' ∉ entry.1 := by decide
        obtain ⟨before, after, hsplit, -⟩ := List.lookup_eq_some_iff.1 hkind
        exact hall (ip, kind) (hsplit ▸ by simp)
      obtain ⟨parts', hwords'⟩ := exists_words_eq_cons (by decide) hdollar hwords modifiers'
      rw [show (pattern ++ '$' :: modifiers').splitWhitespace = ip :: parts' from hwords']
      dsimp only
      rw [hkind]
      exact Option.some_ne_none _

/-- **The target of a flagged line** has no modifiers. -/
theorem plain_of_target
    (hflagged : lineDiagnostic (summaryOf (scanLine jsonString [] line)) ≠ none)
    (htarget : badfilterTarget line = some target) (htrim : target.trim = target)
    {rule : Bool × RuleData} (h : rule ∈ lineRules jsonString target) : rule.2.Plain := by
  cases hhosts : parseHostsRules target.trim with
  | some hosts => exact (plain_of_hosts hhosts h).2
  | none =>
    have hmarker : target.trim.stripPrefix sourceMarkerPrefix = none := by
      by_contra hmarker
      obtain ⟨encoded, hencoded⟩ := Option.ne_none_iff_exists'.1 hmarker
      rw [lineRules_of_marker hencoded] at h
      cases h
    obtain ⟨e, he, hrule⟩ := List.mem_filterMap.1 h
    rw [scanLine_of_not_hosts hmarker hhosts, List.mem_singleton] at he
    subst he
    have hfilter : parseRule target = parseFilterRule target := by
      unfold parseRule at hrule ⊢
      dsimp only at hrule ⊢
      split_ifs at hrule ⊢
      · cases hrule
      · rw [htrim]
    rw [hfilter] at hrule
    refine plain_of_parseFilterRule hrule ?_
    obtain ⟨pattern, modifiers, hline, hpattern, hbad, rfl⟩ := badfilterTarget_eq_some htarget
    split_ifs at hrule hhosts htrim ⊢ with hkept
    · exact filterModifiers_of_not_mem hpattern
    · rw [filterModifiers_append hpattern]
      refine join_keptModifiers_eq_nil ?_ ?_
      · -- with its `badfilter` understood, the line would not be flagged
        have hhosts' : parseHostsRules line.trim = none := by
          rw [hline]
          by_contra hne
          rw [htrim] at hhosts
          exact parseHostsRules_append hne _ hhosts
        obtain ⟨hparse, hdisable, -⟩ := parseRule_of_flagged hflagged hhosts'
        by_contra hne
        rw [hparse, hline] at hdisable
        exact hdisable (parseFilterRule_badfilter hpattern hbad (Option.isSome_iff_ne_none.2 hne))
      · by_contra hnone
        rw [Option.not_isSome_iff_eq_none] at hnone
        rw [parseFilterRule_of_none ((filterModifiers_append hpattern _).symm ▸ hnone)] at hrule
        cases hrule

end

/-! ## Texts that show an effect -/

section
variable {jsonString : Text → Option Text} {line target raw : Text}

/-- **Plain rules block** a domain if one is for it and none allows it. -/
theorem blocked_of_plain {rules : List (Bool × RuleData)} (h : ∀ rule ∈ rules, rule.2.Plain)
    (domain : Text) (qtype : UInt16) : Blocked (asRefRules rules) domain qtype ↔
      (∀ r ∈ asRefRules rules, r.IsFor domain → r.isAllow = false) ∧
        ∃ r ∈ asRefRules rules, r.isAllow = false ∧ r.IsFor domain := by
  have hplain : ∀ r ∈ asRefRules rules, r.important = false ∧ r.dnsrewrite = none ∧
      r.applies domain qtype := by
    intro r hr
    obtain ⟨rule, hrule, rfl⟩ := List.mem_map.1 hr
    obtain ⟨himportant, htypes, hdenyallow, hrewrite⟩ := h rule hrule
    refine ⟨himportant, hrewrite, ?_⟩
    simp [RefRule.applies, RefRule.ofData, htypes, hdenyallow, QueryTypes.contains]
  have hrewrite : ¬ HasRewrite (asRefRules rules) domain qtype := by
    rintro ⟨r, hr, -, hsome, -⟩
    rw [(hplain r hr).2.1] at hsome
    cases hsome
  have himportant : ∀ isAllow, ¬ HasRule (asRefRules rules) domain qtype isAllow true := by
    rintro isAllow ⟨r, hr, -, himportant, -⟩
    rw [(hplain r hr).1] at himportant
    cases himportant
  have hordinary : ∀ isAllow, HasRule (asRefRules rules) domain qtype isAllow false ↔
      ∃ r ∈ asRefRules rules, r.isAllow = isAllow ∧ r.IsFor domain := by
    intro isAllow
    constructor
    · rintro ⟨r, hr, hallow, -, -, hfor, -⟩
      exact ⟨r, hr, hallow, hfor⟩
    · rintro ⟨r, hr, hallow, hfor⟩
      obtain ⟨himportant, hrewrite, happlies⟩ := hplain r hr
      exact ⟨r, hr, hallow, himportant, hrewrite, hfor, happlies⟩
  have hnone : (¬ ∃ r ∈ asRefRules rules, r.isAllow = true ∧ r.IsFor domain) ↔
      ∀ r ∈ asRefRules rules, r.IsFor domain → r.isAllow = false := by
    constructor
    · intro hnone r hr hfor
      by_contra hallow
      exact hnone ⟨r, hr, Bool.of_not_eq_false hallow, hfor⟩
    · rintro hall ⟨r, hr, hallow, hfor⟩
      cases hallow.symm.trans (hall r hr hfor)
  rw [Blocked, hordinary, hordinary, hnone]
  simp only [hrewrite, himportant, false_or, not_false_eq_true, true_and]

theorem not_marker_of_lineRules (h : lineRules jsonString line ≠ []) :
    line.trim.stripPrefix sourceMarkerPrefix = none := by
  by_contra hmarker
  obtain ⟨encoded, hencoded⟩ := Option.ne_none_iff_exists'.1 hmarker
  exact h (lineRules_of_marker hencoded)

theorem badfilterTarget_target (h : badfilterTarget line = some target)
    (htrim : target.trim = target) : badfilterTarget target = none := by
  obtain ⟨pattern, modifiers, -, hpattern, -, rfl⟩ := badfilterTarget_eq_some h
  by_contra hne
  obtain ⟨target', htarget'⟩ := Option.ne_none_iff_exists'.1 hne
  obtain ⟨pattern', modifiers', hsplit, hpattern', hlength, -⟩ := badfilterTarget_eq_some htarget'
  rw [htrim] at hsplit
  split_ifs at hsplit with hkept
  · exact hpattern (hsplit ▸ List.mem_append_right _ List.mem_cons_self)
  · have hsame := splitOnce_append hpattern (b := join (keptModifiers modifiers) [','])
    rw [hsplit, splitOnce_append hpattern'] at hsame
    obtain ⟨rfl, rfl⟩ := Prod.mk.inj (Option.some.inj hsame)
    rw [split_join hkept fun modifier => not_mem_keptModifiers, keptModifiers,
      split_join hkept fun modifier => not_mem_keptModifiers, keptModifiers,
      List.filter_filter] at hlength
    simp at hlength

theorem mem_of_mem_join {c : Char} {parts : List Text} (h : c ∈ join parts [',']) :
    c = ',' ∨ ∃ part ∈ parts, c ∈ part := by
  induction parts with
  | nil => cases h
  | cons part parts ih =>
    cases parts with
    | nil =>
      rw [join, List.intercalate, List.intersperse_singleton, List.flatten_singleton] at h
      exact .inr ⟨part, List.mem_cons_self, h⟩
    | cons next parts =>
      have hjoin : join (part :: next :: parts) [','] =
          part ++ ',' :: join (next :: parts) [','] := by
        simp [join, List.intercalate]
      rw [hjoin, List.mem_append, List.mem_cons] at h
      rcases h with h | h | h
      · exact .inr ⟨part, List.mem_cons_self, h⟩
      · exact .inl h
      · rcases ih h with hc | ⟨other, hother, hc⟩
        · exact .inl hc
        · exact .inr ⟨other, List.mem_cons_of_mem _ hother, hc⟩

theorem mem_of_mem_target (h : badfilterTarget line = some target) {c : Char} (hc : c ∈ target)
    (hcomma : c ≠ ',') : c ∈ line := by
  obtain ⟨pattern, modifiers, htrim, -, -, rfl⟩ := badfilterTarget_eq_some h
  have hline : ∀ d ∈ pattern ++ '$' :: modifiers, d ∈ line := fun d hd => by
    obtain ⟨a, b, -, -, hsplit⟩ := exists_trim isWhitespace line
    rw [hsplit]
    refine List.mem_append_right _ (List.mem_append_left _ ?_)
    rwa [← htrim] at hd
  split_ifs at hc with hkept
  · exact hline c (List.mem_append_left _ hc)
  · rcases List.mem_append.1 hc with hc | hc
    · exact hline c (List.mem_append_left _ hc)
    · rcases List.mem_cons.1 hc with rfl | hc
      · exact hline _ (List.mem_append_right _ List.mem_cons_self)
      · obtain ⟨modifier, hmodifier, hc⟩ := (mem_of_mem_join hc).resolve_left hcomma
        exact hline c (List.mem_append_right _ (List.mem_cons_of_mem _
          (mem_of_mem_split (List.mem_of_mem_filter hmodifier) c hc)))

theorem isDomain_of_parsePattern {pattern : Text} {rule : RuleData}
    (h : parsePattern pattern = some rule) : IsDomain rule.domain := by
  unfold parsePattern at h
  split_ifs at h
  split at h
  · obtain ⟨domain, hdomain, rfl⟩ := Option.map_eq_some_iff.1 h
    exact isDomain_of_normalizeDomain hdomain
  · obtain ⟨domain, hdomain, rfl⟩ := Option.map_eq_some_iff.1 h
    exact isDomain_of_normalizeDomain hdomain

theorem isDomain_of_parseFilterRule {rule : Bool × RuleData}
    (h : (ScanEvent.rule (parseFilterRule line)).rule? = some rule) : IsDomain rule.2.domain := by
  unfold parseFilterRule at h
  dsimp only at h
  split at h
  · cases h
  · split_ifs at h
    · cases h
    · split at h
      · cases h
      · rename_i data hdata
        have hdomain := isDomain_of_parsePattern hdata
        unfold ruleOfLine at h
        dsimp only at h
        split_ifs at h
        · cases h
        · cases h
          exact hdomain
        · cases h
          exact hdomain

theorem blocked_of_blocks {rules : List (Bool × RuleData)} (hplain : ∀ rule ∈ rules, rule.2.Plain)
    (hblock : ∀ rule ∈ rules, rule.1 = false) {rule : Bool × RuleData} (hrule : rule ∈ rules)
    (qtype : UInt16) : Blocked (asRefRules rules) rule.2.domain qtype := by
  have hall : ∀ r ∈ asRefRules rules, r.isAllow = false := by
    intro r hr
    obtain ⟨other, hother, rfl⟩ := List.mem_map.1 hr
    exact hblock other hother
  rw [blocked_of_plain hplain]
  refine ⟨fun r hr _ => hall r hr, _, List.mem_map_of_mem hrule, hblock rule hrule, ?_⟩
  exact mem_places _ _

theorem not_blocked_nil (domain : Text) (qtype : UInt16) :
    ¬ Blocked (asRefRules []) domain qtype := by
  rw [blocked_of_plain fun rule hrule => absurd hrule List.not_mem_nil]
  rintro ⟨-, r, hr, -⟩
  exact List.not_mem_nil hr

theorem blocked_of_deletable {raw raw' : Text} {index : ℕ} (h : Truthful jsonString line)
    (hflagged : lineDiagnostic (summarizeRules jsonString line) ≠ none)
    (hline : raw.lines[index]? = some line) (hraw' : raw'.lines = raw.lines.eraseIdx index)
    (domain : Text) (qtype : UInt16) :
    Blocked (asRefRules (enabledRules jsonString (disabledLines raw') raw'.lines)) domain qtype ↔
      Blocked (asRefRules (enabledRules jsonString (disabledLines raw) raw.lines)) domain
        qtype := by
  rw [← isSome_blockingMatch_iff, ← isSome_blockingMatch_iff,
    h.deletable raw raw' index hline ((flagged_iff_of_getElem hline).2 hflagged) hraw']

theorem lineRules_of_truthful (h : Truthful jsonString line) (hline : '\n' ∉ line) (hne : line ≠ [])
    (hflagged : lineDiagnostic (summarizeRules jsonString line) ≠ none) :
    lineRules jsonString line = [] := by
  by_contra hrules
  have hlines := lines_of_not_mem hline hne
  have hscan : lineDiagnostic (summaryOf (scanLine jsonString [] line)) ≠ none := by
    rwa [summarizeRules, scanRules_line hline hne] at hflagged
  have hhosts : parseHostsRules line.trim ≠ none := by
    intro hnone
    have hrule := (parseRule_of_flagged hscan hnone).2.2
    rw [lineRules, scanLine_of_not_hosts (not_marker_of_lineRules hrules) hnone,
      List.filterMap_cons_none hrule] at hrules
    exact hrules rfl
  obtain ⟨⟨kind, domains⟩, hhosts⟩ := Option.ne_none_iff_exists'.1 hhosts
  obtain ⟨rule, hrule⟩ := List.exists_mem_of_ne_nil _ hrules
  have hdisabled : line.trim ∉ disabledLines line := by
    intro hmem
    rw [disabledLines, hlines] at hmem
    obtain ⟨other, hother, htarget⟩ := List.mem_filterMap.1 hmem
    rw [List.mem_singleton.1 hother] at htarget
    exact badfilterTarget_ne htarget rfl
  -- the text of this line, and the empty text
  have hdelete := @blocked_of_deletable jsonString line line [] 0 h hflagged (by rw [hlines]; rfl)
    (by rw [hlines]; rfl) rule.2.domain 1
  have hrulesOf : enabledRules jsonString (disabledLines line) line.lines =
      lineRules jsonString line := by
    rw [enabledRules, hlines, List.flatMap_singleton, if_neg hdisabled]
  rw [hrulesOf] at hdelete
  refine not_blocked_nil rule.2.domain 1 (hdelete.2 ?_)
  exact blocked_of_blocks (fun other hother => (plain_of_hosts hhosts hother).2)
    (fun other hother => (plain_of_hosts hhosts hother).1) hrule 1

theorem blocked_of_target (h : Truthful jsonString line)
    (hflagged : lineDiagnostic (summarizeRules jsonString line) ≠ none)
    (hnone : lineRules jsonString line = []) (htarget : badfilterTarget line = some target)
    (htrim : target.trim = target) {before : List Text}
    (hbefore : ∀ other ∈ before, badfilterTarget other = none ∧ other.trim ≠ target)
    {raw raw' : Text} (hraw : raw.lines = before ++ [target, line])
    (hraw' : raw'.lines = before ++ [target]) (domain : Text) (qtype : UInt16) :
    Blocked (asRefRules (before.flatMap (lineRules jsonString) ++ lineRules jsonString target))
        domain qtype ↔
      Blocked (asRefRules (before.flatMap (lineRules jsonString))) domain qtype := by
  have hself := badfilterTarget_target htarget htrim
  have hnothing : before.filterMap badfilterTarget = [] :=
    List.filterMap_eq_nil_iff.2 fun other hother => (hbefore other hother).1
  have hdisabled : disabledLines raw = [target] := by
    rw [disabledLines, hraw, List.filterMap_append, hnothing, List.filterMap_cons_none hself,
      List.filterMap_cons_some htarget]
    rfl
  have hdisabled' : disabledLines raw' = [] := by
    rw [disabledLines, hraw', List.filterMap_append, hnothing, List.filterMap_cons_none hself]
    rfl
  have hkept : before.flatMap (fun other => if other.trim ∈ [target] then [] else
      lineRules jsonString other) = before.flatMap (lineRules jsonString) :=
    List.flatMap_congr fun other hother =>
      if_neg (fun hmem => (hbefore other hother).2 (List.mem_singleton.1 hmem))
  have hrules : enabledRules jsonString (disabledLines raw) raw.lines =
      before.flatMap (lineRules jsonString) := by
    rw [hdisabled, enabledRules, hraw, List.flatMap_append, hkept, List.flatMap_cons,
      List.flatMap_singleton, if_pos (by rw [htrim]; exact List.mem_singleton_self _), hnone,
      ite_self, List.append_nil, List.append_nil]
  have hrules' : enabledRules jsonString (disabledLines raw') raw'.lines =
      before.flatMap (lineRules jsonString) ++ lineRules jsonString target := by
    rw [hdisabled', enabledRules, hraw']
    simp only [List.not_mem_nil, if_false, List.flatMap_append, List.flatMap_singleton]
  have hget : raw.lines[before.length + 1]? = some line := by
    rw [hraw, List.getElem?_append_right (Nat.le_add_right _ 1), Nat.add_sub_cancel_left]
    rfl
  have herase : raw'.lines = raw.lines.eraseIdx (before.length + 1) := by
    rw [hraw, hraw', List.eraseIdx_append_of_length_le (Nat.le_add_right _ 1),
      Nat.add_sub_cancel_left]
    rfl
  have hdelete := blocked_of_deletable h hflagged hget herase domain qtype
  rwa [hrules, hrules'] at hdelete

theorem isDomain_of_allow {rule : RuleData} (h : (true, rule) ∈ lineRules jsonString line) :
    IsDomain rule.domain := by
  have hmarker := not_marker_of_lineRules (List.ne_nil_of_mem h)
  cases hhosts : parseHostsRules line.trim with
  | some hosts => cases (plain_of_hosts hhosts h).1
  | none =>
    obtain ⟨e, he, hrule⟩ := List.mem_filterMap.1 h
    rw [scanLine_of_not_hosts hmarker hhosts, List.mem_singleton] at he
    subst he
    unfold parseRule at hrule
    dsimp only at hrule
    split_ifs at hrule
    · cases hrule
    · exact isDomain_of_parseFilterRule hrule

theorem lineRules_canonical {domain : Text} (h : IsDomain domain) :
    lineRules jsonString (canonicalRuleText .suffix domain false) =
      [(false, canonicalRule domain false)] := by
  rw [lineRules, h.scanLine_canonical false jsonString List.not_mem_nil]
  rfl

theorem target_of_truthful (h : Truthful jsonString line) (hline : '\n' ∉ line) (hne : line ≠ [])
    (hflagged : lineDiagnostic (summarizeRules jsonString line) ≠ none)
    (htarget : badfilterTarget line = some target) (htrim : target.trim = target) :
    lineRules jsonString target = [] := by
  by_contra hrules
  have hnone := lineRules_of_truthful h hline hne hflagged
  have hscan : lineDiagnostic (summaryOf (scanLine jsonString [] line)) ≠ none := by
    rwa [summarizeRules, scanRules_line hline hne] at hflagged
  have hplain : ∀ rule ∈ lineRules jsonString target, rule.2.Plain := fun rule hrule =>
    plain_of_target hscan htarget htrim hrule
  have htargetLine : '\n' ∉ target := fun hmem =>
    hline (mem_of_mem_target htarget hmem (by decide))
  have hreturn : target.getLast? ≠ some '\r' := by
    rw [← htrim]
    exact getLast?_trim_ne (by decide) target
  have htargetNe : target ≠ [] := by
    rintro rfl
    exact hrules rfl
  have hdelete := @blocked_of_target jsonString line target h hflagged hnone htarget htrim
  by_cases hblock : ∀ rule ∈ lineRules jsonString target, rule.1 = false
  · -- the text with the block rules of the target
    obtain ⟨rule, hrule⟩ := List.exists_mem_of_ne_nil _ hrules
    have hsame := @hdelete [] (fun other hother => absurd hother List.not_mem_nil)
      (target ++ '\n' :: line) target
      (by rw [lines_cons_append htargetLine hreturn, lines_of_not_mem hline hne]; rfl)
      (lines_of_not_mem htargetLine htargetNe) rule.2.domain 1
    rw [List.flatMap_nil, List.nil_append] at hsame
    exact not_blocked_nil rule.2.domain 1 (hsame.1 (blocked_of_blocks hplain hblock hrule 1))
  · -- the text with a rule for the domain of the allow rule in front
    push Not at hblock
    obtain ⟨⟨isAllow, rule⟩, hrule, hallow⟩ := hblock
    rw [ne_eq, Bool.not_eq_false] at hallow
    dsimp only at hallow
    subst hallow
    have hdomain := isDomain_of_allow hrule
    have hfront : lineRules jsonString (canonicalRuleText .suffix rule.domain false) =
        [(false, canonicalRule rule.domain false)] := lineRules_canonical hdomain
    have hnot : ∀ c : Char, isDomainChar c = false → c ≠ '@' → c ≠ '|' → c ≠ '^' →
        c ∉ canonicalRuleText .suffix rule.domain false := fun c hc hmark hbar hcaret =>
      hdomain.not_mem_canonicalRuleText false hc hmark hbar hcaret
    have hlines : ∀ text : Text,
        lines (canonicalRuleText .suffix rule.domain false ++ '\n' :: text) =
          canonicalRuleText .suffix rule.domain false :: lines text :=
      lines_cons_append (hnot '\n' (by decide) (by decide) (by decide) (by decide)) fun hlast =>
        hnot '\r' (by decide) (by decide) (by decide) (by decide) (List.mem_of_getLast? hlast)
    have hbefore : ∀ other ∈ [canonicalRuleText .suffix rule.domain false],
        badfilterTarget other = none ∧ other.trim ≠ target := by
      rw [List.forall_mem_singleton, hdomain.trim_canonicalRuleText]
      constructor
      · rw [badfilterTarget, hdomain.trim_canonicalRuleText, splitOnce_eq_none.2
          (hnot '$' (by decide) (by decide) (by decide) (by decide))]
        rfl
      · intro heq
        rw [← heq, hfront, List.mem_singleton] at hrule
        cases hrule
    have hsame := @hdelete [canonicalRuleText .suffix rule.domain false] hbefore
      (canonicalRuleText .suffix rule.domain false ++ '\n' :: (target ++ '\n' :: line))
      (canonicalRuleText .suffix rule.domain false ++ '\n' :: target)
      (by rw [hlines, lines_cons_append htargetLine hreturn, lines_of_not_mem hline hne]; rfl)
      (by rw [hlines, lines_of_not_mem htargetLine htargetNe]; rfl) rule.domain 1
    rw [List.flatMap_singleton, hfront] at hsame
    have hplainFront : (canonicalRule rule.domain false).Plain := ⟨rfl, rfl, rfl, rfl⟩
    have hplainAll : ∀ other ∈ [(false, canonicalRule rule.domain false)] ++
        lineRules jsonString target, other.2.Plain := by
      intro other hother
      rcases List.mem_append.1 hother with hother | hother
      · rw [List.mem_singleton.1 hother]
        exact hplainFront
      · exact hplain other hother
    have hblocked := hsame.2 (blocked_of_blocks (List.forall_mem_singleton.2 hplainFront)
      (List.forall_mem_singleton.2 rfl) (List.mem_singleton_self _) 1)
    rw [blocked_of_plain hplainAll] at hblocked
    cases hblocked.1 _ (List.mem_map_of_mem (List.mem_append_right _ hrule)) (mem_places _ _)

end

/-! ## What is counted -/

theorem badfilter_or_of_parseModifier {parsed parsed' : Modifiers} {modifier : Text}
    (h : parseModifier parsed modifier = some parsed') (hbad : parsed'.badfilter) :
    parsed.badfilter ∨ modifier.eqIgnoreAsciiCase badfilterName := by
  unfold parseModifier at h
  split at h
  · obtain ⟨action, -, rfl⟩ := Option.map_eq_some_iff.1 h
    exact .inl hbad
  · dsimp only at h
    split_ifs at h with himportant hname
    · cases h
      exact .inl hbad
    · refine .inr (beq_iff_eq.2 ?_)
      rw [hname]
      decide
    · split at h
      · obtain ⟨types, -, rfl⟩ := Option.map_eq_some_iff.1 h
        exact .inl hbad
      · obtain ⟨domains, -, h⟩ := Option.bind_eq_some_iff.1 h
        split_ifs at h
        cases h
        exact .inl hbad
      · cases h

theorem exists_of_foldlM_parseModifier {l : List Text} {parsed parsed' : Modifiers}
    (h : l.foldlM parseModifier parsed = some parsed') (hbad : parsed'.badfilter) :
    parsed.badfilter ∨ ∃ modifier ∈ l, modifier.eqIgnoreAsciiCase badfilterName := by
  induction l generalizing parsed with
  | nil =>
    cases h
    exact .inl hbad
  | cons modifier l ih =>
    rw [List.foldlM_cons] at h
    obtain ⟨next, hnext, h⟩ := Option.bind_eq_some_iff.1 h
    rcases ih h with hnextBad | ⟨other, hother, hname⟩
    · exact (badfilter_or_of_parseModifier hnext hnextBad).imp_right fun hname =>
        ⟨modifier, List.mem_cons_self, hname⟩
    · exact .inr ⟨other, List.mem_cons_of_mem _ hother, hname⟩

theorem parseModifiers_of_disable {line : Text} (h : parseFilterRule line = .disable) :
    ∃ modifiers, parseModifiers (filterModifiers line) = some modifiers ∧ modifiers.badfilter := by
  cases hmodifiers : parseModifiers (filterModifiers line) with
  | none => cases (parseFilterRule_of_none hmodifiers).symm.trans h
  | some modifiers =>
    refine ⟨modifiers, rfl, ?_⟩
    by_contra hbad
    unfold parseFilterRule at h
    dsimp only at h
    rw [show (((splitAllow line).2.splitOnce (· == '$')).getD ((splitAllow line).2, [])).2 =
      filterModifiers line from rfl, hmodifiers] at h
    dsimp only at h
    rw [if_neg hbad] at h
    split at h
    · cases h
    · unfold ruleOfLine at h
      dsimp only at h
      split_ifs at h

theorem badfilterTarget_of_disable {line : Text} (h : parseFilterRule line.trim = .disable) :
    badfilterTarget line ≠ none := by
  obtain ⟨parsed, hparsed, hbad⟩ := parseModifiers_of_disable h
  rw [badfilterTarget]
  cases hsplit : splitOnce (· == '$') line.trim with
  | none =>
    rw [filterModifiers_of_not_mem (splitOnce_eq_none.1 hsplit)] at hparsed
    cases hparsed
    cases hbad
  | some parts =>
    obtain ⟨pattern, modifiers⟩ := parts
    obtain ⟨htrim, hpattern⟩ := splitOnce_eq_some hsplit
    rw [htrim, filterModifiers_append hpattern, parseModifiers] at hparsed
    split_ifs at hparsed with hnil
    · cases hparsed
      cases hbad
    · obtain ⟨modifier, hmem, hname⟩ :=
        (exists_of_foldlM_parseModifier hparsed hbad).resolve_left Bool.false_ne_true
      rw [Option.bind_some]
      dsimp only
      rw [if_neg]
      · split_ifs <;> exact Option.some_ne_none _
      · intro hlength
        have hall := List.filter_eq_self.1 (List.filter_sublist.eq_of_length hlength) modifier hmem
        rw [hname] at hall
        cases hall

/-! ## What is flagged -/

/-- The event is what a line is flagged for. -/
def ScanEvent.Faulty (e : ScanEvent) : Prop :=
  ∃ reason ≠ IgnoredRuleReason.comment, e = .rule (.ignored reason)

theorem lineDiagnostic_ne_none {summary : RuleSummary} : lineDiagnostic summary ≠ none ↔
    0 < summary.ignoredRegexRules ∨ 0 < summary.ignoredUnsupportedRules ∨
      0 < summary.ignoredInvalidRules := by
  unfold lineDiagnostic
  split_ifs with hregex hunsupported hinvalid
  · exact iff_of_true (Option.some_ne_none _) (.inl hregex)
  · exact iff_of_true (Option.some_ne_none _) (.inr (.inl hunsupported))
  · exact iff_of_true (Option.some_ne_none _) (.inr (.inr hinvalid))
  · refine iff_of_false (fun h => h rfl) ?_
    rintro (h | h | h)
    · exact hregex h
    · exact hunsupported h
    · exact hinvalid h

theorem summaryOf_cons (e : ScanEvent) (es : List ScanEvent) :
    summaryOf (e :: es) = combinedSummary (countEvent noRules e) (summaryOf es) :=
  foldl_countEvent _ es

theorem summaryOf_spec (es : List ScanEvent) :
    (lineDiagnostic (summaryOf es) ≠ none ↔ ∃ e ∈ es, e.Faulty) ∧
      (0 < (summaryOf es).blockRules + (summaryOf es).allowRules ↔
        ∃ e ∈ es, e.rule?.isSome) := by
  induction es with
  | nil =>
    constructor
    · exact iff_of_false (fun h => h rfl) fun ⟨e, he, _⟩ => List.not_mem_nil he
    · exact iff_of_false (Nat.lt_irrefl 0) fun ⟨e, he, _⟩ => List.not_mem_nil he
  | cons e es ih =>
    rw [lineDiagnostic_ne_none] at ih
    rw [lineDiagnostic_ne_none, summaryOf_cons, List.exists_mem_cons_iff, List.exists_mem_cons_iff,
      ← ih.1, ← ih.2]
    cases e with
    | source name =>
      simp [ScanEvent.Faulty, ScanEvent.rule?, countEvent, combinedSummary, noRules]
    | rule parsed =>
      cases parsed with
      | block rule | allow rule =>
        simp [ScanEvent.Faulty, ScanEvent.rule?, countEvent, countRule, combinedSummary, noRules]
        all_goals omega
      | disable =>
        simp [ScanEvent.Faulty, ScanEvent.rule?, countEvent, countRule, combinedSummary, noRules]
      | ignored reason =>
        cases reason with
        | comment =>
          simp [ScanEvent.Faulty, ScanEvent.rule?, countEvent, countRule, combinedSummary, noRules]
        | regex | unsupported | invalid =>
          simp [ScanEvent.Faulty, ScanEvent.rule?, countEvent, countRule, combinedSummary, noRules]
          all_goals omega

section
variable {jsonString : Text → Option Text} {line raw : Text}

theorem parseHostsRules_ne_nil {kind : SimpleKind} {domains : List (Option Text)}
    (h : parseHostsRules line = some (kind, domains)) : domains ≠ [] := by
  unfold parseHostsRules at h
  split at h
  · cases h
  · obtain ⟨found, -, heq⟩ := Option.map_eq_some_iff.1 h
    dsimp only at heq
    split_ifs at heq with hnil
    · cases heq
      exact List.cons_ne_nil _ _
    · cases heq
      exact hnil

theorem scanLine_of_hosts {kind : SimpleKind} {domains : List (Option Text)}
    (hmarker : line.trim.stripPrefix sourceMarkerPrefix = none)
    (hhosts : parseHostsRules line.trim = some (kind, domains)) :
    ∃ f, scanLine jsonString [] line = domains.map f ∧ (∀ domain, (f (some domain)).rule?.isSome) ∧
      (f none).Faulty := by
  unfold scanLine
  dsimp only
  rw [hmarker]
  dsimp only
  rw [if_neg List.not_mem_nil, hhosts]
  exact ⟨_, rfl, fun domain => rfl, .invalid, by decide, rfl⟩

theorem parseFilterRule_ne_comment : parseFilterRule line ≠ .ignored .comment := by
  unfold parseFilterRule
  dsimp only
  split
  · exact fun h => by cases h
  · split_ifs
    · exact fun h => by cases h
    · split
      · unfold ignoredPatternReason
        split_ifs
        · exact fun h => by cases h
        · exact fun h => by cases h
      · unfold ruleOfLine
        dsimp only
        split_ifs
        · exact fun h => by cases h
        · exact fun h => by cases h
        · exact fun h => by cases h

/-- **A line that is not flagged** is a comment, a marker, a `badfilter` or counted. -/
theorem counted (hne : line ≠ []) (hline : '\n' ∉ line)
    (hflagged : ¬ lineDiagnostic (summarizeRules jsonString line) ≠ none)
    (hcomment : ¬ (line.trim = [] ∨ line.trim.startsWith '#' ∨ line.trim.startsWith '!'))
    (hmarker : line.trim.stripPrefix sourceMarkerPrefix = none)
    (htarget : badfilterTarget line = none) :
    0 < (summarizeRules jsonString line).blockRules +
      (summarizeRules jsonString line).allowRules := by
  rw [summarizeRules, scanRules_line hline hne] at hflagged ⊢
  rw [(summaryOf_spec _).1] at hflagged
  rw [(summaryOf_spec _).2]
  cases hhosts : parseHostsRules line.trim with
  | some hosts =>
    obtain ⟨kind, domains⟩ := hosts
    obtain ⟨f, hscan, hsome, hnone⟩ := @scanLine_of_hosts jsonString _ _ _ hmarker hhosts
    rw [hscan] at hflagged ⊢
    obtain ⟨domain, hdomain⟩ := List.exists_mem_of_ne_nil domains (parseHostsRules_ne_nil hhosts)
    cases domain with
    | some domain => exact ⟨_, List.mem_map_of_mem hdomain, hsome domain⟩
    | none => exact absurd ⟨_, List.mem_map_of_mem hdomain, hnone⟩ hflagged
  | none =>
    rw [scanLine_of_not_hosts hmarker hhosts] at hflagged ⊢
    refine ⟨_, List.mem_singleton_self _, ?_⟩
    have hparse : parseRule line = parseFilterRule line.trim := if_neg hcomment
    cases hrule : parseRule line with
    | block rule | allow rule => rfl
    | disable => exact absurd htarget (badfilterTarget_of_disable (hparse.symm.trans hrule))
    | ignored reason =>
      rw [hrule] at hflagged
      by_cases hreason : reason = .comment
      · subst hreason
        rw [hparse] at hrule
        exact absurd hrule parseFilterRule_ne_comment
      · exact absurd ⟨_, List.mem_singleton_self _, reason, hreason, rfl⟩ hflagged

/-- **What is said about a line** is true of every text with it if and only if a line that is
    flagged has no rule and disables none. -/
theorem truthful_iff (h : line ∈ raw.lines) : Truthful jsonString line ↔
    (lineDiagnostic (summarizeRules jsonString line) ≠ none → NoEffect jsonString line) := by
  have hline := not_mem_of_mem_lines h
  constructor
  · intro htruthful hflagged
    have hne : line ≠ [] := by
      rintro rfl
      exact hflagged rfl
    exact ⟨lineRules_of_truthful htruthful hline hne hflagged, fun target htarget htrim =>
      target_of_truthful htruthful hline hne hflagged htarget htrim⟩
  · intro heffect
    refine ⟨fun raw raw' index hget hflagged hraw' domain qtype => ?_,
      fun raw index hget hflagged hcomment hmarker htarget => ?_⟩
    · rw [flagged_iff_of_getElem hget] at hflagged
      have hne : line ≠ [] := by
        rintro rfl
        exact hflagged rfl
      have hscan : lineDiagnostic (summaryOf (scanLine jsonString [] line)) ≠ none := by
        rwa [summarizeRules, scanRules_line hline hne] at hflagged
      rw [compileRules_blockingMatch, compileRules_blockingMatch,
        refRules_eraseIdx (heffect hflagged) hget (not_marker_of_flagged hscan) hraw']
    · rw [flagged_iff_of_getElem hget] at hflagged
      have hne : line ≠ [] := by
        rintro rfl
        exact hcomment (.inl rfl)
      exact counted hne hline hflagged hcomment hmarker htarget

end

def unknownModifier : Text := "||ads.example^$app=browser".toList

/-- A flagged line that can be deleted. -/
theorem truthful_unknownModifier :
    unknownModifier ∈ unknownModifier.lines ∧ Truthful (fun _ => none) unknownModifier := by
  have hmem : unknownModifier ∈ unknownModifier.lines := by decide
  exact ⟨hmem, (truthful_iff hmem).2 fun _ => ⟨by decide, fun target htarget => by cases htarget⟩⟩

def partlyValid : Text := "0.0.0.0 ads.example bad*domain".toList

/-- A line of hosts is flagged, as one of them is invalid, and blocks the other. -/
theorem partlyValid_blocks :
    (∃ diagnostic ∈ (analyzeRules (fun _ => none) partlyValid).diagnostics,
        diagnostic.line = 0 + 1) ∧
      partlyValid.lines.eraseIdx 0 = lines [] ∧
      ((compileRules (fun _ => none) partlyValid).blockingMatch "ads.example".toList 1).isSome ∧
      (compileRules (fun _ => none) []).blockingMatch "ads.example".toList 1 = none := by
  have hline : partlyValid.lines[0]? = some partlyValid := by decide
  refine ⟨(flagged_iff_of_getElem hline).2 (by decide), by decide, ?_, ?_⟩
  · decide +kernel
  · decide +kernel

end DnsBlackhole.Rules
