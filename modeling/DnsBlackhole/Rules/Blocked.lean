/-
  What a list of rules blocks.

  The order of the rules and the sources that they are from only matter for what is
  reported, not for whether there is a verdict:

  * `isSome_reference_iff`: there is one exactly if the rules that apply leave one, `Blocked`;
  * `isSome_blockingMatch_iff`: the rules of a text are those of its lines that are not disabled.
-/
import DnsBlackhole.Rules.Effective

namespace DnsBlackhole.Rules
open Lib Text

/-! ## Rules that apply -/

/-- The rule is for the domain. -/
def RefRule.IsFor (r : RefRule) (domain : Text) : Prop :=
  (!r.includeSubdomains, r.domain) ∈ places domain

theorem mem_places (exact : Bool) (domain : Text) : (exact, domain) ∈ places domain := by
  cases exact with
  | true => exact List.mem_cons_self
  | false => exact List.mem_cons_of_mem _ (List.mem_map_of_mem List.mem_cons_self)

theorem mem_candidates {rules : List RefRule} {isAllow : Bool} {domain : Text} {r : RefRule} :
    r ∈ candidates rules isAllow domain ↔ r ∈ rules ∧ r.isAllow = isAllow ∧ r.IsFor domain := by
  simp only [candidates, RefRule.IsFor, List.mem_flatMap, List.mem_filter, RefRule.isAt,
    Bool.and_eq_true, beq_iff_eq]
  constructor
  · rintro ⟨⟨exact, name⟩, hplace, hr, ⟨hallow, hinclude⟩, rfl⟩
    dsimp only at hinclude
    rw [hinclude, Bool.not_not]
    exact ⟨hr, hallow, hplace⟩
  · rintro ⟨hr, hallow, hplace⟩
    exact ⟨_, hplace, hr, ⟨hallow, (Bool.not_not _).symm⟩, rfl⟩

section
variable (rules : List RefRule) (domain : Text) (qtype : UInt16)

/-- A rule with `$dnsrewrite` applies. -/
def HasRewrite : Prop :=
  ∃ r ∈ rules, r.isAllow = false ∧ r.dnsrewrite.isSome ∧ r.IsFor domain ∧ r.applies domain qtype

/-- An ordinary rule applies, important or not. -/
def HasRule (isAllow important : Bool) : Prop :=
  ∃ r ∈ rules, r.isAllow = isAllow ∧ r.important = important ∧ r.dnsrewrite = none ∧
    r.IsFor domain ∧ r.applies domain qtype

/-- The rules that apply leave a verdict. -/
def Blocked : Prop :=
  HasRewrite rules domain qtype ∨
    ¬ HasRule rules domain qtype true true ∧
      (HasRule rules domain qtype false true ∨
        ¬ HasRule rules domain qtype true false ∧ HasRule rules domain qtype false false)

theorem isSome_firstMatch_iff (isAllow important : Bool) :
    (firstMatch domain qtype (candidates rules isAllow domain) important).isSome ↔
      HasRule rules domain qtype isAllow important := by
  simp only [firstMatch, List.find?_isSome, HasRule, mem_candidates, Bool.and_eq_true, beq_iff_eq,
    Option.isNone_iff_eq_none]
  constructor
  · rintro ⟨r, ⟨hr, hallow, hfor⟩, ⟨hrewrite, himportant⟩, happlies⟩
    exact ⟨r, hr, hallow, himportant, hrewrite, hfor, happlies⟩
  · rintro ⟨r, hr, hallow, himportant, hrewrite, hfor, happlies⟩
    exact ⟨r, ⟨hr, hallow, hfor⟩, ⟨hrewrite, himportant⟩, happlies⟩

theorem rewrites_ne_nil_iff (blocks : List RefRule) : rewrites domain qtype blocks ≠ [] ↔
    ∃ r ∈ blocks, r.dnsrewrite.isSome ∧ r.applies domain qtype := by
  have hfound : ∀ r, r ∈ blocks.filter (fun r => r.dnsrewrite.isSome && r.applies domain qtype) ↔
      r ∈ blocks ∧ r.dnsrewrite.isSome ∧ r.applies domain qtype := fun r => by
    rw [List.mem_filter, Bool.and_eq_true]
  unfold rewrites
  dsimp only
  constructor
  · intro hne
    obtain ⟨r, hr⟩ := List.exists_mem_of_ne_nil _ hne
    split_ifs at hr
    · exact ⟨r, (hfound r).1 (List.mem_of_mem_filter hr)⟩
    · exact ⟨r, (hfound r).1 hr⟩
  · rintro ⟨r, hr⟩
    split_ifs with himportant
    · obtain ⟨r', hr', himportant⟩ := List.any_eq_true.1 himportant
      exact List.ne_nil_of_mem (List.mem_filter.2 ⟨hr', himportant⟩)
    · exact List.ne_nil_of_mem ((hfound r).2 hr)

theorem chosenRewrites_ne_nil_iff (blocks : List RefRule) :
    chosenRewrites domain qtype blocks ≠ [] ↔ rewrites domain qtype blocks ≠ [] := by
  unfold chosenRewrites
  dsimp only
  cases hrcode : (rewrites domain qtype blocks).find? RefRule.isRcode with
  | some r =>
    exact iff_of_true (List.cons_ne_nil _ _) (List.ne_nil_of_mem (List.mem_of_find?_eq_some hrcode))
  | none =>
    cases hcname : (rewrites domain qtype blocks).find? RefRule.isCname with
    | some r =>
      exact iff_of_true (List.cons_ne_nil _ _)
        (List.ne_nil_of_mem (List.mem_of_find?_eq_some hcname))
    | none => exact Iff.rfl

theorem isSome_rewriteVerdict_iff (text : List RefRule → Text) (allow : Option RefRule) :
    (rewriteVerdict text (chosenRewrites domain qtype (candidates rules false domain))
        allow).isSome ↔ HasRewrite rules domain qtype := by
  rw [rewriteVerdict, Option.isSome_map, List.isSome_head?, chosenRewrites_ne_nil_iff,
    rewrites_ne_nil_iff, HasRewrite]
  simp only [mem_candidates]
  constructor
  · rintro ⟨r, ⟨hr, hallow, hfor⟩, hrewrite, happlies⟩
    exact ⟨r, hr, hallow, hrewrite, hfor, happlies⟩
  · rintro ⟨r, hr, hallow, hrewrite, hfor, happlies⟩
    exact ⟨r, ⟨hr, hallow, hfor⟩, hrewrite, happlies⟩

/-- **There is a verdict** exactly if the rules that apply leave one. -/
theorem isSome_reference_iff :
    (reference rules domain qtype).isSome ↔ Blocked rules domain qtype := by
  have hrewrite := isSome_rewriteVerdict_iff rules domain qtype rewriteText
    (firstMatch domain qtype (candidates rules true domain) false)
  have hmatch := isSome_firstMatch_iff rules domain qtype
  rw [reference, verdict, Blocked, ← hrewrite, ← hmatch, ← hmatch, ← hmatch, ← hmatch]
  cases rewriteVerdict rewriteText (chosenRewrites domain qtype (candidates rules false domain))
      (firstMatch domain qtype (candidates rules true domain) false) with
  | some rewrite => simp
  | none =>
    cases firstMatch domain qtype (candidates rules true domain) true with
    | some r => simp
    | none =>
      cases firstMatch domain qtype (candidates rules false domain) true with
      | some r => simp
      | none =>
        cases firstMatch domain qtype (candidates rules true domain) false with
        | some r => simp
        | none => simp

end

/-! ## The rules of lines -/

/-- The rule of an event, and whether it is an allow rule. -/
def ScanEvent.rule? : ScanEvent → Option (Bool × RuleData)
  | .rule (.block data) => some (false, data)
  | .rule (.allow data) => some (true, data)
  | _ => none

/-- Rules as they count, whatever the source that they are from. -/
def asRefRules (rules : List (Bool × RuleData)) : List RefRule :=
  rules.map fun rule => RefRule.ofData rule.1 defaultSource rule.2

section
variable (jsonString : Text → Option Text)

/-- The rules of a line on its own. -/
def lineRules (line : Text) : List (Bool × RuleData) :=
  (scanLine jsonString [] line).filterMap ScanEvent.rule?

/-- The rules of lines of which those in `disabled` are disabled. -/
def enabledRules (disabled lines : List Text) : List (Bool × RuleData) :=
  lines.flatMap fun line => if line.trim ∈ disabled then [] else lineRules jsonString line

end

section
variable {jsonString : Text → Option Text} {disabled : List Text} {line raw : Text}

theorem lineRules_congr {a b : Text} (h : a.trim = b.trim) :
    lineRules jsonString a = lineRules jsonString b := by
  rw [lineRules, scanLine_congr jsonString h, lineRules]

theorem scanLine_of_marker {encoded : Text}
    (h : line.trim.stripPrefix sourceMarkerPrefix = some encoded) (disabled : List Text) :
    scanLine jsonString disabled line = ((jsonString encoded).map ScanEvent.source).toList := by
  unfold scanLine
  dsimp only
  rw [h]

theorem scanLine_of_not_mem (h : line.trim ∉ disabled) :
    scanLine jsonString disabled line = scanLine jsonString [] line := by
  unfold scanLine
  dsimp only
  rw [if_neg h, if_neg List.not_mem_nil]

theorem scanLine_of_mem (hmarker : line.trim.stripPrefix sourceMarkerPrefix = none)
    (h : line.trim ∈ disabled) : scanLine jsonString disabled line = [] := by
  unfold scanLine
  dsimp only
  rw [hmarker]
  exact if_pos h

theorem filterMap_rule?_of_marker {encoded : Text}
    (h : line.trim.stripPrefix sourceMarkerPrefix = some encoded) (disabled : List Text) :
    (scanLine jsonString disabled line).filterMap ScanEvent.rule? = [] := by
  rw [scanLine_of_marker h]
  cases jsonString encoded <;> rfl

theorem lineRules_of_marker {encoded : Text}
    (h : line.trim.stripPrefix sourceMarkerPrefix = some encoded) :
    lineRules jsonString line = [] := filterMap_rule?_of_marker h []

theorem filterMap_rule?_scanLine :
    (scanLine jsonString disabled line).filterMap ScanEvent.rule? =
      if line.trim ∈ disabled then [] else lineRules jsonString line := by
  split_ifs with hmem
  · cases hmarker : line.trim.stripPrefix sourceMarkerPrefix with
    | some encoded => exact filterMap_rule?_of_marker hmarker disabled
    | none =>
      rw [scanLine_of_mem hmarker hmem]
      rfl
  · rw [scanLine_of_not_mem hmem, lineRules]

theorem filterMap_rule?_scanRules :
    (scanRulesWithDisabled jsonString raw []).filterMap ScanEvent.rule? =
      enabledRules jsonString (disabledLines raw) raw.lines := by
  rw [scanRulesWithDisabled, List.append_nil, List.filterMap_flatMap, enabledRules]
  exact List.flatMap_congr fun line _ => filterMap_rule?_scanLine

/-! ## The rules of a text -/

/-- Every rule is among the others, up to its source. -/
def Included (rules rules' : List RefRule) : Prop :=
  ∀ r ∈ rules, ∃ source, { r with source := source } ∈ rules'

section
variable {rules rules' : List RefRule} {domain : Text} {qtype : UInt16}

theorem HasRewrite.mono (h : HasRewrite rules domain qtype) (hsub : Included rules rules') :
    HasRewrite rules' domain qtype := by
  obtain ⟨r, hr, hrest⟩ := h
  obtain ⟨source, hr'⟩ := hsub r hr
  exact ⟨_, hr', hrest⟩

theorem HasRule.mono {isAllow important : Bool} (h : HasRule rules domain qtype isAllow important)
    (hsub : Included rules rules') : HasRule rules' domain qtype isAllow important := by
  obtain ⟨r, hr, hrest⟩ := h
  obtain ⟨source, hr'⟩ := hsub r hr
  exact ⟨_, hr', hrest⟩

theorem blocked_congr (h : Included rules rules') (h' : Included rules' rules) :
    Blocked rules domain qtype ↔ Blocked rules' domain qtype := by
  have hrewrite : HasRewrite rules domain qtype ↔ HasRewrite rules' domain qtype :=
    ⟨fun hr => hr.mono h, fun hr => hr.mono h'⟩
  have hrule : ∀ isAllow important, HasRule rules domain qtype isAllow important ↔
      HasRule rules' domain qtype isAllow important := fun isAllow important =>
    ⟨fun hr => hr.mono h, fun hr => hr.mono h'⟩
  rw [Blocked, Blocked, hrewrite, hrule, hrule, hrule, hrule]

end

theorem included_rulesOfEvents (known : List Text) (source : Text) (es : List ScanEvent) :
    Included (rulesOfEvents known source es) (asRefRules (es.filterMap ScanEvent.rule?)) ∧
      Included (asRefRules (es.filterMap ScanEvent.rule?)) (rulesOfEvents known source es) := by
  induction es generalizing known source with
  | nil => exact ⟨fun r hr => absurd hr List.not_mem_nil, fun r hr => absurd hr List.not_mem_nil⟩
  | cons e es ih =>
    have hcons : ∀ (isAllow : Bool) (data : RuleData) (known : List Text) (source : Text),
        Included (RefRule.ofData isAllow source data :: rulesOfEvents known source es)
            (asRefRules ((isAllow, data) :: es.filterMap ScanEvent.rule?)) ∧
          Included (asRefRules ((isAllow, data) :: es.filterMap ScanEvent.rule?))
            (RefRule.ofData isAllow source data :: rulesOfEvents known source es) := by
      intro isAllow data known source
      constructor
      · intro r hr
        rcases List.mem_cons.1 hr with rfl | hr
        · exact ⟨defaultSource, List.mem_cons_self⟩
        · obtain ⟨source', hr'⟩ := (ih known source).1 r hr
          exact ⟨source', List.mem_cons_of_mem _ hr'⟩
      · intro r hr
        rcases List.mem_cons.1 hr with rfl | hr
        · exact ⟨source, List.mem_cons_self⟩
        · obtain ⟨source', hr'⟩ := (ih known source).2 r hr
          exact ⟨source', List.mem_cons_of_mem _ hr'⟩
    cases e with
    | source name => exact ih _ _
    | rule parsed =>
      cases parsed with
      | block data => exact hcons false data known source
      | allow data => exact hcons true data known source
      | ignored reason | disable => exact ih _ _

/-- **A text blocks** what the rules of its lines do that are not disabled. -/
theorem isSome_blockingMatch_iff (domain : Text) (qtype : UInt16) :
    ((compileRules jsonString raw).blockingMatch domain qtype).isSome ↔
      Blocked (asRefRules (enabledRules jsonString (disabledLines raw) raw.lines)) domain
        qtype := by
  rw [compileRules_blockingMatch, isSome_reference_iff, ← filterMap_rule?_scanRules]
  obtain ⟨hsub, hsub'⟩ := included_rulesOfEvents [defaultSource] defaultSource
    (scanRulesWithDisabled jsonString raw [])
  exact blocked_congr hsub hsub'

end

end DnsBlackhole.Rules
