/-
  Scanning and compiling rule texts (`dns/rules.rs`).

  A text is read line by line: a marker names the source of the lines below it,
  lines that a `badfilter` disables are skipped, and the others are parsed.
  `compileRules` inserts what comes out into an index.
-/
import DnsBlackhole.Rules.Index

namespace DnsBlackhole.Rules
open Text

structure RuleSummary where
  blockRules : ℕ
  allowRules : ℕ
  ignoredRules : ℕ
  ignoredCommentRules : ℕ
  ignoredRegexRules : ℕ
  ignoredUnsupportedRules : ℕ
  ignoredInvalidRules : ℕ
  deriving DecidableEq

/-- The summary of nothing. -/
def noRules : RuleSummary := ⟨0, 0, 0, 0, 0, 0, 0⟩

structure CompiledRules where
  blocks : RuleSet
  allows : RuleSet
  sources : List Text
  summary : RuleSummary
  hasDnsrewrites : Bool
  /-- The lines that `badfilter` rules disable. -/
  disabled : List Text
  base : Option CompiledRules

def sourceMarkerPrefix : Text := "! dnsblackhole-source:".toList
def defaultSource : Text := "自定义规则".toList

/-! ## Scanning -/

inductive ScanEvent
  | source (name : Text)
  | rule (parsed : ParsedRule)
  deriving DecidableEq

/-- The rule for one domain of a hosts line. -/
def hostsRule (line : Text) (kind : SimpleKind) (singleDomain : Bool) (domain : Text) : RuleData where
  domain := domain
  includeSubdomains := false
  raw := line
  ruleType := .hosts
  important := false
  queryTypes := .any
  denyallow := []
  dnsrewrite := none
  canonical :=
    if singleDomain ∧ isCanonicalRuleText line kind domain false then some kind else none

section
variable (jsonString : Text → Option Text)

/-- One iteration of the loop of `scan_rules_with_disabled`; `jsonString` reads a
    string in JSON. -/
def scanLine (disabled : List Text) (line : Text) : List ScanEvent :=
  let trimmed := line.trim
  match trimmed.stripPrefix sourceMarkerPrefix with
  | some encoded => ((jsonString encoded).map ScanEvent.source).toList
  | none =>
    if trimmed ∈ disabled then []
    else
      match parseHostsRules trimmed with
      | some (kind, domains) =>
        domains.map fun
          | some domain =>
            .rule (.block (hostsRule trimmed kind (domains.length == 1) domain))
          | none => .rule (.ignored .invalid)
      | none => [.rule (parseRule line)]

/-- The lines a text disables. -/
def disabledLines (raw : Text) : List Text := raw.lines.filterMap badfilterTarget

def scanRulesWithDisabled (raw : Text) (extraDisabled : List Text) : List ScanEvent :=
  raw.lines.flatMap (scanLine jsonString (disabledLines raw ++ extraDisabled))

end

/-! ## Counting -/

def countRule (summary : RuleSummary) : ParsedRule → RuleSummary
  | .block _ => { summary with blockRules := summary.blockRules + 1 }
  | .allow _ => { summary with allowRules := summary.allowRules + 1 }
  | .ignored reason =>
    let summary := { summary with ignoredRules := summary.ignoredRules + 1 }
    match reason with
    | .comment => { summary with ignoredCommentRules := summary.ignoredCommentRules + 1 }
    | .regex => { summary with ignoredRegexRules := summary.ignoredRegexRules + 1 }
    | .unsupported =>
      { summary with ignoredUnsupportedRules := summary.ignoredUnsupportedRules + 1 }
    | .invalid => { summary with ignoredInvalidRules := summary.ignoredInvalidRules + 1 }
  | .disable => summary

def combinedSummary (base overlay : RuleSummary) : RuleSummary where
  blockRules := base.blockRules + overlay.blockRules
  allowRules := base.allowRules + overlay.allowRules
  ignoredRules := base.ignoredRules + overlay.ignoredRules
  ignoredCommentRules := base.ignoredCommentRules + overlay.ignoredCommentRules
  ignoredRegexRules := base.ignoredRegexRules + overlay.ignoredRegexRules
  ignoredUnsupportedRules := base.ignoredUnsupportedRules + overlay.ignoredUnsupportedRules
  ignoredInvalidRules := base.ignoredInvalidRules + overlay.ignoredInvalidRules

/-! ## Compiling -/

def internSource (sources : List Text) (name : Text) : List Text × UInt16 :=
  match sources.idxOf? name with
  | some index => (sources, .ofNat index)
  | none =>
    if sources.length > 65535 then (sources, 0)
    else (sources ++ [name], .ofNat sources.length)

/-- What `compile_rules_with_disabled` has come to. -/
structure CompileState where
  blocks : RuleSet
  allows : RuleSet
  sources : List Text
  sourceId : UInt16
  summary : RuleSummary
  hasDnsrewrites : Bool

def compileEvent (s : CompileState) : ScanEvent → CompileState
  | .source name =>
    let r := internSource s.sources name
    { s with sources := r.1, sourceId := r.2 }
  | .rule parsed =>
    let s := { s with summary := countRule s.summary parsed }
    match parsed with
    | .block rule => { s with
        hasDnsrewrites := s.hasDnsrewrites || rule.dnsrewrite.isSome
        blocks := s.blocks.insert rule s.sourceId false }
    | .allow rule => { s with allows := s.allows.insert rule s.sourceId true }
    | .ignored _ | .disable => s

def newCompileState : CompileState :=
  ⟨⟨∅, ∅⟩, ⟨∅, ∅⟩, [defaultSource], 0, noRules, false⟩

section
variable (jsonString : Text → Option Text)

def compileRulesWithDisabled (raw : Text) (extraDisabled : List Text) : CompiledRules :=
  let s := (scanRulesWithDisabled jsonString raw extraDisabled).foldl compileEvent newCompileState
  ⟨s.blocks, s.allows, s.sources, s.summary, s.hasDnsrewrites, extraDisabled ++ disabledLines raw,
    none⟩

def compileRules (raw : Text) : CompiledRules := compileRulesWithDisabled jsonString raw []

def customRulesHaveBadfilter (raw : Text) : Bool :=
  raw.lines.any fun line => (badfilterTarget line).isSome

/-- `with_custom_layer`: the custom rules alone are compiled, over the shared
    rules `base`. -/
def withCustomLayer (base : CompiledRules) (custom : Text) : CompiledRules :=
  let overlay := compileRulesWithDisabled jsonString custom base.disabled
  { overlay with
    summary := combinedSummary base.summary overlay.summary
    base := some base }

end

def CompiledRules.sourceName (rules : CompiledRules) (sourceId : UInt16) : Text :=
  rules.sources[sourceId.toNat]?.getD defaultSource

/-! ## Canonical rules -/

theorem canonicalRuleText_of_rest {rest : Text} {kind : SimpleKind} {domain : Text}
    (h : isCanonicalRest rest kind domain) : canonicalRuleText kind domain false = rest := by
  cases kind with
  | suffix =>
    simp only [isCanonicalRest, beq_iff_eq, Option.bind_eq_some_iff] at h
    obtain ⟨r, hr, hs⟩ := h
    rw [stripPrefix_eq_some.1 hr, stripSuffix_eq_some.1 hs]
    simp [canonicalRuleText, allowMark]
  | exactPlain =>
    simp only [isCanonicalRest, beq_iff_eq] at h
    simp [canonicalRuleText, allowMark, h]
  | hostsZero4 | hostsLocal4 | hostsZero6 | hostsLocal6 =>
    simp only [isCanonicalRest, beq_iff_eq] at h
    rw [stripPrefix_eq_some.1 h, canonicalRuleText]

theorem canonicalRuleText_true {kind : SimpleKind} (hk : kind.ruleType ≠ .hosts) (domain : Text) :
    canonicalRuleText kind domain true = ['@', '@'] ++ canonicalRuleText kind domain false := by
  cases kind with
  | suffix | exactPlain => simp [canonicalRuleText, allowMark]
  | hostsZero4 | hostsLocal4 | hostsZero6 | hostsLocal6 => exact absurd rfl hk

theorem canonicalRuleText_eq {line : Text} {kind : SimpleKind} {domain : Text} {isAllow : Bool}
    (h : isCanonicalRuleText line kind domain isAllow) (hk : isAllow → kind.ruleType ≠ .hosts) :
    canonicalRuleText kind domain isAllow = line := by
  obtain ⟨rest, hrest, hform⟩ := (Option.any_eq_true _ _).1 h
  cases isAllow with
  | false =>
    cases hrest
    exact canonicalRuleText_of_rest hform
  | true =>
    rw [canonicalRuleText_true (hk rfl), canonicalRuleText_of_rest hform]
    exact (stripPrefix_eq_some.1 hrest).symm

/-- What is parsed from a line has its text, which is rebuilt as it was. -/
def ParsedRule.FromLine (line : Text) : ParsedRule → Prop
  | .block rule => rule.Canonical false ∧ rule.raw = line
  | .allow rule => rule.Canonical true ∧ rule.raw = line
  | .ignored _ | .disable => True

theorem parseHostsRules_kind {line : Text} {kind : SimpleKind} {domains : List (Option Text)}
    (h : parseHostsRules line = some (kind, domains)) : kind.ruleType = .hosts := by
  unfold parseHostsRules at h
  split at h
  · cases h
  · rename_i ip parts _
    obtain ⟨kind', hkind, h⟩ := Option.map_eq_some_iff.1 h
    have hhosts : ∀ e ∈ hostsKinds, e.2.ruleType = .hosts := by decide
    obtain ⟨l₁, l₂, hl, -⟩ := List.lookup_eq_some_iff.1 hkind
    have hkind' : kind'.ruleType = .hosts := hhosts (ip, kind') (by rw [hl]; simp)
    dsimp only at h
    split_ifs at h
    · cases h; exact hkind'
    · cases h; exact hkind'

theorem hostsRule_fromLine {line domain : Text} {kind : SimpleKind} {singleDomain : Bool}
    (hk : kind.ruleType = .hosts) :
    (ParsedRule.block (hostsRule line kind singleDomain domain)).FromLine line := by
  refine ⟨fun kind' hc sourceId => ?_, rfl⟩
  simp only [hostsRule, Option.ite_none_right_eq_some, Option.some.injEq] at hc
  obtain ⟨⟨-, hcanonical⟩, rfl⟩ := hc
  simp only [SimpleRule.toComplex, RuleData.toComplex, hostsRule, hk,
    canonicalRuleText_eq hcanonical fun h => by cases h]

theorem parsePattern_ruleType {pattern : Text} {rule : RuleData}
    (h : parsePattern pattern = some rule) : rule.ruleType ≠ .hosts := by
  unfold parsePattern at h
  split_ifs at h
  split at h
  · obtain ⟨domain, -, rfl⟩ := Option.map_eq_some_iff.1 h
    simp
  · obtain ⟨domain, -, rfl⟩ := Option.map_eq_some_iff.1 h
    dsimp only
    split_ifs <;> simp

theorem canonicalKind_eq_some {line : Text} {rule : RuleData} {isAllow : Bool} {kind : SimpleKind}
    (hraw : rule.raw = line) (ht : rule.ruleType ≠ .hosts)
    (h : canonicalKind line rule isAllow = some kind) (sourceId : UInt16) :
    SimpleRule.toComplex ⟨sourceId, kind⟩ rule.domain isAllow = rule.toComplex sourceId := by
  unfold canonicalKind at h
  split_ifs at h with hplain
  obtain ⟨himportant, htypes, hdenyallow, hrewrite, hcanonical⟩ := hplain
  cases h
  have hkind : rule.ruleType.plainKind.ruleType = rule.ruleType := by
    cases hrule : rule.ruleType with
    | suffix => rfl
    | exact => rfl
    | hosts => exact absurd hrule ht
  have hnot : rule.important = false := by simpa using himportant
  simp only [SimpleRule.toComplex, RuleData.toComplex, hkind, htypes, hdenyallow, hrewrite, hraw,
    hnot, canonicalRuleText_eq hcanonical fun _ => by rw [hkind]; exact ht]

theorem ruleOfLine_fromLine {line : Text} {isAllow : Bool} {rule : RuleData}
    (hraw : rule.raw = line) (ht : rule.ruleType ≠ .hosts) :
    (ruleOfLine line isAllow rule).FromLine line := by
  have hcanonical : RuleData.Canonical { rule with canonical := canonicalKind line rule isAllow }
      isAllow := fun kind hkind sourceId => canonicalKind_eq_some hraw ht hkind sourceId
  unfold ruleOfLine
  dsimp only
  split_ifs with hrewrite hallow
  · trivial
  · exact ⟨hallow ▸ hcanonical, hraw⟩
  · rw [Bool.not_eq_true] at hallow
    exact ⟨hallow ▸ hcanonical, hraw⟩

theorem parseFilterRule_fromLine (line : Text) : (parseFilterRule line).FromLine line := by
  unfold parseFilterRule
  dsimp only
  split
  · trivial
  · split_ifs
    · trivial
    · split
      · trivial
      · rename_i rule hrule
        have ht : rule.ruleType ≠ .hosts := parsePattern_ruleType hrule
        exact ruleOfLine_fromLine rfl ht

theorem fromLine_of_mem_scanLine {jsonString : Text → Option Text} {disabled : List Text}
    {line : Text} {parsed : ParsedRule}
    (h : ScanEvent.rule parsed ∈ scanLine jsonString disabled line) :
    parsed.FromLine line.trim := by
  unfold scanLine at h
  dsimp only at h
  split at h
  · obtain ⟨name, -, hname⟩ := Option.map_eq_some_iff.1 (Option.mem_toList.1 h)
    cases hname
  · split_ifs at h
    · cases h
    · split at h
      · rename_i kind domains hhosts
        obtain ⟨domain, -, hdomain⟩ := List.mem_map.1 h
        cases domain with
        | none => cases hdomain; trivial
        | some domain =>
          cases hdomain
          exact hostsRule_fromLine (parseHostsRules_kind hhosts)
      · cases List.mem_singleton.1 h
        unfold parseRule
        dsimp only
        split_ifs
        · trivial
        · exact parseFilterRule_fromLine line.trim

end DnsBlackhole.Rules
