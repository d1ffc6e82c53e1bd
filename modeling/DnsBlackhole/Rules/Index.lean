/-
  The index of rules (`RuleSet` of `dns/rules.rs`).

  Rules are kept by their domain, those for the domain alone apart from those for
  its subdomains too.  The first rule of a key may be kept as four bytes, from
  which its line is rebuilt; a rule is left out if one with the same conditions
  is there.  So what is kept under a key (`RuleSet.rulesAt`) are the rules
  inserted there, the first for each condition (`rulesAt_insert`).
-/
import DnsBlackhole.Lib.FirstOf
import DnsBlackhole.Lib.HashMap
import DnsBlackhole.Rules.Syntax

namespace DnsBlackhole.Rules
open Lib

structure SimpleRule where
  sourceId : UInt16
  kind : SimpleKind
  deriving DecidableEq

structure ComplexRule where
  raw : Text
  sourceId : UInt16
  ruleType : RuleType
  important : Bool
  queryTypes : QueryTypes
  denyallow : List Text
  dnsrewrite : Option DnsRewriteAction
  deriving DecidableEq

inductive RuleEntry
  | simple (rule : SimpleRule)
  | complex (rules : List ComplexRule)
  deriving DecidableEq

structure RuleSet where
  exact : HashMap Text RuleEntry
  suffix : HashMap Text RuleEntry
  deriving DecidableEq

def SimpleKind.ruleType : SimpleKind → RuleType
  | .suffix => .suffix
  | .exactPlain => .exact
  | .hostsZero4 | .hostsLocal4 | .hostsZero6 | .hostsLocal6 => .hosts

def RuleType.asStr : RuleType → Text
  | .exact => "exact".toList
  | .suffix => "suffix".toList
  | .hosts => "hosts".toList

def QueryTypes.contains : QueryTypes → UInt16 → Bool
  | .any, _ => true
  | .including types, qtype => qtype ∈ types
  | .excluding types, qtype => qtype ∉ types

def domainMatches (domain suffix : Text) : Bool :=
  domain == suffix || (domain.stripSuffix suffix).any fun start => start.endsWith '.'

def ComplexRule.matches (rule : ComplexRule) (domain : Text) (qtype : UInt16) (important : Bool) :
    Bool :=
  rule.important == important && rule.queryTypes.contains qtype &&
    !rule.denyallow.any fun excluded => domainMatches domain excluded

def SimpleRule.toComplex (rule : SimpleRule) (domain : Text) (isAllow : Bool) : ComplexRule where
  raw := canonicalRuleText rule.kind domain isAllow
  sourceId := rule.sourceId
  ruleType := rule.kind.ruleType
  important := false
  queryTypes := .any
  denyallow := []
  dnsrewrite := none

/-! ## Insertion -/

namespace RuleEntry

def coversSemantics (entry : RuleEntry) (important : Bool) (queryTypes : QueryTypes)
    (denyallow : List Text) (dnsrewrite : Option DnsRewriteAction) : Bool :=
  match entry with
  | .simple _ => !important && queryTypes == .any && denyallow == [] && dnsrewrite == none
  | .complex rules => rules.any fun rule => rule.important == important &&
      rule.queryTypes == queryTypes && rule.denyallow == denyallow && rule.dnsrewrite == dnsrewrite

def push (entry : RuleEntry) (domain : Text) (isAllow : Bool) (rule : ComplexRule) : RuleEntry :=
  match entry with
  | .simple first => .complex [first.toComplex domain isAllow, rule]
  | .complex rules => .complex (rules ++ [rule])

end RuleEntry

/-- The rule that is kept for a parsed one. -/
def RuleData.toComplex (rule : RuleData) (sourceId : UInt16) : ComplexRule where
  raw := rule.raw
  sourceId := sourceId
  ruleType := rule.ruleType
  important := rule.important
  queryTypes := rule.queryTypes
  denyallow := rule.denyallow
  dnsrewrite := rule.dnsrewrite

/-- The entry for a rule under a key without one. -/
def RuleData.newEntry (rule : RuleData) (sourceId : UInt16) : RuleEntry :=
  match rule.canonical with
  | some kind => .simple ⟨sourceId, kind⟩
  | none => .complex [rule.toComplex sourceId]

namespace RuleSet

/-- The map for exact domains, or the one for domains with their subdomains. -/
def entries (s : RuleSet) (exact : Bool) : HashMap Text RuleEntry :=
  if exact then s.exact else s.suffix

def setEntries (s : RuleSet) (exact : Bool) (map : HashMap Text RuleEntry) : RuleSet :=
  if exact then { s with exact := map } else { s with suffix := map }

def insert (s : RuleSet) (rule : RuleData) (sourceId : UInt16) (isAllow : Bool) : RuleSet :=
  let map := s.entries !rule.includeSubdomains
  match map.lookup rule.domain with
  | some entry =>
    -- of the rules with the same conditions only the first can ever be found
    if entry.coversSemantics rule.important rule.queryTypes rule.denyallow rule.dnsrewrite then s
    else s.setEntries (!rule.includeSubdomains)
      (map.insert rule.domain (entry.push rule.domain isAllow (rule.toComplex sourceId)))
  | none => s.setEntries (!rule.includeSubdomains)
      (map.insert rule.domain (rule.newEntry sourceId))

end RuleSet

/-! ## What is kept -/

/-- What a rule asks for: two rules with the same semantics match the same
    queries, and answer the same. -/
structure Semantics where
  important : Bool
  queryTypes : QueryTypes
  denyallow : List Text
  dnsrewrite : Option DnsRewriteAction
  deriving DecidableEq

def ComplexRule.semantics (rule : ComplexRule) : Semantics :=
  ⟨rule.important, rule.queryTypes, rule.denyallow, rule.dnsrewrite⟩

/-- The rules of an entry, in full. -/
def RuleEntry.rules (entry : RuleEntry) (domain : Text) (isAllow : Bool) : List ComplexRule :=
  match entry with
  | .simple rule => [rule.toComplex domain isAllow]
  | .complex rules => rules

theorem coversSemantics_iff (entry : RuleEntry) (domain : Text) (isAllow : Bool)
    (rule : ComplexRule) :
    entry.coversSemantics rule.important rule.queryTypes rule.denyallow rule.dnsrewrite ↔
      ∃ r ∈ entry.rules domain isAllow, r.semantics = rule.semantics := by
  cases entry with
  | simple first =>
    simp only [RuleEntry.coversSemantics, RuleEntry.rules, List.mem_singleton, exists_eq_left,
      ComplexRule.semantics, Semantics.mk.injEq, Bool.and_eq_true, beq_iff_eq, Bool.not_eq_true',
      and_assoc]
    constructor
    · rintro ⟨hi, hq, hd, hr⟩; exact ⟨hi.symm, hq.symm, hd.symm, hr.symm⟩
    · rintro ⟨hi, hq, hd, hr⟩; exact ⟨hi.symm, hq.symm, hd.symm, hr.symm⟩
  | complex rules =>
    simp [RuleEntry.coversSemantics, RuleEntry.rules, ComplexRule.semantics, and_assoc]

theorem rules_push (entry : RuleEntry) (domain : Text) (isAllow : Bool) (rule : ComplexRule) :
    (entry.push domain isAllow rule).rules domain isAllow =
      entry.rules domain isAllow ++ [rule] := by
  cases entry <;> rfl

/-- A rule in a canonical form: its line is rebuilt as it was. -/
def RuleData.Canonical (rule : RuleData) (isAllow : Bool) : Prop :=
  ∀ kind, rule.canonical = some kind → ∀ sourceId,
    SimpleRule.toComplex ⟨sourceId, kind⟩ rule.domain isAllow = rule.toComplex sourceId

theorem rules_newEntry {rule : RuleData} {isAllow : Bool} (h : rule.Canonical isAllow)
    (sourceId : UInt16) :
    (rule.newEntry sourceId).rules rule.domain isAllow = [rule.toComplex sourceId] := by
  unfold RuleData.newEntry
  cases hc : rule.canonical with
  | none => rfl
  | some kind => exact congrArg (fun r => [r]) (h kind hc sourceId)

namespace RuleSet

/-- The rules under a key. -/
def rulesAt (s : RuleSet) (isAllow exact : Bool) (domain : Text) : List ComplexRule :=
  ((s.entries exact).lookup domain).elim [] fun entry => entry.rules domain isAllow

theorem entries_setEntries (s : RuleSet) (exact exact' : Bool) (map : HashMap Text RuleEntry) :
    (s.setEntries exact map).entries exact' = if exact' = exact then map else s.entries exact' := by
  cases exact <;> cases exact' <;> rfl

theorem rulesAt_setEntries (s : RuleSet) (isAllow exact exact' : Bool) (domain domain' : Text)
    (entry : RuleEntry) :
    (s.setEntries exact ((s.entries exact).insert domain entry)).rulesAt isAllow exact' domain' =
      if exact' = exact ∧ domain' = domain then entry.rules domain isAllow
      else s.rulesAt isAllow exact' domain' := by
  rw [rulesAt, entries_setEntries]
  by_cases he : exact' = exact
  · rw [if_pos he, HashMap.lookup_insert_eq_ite]
    by_cases hd : domain' = domain
    · rw [if_pos hd, if_pos ⟨he, hd⟩, hd]
      rfl
    · rw [if_neg hd, if_neg fun h => hd h.2, rulesAt, he]
  · rw [if_neg he, if_neg fun h => he h.1, rulesAt]

/-- **What an insertion does**: the rule comes last under its key, unless one with
    the same semantics is there. -/
theorem rulesAt_insert (s : RuleSet) {rule : RuleData} {isAllow : Bool}
    (h : rule.Canonical isAllow) (sourceId : UInt16) (exact : Bool) (domain : Text) :
    (s.insert rule sourceId isAllow).rulesAt isAllow exact domain =
      if exact = !rule.includeSubdomains ∧ domain = rule.domain ∧
          ∀ r ∈ s.rulesAt isAllow exact domain, r.semantics ≠ (rule.toComplex sourceId).semantics
      then s.rulesAt isAllow exact domain ++ [rule.toComplex sourceId]
      else s.rulesAt isAllow exact domain := by
  have hat : ∀ {entry}, (s.entries !rule.includeSubdomains).lookup rule.domain = some entry →
      s.rulesAt isAllow (!rule.includeSubdomains) rule.domain = entry.rules rule.domain isAllow :=
    fun hl => by rw [rulesAt, hl]; rfl
  unfold insert
  dsimp only
  cases hl : (s.entries !rule.includeSubdomains).lookup rule.domain with
  | none =>
    dsimp only
    rw [rulesAt_setEntries, rules_newEntry h]
    by_cases hkey : exact = !rule.includeSubdomains ∧ domain = rule.domain
    · obtain ⟨rfl, rfl⟩ := hkey
      have hnil : s.rulesAt isAllow (!rule.includeSubdomains) rule.domain = [] := by
        rw [rulesAt, hl]; rfl
      rw [hnil]
      simp
    · rw [if_neg hkey, if_neg fun hk => hkey ⟨hk.1, hk.2.1⟩]
  | some entry =>
    dsimp only
    have hcovers : entry.coversSemantics rule.important rule.queryTypes rule.denyallow
        rule.dnsrewrite ↔ _ :=
      coversSemantics_iff entry rule.domain isAllow (rule.toComplex sourceId)
    by_cases hc : ∃ r ∈ entry.rules rule.domain isAllow,
        r.semantics = (rule.toComplex sourceId).semantics
    · rw [if_pos (hcovers.2 hc)]
      split_ifs with hkey
      · obtain ⟨rfl, rfl, hnew⟩ := hkey
        obtain ⟨r, hr, hsem⟩ := hc
        exact absurd hsem (hnew r ((hat hl).symm ▸ hr))
      · rfl
    · rw [if_neg fun hcov => hc (hcovers.1 hcov), rulesAt_setEntries, rules_push]
      by_cases hkey : exact = !rule.includeSubdomains ∧ domain = rule.domain
      · obtain ⟨rfl, rfl⟩ := hkey
        rw [if_pos ⟨rfl, rfl⟩, hat hl, if_pos]
        exact ⟨rfl, rfl, fun r hr hsem => hc ⟨r, hr, hsem⟩⟩
      · rw [if_neg hkey, if_neg fun hk => hkey ⟨hk.1, hk.2.1⟩]

end RuleSet

/-! ## Lookup -/

/-- The line of a rule that matches, or the form from which it is rebuilt. -/
inductive MatchedRaw
  | stored (raw : Text)
  | canonical (kind : SimpleKind)

structure MatchedRule where
  domain : Text
  sourceId : UInt16
  ruleType : RuleType
  raw : MatchedRaw
  dnsrewrite : Option DnsRewriteAction

def MatchedRule.rawText (m : MatchedRule) (isAllow : Bool) : Text :=
  match m.raw with
  | .stored raw => raw
  | .canonical kind => canonicalRuleText kind m.domain isAllow

def lookupEntry (map : HashMap Text RuleEntry) (key queryDomain : Text) (qtype : UInt16)
    (important : Bool) : Option MatchedRule :=
  (map.lookup key).bind fun entry =>
    match entry with
    | .simple rule =>
      if important then none
      else some ⟨key, rule.sourceId, rule.kind.ruleType, .canonical rule.kind, none⟩
    | .complex rules =>
      (rules.find? fun rule =>
        rule.dnsrewrite.isNone && rule.matches queryDomain qtype important).map fun rule =>
          ⟨key, rule.sourceId, rule.ruleType, .stored rule.raw, rule.dnsrewrite⟩

end DnsBlackhole.Rules
