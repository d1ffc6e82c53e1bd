/-
  Matching a domain with compiled rules (`blocking_match` of `dns/rules.rs`).

  The rules are looked up in layers, the shared ones first and the custom ones
  over them: for every domain from the longest, in every layer.  What is found
  first decides, but for rules with `$dnsrewrite`, which are collected.
-/
import DnsBlackhole.Rules.Scan

namespace DnsBlackhole.Rules
open Text

structure RuleCandidate where
  raw : Text
  source : Text
  ruleType : RuleType
  dnsrewrite : Option DnsRewriteAction
  deriving DecidableEq

structure BlockMatch where
  rule : Text
  source : Text
  ruleType : Text
  importantOverrode : Bool
  allowlistRule : Option Text
  dnsrewrite : Option DnsRewriteAction
  deriving DecidableEq

/-- The domains above a domain, from the longest: what stands behind each dot. -/
def parents : Text → List Text
  | [] => []
  | c :: t => if c = '.' then t :: parents t else parents t

def lookupLayers (layers : List CompiledRules) (lookup queryDomain : Text) (qtype : UInt16)
    (important allow exact : Bool) : Option RuleCandidate :=
  layers.findSome? fun rules =>
    let ruleSet := if allow then rules.allows else rules.blocks
    (lookupEntry (ruleSet.entries exact) lookup queryDomain qtype important).map fun m =>
      ⟨m.rawText allow, rules.sourceName m.sourceId, m.ruleType, m.dnsrewrite⟩

def findLayeredMatch (layers : List CompiledRules) (domain : Text) (qtype : UInt16)
    (important allow : Bool) : Option RuleCandidate :=
  match lookupLayers layers domain domain qtype important allow true with
  | some found => some found
  | none =>
    match lookupLayers layers domain domain qtype important allow false with
    | some found => some found
    | none => (parents domain).findSome? fun name =>
      lookupLayers layers name domain qtype important allow false

def blockSuffix : Text := " block".toList
def rewriteSuffix : Text := " rewrite".toList

def buildBlockMatch (block : RuleCandidate) (allow : Option RuleCandidate)
    (importantOverrode : Bool) : BlockMatch where
  rule := block.raw
  source := block.source
  ruleType := block.ruleType.asStr ++ blockSuffix
  importantOverrode := importantOverrode
  allowlistRule := allow.map RuleCandidate.raw
  dnsrewrite := block.dnsrewrite

/-! ## Rewrites -/

/-- The rules with `$dnsrewrite` that match under one name of a layer. -/
def rewritesAt (layer : CompiledRules) (name domain : Text) (qtype : UInt16) (exact : Bool) :
    List (CompiledRules × ComplexRule) :=
  match (layer.blocks.entries exact).lookup name with
  | some (.complex rules) =>
    (rules.filter fun rule =>
      rule.dnsrewrite.isSome && rule.matches domain qtype rule.important).map (layer, ·)
  | _ => []

/-- The rules with `$dnsrewrite` that match, with their layers. -/
def collectRewrites (layers : List CompiledRules) (domain : Text) (qtype : UInt16) :
    List (CompiledRules × ComplexRule) :=
  (domain :: parents domain).flatMap fun name =>
    [true, false].flatMap fun (exact : Bool) =>
      if exact ∧ name ≠ domain then []
      else (layers.filter CompiledRules.hasDnsrewrites).flatMap fun layer =>
        rewritesAt layer name domain qtype exact

/-- An RCODE replaces the whole answer, and there can be one CNAME only. -/
def rewritePriority : DnsRewriteAction → ℕ
  | .rcode _ => 0
  | .cname _ => 1
  | _ => 2

def rulePriority (rule : ComplexRule) : ℕ := (rule.dnsrewrite.map rewritePriority).getD 2

/-- The loop that collects the actions, each once. -/
def collectActions (rules : List ComplexRule) : List DnsRewriteAction :=
  rules.foldl (fun actions rule =>
    match rule.dnsrewrite with
    | none => actions
    | some action => if action ∈ actions then actions else actions ++ [action]) []

def mergeActions (actions : List DnsRewriteAction) : DnsRewriteAction :=
  match actions with
  | [action] => action
  | actions => .multiple actions

def rewriteMatchLayers (layers : List CompiledRules) (domain : Text) (qtype : UInt16) :
    Option BlockMatch :=
  if !layers.any CompiledRules.hasDnsrewrites then none
  else
    let found := collectRewrites layers domain qtype
    let found := if found.any fun m => m.2.important then found.filter fun m => m.2.important
      else found
    (found.map fun m => rulePriority m.2).min?.bind fun best =>
      let found := found.filter fun m => rulePriority m.2 == best
      let found := if best < 2 then found.take 1 else found
      found.head?.map fun (layer, first) =>
        let allow := findLayeredMatch layers domain qtype false true
        { rule := Text.join (found.map fun m => m.2.raw) ['\n']
          source := layer.sourceName first.sourceId
          ruleType := first.ruleType.asStr ++ rewriteSuffix
          importantOverrode := first.important && allow.isSome
          allowlistRule := allow.map RuleCandidate.raw
          dnsrewrite := some (mergeActions (collectActions (found.map Prod.snd))) }

def blockingMatchLayers (layers : List CompiledRules) (domain : Text) (qtype : UInt16) :
    Option BlockMatch :=
  match rewriteMatchLayers layers domain qtype with
  | some rewrite => some rewrite
  | none =>
    if (findLayeredMatch layers domain qtype true true).isSome then none
    else
      match findLayeredMatch layers domain qtype true false with
      | some block =>
        let allow := findLayeredMatch layers domain qtype false true
        some (buildBlockMatch block allow allow.isSome)
      | none =>
        if (findLayeredMatch layers domain qtype false true).isSome then none
        else (findLayeredMatch layers domain qtype false false).map fun block =>
          buildBlockMatch block none false

def CompiledRules.blockingMatch (rules : CompiledRules) (domain : Text) (qtype : UInt16) :
    Option BlockMatch :=
  match rules.base with
  | some base => blockingMatchLayers [base, rules] domain qtype
  | none => blockingMatchLayers [rules] domain qtype

end DnsBlackhole.Rules
