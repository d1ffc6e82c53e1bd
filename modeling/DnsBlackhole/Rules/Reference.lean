/-
  What rules mean: a linear reference.

  The rules of a text are a list (`refRules`).  Those for a domain are taken in
  order: the rules for that very name, those for it with its subdomains, then
  those for the shorter and shorter domains above it, and for each the order of
  the text (`candidates`).  Of these, the first of its kind decides (`verdict`).

  The rules with `$dnsrewrite` that decide are listed with their lines; of rules
  for the same name with the same conditions only the first counts as one
  (`rewriteText`).
-/
import DnsBlackhole.Rules.Match

namespace DnsBlackhole.Rules
open Lib

/-- A rule of a text, with the source it is from. -/
structure RefRule where
  isAllow : Bool
  includeSubdomains : Bool
  domain : Text
  raw : Text
  source : Text
  ruleType : RuleType
  important : Bool
  queryTypes : QueryTypes
  denyallow : List Text
  dnsrewrite : Option DnsRewriteAction
  deriving DecidableEq

namespace RefRule

def ofData (isAllow : Bool) (source : Text) (rule : RuleData) : RefRule where
  isAllow := isAllow
  includeSubdomains := rule.includeSubdomains
  domain := rule.domain
  raw := rule.raw
  source := source
  ruleType := rule.ruleType
  important := rule.important
  queryTypes := rule.queryTypes
  denyallow := rule.denyallow
  dnsrewrite := rule.dnsrewrite

def semantics (r : RefRule) : Semantics := ⟨r.important, r.queryTypes, r.denyallow, r.dnsrewrite⟩

/-- The rule applies to a query for a domain of its. -/
def applies (r : RefRule) (domain : Text) (qtype : UInt16) : Bool :=
  r.queryTypes.contains qtype && !r.denyallow.any fun excluded => domainMatches domain excluded

end RefRule

/-! ## The rules of a text -/

/-- The source with a name: a new one is only counted as long as there are at
    most 65535 others. -/
def sourceOf (known : List Text) (name : Text) : List Text × Text :=
  if known.contains name then (known, name)
  else if 65535 < known.length then (known, defaultSource)
  else (known ++ [name], name)

/-- The rules that are scanned, with the sources `known` so far and the source
    `source` of the lines to come. -/
def rulesOfEvents (known : List Text) (source : Text) : List ScanEvent → List RefRule
  | [] => []
  | .source name :: es => rulesOfEvents (sourceOf known name).1 (sourceOf known name).2 es
  | .rule (.block rule) :: es => RefRule.ofData false source rule :: rulesOfEvents known source es
  | .rule (.allow rule) :: es => RefRule.ofData true source rule :: rulesOfEvents known source es
  | .rule (.ignored _) :: es | .rule .disable :: es => rulesOfEvents known source es

/-- The rules of a text that no `badfilter` disables. -/
def refRules (jsonString : Text → Option Text) (raw : Text) : List RefRule :=
  rulesOfEvents [defaultSource] defaultSource (scanRulesWithDisabled jsonString raw [])

/-! ## Candidates -/

/-- The places where a rule for a domain may stand: those for the very name,
    those for a name and its subdomains. -/
def places (domain : Text) : List (Bool × Text) :=
  (true, domain) :: (domain :: parents domain).map fun name => (false, name)

def RefRule.isAt (isAllow : Bool) (place : Bool × Text) (r : RefRule) : Bool :=
  r.isAllow == isAllow && r.includeSubdomains == !place.1 && r.domain == place.2

/-- The rules for a domain, in the order in which they count. -/
def candidates (rules : List RefRule) (isAllow : Bool) (domain : Text) : List RefRule :=
  (places domain).flatMap fun place => rules.filter fun r => r.isAt isAllow place

/-! ## The verdict -/

section
variable (domain : Text) (qtype : UInt16)

/-- The first ordinary rule, important or not, that applies. -/
def firstMatch (rules : List RefRule) (important : Bool) : Option RefRule :=
  rules.find? fun r => r.dnsrewrite.isNone && r.important == important && r.applies domain qtype

/-- The rules with `$dnsrewrite` that apply, the important ones if there are any. -/
def rewrites (blocks : List RefRule) : List RefRule :=
  let found := blocks.filter fun r => r.dnsrewrite.isSome && r.applies domain qtype
  if found.any RefRule.important then found.filter RefRule.important else found

def RefRule.isRcode (r : RefRule) : Bool :=
  match r.dnsrewrite with
  | some (.rcode _) => true
  | _ => false

def RefRule.isCname (r : RefRule) : Bool :=
  match r.dnsrewrite with
  | some (.cname _) => true
  | _ => false

/-- The first rule with an RCODE, or else the first with a CNAME, or else all. -/
def chosenRewrites (blocks : List RefRule) : List RefRule :=
  let found := rewrites domain qtype blocks
  match found.find? RefRule.isRcode, found.find? RefRule.isCname with
  | some r, _ => [r]
  | none, some r => [r]
  | none, none => found

/-- The answers of rules, each once. -/
def actionsOf (rules : List RefRule) : List DnsRewriteAction :=
  firstOf id (rules.filterMap RefRule.dnsrewrite)

def RefRule.blockMatch (r : RefRule) (allow : Option RefRule) : BlockMatch where
  rule := r.raw
  source := r.source
  ruleType := r.ruleType.asStr ++ blockSuffix
  importantOverrode := allow.isSome
  allowlistRule := allow.map RefRule.raw
  dnsrewrite := none

/-- The verdict of the rules with `$dnsrewrite` that decide; `text` is the text
    of them. -/
def rewriteVerdict (text : List RefRule → Text) (chosen : List RefRule) (allow : Option RefRule) :
    Option BlockMatch :=
  chosen.head?.map fun first =>
    { rule := text chosen
      source := first.source
      ruleType := first.ruleType.asStr ++ rewriteSuffix
      importantOverrode := first.important && allow.isSome
      allowlistRule := allow.map RefRule.raw
      dnsrewrite := some (mergeActions (actionsOf chosen)) }

/-- The verdict of the block rules and the allow rules for a domain. -/
def verdict (text : List RefRule → Text) (blocks allows : List RefRule) : Option BlockMatch :=
  let allow := firstMatch domain qtype allows false
  match rewriteVerdict text (chosenRewrites domain qtype blocks) allow with
  | some rewrite => some rewrite
  | none =>
    if (firstMatch domain qtype allows true).isSome then none
    else
      match firstMatch domain qtype blocks true with
      | some r => some (r.blockMatch allow)
      | none =>
        if allow.isSome then none
        else (firstMatch domain qtype blocks false).map fun r => r.blockMatch none

end

/-- The lines of rules. -/
def linesText (rules : List RefRule) : Text := Text.join (rules.map RefRule.raw) ['\n']

/-- The place of a rule, and what it asks for. -/
def RefRule.identity (r : RefRule) : Bool × Text × Semantics :=
  (r.includeSubdomains, r.domain, r.semantics)

/-- The lines of rules, of those with the same identity the first. -/
def rewriteText (rules : List RefRule) : Text := linesText (firstOf RefRule.identity rules)

/-- **The linear reference**: what a list of rules says about a query. -/
def reference (rules : List RefRule) (domain : Text) (qtype : UInt16) : Option BlockMatch :=
  verdict domain qtype rewriteText (candidates rules false domain) (candidates rules true domain)

end DnsBlackhole.Rules
