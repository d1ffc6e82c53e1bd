/-
  The syntax of rules (`dns/rules.rs`): what one line says.

  A line is a hosts line with several domains, or one rule: a pattern and its
  modifiers behind a `$`.  `SimpleKind` are the forms whose line can be rebuilt
  from the domain (`canonicalRuleText_eq`), so that a rule in such a form need
  not keep it.
-/
import DnsBlackhole.Ip
import DnsBlackhole.Protocol.Record

namespace DnsBlackhole.Rules
open Protocol Text

inductive SimpleKind
  | suffix
  | exactPlain
  | hostsZero4
  | hostsLocal4
  | hostsZero6
  | hostsLocal6
  deriving DecidableEq

inductive RuleType
  | exact
  | suffix
  | hosts
  deriving DecidableEq

/-- The query types a rule is for. -/
inductive QueryTypes
  | any
  | including (types : List UInt16)
  | excluding (types : List UInt16)
  deriving DecidableEq

/-- What a rule with `$dnsrewrite` answers; `multiple` only comes up when the
    rules that match are merged. -/
inductive DnsRewriteAction
  | rcode (rcode : UInt8)
  | address (address : IpAddr)
  | cname (target : Text)
  | record (rtype : UInt16) (value : Text)
  | multiple (actions : List DnsRewriteAction)

mutual

def DnsRewriteAction.decEq : (a b : DnsRewriteAction) → Decidable (a = b)
  | .rcode a, .rcode b => decidable_of_iff (a = b) (by simp)
  | .address a, .address b => decidable_of_iff (a = b) (by simp)
  | .cname a, .cname b => decidable_of_iff (a = b) (by simp)
  | .record a v, .record b w => decidable_of_iff (a = b ∧ v = w) (by simp)
  | .multiple as, .multiple bs =>
    match DnsRewriteAction.decEqList as bs with
    | isTrue h => isTrue (h ▸ rfl)
    | isFalse h => isFalse fun he => h (DnsRewriteAction.multiple.inj he)
  | .rcode _, .address _ | .rcode _, .cname _ | .rcode _, .record _ _ | .rcode _, .multiple _
  | .address _, .rcode _ | .address _, .cname _ | .address _, .record _ _
  | .address _, .multiple _ | .cname _, .rcode _ | .cname _, .address _ | .cname _, .record _ _
  | .cname _, .multiple _ | .record _ _, .rcode _ | .record _ _, .address _
  | .record _ _, .cname _ | .record _ _, .multiple _ | .multiple _, .rcode _
  | .multiple _, .address _ | .multiple _, .cname _ | .multiple _, .record _ _ =>
    isFalse fun h => by cases h

def DnsRewriteAction.decEqList : (as bs : List DnsRewriteAction) → Decidable (as = bs)
  | [], [] => isTrue rfl
  | [], _ :: _ => isFalse fun h => by cases h
  | _ :: _, [] => isFalse fun h => by cases h
  | a :: as, b :: bs =>
    match DnsRewriteAction.decEq a b, DnsRewriteAction.decEqList as bs with
    | isTrue h, isTrue h' => isTrue (h ▸ h' ▸ rfl)
    | isFalse h, _ => isFalse fun he => h (List.cons.inj he).1
    | _, isFalse h => isFalse fun he => h (List.cons.inj he).2

end

instance : DecidableEq DnsRewriteAction := DnsRewriteAction.decEq

/-- A rule as it is parsed from a line. -/
structure RuleData where
  domain : Text
  includeSubdomains : Bool
  raw : Text
  ruleType : RuleType
  important : Bool
  queryTypes : QueryTypes
  denyallow : List Text
  dnsrewrite : Option DnsRewriteAction
  canonical : Option SimpleKind
  deriving DecidableEq

inductive IgnoredRuleReason
  | comment
  | regex
  | unsupported
  | invalid
  deriving DecidableEq

inductive ParsedRule
  | block (rule : RuleData)
  | allow (rule : RuleData)
  | ignored (reason : IgnoredRuleReason)
  | disable
  deriving DecidableEq

/-! ## Domains and numbers -/

def normalizeDomain (value : Text) : Option Text :=
  let domain := value.trim.trimEndMatches '.'
  if domain = [] then none
  else if '/' ∈ domain ∨ '*' ∈ domain ∨ ' ' ∈ domain then none
  else if !domain.all fun ch => ch.isAlphanum || ch == '-' || ch == '_' || ch == '.' then none
  else if domain.any Char.isUpper then some domain.toAsciiLowercase
  else some domain

def rcodeNumbers : List (Text × UInt8) :=
  [("NOERROR".toList, 0), ("FORMERR".toList, 1), ("SERVFAIL".toList, 2), ("NXDOMAIN".toList, 3),
    ("NOTIMP".toList, 4), ("REFUSED".toList, 5)]

def rcodeNumber (value : Text) : Option UInt8 := rcodeNumbers.lookup value.toAsciiUppercase

def queryTypeNumbers : List (Text × UInt16) :=
  [("A".toList, 1), ("NS".toList, 2), ("CNAME".toList, 5), ("SOA".toList, 6), ("PTR".toList, 12),
    ("MX".toList, 15), ("TXT".toList, 16), ("AAAA".toList, 28), ("SRV".toList, 33),
    ("NAPTR".toList, 35), ("DS".toList, 43), ("RRSIG".toList, 46), ("NSEC".toList, 47),
    ("DNSKEY".toList, 48), ("TLSA".toList, 52), ("SVCB".toList, 64), ("HTTPS".toList, 65),
    ("CAA".toList, 257), ("ANY".toList, 255)]

def queryTypeNumber (value : Text) : Option UInt16 :=
  let value := value.toAsciiUppercase
  (queryTypeNumbers.lookup value).or (value.parseU16.filter (0 < ·))

/-! ## Modifiers -/

structure Modifiers where
  important : Bool
  badfilter : Bool
  queryTypes : QueryTypes
  denyallow : List Text
  dnsrewrite : Option DnsRewriteAction
  deriving DecidableEq

/-- The modifiers of a rule without any. -/
def noModifiers : Modifiers := ⟨false, false, .any, [], none⟩

def stripPrefixIgnoreAsciiCase (value start : Text) : Option Text :=
  if eqIgnoreAsciiCase (value.take start.length) start then some (value.drop start.length) else none

/-- A CNAME target, if it is a name that can be encoded. -/
def cnameTarget (value : Text) : Option DnsRewriteAction := do
  let domain ← normalizeDomain value
  let _ ← encodeDnsName domain
  some (.cname domain)

/-- The long form `RCODE;TYPE;VALUE` of a `$dnsrewrite`. -/
def parseLongDnsrewrite (rcodeText typeText : Text) (values : List Text) :
    Option DnsRewriteAction := do
  let rcode ← rcodeNumber rcodeText.trim
  let recordType := typeText.trim
  if recordType = [] then some (.rcode rcode)
  else if rcode ≠ 0 then none
  else
    -- the value may itself contain semicolons
    let value := (Text.join values [';']).trim
    if value = [] then none
    else
      let rtype ← queryTypeNumber recordType
      if rtype = typeA then (parseIpv4Addr value).map fun addr => .address (.v4 addr)
      else if rtype = typeAaaa then (parseIpv6Addr value).map fun addr => .address (.v6 addr)
      else if rtype = typeCname then cnameTarget value
      else if rtype = typePtr ∨ rtype = typeMx ∨ rtype = typeTxt ∨ rtype = typeSrv then
        (encodeRewriteRdata rtype value rtype).map fun _ => .record rtype value
      else none

def parseDnsrewrite (raw : Text) : Option DnsRewriteAction :=
  let raw := raw.trim
  if raw = [] then none
  else
    match raw.split (· == ';') with
    | [] => none
    | [part] =>
      let value := part.trim
      match rcodeNumber value with
      | some rcode => some (.rcode rcode)
      | none =>
        match parseIpAddr value with
        | some address => some (.address address)
        | none => cnameTarget value
    | rcode :: recordType :: values => parseLongDnsrewrite rcode recordType values

def parseQueryTypes (raw : Text) : Option QueryTypes :=
  let values := raw.split (· == '|')
  let excluded := (values.headD []).startsWith '~'
  if !values.all fun value => value.startsWith '~' == excluded then none
  else (values.mapM fun value => queryTypeNumber (value.trimStartMatches '~')).map fun types =>
    if excluded then .excluding types else .including types

/-- One iteration of the loop of `parse_modifiers`. -/
def parseModifier (parsed : Modifiers) (modifier : Text) : Option Modifiers :=
  match stripPrefixIgnoreAsciiCase modifier "dnsrewrite=".toList with
  | some value => (parseDnsrewrite value).map fun action => { parsed with dnsrewrite := some action }
  | none =>
    let lower := modifier.toAsciiLowercase
    if lower = "important".toList then some { parsed with important := true }
    else if lower = "badfilter".toList then some { parsed with badfilter := true }
    else
      match lower.stripPrefix "dnstype=".toList, lower.stripPrefix "denyallow=".toList with
      | some value, _ => (parseQueryTypes value).map fun types => { parsed with queryTypes := types }
      | none, some value =>
        ((value.split (· == '|')).mapM normalizeDomain).bind fun domains =>
          if domains = [] then none else some { parsed with denyallow := domains }
      | none, none => none

def parseModifiers (raw : Text) : Option Modifiers :=
  if raw = [] then some noModifiers
  else (raw.split (· == ',')).foldlM parseModifier noModifiers

/-! ## Canonical lines -/

/-- The mark of an allow rule. -/
def allowMark (isAllow : Bool) : Text := if isAllow then ['@', '@'] else []

def canonicalRuleText (kind : SimpleKind) (domain : Text) (isAllow : Bool) : Text :=
  match kind with
  | .suffix => allowMark isAllow ++ ['|', '|'] ++ domain ++ ['^']
  | .exactPlain => allowMark isAllow ++ domain
  | .hostsZero4 => ['0', '.', '0', '.', '0', '.', '0', ' '] ++ domain
  | .hostsLocal4 => ['1', '2', '7', '.', '0', '.', '0', '.', '1', ' '] ++ domain
  | .hostsZero6 => [':', ':', ' '] ++ domain
  | .hostsLocal6 => [':', ':', '1', ' '] ++ domain

/-- Whether a line, less the mark of an allow rule, is in a form. -/
def isCanonicalRest (rest : Text) (kind : SimpleKind) (domain : Text) : Bool :=
  match kind with
  | .suffix => ((rest.stripPrefix ['|', '|']).bind (·.stripSuffix ['^'])) == some domain
  | .exactPlain => rest == domain
  | .hostsZero4 => rest.stripPrefix ['0', '.', '0', '.', '0', '.', '0', ' '] == some domain
  | .hostsLocal4 =>
    rest.stripPrefix ['1', '2', '7', '.', '0', '.', '0', '.', '1', ' '] == some domain
  | .hostsZero6 => rest.stripPrefix [':', ':', ' '] == some domain
  | .hostsLocal6 => rest.stripPrefix [':', ':', '1', ' '] == some domain

def isCanonicalRuleText (line : Text) (kind : SimpleKind) (domain : Text) (isAllow : Bool) : Bool :=
  (if isAllow then line.stripPrefix ['@', '@'] else some line).any fun rest =>
    isCanonicalRest rest kind domain

/-! ## Lines -/

def parsePattern (pattern : Text) : Option RuleData :=
  if pattern.startsWith '/' ∧ pattern.endsWith '/' then none
  else
    match pattern.stripPrefix ['|', '|'] with
    | some rest =>
      (normalizeDomain ((rest.trimEndMatches '^').trimEndMatches '|')).map fun domain =>
        ⟨domain, true, [], .suffix, false, .any, [], none, none⟩
    | none =>
      let stripped := (pattern.trimMatches '|').trimEndMatches '^'
      let includeSubdomains := (pattern.stripPrefix ['*', '.']).isSome
      (normalizeDomain ((stripped.stripPrefix ['*', '.']).getD stripped)).map fun domain =>
        ⟨domain, includeSubdomains, [], if includeSubdomains then .suffix else .exact, false, .any,
          [], none, none⟩

def ignoredPatternReason (pattern : Text) : IgnoredRuleReason :=
  if pattern.startsWith '/' ∧ pattern.endsWith '/' then .regex else .invalid

/-- The form in which a plain rule of a type is written. -/
def RuleType.plainKind : RuleType → SimpleKind
  | .suffix => .suffix
  | .exact | .hosts => .exactPlain

/-- The form of a rule that is nothing but a domain. -/
def canonicalKind (line : Text) (rule : RuleData) (isAllow : Bool) : Option SimpleKind :=
  if !rule.important ∧ rule.queryTypes = .any ∧ rule.denyallow = [] ∧ rule.dnsrewrite = none ∧
      isCanonicalRuleText line rule.ruleType.plainKind rule.domain isAllow then
    some rule.ruleType.plainKind
  else none

/-- A rule with its line and its modifiers. -/
def RuleData.withModifiers (rule : RuleData) (line : Text) (modifiers : Modifiers) : RuleData :=
  { rule with
    raw := line
    important := modifiers.important
    queryTypes := modifiers.queryTypes
    denyallow := modifiers.denyallow
    dnsrewrite := modifiers.dnsrewrite }

/-- The mark of an allow rule, and what follows. -/
def splitAllow (line : Text) : Bool × Text :=
  match line.stripPrefix ['@', '@'] with
  | some value => (true, value)
  | none => (false, line)

/-- The rule of a line, from its pattern and its modifiers. -/
def ruleOfLine (line : Text) (isAllow : Bool) (rule : RuleData) : ParsedRule :=
  -- an allow rule has nothing to answer
  if isAllow ∧ rule.dnsrewrite.isSome then .ignored .unsupported
  else
    let rule := { rule with canonical := canonicalKind line rule isAllow }
    if isAllow then .allow rule else .block rule

def parseFilterRule (line : Text) : ParsedRule :=
  let (isAllow, rest) := splitAllow line
  let (pattern, modifiers) := (rest.splitOnce (· == '$')).getD (rest, [])
  match parseModifiers modifiers with
  | none => .ignored .unsupported
  | some modifiers =>
    if modifiers.badfilter then .disable
    else
      match parsePattern pattern.trim with
      | none => .ignored (ignoredPatternReason pattern.trim)
      | some rule => ruleOfLine line isAllow (rule.withModifiers line modifiers)

def parseRule (line : Text) : ParsedRule :=
  let trimmed := line.trim
  if trimmed = [] ∨ trimmed.startsWith '#' ∨ trimmed.startsWith '!' then .ignored .comment
  else parseFilterRule trimmed

def hostsKinds : List (Text × SimpleKind) :=
  [("0.0.0.0".toList, .hostsZero4), ("127.0.0.1".toList, .hostsLocal4),
    ("::".toList, .hostsZero6), ("::1".toList, .hostsLocal6)]

def parseHostsRules (line : Text) : Option (SimpleKind × List (Option Text)) :=
  match line.splitWhitespace with
  | [] => none
  | ip :: parts =>
    (hostsKinds.lookup ip).map fun kind =>
      let domains := (parts.takeWhile fun token =>
        !token.startsWith '#' && !token.startsWith '!').map normalizeDomain
      if domains = [] then (kind, [none]) else (kind, domains)

def badfilterName : Text := "badfilter".toList

def badfilterTarget (line : Text) : Option Text :=
  (line.trim.splitOnce (· == '$')).bind fun (pattern, modifiers) =>
    let remaining := (modifiers.split (· == ',')).filter fun modifier =>
      !modifier.eqIgnoreAsciiCase badfilterName
    if remaining.length = (modifiers.split (· == ',')).length then none
    else if remaining = [] then some pattern
    else some (pattern ++ '$' :: Text.join remaining [','])

end DnsBlackhole.Rules
