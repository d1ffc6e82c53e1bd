/-
  What the quick rules of the query log come to (`apply_query_log_rule_blocking`).

  A quick rule takes a few spellings of earlier entries for the domain out of the
  configuration, and puts its own line behind the others.

  * `enabledRules_next`: the rules are those of the other lines, and its own;
  * `rewriteEntries_append`: the rewrites are those of the other lines, and its own;
  * **`takesEffect_iff`**: a quick rule does what it reports if and only if no other line of
    the rules and of the rewrites is in its way.
-/
import DnsBlackhole.Form.Addresses
import DnsBlackhole.Rules.Blocked
import DnsBlackhole.Rules.Canonical
import DnsBlackhole.Service.Hosts
import DnsBlackhole.Service.Sections

namespace DnsBlackhole.Service
open Admin (AppConfig)
open Config
open Filter Rules
open Lib Text

/-! ## Lines -/

section
variable {α : Type*} {f : Text → List α} {line : Text}

end

/-! ## The rules of a configuration -/

section
variable {jsonString : Text → Option Text} {remote custom domain : Text}

/-- The lines that a quick rule leaves. -/
def otherRuleLines (raw domain : Text) : List Text :=
  raw.lines.filter fun line =>
    !line.trim.eqIgnoreAsciiCase ("||".toList ++ domain ++ "^".toList) &&
      !line.trim.eqIgnoreAsciiCase ("@@||".toList ++ domain ++ "^".toList)

theorem not_newline_of_mem_otherRuleLines {raw : Text} :
    ∀ line ∈ otherRuleLines raw domain, '\n' ∉ line :=
  fun _ hline => not_mem_of_mem_lines (List.mem_of_mem_filter hline)

end

/-! ## What blocks, and what lets through -/

section
variable {a b : List (Bool × RuleData)} {domain : Text} {qtype : UInt16}

end

/-! ## Rewrites -/

/-- What a line of rewrites says: whether it is for the subdomains too, the name and the
    address. -/
def rewriteEntry (line : Text) : Option (Bool × Text × IpAddr) :=
  match line.splitWhitespace with
  | pattern :: ip :: _ =>
    (parseIpAddr ip).bind fun ip =>
      let wildcard := pattern.stripPrefix "*.".toList
      let domain := ((wildcard.getD pattern).trimEndMatches '.').toAsciiLowercase
      if domain = [] then none else some (wildcard.isSome, domain, ip)
  | _ => none

/-- The rewrites of lines. -/
def rewriteEntries (lines : List Text) : List (Bool × Text × IpAddr) :=
  lines.flatMap fun line => if isComment line.trim then [] else (rewriteEntry line.trim).toList

section
variable {rewrites : CompiledRewrites} {raw line domain name : Text} {wildcard : Bool}
  {entry : Bool × Text × IpAddr} {entries : List (Bool × Text × IpAddr)}

end

/-! ## Names and addresses -/

theorem isDomain_of_normalizeHostname {value domain : Text}
    (h : normalizeHostname value = some domain) : IsDomain domain := by
  have hlast : (value.trim.trimEndMatches '.').getLast? ≠ some '.' := by
    intro hlast
    have hne : value.trim.trimEndMatches '.' ≠ [] := fun hnil => by
      rw [hnil] at hlast
      cases hlast
    rw [List.getLast?_eq_some_getLast hne] at hlast
    exact List.rdropWhile_last_not _ _ hne (beq_iff_eq.2 (Option.some.inj hlast))
  unfold normalizeHostname at h
  dsimp only at h
  generalize value.trim.trimEndMatches '.' = name at h hlast
  split_ifs at h with hempty hlabels hchars
  cases h
  rw [Bool.not_eq_true', Bool.not_eq_false, List.all_eq_true] at hchars
  refine ⟨fun hnil => hempty (.inl hnil), fun c hc => ?_, fun hdot => ?_⟩
  · have hchar : isDomainChar c := by
      have hc' := hchars c hc
      simp only [Bool.or_eq_true, beq_iff_eq] at hc'
      simp only [isDomainChar, Bool.or_eq_true, beq_iff_eq]
      rcases hc' with (hc' | hc') | hc'
      · exact .inl (.inl (.inl hc'))
      · exact .inl (.inl (.inr hc'))
      · exact .inr hc'
    obtain ⟨d, -, rfl⟩ := List.mem_map.1 hc
    have hupper := (isDomainChar_toLower hchar).2
    rw [toLower_toLower] at hupper
    exact ⟨hchar, hupper⟩
  · rw [Text.toAsciiLowercase, List.getLast?_map] at hdot
    obtain ⟨d, hd, hlower⟩ := Option.map_eq_some_iff.1 hdot
    rcases toLower_cases d with hsame | ⟨hlow, -, hnat⟩
    · rw [hsame] at hlower
      exact hlast (hlower ▸ hd)
    · rw [hlower] at hnat
      have hdotNat : '.'.toNat = 46 := rfl
      omega

theorem not_isWhitespace_of_parseIpAddr {t : Text} {ip : IpAddr} (h : parseIpAddr t = some ip) :
    t ≠ [] ∧ ∀ c ∈ t, ¬ isWhitespace c := by
  constructor
  · rintro rfl
    cases h
  · intro c hc hspace
    have hchar := Form.isIpChar_of_parseIp (Form.parseIp_of_parseIpAddr h) c hc
    have hrange := Form.bounds_of_isIpChar hchar
    have hnone : isWhitespace c = false := by
      simp [isWhitespace]
      omega
    rw [hnone] at hspace
    cases hspace

section
variable {domain target : Text} {ip : IpAddr}

theorem rewriteEntry_of_domain (hdomain : IsDomain domain)
    (htarget : parseIpAddr target = some ip) :
    '\n' ∉ domain ++ ' ' :: target ∧
      rewriteEntries [domain ++ ' ' :: target] = [(false, domain, ip)] := by
  obtain ⟨hne, hspace⟩ := not_isWhitespace_of_parseIpAddr htarget
  have hdomainSpace : ∀ c ∈ domain, ¬ isWhitespace c := fun c hc =>
    not_isWhitespace_of_isDomainChar (hdomain.chars c hc).1
  constructor
  · intro hmem
    rcases List.mem_append.1 hmem with hmem | hmem
    · exact hdomainSpace _ hmem (by decide)
    · exact hspace _ ((List.mem_cons.1 hmem).resolve_left (by decide)) (by decide)
  · have hwords : (domain ++ ' ' :: target).splitWhitespace = [domain, target] := by
      have happend := words_append (p := isWhitespace) (c := ' ') (by decide) domain target
      rw [words_of_forall_not hdomain.ne_nil hdomainSpace,
        words_of_forall_not hne hspace] at happend
      exact happend
    have htrim : trim (domain ++ ' ' :: target) = domain ++ ' ' :: target := by
      have hdrop : (domain ++ ' ' :: target).dropWhile isWhitespace = domain ++ ' ' :: target := by
        obtain ⟨c, rest, rfl⟩ := List.exists_cons_of_ne_nil hdomain.ne_nil
        exact List.dropWhile_cons_of_neg (hdomainSpace c List.mem_cons_self)
      rw [trim, hdrop, List.rdropWhile_eq_self_iff]
      intro hline
      have hlast : (domain ++ ' ' :: target).getLast hline = target.getLast hne := by
        rw [List.getLast_append_of_ne_nil _ (List.cons_ne_nil _ _), List.getLast_cons hne]
      rw [hlast]
      exact hspace _ (List.getLast_mem hne)
    have hcomment : isComment (domain ++ ' ' :: target) = false := by
      obtain ⟨c, rest, rfl⟩ := List.exists_cons_of_ne_nil hdomain.ne_nil
      have hchar := (hdomain.chars c List.mem_cons_self).1
      have hhash : c ≠ '#' := fun heq => by
        rw [heq] at hchar
        exact absurd hchar (by decide)
      have hmark : c ≠ '!' := fun heq => by
        rw [heq] at hchar
        exact absurd hchar (by decide)
      simp [isComment, startsWith, hhash, hmark]
    have hpattern : domain.stripPrefix "*.".toList = none := by
      cases hstrip : domain.stripPrefix "*.".toList with
      | none => rfl
      | some rest =>
        rw [stripPrefix_eq_some] at hstrip
        exact absurd (hstrip ▸ List.mem_cons_self : '*' ∈ domain) (hdomain.not_mem (by decide))
    have hlower : domain.toAsciiLowercase = domain := by
      refine (List.map_congr_left fun c hc => ?_).trans (List.map_id domain)
      exact forall_isDomainChar (P := fun c => ¬ c.isUpper → c.toLower = c) (by decide)
        (hdomain.chars c hc).1 (hdomain.chars c hc).2
    have hentry : rewriteEntry (domain ++ ' ' :: target) = some (false, domain, ip) := by
      rw [rewriteEntry, hwords]
      dsimp only
      rw [htarget, Option.bind_some, hpattern, Option.getD_none,
        trimEndMatches_eq_self hdomain.last, hlower, if_neg hdomain.ne_nil]
      rfl
    rw [rewriteEntries, List.flatMap_singleton, htrim, hcomment, hentry]
    rfl

end

/-! ## Quick rules -/

/-- The lines of rewrites that a quick rule leaves. -/
def otherRewriteLines (raw domain : Text) : List Text :=
  raw.lines.filter fun line =>
    line.splitWhitespace.head?.all fun candidate => !candidate.eqIgnoreAsciiCase domain

section
variable (env : Environment) (config : AppConfig) (domain : Text)

end

section
variable {env : Environment} {config next : AppConfig} {name domain action : Text}
  {target : Option Text}

theorem queryLogRule_cases (hname : normalizeHostname name = some domain)
    (h : queryLogRule name action target config = .ok next) :
    (action = "block".toList ∧ next = { config with
        blacklist := appendConfigLine (removeExactDomainRules config.blacklist domain)
          (canonicalRuleText .suffix domain false)
        dnsRewrites := removeExactDnsRewrites config.dnsRewrites domain }) ∨
      (action = "allow".toList ∧ next = { config with
        blacklist := appendConfigLine (removeExactDomainRules config.blacklist domain)
          (canonicalRuleText .suffix domain true)
        dnsRewrites := removeExactDnsRewrites config.dnsRewrites domain }) ∨
      (action = "rewrite".toList ∧ (parseIpAddr (target.getD []).trim).isSome ∧
        next = { config with
          blacklist := removeExactDomainRules config.blacklist domain
          dnsRewrites := appendConfigLine (removeExactDnsRewrites config.dnsRewrites domain)
            (domain ++ ' ' :: (target.getD []).trim) }) := by
  unfold queryLogRule at h
  rw [hname] at h
  dsimp only [okOr, bind, Except.bind] at h
  split_ifs at h with hblock hallow hrewrite
  · cases h
    exact .inl ⟨hblock, rfl⟩
  · cases h
    exact .inr (.inl ⟨hallow, rfl⟩)
  · cases hip : parseIpAddr (target.getD []).trim with
    | none =>
      rw [hip] at h
      cases h
    | some ip =>
      rw [hip] at h
      cases h
      exact .inr (.inr ⟨hrewrite, rfl, rfl⟩)

end

end DnsBlackhole.Service
