/-
  Rules for a domain: `||domain^` and `@@||domain^`.

  * `IsDomain`: the domains that `normalize_domain` gives, which it leaves as they are;
  * `scanLine_canonical`: what a line in this form says, wherever it is not disabled.
-/
import DnsBlackhole.Pieces
import DnsBlackhole.Rules.Scan

namespace DnsBlackhole.Rules
open Text

/-! ## Domains -/

def isDomainChar (c : Char) : Bool := c.isAlphanum || c == '-' || c == '_' || c == '.'

/-- A domain as rules have it. -/
structure IsDomain (domain : Text) : Prop where
  ne_nil : domain ≠ []
  chars : ∀ c ∈ domain, isDomainChar c ∧ ¬ c.isUpper
  last : domain.getLast? ≠ some '.'

theorem toNat_lt_of_isDomainChar {c : Char} (h : isDomainChar c) : c.toNat < 128 := by
  unfold isDomainChar Char.isAlphanum Char.isAlpha Char.isUpper Char.isLower Char.isDigit at h
  simp only [Bool.or_eq_true, Bool.and_eq_true, decide_eq_true_eq, beq_iff_eq] at h
  rcases h with ((h | rfl) | rfl) | rfl
  · rcases h with (⟨-, h⟩ | ⟨-, h⟩) | ⟨-, h⟩
    all_goals
      have hle := UInt32.le_iff_toNat_le.1 h
      change c.toNat ≤ _ at hle
      exact Nat.lt_of_le_of_lt hle (by decide)
  · decide
  · decide
  · decide

/-- What holds of all ASCII characters of domains holds of all characters of domains. -/
theorem forall_isDomainChar {P : Char → Prop} [DecidablePred P]
    (h : ∀ n < 128, isDomainChar (Char.ofNat n) → P (Char.ofNat n)) {c : Char}
    (hc : isDomainChar c) : P c := by
  have hofNat := h c.toNat (toNat_lt_of_isDomainChar hc)
  rw [Char.ofNat_toNat] at hofNat
  exact hofNat hc

theorem not_isWhitespace_of_isDomainChar {c : Char} (h : isDomainChar c) : ¬ isWhitespace c :=
  forall_isDomainChar (P := fun c => ¬ isWhitespace c) (by decide) h

theorem isDomainChar_toLower {c : Char} (h : isDomainChar c) :
    isDomainChar c.toLower ∧ ¬ c.toLower.isUpper :=
  forall_isDomainChar (P := fun c => isDomainChar c.toLower ∧ ¬ c.toLower.isUpper) (by decide) h

theorem trimEndMatches_eq_self {t : Text} {c : Char} (h : t.getLast? ≠ some c) :
    t.trimEndMatches c = t := by
  rw [trimEndMatches, List.rdropWhile_eq_self_iff]
  intro hne hlast
  exact h ((List.getLast?_eq_some_getLast hne).trans (congrArg some (eq_of_beq hlast)))

namespace IsDomain
variable {domain : Text}

theorem not_mem (h : IsDomain domain) {c : Char} (hc : isDomainChar c = false) : c ∉ domain :=
  fun hmem => Bool.false_ne_true (hc.symm.trans (h.chars c hmem).1)

theorem trim_eq (h : IsDomain domain) : domain.trim = domain :=
  trim_of_forall_not fun c hc => not_isWhitespace_of_isDomainChar (h.chars c hc).1

theorem normalizeDomain_eq (h : IsDomain domain) : normalizeDomain domain = some domain := by
  have hall : domain.all (fun ch => ch.isAlphanum || ch == '-' || ch == '_' || ch == '.') = true :=
    List.all_eq_true.2 fun c hc => (h.chars c hc).1
  have hupper : domain.any Char.isUpper = false := by
    rw [List.any_eq_false]
    exact fun c hc => (h.chars c hc).2
  unfold normalizeDomain
  dsimp only
  rw [h.trim_eq, trimEndMatches_eq_self h.last, if_neg h.ne_nil, if_neg, if_neg, if_neg]
  · rw [hupper]
    exact Bool.false_ne_true
  · rw [hall]
    exact Bool.false_ne_true
  · rintro (hmem | hmem | hmem) <;> exact h.not_mem rfl hmem

end IsDomain

theorem isDomain_of_normalizeDomain {value domain : Text} (h : normalizeDomain value = some domain) :
    IsDomain domain := by
  have hlast : (value.trim.trimEndMatches '.').getLast? ≠ some '.' := by
    intro hlast
    have hne : value.trim.trimEndMatches '.' ≠ [] := fun hnil => by
      rw [hnil] at hlast
      cases hlast
    rw [List.getLast?_eq_some_getLast hne] at hlast
    exact List.rdropWhile_last_not _ _ hne (beq_iff_eq.2 (Option.some.inj hlast))
  unfold normalizeDomain at h
  dsimp only at h
  generalize value.trim.trimEndMatches '.' = name at h hlast
  split_ifs at h with hnil hother hchars hupper
  · -- with capitals
    cases h
    rw [Bool.not_eq_true', Bool.not_eq_false, List.all_eq_true] at hchars
    refine ⟨fun hmap => hnil (List.map_eq_nil_iff.1 hmap), fun c hc => ?_, fun hdot => ?_⟩
    · obtain ⟨d, hd, rfl⟩ := List.mem_map.1 hc
      exact isDomainChar_toLower (hchars d hd)
    · rw [Text.toAsciiLowercase, List.getLast?_map] at hdot
      obtain ⟨d, hd, hlower⟩ := Option.map_eq_some_iff.1 hdot
      have hback := forall_isDomainChar (P := fun c => c.toLower = '.' → c = '.') (by decide)
        (hchars d (List.mem_of_getLast? hd)) hlower
      exact hlast (hback ▸ hd)
  · cases h
    rw [Bool.not_eq_true', Bool.not_eq_false, List.all_eq_true] at hchars
    refine ⟨hnil, fun c hc => ⟨hchars c hc, ?_⟩, hlast⟩
    rw [Bool.not_eq_true, List.any_eq_false] at hupper
    exact hupper c hc

/-! ## Lines -/

/-- The rule of the line `||domain^` or `@@||domain^`. -/
def canonicalRule (domain : Text) (isAllow : Bool) : RuleData where
  domain := domain
  includeSubdomains := true
  raw := canonicalRuleText .suffix domain isAllow
  ruleType := .suffix
  important := false
  queryTypes := .any
  denyallow := []
  dnsrewrite := none
  canonical := some .suffix

theorem canonicalKind_eq (domain : Text) (isAllow : Bool) (rule : RuleData) (hdomain : rule.domain = domain)
    (htype : rule.ruleType = .suffix) (himportant : rule.important = false)
    (hqueryTypes : rule.queryTypes = .any) (hdenyallow : rule.denyallow = [])
    (hdnsrewrite : rule.dnsrewrite = none) :
    canonicalKind (canonicalRuleText .suffix domain isAllow) rule isAllow = some .suffix := by
  have hrest : isCanonicalRest (canonicalRuleText .suffix domain false) .suffix domain = true := by
    have hstrip : (canonicalRuleText .suffix domain false).stripPrefix ['|', '|'] =
        some (domain ++ ['^']) := stripPrefix_eq_some.2 (List.append_assoc ['|', '|'] domain ['^'])
    rw [isCanonicalRest, hstrip, Option.bind_some, stripSuffix_eq_some.2 rfl]
    exact beq_self_eq_true _
  have hline : isCanonicalRuleText (canonicalRuleText .suffix domain isAllow) .suffix domain
      isAllow = true := by
    cases isAllow with
    | false => exact hrest
    | true =>
      have hstrip : (canonicalRuleText .suffix domain true).stripPrefix ['@', '@'] =
          some (canonicalRuleText .suffix domain false) := stripPrefix_eq_some.2 rfl
      rw [isCanonicalRuleText, if_pos rfl, hstrip]
      exact hrest
  rw [canonicalKind, htype, hdomain, himportant]
  exact if_pos ⟨rfl, hqueryTypes, hdenyallow, hdnsrewrite, hline⟩

namespace IsDomain
variable {domain : Text} (h : IsDomain domain) (isAllow : Bool)

include h

theorem not_mem_canonicalRuleText {c : Char} (hc : isDomainChar c = false) (hmark : c ≠ '@')
    (hbar : c ≠ '|') (hcaret : c ≠ '^') : c ∉ canonicalRuleText .suffix domain isAllow := by
  have hdomain := h.not_mem hc
  cases isAllow <;> simp [canonicalRuleText, allowMark, hdomain, hmark, hbar, hcaret]

theorem not_isWhitespace_canonicalRuleText :
    ∀ c ∈ canonicalRuleText .suffix domain isAllow, ¬ isWhitespace c := by
  intro c hc hspace
  have hne : ∀ d : Char, ¬ isWhitespace d → c ≠ d := fun d hd heq => hd (heq ▸ hspace)
  refine h.not_mem_canonicalRuleText isAllow ?_ (hne _ (by decide)) (hne _ (by decide))
    (hne _ (by decide)) hc
  exact Bool.eq_false_iff.2 fun hchar => not_isWhitespace_of_isDomainChar hchar hspace

theorem trim_canonicalRuleText : (canonicalRuleText .suffix domain isAllow).trim =
    canonicalRuleText .suffix domain isAllow :=
  trim_of_forall_not (h.not_isWhitespace_canonicalRuleText isAllow)

theorem parsePattern_eq : parsePattern (canonicalRuleText .suffix domain false) =
    some ⟨domain, true, [], .suffix, false, .any, [], none, none⟩ := by
  have hstrip : (canonicalRuleText .suffix domain false).stripPrefix ['|', '|'] =
      some (domain ++ ['^']) := stripPrefix_eq_some.2 (List.append_assoc ['|', '|'] domain ['^'])
  have hcaret : trimEndMatches (domain ++ ['^']) '^' = domain := by
    rw [trimEndMatches, List.rdropWhile_concat_pos _ _ _ (by decide)]
    exact trimEndMatches_eq_self fun hlast => h.not_mem (by decide) (List.mem_of_getLast? hlast)
  have hbar : domain.trimEndMatches '|' = domain :=
    trimEndMatches_eq_self fun hlast => h.not_mem (by decide) (List.mem_of_getLast? hlast)
  have hregex : ¬ ((canonicalRuleText .suffix domain false).startsWith '/' = true ∧
      (canonicalRuleText .suffix domain false).endsWith '/' = true) := fun hregex => by
    cases hregex.1
  unfold parsePattern
  rw [if_neg hregex, hstrip]
  dsimp only
  rw [hcaret, hbar, h.normalizeDomain_eq]
  rfl

theorem parseFilterRule_canonical : parseFilterRule (canonicalRuleText .suffix domain isAllow) =
    if isAllow then .allow (canonicalRule domain true) else .block (canonicalRule domain false) := by
  have hrest : splitAllow (canonicalRuleText .suffix domain isAllow) =
      (isAllow, canonicalRuleText .suffix domain false) := by
    cases isAllow <;> rfl
  have hmodifiers : (canonicalRuleText .suffix domain false).splitOnce (· == '$') = none :=
    splitOnce_eq_none.2
      (h.not_mem_canonicalRuleText false (by decide) (by decide) (by decide) (by decide))
  unfold parseFilterRule
  rw [hrest]
  dsimp only
  rw [hmodifiers]
  dsimp only [Option.getD_none]
  rw [show parseModifiers [] = some noModifiers from rfl]
  dsimp only
  rw [if_neg (show ¬ noModifiers.badfilter = true from Bool.false_ne_true),
    h.trim_canonicalRuleText, h.parsePattern_eq]
  dsimp only
  unfold ruleOfLine
  rw [if_neg (fun hrewrite => Bool.false_ne_true hrewrite.2)]
  dsimp only
  rw [canonicalKind_eq domain isAllow _ rfl rfl rfl rfl rfl rfl]
  cases isAllow <;> rfl

theorem parseHostsRules_canonical :
    parseHostsRules (canonicalRuleText .suffix domain isAllow) = none := by
  have hwords : (canonicalRuleText .suffix domain isAllow).splitWhitespace =
      [canonicalRuleText .suffix domain isAllow] :=
    words_of_forall_not (by cases isAllow <;> exact List.cons_ne_nil _ _)
      (h.not_isWhitespace_canonicalRuleText isAllow)
  have hlookup : hostsKinds.lookup (canonicalRuleText .suffix domain isAllow) = none := by
    have hall : ∀ entry ∈ hostsKinds, entry.1.head? ≠ some '|' ∧ entry.1.head? ≠ some '@' := by
      decide
    rw [List.lookup_eq_none_iff]
    intro entry hentry
    rw [bne_iff_ne]
    intro heq
    cases isAllow with
    | false => exact (hall entry hentry).1 (heq ▸ rfl)
    | true => exact (hall entry hentry).2 (heq ▸ rfl)
  unfold parseHostsRules
  rw [hwords]
  dsimp only
  rw [hlookup]
  rfl

/-- **A line in this form** says that its domain is blocked, or allowed. -/
theorem scanLine_canonical (jsonString : Text → Option Text) {disabled : List Text}
    (hdisabled : canonicalRuleText .suffix domain isAllow ∉ disabled) :
    scanLine jsonString disabled (canonicalRuleText .suffix domain isAllow) =
      [.rule (if isAllow then .allow (canonicalRule domain true)
        else .block (canonicalRule domain false))] := by
  have hmarker : (canonicalRuleText .suffix domain isAllow).stripPrefix sourceMarkerPrefix = none := by
    cases isAllow <;> rfl
  have hparse : parseRule (canonicalRuleText .suffix domain isAllow) =
      parseFilterRule (canonicalRuleText .suffix domain isAllow) := by
    unfold parseRule
    rw [h.trim_canonicalRuleText]
    exact if_neg (by cases isAllow <;> simp [canonicalRuleText, allowMark, startsWith])
  unfold scanLine
  dsimp only
  rw [h.trim_canonicalRuleText, hmarker]
  dsimp only
  rw [if_neg hdisabled, h.parseHostsRules_canonical]
  dsimp only
  rw [hparse, h.parseFilterRule_canonical]

end IsDomain

end DnsBlackhole.Rules
