/-
  Quick rules that are applied again (`apply_query_log_rule_blocking`).

  A quick rule splits a text into its lines, puts the lines that are left together again and
  its own line behind them.  In that, a last line without text is lost, and a carriage return
  at the end of a line.

  * `ownRuleLines_next`, `ownRewriteLines_next`: the lines of the domain are those that the
    last rule writes, whatever stood there before;
  * `others_iff`: the other lines stay, exactly if they are put together faithfully;
  * **`quickRuleLaws_iff`**: a quick rule can be applied again without a change, and leaves all
    other lines, if and only if they are put together faithfully.
-/
import DnsBlackhole.Service.LegacySaves
import DnsBlackhole.Service.QuickRules

namespace DnsBlackhole.Service
open Admin (AppConfig)
open Config
open Rules
open Lib Text

/-! ## Lines that are put together -/

/-- Lines that are put together, and perhaps a line behind them. -/
def rejoined (others : List Text) (own : Option Text) : Text :=
  match own with
  | none => join others ['\n']
  | some line => appendConfigLine (join others ['\n']) line

/-- The text of the lines has the same lines: the last one is not empty, and none that a
    newline follows ends with a carriage return. -/
def Faithful (others : List Text) (own : Option Text) : Prop :=
  others.getLast? ≠ some [] ∧
    ∀ line ∈ if own.isSome then others else others.dropLast, line.endsWith '\r' = false

section
variable {others : List Text} {line : Text}

theorem stripReturn_eq_self_iff (line : Text) :
    stripReturn line = line ↔ line.endsWith '\r' = false := by
  unfold stripReturn
  cases hstrip : line.stripSuffix ['\r'] with
  | some rest =>
    have hline := stripSuffix_eq_some.1 hstrip
    constructor
    · intro h
      have hlength := congrArg List.length (h.trans hline)
      simp at hlength
    · intro h
      rw [hline, endsWith, List.getLast?_append] at h
      cases h
  | none =>
    refine iff_of_true rfl (Bool.eq_false_iff.2 fun hends => ?_)
    obtain ⟨rest, hrest⟩ := List.getLast?_eq_some_iff.1 (beq_iff_eq.1 hends)
    rw [stripSuffix_eq_some.2 hrest] at hstrip
    cases hstrip

theorem map_stripReturn_eq_self_iff {l : List Text} :
    l.map stripReturn = l ↔ ∀ line ∈ l, line.endsWith '\r' = false := by
  induction l with
  | nil => simp
  | cons line l ih =>
    rw [List.map_cons, List.cons.injEq, stripReturn_eq_self_iff, ih, List.forall_mem_cons]

/-- Without the last line, if it is empty. -/
def withoutBlank (others : List Text) : List Text :=
  if others.getLast? = some [] then others.dropLast else others

theorem mem_of_mem_withoutBlank (h : line ∈ withoutBlank others) : line ∈ others := by
  unfold withoutBlank at h
  split_ifs at h
  · exact List.mem_of_mem_dropLast h
  · exact h

/-- The lines of lines that are put together: each that a newline follows loses a carriage
    return, and the last one is left out if it is empty. -/
theorem lines_join_concat {init : List Text} {last : Text} (hinit : ∀ line ∈ init, '\n' ∉ line)
    (hlast : '\n' ∉ last) : lines (join (init ++ [last]) ['\n']) =
      init.map stripReturn ++ if last = [] then [] else [last] := by
  have hall : ∀ line ∈ init ++ [last], '\n' ∉ line := by
    intro line hline
    rcases List.mem_append.1 hline with hline | hline
    · exact hinit line hline
    · rw [List.mem_singleton.1 hline]
      exact hlast
  rw [lines, split_join (by simp) hall, linesOf_append _ (List.cons_ne_nil _ _), linesOf]

theorem join_concat (init : List Text) (hinit : init ≠ []) (last : Text) :
    join (init ++ [last]) ['\n'] = join init ['\n'] ++ '\n' :: last := by
  induction init with
  | nil => exact absurd rfl hinit
  | cons first init ih =>
    cases init with
    | nil => simp [join, List.intercalate]
    | cons next init =>
      have hjoin : ∀ rest : List Text, join (first :: next :: rest) ['\n'] =
          first ++ '\n' :: join (next :: rest) ['\n'] := Lib.joined_cons_cons '\n' first next
      rw [List.cons_append, List.cons_append, hjoin, hjoin, List.append_assoc, List.cons_append,
        ← List.cons_append, ih (List.cons_ne_nil _ _)]

theorem rejoined_some (hothers : ∀ line ∈ others, '\n' ∉ line) (line : Text) :
    rejoined others (some line) = join (withoutBlank others ++ [line]) ['\n'] := by
  rcases List.eq_nil_or_concat' others with rfl | ⟨init, last, rfl⟩
  · simp [rejoined, withoutBlank, join, List.intercalate, appendConfigLine]
  · have hlast : '\n' ∉ last := hothers last (by simp)
    rw [rejoined, withoutBlank, List.getLast?_concat, List.dropLast_concat]
    by_cases hblank : last = []
    · rw [if_pos (congrArg some hblank), hblank]
      by_cases hinit : init = []
      · simp [hinit, join, List.intercalate, appendConfigLine]
      · rw [join_concat init hinit, join_concat init hinit, appendConfigLine,
          if_neg (by simp [endsWith]), List.append_assoc, List.singleton_append]
    · rw [if_neg fun h => hblank (Option.some.inj h)]
      have hends : (join (init ++ [last]) ['\n']).getLast? = last.getLast? := by
        by_cases hinit : init = []
        · simp [hinit, join, List.intercalate]
        · rw [join_concat init hinit, List.getLast?_append, List.getLast?_cons]
          simp [List.getLast?_eq_some_getLast hblank]
      have hopen : join (init ++ [last]) ['\n'] ≠ [] ∧
          (join (init ++ [last]) ['\n']).endsWith '\n' = false := by
        constructor
        · intro hnil
          rw [hnil, List.getLast?_nil] at hends
          exact hblank (List.getLast?_eq_none_iff.1 hends.symm)
        · rw [endsWith, hends, beq_eq_false_iff_ne]
          exact fun h => hlast (List.mem_of_getLast? h)
      rw [join_concat (init ++ [last]) (by simp), appendConfigLine, if_pos ⟨hopen.1, by
        rw [hopen.2]
        rfl⟩]

end

/-! ## The lines of the domain, and the others -/

/-- A line whose trimmed text decides. -/
def Trims (p : Text → Bool) : Prop := ∀ line, p (stripReturn line) = p line

section
variable {p : Text → Bool} {others : List Text} {own : Option Text}

theorem filter_map_stripReturn (hp : Trims p) (l : List Text) :
    (l.map stripReturn).filter p = (l.filter p).map stripReturn := by
  rw [List.filter_map]
  exact congrArg _ (List.filter_congr fun line _ => hp line)

theorem filter_of_forall {l : List Text} (h : ∀ line ∈ l, p line = true) :
    l.filter p = l ∧ l.filter (fun line => !p line) = [] := by
  refine ⟨List.filter_eq_self.2 h, List.filter_eq_nil_iff.2 fun line hline => ?_⟩
  rw [h line hline]
  exact Bool.false_ne_true

/-- The lines that are put together. -/
structure Rejoins (p : Text → Bool) (others : List Text) (own : Option Text) : Prop where
  trims : Trims p
  lines : ∀ line ∈ others, '\n' ∉ line
  others : ∀ line ∈ others, p line = true
  own : ∀ line ∈ own, '\n' ∉ line ∧ line ≠ [] ∧ p line = false

theorem own_rejoined (h : Rejoins p others own) :
    (Text.lines (rejoined others own)).filter (fun line => !p line) = own.toList := by
  have hstripped : ∀ l : List Text, (∀ line ∈ l, p line = true) →
      (l.map stripReturn).filter (fun line => !p line) = [] := by
    intro l hl
    rw [filter_map_stripReturn (p := fun line => !p line) (fun line => congrArg _ (h.trims line)),
      (filter_of_forall hl).2, List.map_nil]
  cases own with
  | none =>
    rcases List.eq_nil_or_concat' others with rfl | ⟨init, last, rfl⟩
    · rfl
    · obtain ⟨hinit, hlast⟩ := List.forall_mem_append.1 h.others
      obtain ⟨hinitLines, hlastLines⟩ := List.forall_mem_append.1 h.lines
      rw [rejoined, lines_join_concat hinitLines (hlastLines last (List.mem_singleton_self _)),
        List.filter_append, hstripped init hinit]
      refine List.filter_eq_nil_iff.2 fun line hline => ?_
      split_ifs at hline
      · cases hline
      · rw [hlast line hline]
        exact Bool.false_ne_true
  | some line =>
    obtain ⟨hnewline, hne, hown⟩ := h.own line rfl
    have hkept : ∀ other ∈ withoutBlank others, other ∈ others := fun other hother =>
      mem_of_mem_withoutBlank hother
    rw [rejoined_some h.lines, lines_join_concat (fun other hother => h.lines other
        (hkept other hother)) hnewline, if_neg hne, List.filter_append,
      hstripped _ fun other hother => h.others other (hkept other hother), List.nil_append,
      List.filter_singleton, hown]
    rfl

theorem filter_stripped (h : Trims p) {l : List Text} (hl : ∀ line ∈ l, p line = true) :
    (l.map stripReturn).filter p = l.map stripReturn := by
  rw [filter_map_stripReturn h, (filter_of_forall hl).1]

theorem others_iff (h : Rejoins p others own) :
    (Text.lines (rejoined others own)).filter p = others ↔ Faithful others own := by
  cases own with
  | none =>
    unfold Faithful
    rw [if_neg (by simp)]
    rcases List.eq_nil_or_concat' others with rfl | ⟨init, last, rfl⟩
    · exact iff_of_true rfl ⟨nofun, nofun⟩
    · obtain ⟨hinit, hlast⟩ := List.forall_mem_append.1 h.others
      obtain ⟨hinitLines, hlastLines⟩ := List.forall_mem_append.1 h.lines
      rw [rejoined, lines_join_concat hinitLines (hlastLines last (List.mem_singleton_self _)),
        List.filter_append, filter_stripped h.trims hinit, List.getLast?_concat,
        List.dropLast_concat, ← map_stripReturn_eq_self_iff]
      by_cases hblank : last = []
      · rw [if_pos hblank, hblank]
        refine iff_of_false (fun heq => ?_) fun hfaithful => hfaithful.1 rfl
        have hlength := congrArg List.length heq
        simp at hlength
      · rw [if_neg hblank, List.filter_singleton, hlast last (List.mem_singleton_self _), cond_true,
          List.append_left_inj]
        exact (and_iff_right fun heq => hblank (Option.some.inj heq)).symm
  | some line =>
    obtain ⟨hnewline, hne, hown⟩ := h.own line rfl
    have hkept : ∀ other ∈ withoutBlank others, other ∈ others := fun other hother =>
      mem_of_mem_withoutBlank hother
    unfold Faithful
    rw [if_pos (by rfl), rejoined_some h.lines,
      lines_join_concat (fun other hother => h.lines other (hkept other hother)) hnewline,
      if_neg hne, List.filter_append, filter_stripped h.trims fun other hother =>
        h.others other (hkept other hother), List.filter_singleton, hown, cond_false,
      List.append_nil, ← map_stripReturn_eq_self_iff]
    by_cases hblank : others.getLast? = some []
    · refine iff_of_false (fun heq => ?_) fun hfaithful => hfaithful.1 hblank
      obtain ⟨init, hothers⟩ := List.getLast?_eq_some_iff.1 hblank
      have hlength := congrArg List.length heq
      rw [withoutBlank, if_pos hblank, hothers] at hlength
      simp at hlength
    · rw [withoutBlank, if_neg hblank, and_iff_right hblank]

end

/-! ## Quick rules -/

/-- The line that a quick rule adds to the rules. -/
def ruleLine (action domain : Text) : Option Text :=
  if action = "block".toList then some (canonicalRuleText .suffix domain false)
  else if action = "allow".toList then some (canonicalRuleText .suffix domain true)
  else none

/-- The line that a quick rule adds to the rewrites. -/
def rewriteLine (action domain : Text) (target : Option Text) : Option Text :=
  if action = "rewrite".toList then some (domain ++ ' ' :: (target.getD []).trim) else none

/-- A quick rule of the query log, as it is asked for. -/
structure RuleCall where
  name : Text
  action : Text
  target : Option Text

/-- The configuration behind a quick rule that is stored where it changes anything. -/
def RuleCall.apply (config : AppConfig) (call : RuleCall) : Except Text AppConfig := do
  let next ← queryLogRule call.name call.action call.target config
  return if ruleChanges config next then adoptSettings config next else config

/-- The lines of the domain itself. -/
def ownRuleLines (raw domain : Text) : List Text :=
  raw.lines.filter fun line =>
    !(!line.trim.eqIgnoreAsciiCase ("||".toList ++ domain ++ "^".toList) &&
      !line.trim.eqIgnoreAsciiCase ("@@||".toList ++ domain ++ "^".toList))

def ownRewriteLines (raw domain : Text) : List Text :=
  raw.lines.filter fun line =>
    !line.splitWhitespace.head?.all fun candidate => !candidate.eqIgnoreAsciiCase domain

/-- What is expected of a quick rule that has made `saved` of `config`. -/
structure QuickRuleLaws (call : RuleCall) (domain : Text) (config saved : AppConfig) : Prop where
  /-- The same rule changes nothing. -/
  again : ∃ next, queryLogRule call.name call.action call.target saved = .ok next ∧
    ruleChanges saved next = false ∧ next.blacklist = saved.blacklist ∧
    next.dnsRewrites = saved.dnsRewrites
  /-- Behind other rules for the domain, it leaves the same lines of the domain. -/
  last : ∀ (earlier : List RuleCall) (before after : AppConfig),
    (∀ other ∈ earlier, normalizeHostname other.name = some domain) →
    earlier.foldlM RuleCall.apply config = .ok before → call.apply before = .ok after →
    ownRuleLines after.blacklist domain = ownRuleLines saved.blacklist domain ∧
      ownRewriteLines after.dnsRewrites domain = ownRewriteLines saved.dnsRewrites domain
  /-- All other lines stay. -/
  others : otherRuleLines saved.blacklist domain = otherRuleLines config.blacklist domain ∧
    otherRewriteLines saved.dnsRewrites domain = otherRewriteLines config.dnsRewrites domain

section
variable {config saved next : AppConfig} {call : RuleCall} {name domain action : Text}
  {target : Option Text}

theorem texts_queryLogRule (hname : normalizeHostname name = some domain)
    (h : queryLogRule name action target config = .ok next) :
    next.blacklist = rejoined (otherRuleLines config.blacklist domain) (ruleLine action domain) ∧
      next.dnsRewrites = rejoined (otherRewriteLines config.dnsRewrites domain)
        (rewriteLine action domain target) := by
  rcases queryLogRule_cases hname h with ⟨rfl, rfl⟩ | ⟨rfl, rfl⟩ | ⟨rfl, -, rfl⟩
  · rw [ruleLine, if_pos rfl, rewriteLine, if_neg (by decide)]
    exact ⟨rfl, rfl⟩
  · rw [ruleLine, if_neg (by decide), if_pos rfl, rewriteLine, if_neg (by decide)]
    exact ⟨rfl, rfl⟩
  · rw [ruleLine, if_neg (by decide), if_neg (by decide), rewriteLine, if_pos rfl]
    exact ⟨rfl, rfl⟩

theorem exists_queryLogRule (h : queryLogRule name action target config = .ok next)
    (config' : AppConfig) : ∃ next', queryLogRule name action target config' = .ok next' := by
  unfold queryLogRule at h ⊢
  cases hname : normalizeHostname name with
  | none =>
    rw [hname] at h
    cases h
  | some domain =>
    rw [hname] at h
    dsimp only [okOr, bind, Except.bind] at h ⊢
    split_ifs at h ⊢ with hblock hallow hrewrite
    · exact ⟨_, rfl⟩
    · exact ⟨_, rfl⟩
    · cases hip : parseIpAddr (target.getD []).trim with
      | none =>
        rw [hip] at h
        cases h
      | some ip => exact ⟨_, rfl⟩

theorem ruleChanges_eq_false_iff : ruleChanges config next = false ↔
    next.blacklist = config.blacklist ∧ next.dnsRewrites = config.dnsRewrites := by
  rw [ruleChanges, Bool.or_eq_false_iff, bne_eq_false_iff_eq, bne_eq_false_iff_eq]

theorem exists_of_apply (h : call.apply config = .ok saved) :
    ∃ next, queryLogRule call.name call.action call.target config = .ok next ∧
      saved.blacklist = next.blacklist ∧ saved.dnsRewrites = next.dnsRewrites := by
  unfold RuleCall.apply at h
  cases hnext : queryLogRule call.name call.action call.target config with
  | error error =>
    rw [hnext] at h
    cases h
  | ok next =>
    rw [hnext] at h
    cases h
    refine ⟨next, rfl, ?_⟩
    cases hchanges : ruleChanges config next with
    | true => exact rules_adoptSettings config next
    | false =>
      obtain ⟨hblacklist, hrewrites⟩ := ruleChanges_eq_false_iff.1 hchanges
      exact ⟨hblacklist.symm, hrewrites.symm⟩

theorem texts_apply (hname : normalizeHostname call.name = some domain)
    (h : call.apply config = .ok saved) : saved.blacklist =
        rejoined (otherRuleLines config.blacklist domain) (ruleLine call.action domain) ∧
      saved.dnsRewrites = rejoined (otherRewriteLines config.dnsRewrites domain)
        (rewriteLine call.action domain call.target) := by
  obtain ⟨next, hnext, hblacklist, hrewrites⟩ := exists_of_apply h
  rw [hblacklist, hrewrites]
  exact texts_queryLogRule hname hnext

theorem rejoins_rules (hdomain : IsDomain domain) (raw action : Text) :
    Rejoins (fun line => !line.trim.eqIgnoreAsciiCase ("||".toList ++ domain ++ "^".toList) &&
        !line.trim.eqIgnoreAsciiCase ("@@||".toList ++ domain ++ "^".toList))
      (otherRuleLines raw domain) (ruleLine action domain) := by
  have hcanonical : ∀ isAllow, '\n' ∉ canonicalRuleText .suffix domain isAllow ∧
      canonicalRuleText .suffix domain isAllow ≠ [] := by
    intro isAllow
    refine ⟨hdomain.not_mem_canonicalRuleText isAllow (by decide) (by decide) (by decide)
      (by decide), ?_⟩
    cases isAllow <;> exact List.cons_ne_nil _ _
  refine ⟨fun line => by rw [trim_stripReturn], not_newline_of_mem_otherRuleLines,
    fun line hline => (List.mem_filter.1 hline).2, fun line hline => ?_⟩
  unfold ruleLine at hline
  split_ifs at hline
  · cases hline
    refine ⟨(hcanonical false).1, (hcanonical false).2, ?_⟩
    rw [hdomain.trim_canonicalRuleText]
    simp [eqIgnoreAsciiCase, canonicalRuleText, allowMark]
  · cases hline
    refine ⟨(hcanonical true).1, (hcanonical true).2, ?_⟩
    rw [hdomain.trim_canonicalRuleText]
    simp [eqIgnoreAsciiCase, canonicalRuleText, allowMark]
  · cases hline

theorem rejoins_rewrites (hdomain : IsDomain domain) (raw : Text)
    (haction : action = "rewrite".toList → (parseIpAddr (target.getD []).trim).isSome) :
    Rejoins (fun line => line.splitWhitespace.head?.all fun candidate =>
        !candidate.eqIgnoreAsciiCase domain)
      (otherRewriteLines raw domain) (rewriteLine action domain target) := by
  refine ⟨fun line => ?_, fun line hline => not_mem_of_mem_lines (List.mem_of_mem_filter hline),
    fun line hline => (List.mem_filter.1 hline).2, fun line hline => ?_⟩
  · have hwords : line.stripReturn.splitWhitespace = line.splitWhitespace :=
      (words_trim _).symm.trans ((congrArg _ (trim_stripReturn line)).trans (words_trim _))
    rw [hwords]
  · unfold rewriteLine at hline
    split_ifs at hline with hrewrite
    · cases hline
      obtain ⟨ip, hip⟩ := Option.isSome_iff_exists.1 (haction hrewrite)
      refine ⟨(rewriteEntry_of_domain hdomain hip).1, by simp, ?_⟩
      have hwords : (domain ++ ' ' :: (target.getD []).trim).splitWhitespace =
          domain :: (target.getD []).trim.splitWhitespace := by
        have happend := words_append (p := isWhitespace) (c := ' ') (by decide) domain
          (target.getD []).trim
        rw [words_of_forall_not hdomain.ne_nil fun c hc =>
          not_isWhitespace_of_isDomainChar (hdomain.chars c hc).1] at happend
        exact happend
      rw [hwords]
      simp [eqIgnoreAsciiCase]
    · cases hline

theorem isSome_of_rewrite (hname : normalizeHostname name = some domain)
    (h : queryLogRule name action target config = .ok next) (haction : action = "rewrite".toList) :
    (parseIpAddr (target.getD []).trim).isSome := by
  rcases queryLogRule_cases hname h with ⟨hblock, -⟩ | ⟨hallow, -⟩ | ⟨-, hip, -⟩
  · exact absurd (hblock.symm.trans haction) (by decide)
  · exact absurd (hallow.symm.trans haction) (by decide)
  · exact hip

theorem rejoins_of_apply (hname : normalizeHostname call.name = some domain)
    (h : call.apply config = .ok saved) (raw : Text) :
    Rejoins (fun line => !line.trim.eqIgnoreAsciiCase ("||".toList ++ domain ++ "^".toList) &&
        !line.trim.eqIgnoreAsciiCase ("@@||".toList ++ domain ++ "^".toList))
      (otherRuleLines raw domain) (ruleLine call.action domain) ∧
    Rejoins (fun line => line.splitWhitespace.head?.all fun candidate =>
        !candidate.eqIgnoreAsciiCase domain)
      (otherRewriteLines raw domain) (rewriteLine call.action domain call.target) := by
  have hdomain := isDomain_of_normalizeHostname hname
  obtain ⟨next, hnext, -⟩ := exists_of_apply h
  exact ⟨rejoins_rules hdomain raw call.action,
    rejoins_rewrites hdomain raw (isSome_of_rewrite hname hnext)⟩

theorem own_apply (hname : normalizeHostname call.name = some domain)
    (h : call.apply config = .ok saved) :
    ownRuleLines saved.blacklist domain = (ruleLine call.action domain).toList ∧
      ownRewriteLines saved.dnsRewrites domain =
        (rewriteLine call.action domain call.target).toList := by
  obtain ⟨hblacklist, hrewrites⟩ := texts_apply hname h
  rw [hblacklist, hrewrites]
  exact ⟨own_rejoined (rejoins_of_apply hname h config.blacklist).1,
    own_rejoined (rejoins_of_apply hname h config.dnsRewrites).2⟩

theorem others_apply_iff (hname : normalizeHostname call.name = some domain)
    (h : call.apply config = .ok saved) :
    (otherRuleLines saved.blacklist domain = otherRuleLines config.blacklist domain ∧
      otherRewriteLines saved.dnsRewrites domain = otherRewriteLines config.dnsRewrites domain) ↔
    Faithful (otherRuleLines config.blacklist domain) (ruleLine call.action domain) ∧
      Faithful (otherRewriteLines config.dnsRewrites domain)
        (rewriteLine call.action domain call.target) := by
  obtain ⟨hblacklist, hrewrites⟩ := texts_apply hname h
  rw [hblacklist, hrewrites]
  exact and_congr (others_iff (rejoins_of_apply hname h config.blacklist).1)
    (others_iff (rejoins_of_apply hname h config.dnsRewrites).2)

theorem again_of_others (hname : normalizeHostname call.name = some domain)
    (h : call.apply config = .ok saved)
    (hothers : otherRuleLines saved.blacklist domain = otherRuleLines config.blacklist domain ∧
      otherRewriteLines saved.dnsRewrites domain = otherRewriteLines config.dnsRewrites domain) :
    ∃ next, queryLogRule call.name call.action call.target saved = .ok next ∧
      next.blacklist = saved.blacklist ∧ next.dnsRewrites = saved.dnsRewrites := by
  obtain ⟨first, hfirst, -⟩ := exists_of_apply h
  obtain ⟨next, hnext⟩ := exists_queryLogRule hfirst saved
  obtain ⟨hblacklist, hrewrites⟩ := texts_queryLogRule hname hnext
  obtain ⟨hsavedBlacklist, hsavedRewrites⟩ := texts_apply hname h
  refine ⟨next, hnext, ?_, ?_⟩
  · rw [hblacklist, hothers.1, ← hsavedBlacklist]
  · rw [hrewrites, hothers.2, ← hsavedRewrites]

/-- **A quick rule can be applied again without a change, and leaves all other lines**, if and
    only if the other lines are put together faithfully. -/
theorem quickRuleLaws_iff (hname : normalizeHostname call.name = some domain)
    (h : call.apply config = .ok saved) : QuickRuleLaws call domain config saved ↔
      Faithful (otherRuleLines config.blacklist domain) (ruleLine call.action domain) ∧
        Faithful (otherRewriteLines config.dnsRewrites domain)
          (rewriteLine call.action domain call.target) := by
  rw [← others_apply_iff hname h]
  constructor
  · exact fun hlaws => hlaws.others
  · intro hothers
    obtain ⟨next, hnext, hblacklist, hrewrites⟩ := again_of_others hname h hothers
    refine ⟨⟨next, hnext, ruleChanges_eq_false_iff.2 ⟨hblacklist, hrewrites⟩, hblacklist,
      hrewrites⟩, fun earlier before after _ _ hafter => ?_, hothers⟩
    obtain ⟨hafterRules, hafterRewrites⟩ := own_apply hname hafter
    obtain ⟨hsavedRules, hsavedRewrites⟩ := own_apply hname h
    exact ⟨hafterRules.trans hsavedRules.symm, hafterRewrites.trans hsavedRewrites.symm⟩

/-- Lines that stay whether or not a line comes behind them. -/
def FaithfulAlways (others : List Text) : Prop :=
  others.getLast? ≠ some [] ∧ ∀ line ∈ others, line.endsWith '\r' = false

theorem FaithfulAlways.faithful {others : List Text} (h : FaithfulAlways others)
    (own : Option Text) : Faithful others own := by
  refine ⟨h.1, fun line hline => h.2 line ?_⟩
  split_ifs at hline
  · exact hline
  · exact List.mem_of_mem_dropLast hline

theorem others_run {calls : List RuleCall}
    (hrules : FaithfulAlways (otherRuleLines config.blacklist domain))
    (hrewrites : FaithfulAlways (otherRewriteLines config.dnsRewrites domain))
    (hnames : ∀ call ∈ calls, normalizeHostname call.name = some domain)
    (h : calls.foldlM RuleCall.apply config = .ok saved) :
    otherRuleLines saved.blacklist domain = otherRuleLines config.blacklist domain ∧
      otherRewriteLines saved.dnsRewrites domain = otherRewriteLines config.dnsRewrites domain := by
  induction calls generalizing config with
  | nil =>
    cases h
    exact ⟨rfl, rfl⟩
  | cons call calls ih =>
    obtain ⟨hname, hnames⟩ := List.forall_mem_cons.1 hnames
    rw [List.foldlM_cons] at h
    obtain ⟨between, hfirst, hrest⟩ := bind_eq_ok.1 h
    obtain ⟨hbetweenRules, hbetweenRewrites⟩ := (others_apply_iff hname hfirst).2
      ⟨hrules.faithful _, hrewrites.faithful _⟩
    have hlast := ih (hbetweenRules ▸ hrules) (hbetweenRewrites ▸ hrewrites) hnames hrest
    rwa [hbetweenRules, hbetweenRewrites] at hlast

end

/-- A rule and a comment. -/
def commentedConfig : AppConfig := { plainCookie with blacklist := "! mine\n||a.example^\n".toList }

def blockCall : RuleCall := ⟨"Ads.Example".toList, "block".toList, none⟩

theorem quickRuleLaws_commentedConfig : ∃ saved, blockCall.apply commentedConfig = .ok saved ∧
    QuickRuleLaws blockCall "ads.example".toList commentedConfig saved := by
  refine ⟨_, rfl, (quickRuleLaws_iff (by decide) rfl).2 ⟨?_, ?_⟩⟩
  · exact ⟨by decide, by decide⟩
  · exact ⟨by decide, by decide⟩

/-- A rule that blocks, and one that allows. -/
theorem others_commentedConfig :
    let calls : List RuleCall := [blockCall, { blockCall with action := "allow".toList }]
    ∃ saved, calls.foldlM RuleCall.apply commentedConfig = .ok saved ∧
      otherRuleLines saved.blacklist "ads.example".toList =
        otherRuleLines commentedConfig.blacklist "ads.example".toList ∧
      otherRewriteLines saved.dnsRewrites "ads.example".toList =
        otherRewriteLines commentedConfig.dnsRewrites "ads.example".toList := by
  intro calls
  have hnames : ∀ call ∈ calls, normalizeHostname call.name = some "ads.example".toList := by decide
  exact ⟨_, rfl, others_run ⟨by decide, by decide⟩ ⟨by decide, by decide⟩ hnames rfl⟩

/-- Two empty lines are at the end of the rules. -/
def blankConfig : AppConfig := { plainCookie with blacklist := "||a.example^\n\n\n".toList }

/-- The same rule, applied again, takes an empty line away and changes the configuration. -/
theorem blankConfig_changes_again : validate noUrl blankConfig = .ok () ∧
    ∃ saved next, blockCall.apply blankConfig = .ok saved ∧
      saved.blacklist = "||a.example^\n\n||ads.example^".toList ∧
      queryLogRule blockCall.name blockCall.action blockCall.target saved = .ok next ∧
      next.blacklist = "||a.example^\n||ads.example^".toList ∧ ruleChanges saved next = true ∧
      ¬QuickRuleLaws blockCall "ads.example".toList blankConfig saved := by
  obtain ⟨saved, hsaved⟩ : ∃ saved, blockCall.apply blankConfig = .ok saved := ⟨_, rfl⟩
  obtain ⟨next, hnext⟩ : ∃ next,
      queryLogRule blockCall.name blockCall.action blockCall.target saved = .ok next :=
    let ⟨_, hfirst, _⟩ := exists_of_apply hsaved
    exists_queryLogRule hfirst saved
  have hname : normalizeHostname blockCall.name = some "ads.example".toList := by decide
  have hfirst : saved.blacklist = "||a.example^\n\n||ads.example^".toList := by
    rw [(texts_apply hname hsaved).1]
    decide
  have hsecond : next.blacklist = "||a.example^\n||ads.example^".toList := by
    rw [(texts_queryLogRule hname hnext).1, hfirst]
    decide
  have hchanges : ruleChanges saved next = true := by
    rw [ruleChanges, hfirst, hsecond]
    rfl
  refine ⟨toOption_eq_some.1 (by decide +kernel), saved, next, hsaved, hfirst, hnext, hsecond,
    hchanges, fun hlaws => ?_⟩
  obtain ⟨again, hagain, hsame, -⟩ := hlaws.again
  cases hnext.symm.trans hagain
  cases hchanges.symm.trans hsame

end DnsBlackhole.Service
