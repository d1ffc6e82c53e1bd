/-
  What the interface makes of its own draft when a quick rule has been applied
  (`mergeQueryLogRuleIntoDraft`).

  The editor repeats the work of the service on the lines of its draft, with the line that the
  service has written.  It keeps the empty line behind a last newline, which the service does
  not have, and it looks for the entries of the domain with other white space and letters.

  * `mergeQueryLogRuleIntoDraft_eq`: the editor finds the domain and the line again;
  * `rejoined_eq_iff`: when both put the same text together;
  * **`merges_iff`**: a draft becomes what the service would make of it, with all of its other
    lines, if and only if both find the same entries, its lines are put together faithfully, and
    a text without a new line does not end with a newline.
-/
import DnsBlackhole.Form.Networks
import DnsBlackhole.Service.RepeatedRules

namespace DnsBlackhole.Form
open Admin (AppConfig)
open Config
open Rules
open Service (Faithful Rejoins join_concat lines_join_concat mem_of_mem_withoutBlank
  otherRewriteLines otherRuleLines queryLogRule rejoined rejoined_some rewriteLine ruleLine
  withoutBlank)
open Text (endsWith join split_join stripPrefix stripReturn stripSuffix)

/-! ## The draft -/

inductive QueryLogRuleAction
  | block
  | allow
  | rewrite
  deriving DecidableEq

def QueryLogRuleAction.text : QueryLogRuleAction → Text
  | .block => "block".toList
  | .allow => "allow".toList
  | .rewrite => "rewrite".toList

structure QueryLogRuleDraft where
  blacklist : Text
  dnsRewrites : Text

/-- `split(/\r?\n/)` -/
def splitLines (value : Text) : List Text :=
  let parts := value.split (· == '\n')
  parts.dropLast.map stripReturn ++ parts.getLast?.toList

/-- `split(/\s+/)[0]` -/
def firstWord (t : Text) : Text := t.takeWhile (!isWhitespace ·)

def lastConfigLine (value : Text) : Text :=
  (((splitLines value).map trim).reverse.find? (· ≠ [])).getD []

section
variable (toLocaleLowerCase : Text → Text)

/-- The line is no rule for the domain alone. -/
def isOtherRule (domain line : Text) : Bool :=
  let normalized := toLocaleLowerCase (trim line)
  normalized != toLocaleLowerCase ("||".toList ++ domain ++ "^".toList) &&
    normalized != toLocaleLowerCase ("@@||".toList ++ domain ++ "^".toList)

def removeExactDomainRules (value domain : Text) : Text :=
  join ((splitLines value).filter (isOtherRule toLocaleLowerCase domain)) ['\n']

/-- The line is no rewrite of the domain. -/
def isOtherRewrite (domain line : Text) : Bool :=
  toLocaleLowerCase (firstWord (trim line)) != toLocaleLowerCase domain

def removeExactDnsRewrites (value domain : Text) : Text :=
  join ((splitLines value).filter (isOtherRewrite toLocaleLowerCase domain)) ['\n']

def appendConfigLine (value line : Text) : Text :=
  if value ≠ [] ∧ !value.endsWith '\n' then value ++ '\n' :: line else value ++ line

/-- What `replace(prefix, "")` and `replace(suffix, "")` leave of a rule. -/
def ruleDomain (line : Text) : Text :=
  let line := (line.stripPrefix "@@".toList).getD line
  let line := (line.stripPrefix "||".toList).getD line
  (line.stripSuffix "^".toList).getD line

def mergeQueryLogRuleIntoDraft (draft authoritative : QueryLogRuleDraft)
    (action : QueryLogRuleAction) : Except Text QueryLogRuleDraft :=
  let intendedLine := lastConfigLine
    (if action = .rewrite then authoritative.dnsRewrites else authoritative.blacklist)
  let domain := if action = .rewrite then firstWord intendedLine else ruleDomain intendedLine
  if domain = [] then .error "服务端未返回可合并的查询日志规则".toList
  else
    let blacklist := removeExactDomainRules toLocaleLowerCase draft.blacklist domain
    let dnsRewrites := removeExactDnsRewrites toLocaleLowerCase draft.dnsRewrites domain
    if action = .rewrite then
      .ok { blacklist, dnsRewrites := appendConfigLine dnsRewrites intendedLine }
    else .ok { blacklist := appendConfigLine blacklist intendedLine, dnsRewrites }

end

/-! ## Lines -/

section
variable {p q : Text → Bool} {raw : Text} {own : Option Text} {a b : List Text}

/-- Whether the editor sees an empty line behind the last newline. -/
def hasTail (raw : Text) : Prop := raw = [] ∨ raw.endsWith '\n' = true

instance : Decidable (hasTail raw) := inferInstanceAs (Decidable (_ ∨ _))

theorem splitLines_eq (raw : Text) :
    splitLines raw = raw.lines ++ if hasTail raw then [[]] else [] := by
  have hlast := Text.getLast?_split (· == '\n') raw
  have htail : hasTail raw ↔ raw = [] ∨ raw.getLast?.any (· == '\n') := by
    unfold hasTail endsWith
    cases raw.getLast? <;> simp
  rw [← htail] at hlast
  unfold splitLines Text.lines
  dsimp only
  rcases List.eq_nil_or_concat' (raw.split (· == '\n')) with hnil | ⟨init, last, hsplit⟩
  · exact absurd hnil (Text.split_ne_nil _ _)
  · rw [hsplit, List.getLast?_concat] at hlast
    rw [hsplit, Text.linesOf_append _ (List.cons_ne_nil _ _), Text.linesOf, List.dropLast_concat,
      List.getLast?_concat]
    by_cases hblank : last = []
    · rw [if_pos hblank, if_pos (hlast.1 (congrArg some hblank)), hblank, List.append_nil]
      rfl
    · rw [if_neg hblank, if_neg fun h => hblank (Option.some.inj (hlast.2 h)), List.append_nil]
      rfl

theorem join_eq_join_iff (ha : ∀ line ∈ a, '\n' ∉ line) (hb : ∀ line ∈ b, '\n' ∉ line) :
    join a ['\n'] = join b ['\n'] ↔ a = b ∨ (a = [] ∨ a = [[]]) ∧ (b = [] ∨ b = [[]]) := by
  have hnil : ∀ {l : List Text}, (∀ line ∈ l, '\n' ∉ line) → join l ['\n'] = [] →
      l = [] ∨ l = [[]] := by
    intro l hl hjoin
    by_cases hne : l = []
    · exact .inl hne
    · have hsplit := split_join hne hl
      rw [hjoin] at hsplit
      exact .inr hsplit.symm
  constructor
  · intro h
    by_cases hane : a = []
    · rw [hane] at h
      exact .inr ⟨.inl hane, hnil hb h.symm⟩
    · by_cases hbne : b = []
      · rw [hbne] at h
        exact .inr ⟨hnil ha h, .inl hbne⟩
      · left
        rw [← split_join hane ha, h, split_join hbne hb]
  · rintro (rfl | ⟨rfl | rfl, rfl | rfl⟩) <;> rfl

theorem filter_eq_filter_iff {l : List Text} :
    l.filter q = l.filter p ↔ ∀ line ∈ l, q line = p line := by
  constructor
  · intro h line hline
    have hq : line ∈ l.filter q ↔ line ∈ l.filter p := by rw [h]
    rw [List.mem_filter, List.mem_filter, and_iff_right hline, and_iff_right hline] at hq
    exact Bool.eq_iff_iff.2 hq
  · exact fun h => List.filter_congr h

/-- A line that only one of the two keeps is not empty, so it is not lost at the end. -/
theorem withoutBlank_filter_eq_iff {l : List Text} (hp : p [] = true) (hq : q [] = true)
    (hlast : (l.filter p).getLast? ≠ some []) :
    withoutBlank (l.filter q) = l.filter p ↔ ∀ line ∈ l, q line = p line := by
  rw [← filter_eq_filter_iff]
  constructor
  · intro h
    unfold withoutBlank at h
    split_ifs at h with hblank
    · have hcount := congrArg (List.count []) h
      obtain ⟨init, hinit⟩ := List.getLast?_eq_some_iff.1 hblank
      rw [hinit, List.dropLast_concat, List.count_filter hp] at hcount
      have hall : (l.filter q).count [] = l.count [] := List.count_filter hq
      rw [hinit, List.count_append, List.count_singleton_self] at hall
      omega
    · exact h
  · intro h
    rw [h, withoutBlank, if_neg hlast]

theorem filter_ne_blank {l : List Text} (hp : p [] = true) (h : l.filter p = []) :
    l.filter q ≠ [[]] := by
  intro heq
  have hmem : [] ∈ l.filter q := heq ▸ List.mem_singleton_self []
  exact List.not_mem_nil (h ▸ List.mem_filter.2 ⟨(List.mem_filter.1 hmem).1, hp⟩)

theorem join_concat_inj {line : Text} (ha : ∀ line ∈ a, '\n' ∉ line) (hb : ∀ line ∈ b, '\n' ∉ line)
    (hline : '\n' ∉ line) :
    join (a ++ [line]) ['\n'] = join (b ++ [line]) ['\n'] ↔ a = b := by
  have hconcat : ∀ l : List Text, (∀ line ∈ l, '\n' ∉ line) →
      ∀ other ∈ l ++ [line], '\n' ∉ other := fun l hl =>
    List.forall_mem_append.2 ⟨hl, fun other hother => List.mem_singleton.1 hother ▸ hline⟩
  constructor
  · intro h
    have hsplit := split_join (by simp) (hconcat a ha)
    rw [h, split_join (by simp) (hconcat b hb)] at hsplit
    exact (List.append_inj' hsplit rfl).1.symm
  · rintro rfl
    rfl

theorem rejoined_eq_iff (hp : p [] = true) (hq : q [] = true) (hown : ∀ line ∈ own, '\n' ∉ line)
    (hlast : (raw.lines.filter p).getLast? ≠ some []) :
    rejoined ((splitLines raw).filter q) own = rejoined (raw.lines.filter p) own ↔
      (∀ line ∈ raw.lines, q line = p line) ∧
        (own = none → raw.endsWith '\n' = true → raw.lines.filter p = []) := by
  have hlines : ∀ r : Text → Bool, ∀ line ∈ raw.lines.filter r, '\n' ∉ line := fun r line hline =>
    Text.not_mem_of_mem_lines (List.mem_of_mem_filter hline)
  have htail : ∀ line ∈ (if hasTail raw then [[]] else [] : List Text), '\n' ∉ line := by
    intro line hline
    split_ifs at hline
    · rw [List.mem_singleton.1 hline]
      exact List.not_mem_nil
    · cases hline
  have hfilter : (splitLines raw).filter q =
      raw.lines.filter q ++ if hasTail raw then [[]] else [] := by
    rw [splitLines_eq, List.filter_append]
    split_ifs
    · rw [List.filter_singleton, hq]
      rfl
    · rfl
  have hsplit : ∀ line ∈ (splitLines raw).filter q, '\n' ∉ line := by
    rw [hfilter]
    exact List.forall_mem_append.2 ⟨hlines q, htail⟩
  cases own with
  | some line =>
    have hnewline := hown line rfl
    have hkept : ∀ l : List Text, (∀ line ∈ l, '\n' ∉ line) →
        ∀ other ∈ withoutBlank l, '\n' ∉ other := fun l hl other hother =>
      hl other (mem_of_mem_withoutBlank hother)
    have hwithout : withoutBlank (raw.lines.filter p) = raw.lines.filter p := if_neg hlast
    rw [rejoined_some hsplit, rejoined_some (hlines p), join_concat_inj (hkept _ hsplit)
      (hkept _ (hlines p)) hnewline, hwithout, hfilter]
    simp only [reduceCtorEq, false_imp_iff, and_true]
    split_ifs
    · rw [withoutBlank, List.getLast?_concat, if_pos rfl, List.dropLast_concat,
        filter_eq_filter_iff]
    · rw [List.append_nil, withoutBlank_filter_eq_iff hp hq hlast]
  | none =>
    have hjoin := join_eq_join_iff hsplit (hlines p)
    have hblank : raw.lines.filter p ≠ [[]] := fun h => hlast (by rw [h]; rfl)
    rw [rejoined, rejoined, hjoin, hfilter, or_iff_left hblank, ← filter_eq_filter_iff]
    simp only [true_imp_iff]
    by_cases hend : raw.endsWith '\n' = true
    · rw [if_pos (.inr hend)]
      constructor
      · rintro (heq | ⟨hnil | hsingle, hnone⟩)
        · exact absurd (heq ▸ List.getLast?_concat) hlast
        · exact absurd hnil (by simp)
        · have hnil : raw.lines.filter q = [] :=
            (List.append_inj' (hsingle.trans (List.nil_append [[]]).symm) rfl).1
          exact ⟨hnil.trans hnone.symm, fun _ => hnone⟩
      · rintro ⟨heq, hnone⟩
        have hnil := heq.trans (hnone hend)
        exact .inr ⟨.inr (by rw [hnil]; rfl), hnone hend⟩
    · by_cases hraw : raw = []
      · rw [hraw]
        exact iff_of_true (.inr ⟨.inr rfl, rfl⟩) ⟨rfl, fun _ => rfl⟩
      · rw [if_neg (show ¬hasTail raw from not_or.2 ⟨hraw, hend⟩), List.append_nil]
        constructor
        · rintro (heq | ⟨hnil | hsingle, hnone⟩)
          · exact ⟨heq, fun h => absurd h hend⟩
          · exact ⟨hnil.trans hnone.symm, fun _ => hnone⟩
          · exact absurd hsingle (filter_ne_blank hp hnone)
        · exact fun h => .inl h.1

end

/-! ## The line of the service -/

section
variable {others : List Text} {line domain : Text} {target : Option Text}

theorem lastConfigLine_rejoined (hothers : ∀ other ∈ others, '\n' ∉ other) (hline : '\n' ∉ line)
    (htrim : trim line = line) (hne : line ≠ []) :
    lastConfigLine (rejoined others (some line)) = line := by
  have hall : ∀ other ∈ withoutBlank others ++ [line], '\n' ∉ other :=
    List.forall_mem_append.2 ⟨fun other hother => hothers other (mem_of_mem_withoutBlank hother),
      fun other hother => List.mem_singleton.1 hother ▸ hline⟩
  have hlines : splitLines (join (withoutBlank others ++ [line]) ['\n']) =
      (withoutBlank others).map stripReturn ++ [line] := by
    unfold splitLines
    dsimp only
    rw [split_join (by simp) hall, List.dropLast_concat, List.getLast?_concat, Option.toList_some]
  rw [rejoined_some hothers, lastConfigLine, hlines, List.map_append, List.map_singleton, htrim,
    List.reverse_append, List.reverse_singleton, List.singleton_append, List.find?_cons,
    decide_eq_true hne]
  rfl

theorem sameSpace_of_domain (hdomain : IsDomain domain) :
    nextLine ∉ domain ∧ byteOrderMark ∉ domain :=
  ⟨hdomain.not_mem (by decide), hdomain.not_mem (by decide)⟩

theorem trim_canonicalRuleText (hdomain : IsDomain domain) (isAllow : Bool) :
    trim (canonicalRuleText .suffix domain isAllow) = canonicalRuleText .suffix domain isAllow := by
  have hnot : ∀ c : Char, isDomainChar c = false → c ≠ '@' → c ≠ '|' → c ≠ '^' →
      c ∉ canonicalRuleText .suffix domain isAllow := fun c hc hmark hbar hcaret =>
    hdomain.not_mem_canonicalRuleText isAllow hc hmark hbar hcaret
  rw [trim_eq (sameSpace_of_not_mem
    (hnot _ (by decide) (by decide) (by decide) (by decide))
    (hnot _ (by decide) (by decide) (by decide) (by decide))), hdomain.trim_canonicalRuleText]

theorem ruleDomain_canonicalRuleText (domain : Text) (isAllow : Bool) :
    ruleDomain (canonicalRuleText .suffix domain isAllow) = domain := by
  have hblock : ((canonicalRuleText .suffix domain isAllow).stripPrefix "@@".toList).getD
      (canonicalRuleText .suffix domain isAllow) = canonicalRuleText .suffix domain false := by
    cases isAllow with
    | false => rfl
    | true =>
      have hallow : (canonicalRuleText .suffix domain true).stripPrefix "@@".toList =
          some (canonicalRuleText .suffix domain false) := Text.stripPrefix_eq_some.2 rfl
      rw [hallow, Option.getD_some]
  have hbars : (canonicalRuleText .suffix domain false).stripPrefix "||".toList =
      some (domain ++ ['^']) :=
    Text.stripPrefix_eq_some.2 (List.append_assoc ['|', '|'] domain ['^'])
  have hcaret : (domain ++ ['^']).stripSuffix "^".toList = some domain :=
    Text.stripSuffix_eq_some.2 rfl
  unfold ruleDomain
  dsimp only
  rw [hblock, hbars, Option.getD_some, hcaret, Option.getD_some]

theorem firstWord_rewrite (hdomain : IsDomain domain) (rest : Text) :
    firstWord (domain ++ ' ' :: rest) = domain := by
  obtain ⟨hnext, hmark⟩ := sameSpace_of_domain hdomain
  have hspace : ∀ c ∈ domain, (!isWhitespace c) = true := fun c hc => by
    rw [sameSpace_of_not_mem hnext hmark c hc, Bool.not_eq_true', Bool.eq_false_iff]
    exact not_isWhitespace_of_isDomainChar (hdomain.chars c hc).1
  rw [firstWord, List.takeWhile_append_of_pos hspace, List.takeWhile_cons_of_neg (by decide),
    List.append_nil]

theorem trim_rewrite {ip : IpAddr} {address : Text} (hdomain : IsDomain domain)
    (haddress : parseIpAddr address = some ip) :
    trim (domain ++ ' ' :: address) = domain ++ ' ' :: address := by
  obtain ⟨hnext, hmark⟩ := sameSpace_of_domain hdomain
  have hchars := isIpChar_of_parseIp (parseIp_of_parseIpAddr haddress)
  have hbound : ∀ c ∈ address, c.toNat ≤ 122 := fun c hc => (bounds_of_isIpChar (hchars c hc)).2
  have hnot : ∀ c : Char, 122 < c.toNat → c ∉ domain → c ∉ domain ++ ' ' :: address := by
    intro c hc hout hmem
    rcases List.mem_append.1 hmem with hmem | hmem
    · exact hout hmem
    · rcases List.mem_cons.1 hmem with rfl | hmem
      · exact absurd hc (by decide)
      · exact absurd (hbound c hmem) (Nat.not_le.2 hc)
  rw [trim_eq (sameSpace_of_not_mem (hnot _ (by decide) hnext) (hnot _ (by decide) hmark))]
  obtain ⟨hne, hspace⟩ := Service.not_isWhitespace_of_parseIpAddr haddress
  refine Text.trim_eq_self (fun c hc => ?_) fun c hc => ?_
  · obtain ⟨first, tail, rfl⟩ := List.exists_cons_of_ne_nil hdomain.ne_nil
    cases hc
    exact not_isWhitespace_of_isDomainChar (hdomain.chars _ List.mem_cons_self).1
  · rw [List.getLast?_append, List.getLast?_cons, List.getLast?_eq_some_getLast hne] at hc
    cases hc
    exact hspace _ (List.getLast_mem hne)

end

/-! ## The merge -/

/-- The texts of a configuration that quick rules change. -/
def draftOf (config : AppConfig) : QueryLogRuleDraft := ⟨config.blacklist, config.dnsRewrites⟩

def withDraft (config : AppConfig) (draft : QueryLogRuleDraft) : AppConfig :=
  { config with
    blacklist := draft.blacklist
    dnsRewrites := draft.dnsRewrites }

/-- The editor makes of the draft what the service would make of it, and all of its other lines
    stay. -/
structure MergesLikeService (toLocaleLowerCase : Text → Text) (name domain : Text)
    (action : QueryLogRuleAction) (target : Option Text) (config next : AppConfig)
    (draft : QueryLogRuleDraft) : Prop where
  merged : ∃ expected,
    queryLogRule name action.text target (withDraft config draft) = .ok expected ∧
    mergeQueryLogRuleIntoDraft toLocaleLowerCase draft (draftOf next) action =
      .ok (draftOf expected)
  others : ∀ merged,
    mergeQueryLogRuleIntoDraft toLocaleLowerCase draft (draftOf next) action = .ok merged →
      otherRuleLines merged.blacklist domain = otherRuleLines draft.blacklist domain ∧
      otherRewriteLines merged.dnsRewrites domain = otherRewriteLines draft.dnsRewrites domain

/-- What the service keeps of the rules, and of the rewrites. -/
def keepsRule (domain line : Text) : Bool :=
  !line.trim.eqIgnoreAsciiCase ("||".toList ++ domain ++ "^".toList) &&
    !line.trim.eqIgnoreAsciiCase ("@@||".toList ++ domain ++ "^".toList)

def keepsRewrite (domain line : Text) : Bool :=
  line.splitWhitespace.head?.all fun candidate => !candidate.eqIgnoreAsciiCase domain

/-- The service (`p`) and the editor (`q`) put the lines of a text together in the same way, and
    lose none: they find the same entries, and where no line is added, a text that has other
    lines does not end with a newline. -/
structure MergesText (p q : Text → Bool) (raw : Text) (own : Option Text) : Prop where
  entries : ∀ line ∈ raw.lines, q line = p line
  faithful : Faithful (raw.lines.filter p) own
  newline : own = none → raw.endsWith '\n' = true → raw.lines.filter p = []

section
variable {toLocaleLowerCase : Text → Text} {name domain : Text} {action : QueryLogRuleAction}
  {target : Option Text} {config next : AppConfig}

theorem mergeQueryLogRuleIntoDraft_eq (hname : normalizeHostname name = some domain)
    (h : queryLogRule name action.text target config = .ok next) (draft : QueryLogRuleDraft) :
    mergeQueryLogRuleIntoDraft toLocaleLowerCase draft (draftOf next) action =
      .ok ⟨rejoined ((splitLines draft.blacklist).filter (isOtherRule toLocaleLowerCase domain))
          (ruleLine action.text domain),
        rejoined ((splitLines draft.dnsRewrites).filter (isOtherRewrite toLocaleLowerCase domain))
          (rewriteLine action.text domain target)⟩ := by
  have hdomain := Service.isDomain_of_normalizeHostname hname
  obtain ⟨hblacklist, hrewrites⟩ := Service.texts_queryLogRule hname h
  have hrule : ∀ isAllow,
      ruleLine action.text domain = some (canonicalRuleText .suffix domain isAllow) →
      lastConfigLine next.blacklist = canonicalRuleText .suffix domain isAllow := by
    intro isAllow hline
    rw [hblacklist, hline]
    refine lastConfigLine_rejoined Service.not_newline_of_mem_otherRuleLines
      (hdomain.not_mem_canonicalRuleText isAllow (by decide) (by decide) (by decide) (by decide))
      (trim_canonicalRuleText hdomain isAllow) ?_
    cases isAllow <;> exact List.cons_ne_nil _ _
  unfold mergeQueryLogRuleIntoDraft draftOf
  dsimp only
  cases action with
  | block =>
    simp only [reduceCtorEq, ↓reduceIte]
    rw [hrule false rfl, ruleDomain_canonicalRuleText domain, if_neg hdomain.ne_nil]
    rfl
  | allow =>
    simp only [reduceCtorEq, ↓reduceIte]
    rw [hrule true rfl, ruleDomain_canonicalRuleText domain, if_neg hdomain.ne_nil]
    rfl
  | rewrite =>
    have hline : rewriteLine QueryLogRuleAction.rewrite.text domain target =
        some (domain ++ ' ' :: (target.getD []).trim) := rfl
    obtain ⟨ip, hip⟩ := Option.isSome_iff_exists.1 (Service.isSome_of_rewrite hname h rfl)
    have hlast : lastConfigLine next.dnsRewrites = domain ++ ' ' :: (target.getD []).trim := by
      rw [hrewrites, hline]
      exact lastConfigLine_rejoined
        (fun line hmem => Text.not_mem_of_mem_lines (List.mem_of_mem_filter hmem))
        (Service.rewriteEntry_of_domain hdomain hip).1 (trim_rewrite hdomain hip) (by simp)
    simp only [↓reduceIte]
    rw [hlast, firstWord_rewrite hdomain, if_neg hdomain.ne_nil]
    rfl

theorem mergesText_iff {p q : Text → Bool} {raw : Text} {own : Option Text} (hp : p [] = true)
    (hq : q [] = true) (h : Rejoins p (raw.lines.filter p) own) :
    (rejoined ((splitLines raw).filter q) own = rejoined (raw.lines.filter p) own ∧
      (Text.lines (rejoined (raw.lines.filter p) own)).filter p = raw.lines.filter p) ↔
    MergesText p q raw own := by
  rw [Service.others_iff h]
  constructor
  · rintro ⟨hsame, hfaithful⟩
    obtain ⟨hentries, hnewline⟩ := (rejoined_eq_iff hp hq (fun line hline => (h.own line hline).1)
      hfaithful.1).1 hsame
    exact ⟨hentries, hfaithful, hnewline⟩
  · rintro ⟨hentries, hfaithful, hnewline⟩
    exact ⟨(rejoined_eq_iff hp hq (fun line hline => (h.own line hline).1) hfaithful.1).2
      ⟨hentries, hnewline⟩, hfaithful⟩

theorem keeps_nil (hlower : ∀ t, toLocaleLowerCase t = [] ↔ t = []) (hdomain : IsDomain domain) :
    (keepsRule domain [] = true ∧ isOtherRule toLocaleLowerCase domain [] = true) ∧
      keepsRewrite domain [] = true ∧ isOtherRewrite toLocaleLowerCase domain [] = true := by
  have hne : ∀ t : Text, t ≠ [] → (toLocaleLowerCase [] != toLocaleLowerCase t) = true := by
    intro t ht
    rw [(hlower []).2 rfl, bne_iff_ne]
    exact fun heq => ht ((hlower t).1 heq.symm)
  refine ⟨⟨?_, ?_⟩, rfl, ?_⟩
  · simp [keepsRule, Text.eqIgnoreAsciiCase, Text.toAsciiLowercase, Text.trim]
  · exact Bool.and_eq_true_iff.2 ⟨hne _ (by simp), hne _ (by simp)⟩
  · exact hne domain hdomain.ne_nil

/-- **A draft becomes what the service would make of it, with all of its other lines**, if and
    only if both of its texts are put together in the same way. -/
theorem merges_iff (hlower : ∀ t, toLocaleLowerCase t = [] ↔ t = [])
    (hname : normalizeHostname name = some domain)
    (h : queryLogRule name action.text target config = .ok next) (draft : QueryLogRuleDraft) :
    MergesLikeService toLocaleLowerCase name domain action target config next draft ↔
      MergesText (keepsRule domain) (isOtherRule toLocaleLowerCase domain) draft.blacklist
          (ruleLine action.text domain) ∧
        MergesText (keepsRewrite domain) (isOtherRewrite toLocaleLowerCase domain)
          draft.dnsRewrites (rewriteLine action.text domain target) := by
  have hdomain := Service.isDomain_of_normalizeHostname hname
  obtain ⟨⟨hrule, hrule'⟩, hrewrite, hrewrite'⟩ := keeps_nil hlower hdomain
  have hmerged := @mergeQueryLogRuleIntoDraft_eq toLocaleLowerCase _ _ _ _ _ _ hname h draft
  obtain ⟨expected, hexpected⟩ := Service.exists_queryLogRule h (withDraft config draft)
  obtain ⟨hblacklist, hrewrites⟩ := Service.texts_queryLogRule hname hexpected
  rw [← mergesText_iff hrule hrule' (Service.rejoins_rules hdomain draft.blacklist action.text),
    ← mergesText_iff hrewrite hrewrite' (Service.rejoins_rewrites hdomain draft.dnsRewrites
      (Service.isSome_of_rewrite hname h))]
  constructor
  · rintro ⟨⟨expected', hexpected', hsame⟩, hothers⟩
    cases hexpected.symm.trans hexpected'
    have heq := Except.ok.inj (hmerged.symm.trans hsame)
    obtain ⟨hrules, hnames⟩ := hothers _ hsame
    rw [draftOf, hblacklist, hrewrites] at heq hrules hnames
    exact ⟨⟨congrArg QueryLogRuleDraft.blacklist heq, hrules⟩,
      congrArg QueryLogRuleDraft.dnsRewrites heq, hnames⟩
  · rintro ⟨⟨hsameRules, hrules⟩, hsameNames, hnames⟩
    rw [hsameRules, hsameNames] at hmerged
    refine ⟨⟨expected, hexpected, ?_⟩, fun merged hresult => ?_⟩
    · rw [hmerged, draftOf, hblacklist, hrewrites]
      rfl
    · cases hmerged.symm.trans hresult
      exact ⟨hrules, hnames⟩

end

/-! ### Drafts -/

theorem toLowerCase_eq_nil_iff (t : Text) : toLowerCase t = [] ↔ t = [] := by
  constructor
  · intro h
    cases t with
    | nil => rfl
    | cons c t =>
      rw [toLowerCase, List.flatMap_cons, List.append_eq_nil_iff] at h
      exfalso
      obtain ⟨hc, -⟩ := h
      unfold lowerChar at hc
      split_ifs at hc
  · rintro rfl
    rfl

/-- A draft with changes of its own, and an entry of the domain. -/
def editedDraft : QueryLogRuleDraft where
  blacklist := "# local draft\n||example.com^\n||draft.test^".toList
  dnsRewrites := "Example.com 127.0.0.1\ndraft.test 127.0.0.2".toList

theorem merges_editedDraft : ∃ next,
    queryLogRule "example.com".toList QueryLogRuleAction.allow.text none Service.plainCookie =
        .ok next ∧
      MergesLikeService toLowerCase "example.com".toList "example.com".toList .allow none
        Service.plainCookie next editedDraft := by
  refine ⟨_, rfl, (merges_iff toLowerCase_eq_nil_iff (by decide) rfl editedDraft).2 ⟨?_, ?_⟩⟩
  · exact ⟨by decide, ⟨by decide, by decide⟩, by decide⟩
  · exact ⟨by decide, ⟨by decide, by decide⟩, by decide⟩

/-- The rewrites end with a newline. -/
def newlineConfig : AppConfig :=
  { Service.plainCookie with
    blacklist := "||a.example^".toList
    dnsRewrites := "x.example 10.0.0.1\n".toList }

/-- The service takes the newline away, and the editor keeps it: a draft that was the stored
    configuration differs from what is stored. -/
theorem newlineConfig_differs : validate noUrl newlineConfig = .ok () ∧ ∃ next merged,
    queryLogRule "ads.example".toList QueryLogRuleAction.block.text none newlineConfig = .ok next ∧
      mergeQueryLogRuleIntoDraft toLowerCase (draftOf newlineConfig) (draftOf next) .block =
        .ok merged ∧
      next.dnsRewrites = "x.example 10.0.0.1".toList ∧
      merged.dnsRewrites = "x.example 10.0.0.1\n".toList ∧
      ¬MergesLikeService toLowerCase "ads.example".toList "ads.example".toList .block none
        newlineConfig next (draftOf newlineConfig) := by
  obtain ⟨next, hnext⟩ : ∃ next, queryLogRule "ads.example".toList QueryLogRuleAction.block.text
      none newlineConfig = .ok next := ⟨_, rfl⟩
  have hname : normalizeHostname "ads.example".toList = some "ads.example".toList := by decide
  have hmerged := @mergeQueryLogRuleIntoDraft_eq toLowerCase _ _ _ _ _ _ hname hnext
    (draftOf newlineConfig)
  have hservice : next.dnsRewrites = "x.example 10.0.0.1".toList := by
    rw [(Service.texts_queryLogRule hname hnext).2]
    decide
  refine ⟨Lib.toOption_eq_some.1 (by decide +kernel), next, _, hnext, hmerged, hservice, ?_,
    fun hlike => ?_⟩
  · decide
  · obtain ⟨expected, hexpected, hsame⟩ := hlike.merged
    cases hnext.symm.trans hexpected
    have htexts := congrArg QueryLogRuleDraft.dnsRewrites
      (Except.ok.inj (hmerged.symm.trans hsame))
    dsimp only [draftOf] at htexts
    rw [hservice] at htexts
    exact absurd htexts (by decide)

end DnsBlackhole.Form
