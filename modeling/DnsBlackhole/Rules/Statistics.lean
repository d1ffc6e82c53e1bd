/-
  What the layers report: counts and texts.

  The two ways to apply custom rules agree in every verdict; in what they report
  they differ.  The counts are the same unless the text of all rules has a blank
  line between its two parts (`summary_eq_iff`), and the texts unless a custom
  rule with `$dnsrewrite` repeats a shared one (`texts_eq_iff`).
-/
import DnsBlackhole.Rules.Layers

namespace DnsBlackhole.Rules
open Lib Text

/-! ## Counts -/

def countEvent (summary : RuleSummary) : ScanEvent → RuleSummary
  | .source _ => summary
  | .rule parsed => countRule summary parsed

/-- The counts of a text. -/
def summaryOf (es : List ScanEvent) : RuleSummary := es.foldl countEvent noRules

theorem combinedSummary_assoc (a b c : RuleSummary) :
    combinedSummary (combinedSummary a b) c = combinedSummary a (combinedSummary b c) := by
  simp only [combinedSummary, Nat.add_assoc]

@[simp] theorem combinedSummary_noRules (a : RuleSummary) : combinedSummary a noRules = a := rfl

@[simp] theorem noRules_combinedSummary (a : RuleSummary) : combinedSummary noRules a = a := by
  simp [combinedSummary, noRules]

theorem countRule_eq (a : RuleSummary) (parsed : ParsedRule) :
    countRule a parsed = combinedSummary a (countRule noRules parsed) := by
  cases parsed with
  | block rule => rfl
  | allow rule => rfl
  | ignored reason => cases reason <;> rfl
  | disable => rfl

theorem foldl_countEvent (a : RuleSummary) (es : List ScanEvent) :
    es.foldl countEvent a = combinedSummary a (summaryOf es) := by
  induction es generalizing a with
  | nil => rfl
  | cons e es ih =>
    cases e with
    | source name => exact ih a
    | rule parsed =>
      rw [summaryOf, List.foldl_cons, List.foldl_cons, ih, ih]
      simp only [countEvent]
      rw [countRule_eq a, combinedSummary_assoc]

theorem summaryOf_append (es fs : List ScanEvent) :
    summaryOf (es ++ fs) = combinedSummary (summaryOf es) (summaryOf fs) := by
  rw [summaryOf, List.foldl_append, foldl_countEvent]
  rfl

theorem foldl_compileEvent_summary (s : CompileState) (es : List ScanEvent) :
    (es.foldl compileEvent s).summary = es.foldl countEvent s.summary := by
  induction es generalizing s with
  | nil => rfl
  | cons e es ih =>
    rw [List.foldl_cons, List.foldl_cons, ih]
    cases e with
    | source name => rfl
    | rule parsed => cases parsed <;> rfl

theorem compileRulesWithDisabled_summary (jsonString : Text → Option Text) (raw : Text)
    (extraDisabled : List Text) :
    (compileRulesWithDisabled jsonString raw extraDisabled).summary =
      summaryOf (scanRulesWithDisabled jsonString raw extraDisabled) :=
  foldl_compileEvent_summary newCompileState _

/-- The counts of `n` comments. -/
def comments (n : ℕ) : RuleSummary :=
  { noRules with ignoredRules := n, ignoredCommentRules := n }

theorem summaryOf_comments {α : Type*} (l : List α) :
    summaryOf (l.map fun _ => .rule (.ignored .comment)) = comments l.length := by
  induction l with
  | nil => rfl
  | cons a l ih =>
    have hcons : summaryOf ((a :: l).map fun _ => .rule (.ignored .comment)) =
        combinedSummary (comments 1) (summaryOf (l.map fun _ => .rule (.ignored .comment))) :=
      foldl_countEvent (comments 1) _
    rw [hcons, ih]
    simp [combinedSummary, comments, noRules, Nat.add_comm]

theorem combinedSummary_comments_iff (a b : RuleSummary) (n : ℕ) :
    combinedSummary a b = combinedSummary (combinedSummary a (comments n)) b ↔ n = 0 := by
  constructor
  · intro h
    have hcomments := congrArg RuleSummary.ignoredCommentRules h
    simp only [combinedSummary, comments] at hcomments
    omega
  · rintro rfl
    rfl

theorem lines_eq_nil_iff (t : Text) : t.lines = [] ↔ t = [] := by
  constructor
  · intro h
    cases t with
    | nil => rfl
    | cons c t =>
      rw [lines, split] at h
      cases hs : split (· == '\n') t with
      | nil => exact absurd hs (split_ne_nil _ t)
      | cons part parts =>
        rw [hs] at h
        split_ifs at h
        · cases h
        · cases parts <;> simp [linesOf] at h
  · rintro rfl
    rfl

/-- No blank line is counted in the text of all rules only, or in the custom text
    only: blank lines are disabled, or nothing blank is at the seam. -/
def SameBlankLines (remote custom : Text) : Prop :=
  [] ∈ disabledLines remote ∨
    if custom.trim = [] then custom = [] else remote.getLast? ≠ some '\n'

theorem summary_eq_iff (jsonString : Text → Option Text) {remote custom : Text}
    (h : Mergeable jsonString remote custom) :
    (layeredRules jsonString remote custom).summary =
        (fullRules jsonString remote custom).summary ↔ SameBlankLines remote custom := by
  have hlayered : (layeredRules jsonString remote custom).summary =
      combinedSummary (summaryOf (scanRulesWithDisabled jsonString remote []))
        (summaryOf (scanRulesWithDisabled jsonString custom (disabledLines remote))) := by
    rw [← compileRulesWithDisabled_summary, ← compileRulesWithDisabled_summary]
    rfl
  have hfull : (fullRules jsonString remote custom).summary =
      summaryOf (scanRulesWithDisabled jsonString (buildEffectiveRules remote custom) []) :=
    compileRulesWithDisabled_summary jsonString _ []
  rw [hlayered, hfull, SameBlankLines]
  by_cases hdisabled : [] ∈ disabledLines remote
  · refine iff_of_true ?_ (Or.inl hdisabled)
    by_cases hblank : custom.trim = []
    · rw [scan_blank jsonString hblank, if_pos hdisabled, buildEffectiveRules, if_pos hblank]
      rfl
    · rw [scan_effective jsonString h.readsDefaultSource remote h.noBadfilter hblank,
        if_neg fun hc => hc.2 hdisabled, List.append_nil, summaryOf_append]
      rfl
  · rw [or_iff_right hdisabled]
    by_cases hblank : custom.trim = []
    · rw [if_pos hblank, scan_blank jsonString hblank, if_neg hdisabled, summaryOf_comments,
        buildEffectiveRules, if_pos hblank, ← lines_eq_nil_iff, ← List.length_eq_zero_iff]
      exact eq_comm.trans (combinedSummary_comments_iff _ noRules custom.lines.length)
    · have hseam : summaryOf (scanRulesWithDisabled jsonString (buildEffectiveRules remote custom)
          []) = combinedSummary
            (combinedSummary (summaryOf (scanRulesWithDisabled jsonString remote []))
              (comments (if remote.getLast? = some '\n' then 1 else 0)))
            (summaryOf (scanRulesWithDisabled jsonString custom (disabledLines remote))) := by
        rw [scan_effective jsonString h.readsDefaultSource remote h.noBadfilter hblank,
          summaryOf_append, summaryOf_append]
        refine congrArg₂ combinedSummary (congrArg (combinedSummary _) ?_) rfl
        by_cases hlast : remote.getLast? = some '\n' <;> simp [hlast, hdisabled] <;> rfl
      rw [if_neg hblank, hseam, combinedSummary_comments_iff]
      split_ifs with hlast <;> simp [hlast]

/-! ## Texts -/

/-- The length of the lines of a list, with their ends. -/
def linesLength (rules : List RefRule) : ℕ := (rules.map fun r => r.raw.length + 1).sum

theorem length_linesText {rules : List RefRule} (h : rules ≠ []) :
    (linesText rules).length + 1 = linesLength rules := by
  induction rules with
  | nil => exact absurd rfl h
  | cons r rules ih =>
    cases rules with
    | nil => simp [linesText, linesLength, join, List.intercalate]
    | cons s rules =>
      have hjoin : linesText (r :: s :: rules) = r.raw ++ '\n' :: linesText (s :: rules) := by
        simp [linesText, join, List.intercalate]
      have ih := ih (List.cons_ne_nil _ _)
      rw [hjoin, List.length_append, List.length_cons, linesLength, List.map_cons, List.sum_cons,
        ← linesLength]
      omega

theorem linesLength_lt {l m : List RefRule} (h : l.Sublist m) :
    l = m ∨ linesLength l < linesLength m := by
  induction h with
  | slnil => exact Or.inl rfl
  | cons a _ ih =>
    right
    have hcons : ∀ l, linesLength (a :: l) = a.raw.length + 1 + linesLength l := fun l => by
      rw [linesLength, List.map_cons, List.sum_cons, ← linesLength]
    rcases ih with rfl | ih
    · rw [hcons]; omega
    · rw [hcons]; omega
  | cons_cons a _ ih =>
    have hcons : ∀ l, linesLength (a :: l) = a.raw.length + 1 + linesLength l := fun l => by
      rw [linesLength, List.map_cons, List.sum_cons, ← linesLength]
    rcases ih with rfl | ih
    · exact Or.inl rfl
    · exact Or.inr (by rw [hcons, hcons]; omega)

theorem linesText_eq_rewriteText_iff (rules : List RefRule) :
    linesText rules = rewriteText rules ↔
      rules.Pairwise fun a b => a.identity ≠ b.identity := by
  constructor
  · intro h
    rcases linesLength_lt (firstOf_sublist RefRule.identity rules) with heq | hlt
    · exact heq ▸ pairwise_firstOf RefRule.identity rules
    · have hne : rules ≠ [] := by
        rintro rfl
        exact Nat.lt_irrefl _ hlt
      have hne' : firstOf RefRule.identity rules ≠ [] := by
        cases rules with
        | nil => exact absurd rfl hne
        | cons a l => rw [firstOf_cons]; exact List.cons_ne_nil _ _
      have hlen := length_linesText hne
      have hlen' := length_linesText hne'
      rw [h, rewriteText] at hlen
      omega
  · intro h
    rw [rewriteText, firstOf_eq_self h]

/-- A rule that outranks another with an address or a record. -/
def RefRule.Outranks (s r : RefRule) : Prop :=
  (s.important ∧ ¬ r.important) ∨ (s.important = r.important ∧ s.priority < r.priority)

/-- A rule with `$dnsrewrite` that answers a query. -/
structure RefRule.Answers (domain : Text) (qtype : UInt16) (r : RefRule) : Prop where
  isAt : ∃ place ∈ places domain, r.isAt false place
  rewrites : r.dnsrewrite.isSome
  applies : r.applies domain qtype

section
variable {domain : Text} {qtype : UInt16}

theorem mem_rewrites_iff {blocks : List RefRule} {r : RefRule} :
    r ∈ rewrites domain qtype blocks ↔
      (r ∈ blocks ∧ r.dnsrewrite.isSome ∧ r.applies domain qtype) ∧
        (r.important ∨ ∀ s ∈ blocks, s.dnsrewrite.isSome → s.applies domain qtype →
          ¬ s.important) := by
  unfold rewrites
  dsimp only
  split_ifs with hany
  · obtain ⟨s, hs, himportant⟩ := List.any_eq_true.1 hany
    simp only [List.mem_filter, Bool.and_eq_true] at hs ⊢
    refine and_congr_right fun _ => ⟨Or.inl, fun h => h.resolve_right fun h => ?_⟩
    exact h s hs.1 hs.2.1 hs.2.2 himportant
  · simp only [List.any_eq_true, List.mem_filter, Bool.and_eq_true, not_exists, not_and] at hany ⊢
    refine (and_iff_left_of_imp fun _ => Or.inr fun s hs hsome happlies => ?_).symm
    exact hany s ⟨hs, hsome, happlies⟩

theorem decides_iff {blocks : List RefRule} {r : RefRule} :
    (r ∈ rewrites domain qtype blocks ∧
        (∀ s ∈ rewrites domain qtype blocks, s.priority = 2)) ↔
      (r ∈ blocks ∧ r.dnsrewrite.isSome ∧ r.applies domain qtype) ∧ r.priority = 2 ∧
        ∀ s ∈ blocks, s.dnsrewrite.isSome → s.applies domain qtype → ¬ s.Outranks r := by
  constructor
  · rintro ⟨hr, hall⟩
    obtain ⟨hmem, himportant⟩ := mem_rewrites_iff.1 hr
    refine ⟨hmem, hall r hr, fun s hs hsome happlies => ?_⟩
    rintro (⟨hs', hr'⟩ | ⟨heq, hlt⟩)
    · exact himportant.resolve_left hr' s hs hsome happlies hs'
    · have hs' : s ∈ rewrites domain qtype blocks :=
        mem_rewrites_iff.2 ⟨⟨hs, hsome, happlies⟩, heq ▸ himportant⟩
      rw [hall s hs', hall r hr] at hlt
      exact Nat.lt_irrefl _ hlt
  · rintro ⟨⟨hr, hsome, happlies⟩, hpriority, hnot⟩
    have himportant : r.important ∨ ∀ s ∈ blocks, s.dnsrewrite.isSome → s.applies domain qtype →
        ¬ s.important := by
      refine or_iff_not_imp_left.2 fun hr' s hs hsome happlies hs' => ?_
      exact hnot s hs hsome happlies (Or.inl ⟨hs', hr'⟩)
    refine ⟨mem_rewrites_iff.2 ⟨⟨hr, hsome, happlies⟩, himportant⟩, fun s hs => ?_⟩
    obtain ⟨⟨hs, hsome', happlies'⟩, hs'⟩ := mem_rewrites_iff.1 hs
    by_contra hne
    have hlt : s.priority < r.priority := by
      have := s.priority_le
      omega
    refine hnot s hs hsome' happlies' (Or.inr ⟨?_, hlt⟩)
    rcases himportant with hi | hi
    · rcases hs' with hs' | hs'
      · exact hs'.trans hi.symm
      · exact absurd hi (hs' r hr hsome happlies)
    · have hr' := hi r hr hsome happlies
      have hs' := hi s hs hsome' happlies'
      rw [Bool.not_eq_true] at hr' hs'
      exact hs'.trans hr'.symm

theorem chosenRewrites_cases (blocks : List RefRule) :
    (∃ s, chosenRewrites domain qtype blocks = [s]) ∨
      (chosenRewrites domain qtype blocks = rewrites domain qtype blocks ∧
        ∀ s ∈ rewrites domain qtype blocks, s.priority = 2) := by
  unfold chosenRewrites
  dsimp only
  generalize rewrites domain qtype blocks = found
  cases hrcode : found.find? RefRule.isRcode with
  | some r => exact Or.inl ⟨r, rfl⟩
  | none =>
    cases hcname : found.find? RefRule.isCname with
    | some r => exact Or.inl ⟨r, rfl⟩
    | none =>
      refine Or.inr ⟨rfl, fun s hs => ?_⟩
      have h0 := List.find?_eq_none.1 hrcode s hs
      have h1 := List.find?_eq_none.1 hcname s hs
      rw [RefRule.isRcode_eq, beq_iff_eq] at h0
      rw [RefRule.isCname_eq, beq_iff_eq] at h1
      have := s.priority_le
      omega

theorem chosenRewrites_of_records {blocks : List RefRule}
    (h : ∀ s ∈ rewrites domain qtype blocks, s.priority = 2) :
    chosenRewrites domain qtype blocks = rewrites domain qtype blocks := by
  have hrcode : (rewrites domain qtype blocks).find? RefRule.isRcode = none :=
    List.find?_eq_none.2 fun s hs => by rw [RefRule.isRcode_eq, h s hs]; decide
  have hcname : (rewrites domain qtype blocks).find? RefRule.isCname = none :=
    List.find?_eq_none.2 fun s hs => by rw [RefRule.isCname_eq, h s hs]; decide
  unfold chosenRewrites
  dsimp only
  rw [hrcode, hcname]

theorem rewrites_sublist {blocks l : List RefRule} (h : l.Sublist blocks)
    (hl : ∀ r ∈ l, r ∈ rewrites domain qtype blocks) :
    l.Sublist (rewrites domain qtype blocks) := by
  have hfound : l.Sublist
      (blocks.filter fun r => r.dnsrewrite.isSome && r.applies domain qtype) := by
    have hfilter := h.filter fun r => r.dnsrewrite.isSome && r.applies domain qtype
    rwa [List.filter_eq_self.2 fun r hr => by
      obtain ⟨⟨-, hsome, happlies⟩, -⟩ := mem_rewrites_iff.1 (hl r hr)
      rw [hsome, happlies]
      rfl] at hfilter
  unfold rewrites at hl ⊢
  dsimp only at hl ⊢
  split_ifs at hl ⊢ with hany
  · have hfilter := hfound.filter RefRule.important
    rwa [List.filter_eq_self.2 fun r hr => (List.mem_filter.1 (hl r hr)).2] at hfilter
  · exact hfound

theorem rewrites_sublist_self (blocks : List RefRule) :
    (rewrites domain qtype blocks).Sublist blocks := by
  unfold rewrites
  dsimp only
  split_ifs
  · exact List.filter_sublist.trans List.filter_sublist
  · exact List.filter_sublist

/-! ## Repeated rewrites -/

theorem RefRule.Outranks.congr {s s' r r' : RefRule} (h : s.Outranks r)
    (hs : s.identity = s'.identity) (hr : r.identity = r'.identity) : s'.Outranks r' := by
  obtain ⟨his, hds, -⟩ := RefRule.eq_of_identity [] 0 hs
  obtain ⟨hir, hdr, -⟩ := RefRule.eq_of_identity [] 0 hr
  unfold Outranks priority at h ⊢
  rwa [his, hds, hir, hdr] at h

/-- A custom rule with the name, the conditions and the answer (an address or a
    record) of a shared one, for which no rule that answers the query outranks them. -/
structure RepeatedRewrite (shared custom : List RefRule) (domain : Text) (qtype : UInt16)
    (r c : RefRule) : Prop where
  mem_shared : r ∈ shared
  mem_custom : c ∈ custom
  block : c.isAllow = false
  same : r.identity = c.identity
  answers : r.Answers domain qtype
  priority : r.priority = 2
  decides : ∀ s ∈ shared ++ custom, s.Answers domain qtype → ¬ s.Outranks r

end

section
variable (jsonString : Text → Option Text) (remote custom : Text)

theorem mem_layeredCandidates {domain : Text} {r : RefRule}
    (h : r ∈ layeredCandidates jsonString remote custom false domain) :
    r ∈ refRules jsonString remote ++ customRefRules jsonString remote custom ∧
      ∃ place ∈ places domain, r.isAt false place := by
  obtain ⟨place, hplace, hr⟩ := List.mem_flatMap.1 h
  refine ⟨?_, place, hplace, isAt_of_mem_layeredAt jsonString remote custom place r hr⟩
  rcases List.mem_append.1 hr with hr | hr
  · exact List.mem_append_left _ (List.mem_filter.1 (mem_of_mem_firstOf hr)).1
  · exact List.mem_append_right _ (List.mem_filter.1 (mem_of_mem_firstOf hr)).1

theorem identity_eq_of_semantics {a b : RefRule} {place : Bool × Text} (ha : a.isAt false place)
    (hb : b.isAt false place) (h : a.semantics = b.semantics) : a.identity = b.identity := by
  obtain ⟨-, hexact, hdomain⟩ := (RefRule.isAt_iff _ _ _).1 ha
  obtain ⟨-, hexact', hdomain'⟩ := (RefRule.isAt_iff _ _ _).1 hb
  rw [hexact, Bool.not_inj_iff] at hexact'
  simp only [RefRule.identity, h, hexact', ← hdomain, ← hdomain']

theorem exists_kept {rules : List RefRule} {r : RefRule} {place : Bool × Text} (h : r ∈ rules)
    (hat : r.isAt false place) :
    ∃ r' ∈ firstOf RefRule.semantics (rules.filter fun r => r.isAt false place),
      r'.identity = r.identity := by
  obtain ⟨r', hr', hsem⟩ := exists_mem_firstOf (f := RefRule.semantics)
    (List.mem_filter.2 ⟨h, hat⟩ : r ∈ rules.filter fun r => r.isAt false place)
  exact ⟨r', hr', identity_eq_of_semantics (List.mem_filter.1 (mem_of_mem_firstOf hr')).2 hat hsem⟩

theorem exists_layeredCandidate {domain : Text} {r : RefRule}
    (h : r ∈ refRules jsonString remote ++ customRefRules jsonString remote custom)
    (hat : ∃ place ∈ places domain, r.isAt false place) :
    ∃ r' ∈ layeredCandidates jsonString remote custom false domain, r'.identity = r.identity := by
  obtain ⟨place, hplace, hat⟩ := hat
  rcases List.mem_append.1 h with h | h
  · obtain ⟨r', hr', hid⟩ := exists_kept h hat
    exact ⟨r', List.mem_flatMap.2 ⟨place, hplace, List.mem_append_left _ hr'⟩, hid⟩
  · obtain ⟨r', hr', hid⟩ := exists_kept h hat
    exact ⟨r', List.mem_flatMap.2 ⟨place, hplace, List.mem_append_right _ hr'⟩, hid⟩

theorem layeredCandidates_pairwise (domain : Text) :
    (layeredCandidates jsonString remote custom false domain).Pairwise fun a b =>
      a.identity = b.identity →
        a ∈ refRules jsonString remote ∧ b ∈ customRefRules jsonString remote custom := by
  refine List.pairwise_flatMap.2 ⟨fun place _ => ?_, ?_⟩
  · have hsem : ∀ {a b : RefRule}, a.identity = b.identity → a.semantics = b.semantics :=
      fun h => (Prod.mk.inj (Prod.mk.inj h).2).2
    refine List.pairwise_append.2 ⟨?_, ?_, fun a ha b hb _ => ?_⟩
    · refine (pairwise_firstOf RefRule.semantics _).imp ?_
      exact fun hne h => absurd (hsem h) hne
    · refine (pairwise_firstOf RefRule.semantics _).imp ?_
      exact fun hne h => absurd (hsem h) hne
    · exact ⟨(List.mem_filter.1 (mem_of_mem_firstOf ha)).1,
        (List.mem_filter.1 (mem_of_mem_firstOf hb)).1⟩
  · refine (places_nodup domain).imp fun hne a ha b hb hid => absurd ?_ hne
    obtain ⟨-, hexact, hdomain⟩ := (RefRule.isAt_iff _ _ _).1
      (isAt_of_mem_layeredAt jsonString remote custom _ a ha)
    obtain ⟨-, hexact', hdomain'⟩ := (RefRule.isAt_iff _ _ _).1
      (isAt_of_mem_layeredAt jsonString remote custom _ b hb)
    simp only [RefRule.identity, Prod.mk.injEq] at hid
    exact Prod.ext (by rw [hexact, hexact', hid.1]) (by rw [hdomain, hdomain', hid.2.1])

theorem repeated_sublist {domain : Text} {qtype : UInt16} {r c : RefRule}
    (h : RepeatedRewrite (refRules jsonString remote) (customRefRules jsonString remote custom)
      domain qtype r c) :
    ∃ r' c', [r', c'].Sublist (layeredCandidates jsonString remote custom false domain) ∧
      r'.identity = r.identity ∧ c'.identity = r.identity := by
  obtain ⟨place, hplace, hat⟩ := h.answers.isAt
  have hatc : c.isAt false place := by
    have hsame := h.same
    simp only [RefRule.identity, Prod.mk.injEq] at hsame
    obtain ⟨-, hexact, hdomain⟩ := (RefRule.isAt_iff _ _ _).1 hat
    exact (RefRule.isAt_iff _ _ _).2
      ⟨h.block, hexact.trans (by rw [hsame.1]), hdomain.trans hsame.2.1⟩
  obtain ⟨r', hr', hid⟩ := exists_kept h.mem_shared hat
  obtain ⟨c', hc', hid'⟩ := exists_kept h.mem_custom hatc
  have hsub : [r', c'].Sublist (layeredAt jsonString remote custom false place) :=
    (List.singleton_sublist.2 hr').append (List.singleton_sublist.2 hc')
  obtain ⟨before, after, hplaces⟩ := List.append_of_mem hplace
  refine ⟨r', c', ?_, hid, hid'.trans h.same.symm⟩
  rw [layeredCandidates, hplaces, List.flatMap_append, List.flatMap_cons]
  exact (hsub.trans (List.sublist_append_left _ _)).trans (List.sublist_append_right _ _)

/-- **The texts differ for a query** if and only if a custom rule that decides repeats a
    shared one. -/
theorem linesText_eq_rewriteText_chosen (domain : Text) (qtype : UInt16) :
    linesText (chosenRewrites domain qtype
        (layeredCandidates jsonString remote custom false domain)) =
      rewriteText (chosenRewrites domain qtype
        (layeredCandidates jsonString remote custom false domain)) ↔
    ¬ ∃ r c, RepeatedRewrite (refRules jsonString remote)
      (customRefRules jsonString remote custom) domain qtype r c := by
  rw [linesText_eq_rewriteText_iff]
  constructor
  · rintro hpair ⟨r, c, h⟩
    obtain ⟨r', c', hsub, hr', hc'⟩ := repeated_sublist jsonString remote custom h
    -- a rule with the identity of `r` decides, as `r` does
    have hdecides : ∀ x ∈ layeredCandidates jsonString remote custom false domain,
        x.identity = r.identity →
        x ∈ rewrites domain qtype (layeredCandidates jsonString remote custom false domain) ∧
          ∀ s ∈ rewrites domain qtype (layeredCandidates jsonString remote custom false domain),
            s.priority = 2 := by
      intro x hx hid
      obtain ⟨-, hrewrite, happlies⟩ := RefRule.eq_of_identity domain qtype hid
      refine decides_iff.2 ⟨⟨hx, ?_, ?_⟩, ?_, fun s hs hsome hs' hout => ?_⟩
      · rw [hrewrite]; exact h.answers.rewrites
      · rw [happlies]; exact h.answers.applies
      · rw [RefRule.priority, hrewrite]; exact h.priority
      · obtain ⟨hmem, hat⟩ := mem_layeredCandidates jsonString remote custom hs
        exact h.decides s hmem ⟨hat, hsome, hs'⟩ (hout.congr rfl hid)
    have hr := hdecides r' (hsub.subset List.mem_cons_self) hr'
    have hc := hdecides c' (hsub.subset (List.mem_cons_of_mem _ List.mem_cons_self)) hc'
    rw [chosenRewrites_of_records hr.2] at hpair
    have hrc : [r', c'].Sublist
        (rewrites domain qtype (layeredCandidates jsonString remote custom false domain)) := by
      refine rewrites_sublist hsub fun x hx => ?_
      rcases List.mem_cons.1 hx with rfl | hx
      · exact hr.1
      · exact List.mem_singleton.1 hx ▸ hc.1
    have hne := (List.pairwise_cons.1 (hpair.sublist hrc)).1 c' (List.mem_singleton_self c')
    exact hne (hr'.trans hc'.symm)
  · intro hnone
    rcases @chosenRewrites_cases domain qtype
      (layeredCandidates jsonString remote custom false domain) with ⟨s, hs⟩ | ⟨heq, hall⟩
    · rw [hs]
      exact List.pairwise_singleton _ _
    · rw [heq]
      refine ((layeredCandidates_pairwise jsonString remote custom domain).sublist
        (rewrites_sublist_self _)).imp_of_mem fun {a b} ha hb hpair hid => hnone ⟨a, b, ?_⟩
      obtain ⟨hshared, hcustom⟩ := hpair hid
      obtain ⟨⟨hmem, hsome, happlies⟩, hpriority, hnot⟩ := decides_iff.1 ⟨ha, hall⟩
      obtain ⟨-, hat⟩ := mem_layeredCandidates jsonString remote custom hmem
      have hb' := (mem_rewrites_iff.1 hb).1.1
      obtain ⟨-, place, -, hatb⟩ := mem_layeredCandidates jsonString remote custom hb'
      refine ⟨hshared, hcustom, ((RefRule.isAt_iff _ _ _).1 hatb).1, hid, ⟨hat, hsome, happlies⟩,
        hpriority, fun s hs hanswers hout => ?_⟩
      obtain ⟨s', hs', hid'⟩ := exists_layeredCandidate jsonString remote custom hs hanswers.isAt
      obtain ⟨-, hrewrite, happlies'⟩ := RefRule.eq_of_identity domain qtype hid'
      refine hnot s' hs' ?_ ?_ (hout.congr hid'.symm rfl)
      · rw [hrewrite]; exact hanswers.rewrites
      · rw [happlies']; exact hanswers.applies

end

/-! ## Reports -/

/-- The same texts of rules with `$dnsrewrite`, and the same counts. -/
structure SameReport (a b : CompiledRules) : Prop where
  texts : ∀ domain qtype m m', a.blockingMatch domain qtype = some m →
    b.blockingMatch domain qtype = some m' → m.dnsrewrite.isSome → m.rule = m'.rule
  summary : a.summary = b.summary

/-- No query is answered by a custom rule that repeats a shared one. -/
def NoRepeatedRewrite (jsonString : Text → Option Text) (remote custom : Text) : Prop :=
  ∀ domain qtype, ¬ ∃ r c, RepeatedRewrite (refRules jsonString remote)
    (customRefRules jsonString remote custom) domain qtype r c

theorem verdict_dnsrewrite_none {domain : Text} {qtype : UInt16} {text : List RefRule → Text}
    {blocks allows : List RefRule} {m : BlockMatch}
    (h : verdict domain qtype text blocks allows = some m)
    (hchosen : chosenRewrites domain qtype blocks = []) : m.dnsrewrite = none := by
  unfold verdict rewriteVerdict at h
  dsimp only at h
  rw [hchosen] at h
  simp only [List.head?_nil, Option.map_none] at h
  cases hblock : firstMatch domain qtype blocks true with
  | some r =>
    rw [hblock] at h
    dsimp only at h
    split_ifs at h
    cases h
    rfl
  | none =>
    rw [hblock] at h
    dsimp only at h
    split_ifs at h
    obtain ⟨r, -, rfl⟩ := Option.map_eq_some_iff.1 h
    rfl

theorem verdict_texts_iff (domain : Text) (qtype : UInt16) (text text' : List RefRule → Text)
    (htext : text [] = text' []) (blocks allows : List RefRule) :
    (∀ m m', verdict domain qtype text blocks allows = some m →
        verdict domain qtype text' blocks allows = some m' → m.dnsrewrite.isSome →
        m.rule = m'.rule) ↔
      text (chosenRewrites domain qtype blocks) = text' (chosenRewrites domain qtype blocks) := by
  cases hchosen : chosenRewrites domain qtype blocks with
  | nil =>
    refine iff_of_true (fun m m' hm _ hsome => ?_) htext
    rw [verdict_dnsrewrite_none hm hchosen] at hsome
    cases hsome
  | cons first rest =>
    unfold verdict rewriteVerdict
    dsimp only
    rw [hchosen]
    dsimp only [List.head?_cons, Option.map_some]
    constructor
    · intro h
      exact h _ _ rfl rfl rfl
    · intro h m m' hm hm' _
      cases hm
      cases hm'
      exact h

/-- **When the layers report the same**: exactly if no blank line is counted on one side
    only, and no query is answered by a custom rule with `$dnsrewrite` that repeats a
    shared one. -/
theorem layered_report_iff (jsonString : Text → Option Text) {remote custom : Text}
    (h : Mergeable jsonString remote custom) :
    SameReport (withCustomLayer jsonString (compileRules jsonString remote) custom)
        (compileRules jsonString (buildEffectiveRules remote custom)) ↔
      SameBlankLines remote custom ∧ NoRepeatedRewrite jsonString remote custom := by
  have hsummary := summary_eq_iff jsonString h
  have hlayered := layeredRules_blockingMatch jsonString remote custom
  have hfull := fullRules_blockingMatch jsonString h
  unfold layeredRules at hsummary hlayered
  unfold fullRules at hsummary hfull
  have htexts : ∀ domain qtype,
      (∀ m m', (withCustomLayer jsonString (compileRules jsonString remote) custom).blockingMatch
          domain qtype = some m →
        (compileRules jsonString (buildEffectiveRules remote custom)).blockingMatch
          domain qtype = some m' → m.dnsrewrite.isSome → m.rule = m'.rule) ↔
      ¬ ∃ r c, RepeatedRewrite (refRules jsonString remote)
        (customRefRules jsonString remote custom) domain qtype r c := by
    intro domain qtype
    rw [hlayered domain qtype, hfull domain qtype,
      verdict_texts_iff domain qtype linesText rewriteText rfl,
      linesText_eq_rewriteText_chosen]
  constructor
  · intro hsame
    refine ⟨hsummary.1 hsame.summary, fun domain qtype => ?_⟩
    exact (htexts domain qtype).1 fun m m' => hsame.texts domain qtype m m'
  · rintro ⟨hblank, hrewrites⟩
    refine ⟨fun domain qtype => ?_, hsummary.2 hblank⟩
    exact (htexts domain qtype).2 (hrewrites domain qtype)

theorem smallRules_report_iff :
    SameReport (withCustomLayer plainJsonString (compileRules plainJsonString smallRemote)
        smallCustom)
        (compileRules plainJsonString (buildEffectiveRules smallRemote smallCustom)) ↔
      SameBlankLines smallRemote smallCustom ∧
        NoRepeatedRewrite plainJsonString smallRemote smallCustom :=
  layered_report_iff plainJsonString smallRules_mergeable

/-- Shared rules that end with a newline. -/
def repeatedRemote : Text := "||a.b^$dnsrewrite=1.2.3.4\n".toList

def repeatedCustom : Text := "||a.b^$dnsrewrite=1.2.3.4".toList

/-- A shared rule with `$dnsrewrite` that the custom rules repeat, and a newline before
    them: both the counts and the texts differ. -/
theorem repeatedRules_report_differs :
    Mergeable plainJsonString repeatedRemote repeatedCustom ∧
      ((withCustomLayer plainJsonString (compileRules plainJsonString repeatedRemote)
          repeatedCustom).blockingMatch ['a', '.', 'b'] 1).map BlockMatch.rule ≠
        ((compileRules plainJsonString
          (buildEffectiveRules repeatedRemote repeatedCustom)).blockingMatch
            ['a', '.', 'b'] 1).map BlockMatch.rule ∧
      ¬ SameReport (withCustomLayer plainJsonString (compileRules plainJsonString repeatedRemote)
          repeatedCustom)
        (compileRules plainJsonString (buildEffectiveRules repeatedRemote repeatedCustom)) := by
  refine ⟨⟨by unfold ReadsDefaultSource; decide, by decide, by decide⟩, by decide +kernel, ?_⟩
  intro h
  have hsummary : (withCustomLayer plainJsonString (compileRules plainJsonString repeatedRemote)
      repeatedCustom).summary ≠ (compileRules plainJsonString
        (buildEffectiveRules repeatedRemote repeatedCustom)).summary := by decide +kernel
  exact hsummary h.summary

end DnsBlackhole.Rules
