/-
  Matching in layers, as a verdict on a list.

  The rules that an index keeps under a place (`RuleSet.found`), layer by layer
  and place by place (`layerCandidates`), are what the lookups go through: they
  give the verdict of the reference on that list
  (`blockingMatchLayers_eq_verdict`).
-/
import DnsBlackhole.Rules.Reference

namespace DnsBlackhole.Rules
open Lib

/-- A rule that is kept under a place, in full. -/
def ComplexRule.toRef (rule : ComplexRule) (isAllow : Bool) (place : Bool × Text) (source : Text) :
    RefRule where
  isAllow := isAllow
  includeSubdomains := !place.1
  domain := place.2
  raw := rule.raw
  source := source
  ruleType := rule.ruleType
  important := rule.important
  queryTypes := rule.queryTypes
  denyallow := rule.denyallow
  dnsrewrite := rule.dnsrewrite

def nameIn (sources : List Text) (sourceId : UInt16) : Text :=
  sources[sourceId.toNat]?.getD defaultSource

/-- The rules under a place. -/
def RuleSet.found (set : RuleSet) (sources : List Text) (isAllow : Bool) (place : Bool × Text) :
    List RefRule :=
  (set.rulesAt isAllow place.1 place.2).map fun rule =>
    rule.toRef isAllow place (nameIn sources rule.sourceId)

def CompiledRules.found (rules : CompiledRules) (isAllow : Bool) (place : Bool × Text) :
    List RefRule :=
  (if isAllow then rules.allows else rules.blocks).found rules.sources isAllow place

/-- The rules for a domain, place by place and in a place layer by layer. -/
def layerCandidates (layers : List CompiledRules) (isAllow : Bool) (domain : Text) : List RefRule :=
  (places domain).flatMap fun place => layers.flatMap fun layer => layer.found isAllow place

/-- The flag is set if there is a rule with `$dnsrewrite`. -/
def CompiledRules.Flagged (rules : CompiledRules) : Prop :=
  rules.hasDnsrewrites = false → ∀ place, ∀ r ∈ rules.found false place, r.dnsrewrite = none

def RefRule.candidate (r : RefRule) : RuleCandidate := ⟨r.raw, r.source, r.ruleType, r.dnsrewrite⟩

/-! ## The first match -/

section
variable (domain : Text) (qtype : UInt16)

theorem firstMatch_flatMap {α : Type*} (f : α → List RefRule) (l : List α) (important : Bool) :
    firstMatch domain qtype (l.flatMap f) important =
      l.findSome? fun a => firstMatch domain qtype (f a) important :=
  List.find?_flatMap

theorem lookupEntry_eq (set : RuleSet) (sources : List Text) (key : Text)
    (important allow exact : Bool) :
    (lookupEntry (set.entries exact) key domain qtype important).map
        (fun m => RuleCandidate.mk (m.rawText allow) (nameIn sources m.sourceId) m.ruleType
          m.dnsrewrite) =
      (firstMatch domain qtype (set.found sources allow (exact, key)) important).map
        RefRule.candidate := by
  unfold lookupEntry firstMatch RuleSet.found RuleSet.rulesAt
  rw [List.find?_map]
  cases (set.entries exact).lookup key with
  | none => rfl
  | some entry =>
    cases entry with
    | simple rule => cases important <;> rfl
    | complex rules =>
      have hmatch : ∀ rule : ComplexRule,
          (rule.dnsrewrite.isNone && rule.matches domain qtype important) =
            (rule.dnsrewrite.isNone && rule.important == important &&
              (rule.queryTypes.contains qtype &&
                !rule.denyallow.any fun excluded => domainMatches domain excluded)) := fun rule => by
        simp only [ComplexRule.matches, Bool.and_assoc]
      simp only [Option.bind_some, Option.map_map, Option.elim_some, RuleEntry.rules, hmatch]
      rfl

theorem lookupLayers_eq (layers : List CompiledRules) (name : Text)
    (important allow exact : Bool) :
    lookupLayers layers name domain qtype important allow exact =
      (firstMatch domain qtype (layers.flatMap fun layer => layer.found allow (exact, name))
        important).map RefRule.candidate := by
  rw [firstMatch_flatMap, List.map_findSome?, lookupLayers]
  exact congrArg (fun f => layers.findSome? f) (funext fun layer =>
    lookupEntry_eq domain qtype _ layer.sources name important allow exact)

theorem findLayeredMatch_eq (layers : List CompiledRules) (important allow : Bool) :
    findLayeredMatch layers domain qtype important allow =
      (firstMatch domain qtype (layerCandidates layers allow domain) important).map
        RefRule.candidate := by
  have hplaces : (firstMatch domain qtype (layerCandidates layers allow domain) important).map
      RefRule.candidate = (places domain).findSome? fun place =>
        lookupLayers layers place.2 domain qtype important allow place.1 := by
    rw [layerCandidates, firstMatch_flatMap, List.map_findSome?]
    exact congrArg (fun f => (places domain).findSome? f) (funext fun place =>
      (lookupLayers_eq domain qtype layers place.2 important allow place.1).symm)
  rw [hplaces, places, List.map_cons, List.findSome?_cons, List.findSome?_cons,
    List.findSome?_map, findLayeredMatch]
  dsimp only
  cases lookupLayers layers domain domain qtype important allow true with
  | some found => rfl
  | none => cases lookupLayers layers domain domain qtype important allow false <;> rfl

/-! ## The rules with rewrites -/

theorem length_lt_of_mem_parents {t d : Text} (h : t ∈ parents d) : t.length < d.length := by
  induction d with
  | nil => cases h
  | cons c d ih =>
    rw [parents] at h
    split_ifs at h
    · rcases List.mem_cons.1 h with rfl | h
      · simp
      · exact (ih h).trans (by simp)
    · exact (ih h).trans (by simp)

/-- A rule that matches, where it was found. -/
structure FoundRewrite where
  layer : CompiledRules
  place : Bool × Text
  rule : ComplexRule

def FoundRewrite.ref (m : FoundRewrite) : RefRule :=
  m.rule.toRef false m.place (m.layer.sourceName m.rule.sourceId)

def FoundRewrite.pair (m : FoundRewrite) : CompiledRules × ComplexRule := (m.layer, m.rule)

/-- The rules with `$dnsrewrite` that match in a place of a layer. -/
def foundRewritesAt (place : Bool × Text) (layer : CompiledRules) : List FoundRewrite :=
  ((layer.blocks.rulesAt false place.1 place.2).filter fun rule =>
    rule.dnsrewrite.isSome && rule.matches domain qtype rule.important).map fun rule =>
      ⟨layer, place, rule⟩

def foundRewrites (layers : List CompiledRules) : List FoundRewrite :=
  (places domain).flatMap fun place => layers.flatMap (foundRewritesAt domain qtype place)

theorem foundRewritesAt_ref (place : Bool × Text) (layer : CompiledRules) :
    (foundRewritesAt domain qtype place layer).map FoundRewrite.ref =
      (layer.found false place).filter fun r => r.dnsrewrite.isSome && r.applies domain qtype := by
  simp only [foundRewritesAt, CompiledRules.found, RuleSet.found, List.map_map, List.filter_map]
  have hmatch : ∀ rule : ComplexRule,
      rule.matches domain qtype rule.important =
        (rule.queryTypes.contains qtype &&
          !rule.denyallow.any fun excluded => domainMatches domain excluded) := fun rule => by
    simp [ComplexRule.matches]
  simp only [hmatch]
  rfl

theorem foundRewritesAt_of_flagged {layer : CompiledRules} (h : layer.Flagged)
    (hflag : layer.hasDnsrewrites = false) (place : Bool × Text) :
    foundRewritesAt domain qtype place layer = [] := by
  have hnone : (foundRewritesAt domain qtype place layer).map FoundRewrite.ref = [] := by
    rw [foundRewritesAt_ref, List.filter_eq_nil_iff]
    intro r hr
    simp [h hflag place r hr]
  exact List.map_eq_nil_iff.1 hnone

theorem rewritesAt_eq (place : Bool × Text) (layer : CompiledRules) :
    rewritesAt layer place.2 domain qtype place.1 =
      (foundRewritesAt domain qtype place layer).map FoundRewrite.pair := by
  unfold rewritesAt foundRewritesAt RuleSet.rulesAt
  rw [List.map_map]
  cases (layer.blocks.entries place.1).lookup place.2 with
  | none => rfl
  | some entry => cases entry <;> rfl

theorem rewritesAt_filter {layers : List CompiledRules} (h : ∀ l ∈ layers, l.Flagged)
    (place : Bool × Text) :
    ((layers.filter CompiledRules.hasDnsrewrites).flatMap fun layer =>
        rewritesAt layer place.2 domain qtype place.1) =
      (layers.flatMap (foundRewritesAt domain qtype place)).map FoundRewrite.pair := by
  simp only [rewritesAt_eq, List.map_flatMap]
  induction layers with
  | nil => rfl
  | cons l layers ih =>
    rw [List.filter_cons, List.flatMap_cons, ← ih fun m hm => h m (List.mem_cons_of_mem _ hm)]
    cases hl : l.hasDnsrewrites with
    | true => rfl
    | false =>
      rw [foundRewritesAt_of_flagged domain qtype (h l List.mem_cons_self) hl]
      rfl

theorem collectRewrites_eq {layers : List CompiledRules} (h : ∀ l ∈ layers, l.Flagged) :
    collectRewrites layers domain qtype =
      (foundRewrites domain qtype layers).map FoundRewrite.pair := by
  have hat : ∀ (exact : Bool) (name : Text), _ := fun exact name =>
    rewritesAt_filter domain qtype h (exact, name)
  have hparents : ∀ name ∈ parents domain, name ≠ domain := fun name hname he =>
    absurd (length_lt_of_mem_parents hname) (by rw [he]; exact Nat.lt_irrefl _)
  dsimp only at hat
  simp only [collectRewrites, foundRewrites, places, List.flatMap_cons, List.flatMap_nil,
    List.map_cons, List.map_append, List.flatMap_map, ne_eq, not_true_eq_false, if_false, hat,
    Bool.false_eq_true, false_and, List.append_nil, true_and, List.append_assoc]
  rw [List.map_flatMap (l := parents domain)]
  refine congrArg (_ ++ ·) (congrArg (_ ++ ·) (List.flatMap_congr fun name hname => ?_))
  rw [if_pos (hparents name hname), List.nil_append]

/-! ## The rewrites that decide -/

/-- The elements of the best priority; of the two best priorities, the first. -/
def bestOf {α : Type*} (priority : α → ℕ) (l : List α) : List α :=
  (l.map priority).min?.elim [] fun best =>
    let l := l.filter fun a => priority a == best
    if best < 2 then l.take 1 else l

theorem take_filter {α : Type*} (p : α → Bool) (l : List α) :
    (l.filter p).take 1 = (l.find? p).toList := by
  rw [← List.head?_filter]
  cases l.filter p <;> rfl

theorem bestOf_eq {α : Type*} {priority : α → ℕ} (h : ∀ a, priority a ≤ 2) (l : List α) :
    bestOf priority l =
      match l.find? fun a => priority a == 0, l.find? fun a => priority a == 1 with
      | some a, _ => [a]
      | none, some a => [a]
      | none, none => l := by
  unfold bestOf
  cases hm : (l.map priority).min? with
  | none =>
    have hl : l = [] := by simpa using hm
    rw [hl]
    rfl
  | some best =>
    obtain ⟨hmem, hle⟩ := List.min?_eq_some_iff.1 hm
    obtain ⟨a, ha, rfl⟩ := List.mem_map.1 hmem
    have hle : ∀ b ∈ l, priority a ≤ priority b := fun b hb => hle _ (List.mem_map_of_mem hb)
    have hnone : ∀ n < priority a, l.find? (fun b => priority b == n) = none := by
      intro n hn
      refine List.find?_eq_none.2 fun b hb he => ?_
      have := hle b hb
      rw [beq_iff_eq] at he
      omega
    have hsome : ∃ b, l.find? (fun b => priority b == priority a) = some b :=
      Option.isSome_iff_exists.1 (List.find?_isSome.2 ⟨a, ha, beq_self_eq_true _⟩)
    dsimp only [Option.elim_some]
    rw [take_filter]
    have hcases : priority a = 0 ∨ priority a = 1 ∨ priority a = 2 := by have := h a; omega
    rcases hcases with h0 | h1 | h2
    · obtain ⟨b, hb⟩ := hsome
      rw [h0] at hb
      simp [h0, hb]
    · obtain ⟨b, hb⟩ := hsome
      rw [h1] at hb hnone
      simp [h1, hb, hnone 0 (by omega)]
    · rw [h2] at hnone hle
      rw [h2, hnone 0 (by omega), hnone 1 (by omega)]
      refine List.filter_eq_self.2 fun b hb => beq_iff_eq.2 ?_
      exact Nat.le_antisymm (h b) (hle b hb)

/-- The important ones if there are any, and of these the best. -/
def deciding {α : Type*} (important : α → Bool) (priority : α → ℕ) (l : List α) : List α :=
  bestOf priority (if l.any important then l.filter important else l)

theorem deciding_map {α β : Type*} (important : β → Bool) (priority : β → ℕ) (f : α → β)
    (l : List α) :
    deciding important priority (l.map f) =
      (deciding (important ∘ f) (priority ∘ f) l).map f := by
  have hbest : ∀ l : List α, bestOf priority (l.map f) = (bestOf (priority ∘ f) l).map f := by
    intro l
    unfold bestOf
    rw [List.map_map]
    cases (l.map (priority ∘ f)).min? with
    | none => rfl
    | some best =>
      simp only [Option.elim_some, List.filter_map]
      split_ifs
      · rw [List.map_take]
        rfl
      · rfl
  unfold deciding
  rw [List.any_map, List.filter_map]
  split_ifs with hany
  · exact hbest _
  · exact hbest _

def RefRule.priority (r : RefRule) : ℕ := (r.dnsrewrite.map rewritePriority).getD 2

theorem RefRule.priority_le (r : RefRule) : r.priority ≤ 2 := by
  unfold priority
  cases r.dnsrewrite with
  | none => exact le_rfl
  | some action => cases action <;> simp [rewritePriority]

theorem RefRule.isRcode_eq (r : RefRule) : r.isRcode = (r.priority == 0) := by
  unfold isRcode priority
  cases r.dnsrewrite with
  | none => rfl
  | some action => cases action <;> rfl

theorem RefRule.isCname_eq (r : RefRule) : r.isCname = (r.priority == 1) := by
  unfold isCname priority
  cases r.dnsrewrite with
  | none => rfl
  | some action => cases action <;> rfl

theorem chosenRewrites_eq (blocks : List RefRule) :
    chosenRewrites domain qtype blocks = deciding RefRule.important RefRule.priority
      (blocks.filter fun r => r.dnsrewrite.isSome && r.applies domain qtype) := by
  have hbest := bestOf_eq RefRule.priority_le (rewrites domain qtype blocks)
  simp only [← RefRule.isRcode_eq, ← RefRule.isCname_eq] at hbest
  refine Eq.trans ?_ hbest.symm
  unfold chosenRewrites
  dsimp only
  generalize rewrites domain qtype blocks = found
  cases found.find? RefRule.isRcode <;> cases found.find? RefRule.isCname <;> rfl

theorem collectActions_eq (rules : List ComplexRule) :
    collectActions rules = firstOf id (rules.filterMap ComplexRule.dnsrewrite) := by
  induction rules using List.reverseRecOn with
  | nil => rfl
  | append_singleton rules rule ih =>
    rw [collectActions, List.foldl_append, ← collectActions, ih, List.filterMap_append]
    dsimp only [List.foldl_cons, List.foldl_nil]
    cases hr : rule.dnsrewrite with
    | none => simp [hr]
    | some action =>
      simp only [List.filterMap_cons, List.filterMap_nil, hr, firstOf_concat, id, exists_eq_right]
      have hmem : action ∈ firstOf id (rules.filterMap ComplexRule.dnsrewrite) ↔
          action ∈ rules.filterMap ComplexRule.dnsrewrite := by
        refine ⟨mem_of_mem_firstOf, fun h => ?_⟩
        obtain ⟨b, hb, rfl⟩ := exists_mem_firstOf (f := id) h
        exact hb
      simp only [hmem]

/-- What the rules found say, once those that decide are picked. -/
def rewriteOf (layers : List CompiledRules) (found : List (CompiledRules × ComplexRule)) :
    Option BlockMatch :=
  found.head?.map fun (layer, first) =>
    let allow := findLayeredMatch layers domain qtype false true
    { rule := Text.join (found.map fun m => m.2.raw) ['\n']
      source := layer.sourceName first.sourceId
      ruleType := first.ruleType.asStr ++ rewriteSuffix
      importantOverrode := first.important && allow.isSome
      allowlistRule := allow.map RuleCandidate.raw
      dnsrewrite := some (mergeActions (collectActions (found.map Prod.snd))) }

theorem rewriteMatchLayers_eq (layers : List CompiledRules) :
    rewriteMatchLayers layers domain qtype =
      if !layers.any CompiledRules.hasDnsrewrites then none
      else rewriteOf domain qtype layers (deciding (fun m => m.2.important)
        (fun m => rulePriority m.2) (collectRewrites layers domain qtype)) := by
  unfold rewriteMatchLayers deciding bestOf
  dsimp only
  refine ite_congr rfl (fun _ => rfl) fun _ => ?_
  generalize (List.map (fun m : CompiledRules × ComplexRule => rulePriority m.2) _).min? = best
  cases best <;> rfl

theorem rewriteMatchLayers_eq_verdict {layers : List CompiledRules}
    (h : ∀ l ∈ layers, l.Flagged) :
    rewriteMatchLayers layers domain qtype =
      rewriteVerdict linesText (chosenRewrites domain qtype (layerCandidates layers false domain))
        (firstMatch domain qtype (layerCandidates layers true domain) false) := by
  have hrefs : (layerCandidates layers false domain).filter
      (fun r => r.dnsrewrite.isSome && r.applies domain qtype) =
      (foundRewrites domain qtype layers).map FoundRewrite.ref := by
    simp only [layerCandidates, foundRewrites, List.filter_flatMap, List.map_flatMap,
      foundRewritesAt_ref]
  rw [rewriteMatchLayers_eq, chosenRewrites_eq, hrefs, collectRewrites_eq domain qtype h,
    deciding_map, deciding_map]
  split_ifs with hany
  · have hnone : foundRewrites domain qtype layers = [] := by
      simp only [foundRewrites, List.flatMap_eq_nil_iff]
      intro place _ l hl
      refine foundRewritesAt_of_flagged domain qtype (h l hl) ?_ place
      simpa using List.any_eq_false.1 (by simpa using hany) l hl
    rw [hnone]
    rfl
  · unfold rewriteOf rewriteVerdict
    rw [findLayeredMatch_eq]
    have hdeciding : deciding ((fun m : CompiledRules × ComplexRule => m.2.important) ∘
        FoundRewrite.pair) ((fun m => rulePriority m.2) ∘ FoundRewrite.pair)
          (foundRewrites domain qtype layers) =
        deciding (RefRule.important ∘ FoundRewrite.ref) (RefRule.priority ∘ FoundRewrite.ref)
          (foundRewrites domain qtype layers) := rfl
    rw [hdeciding]
    generalize deciding _ _ (foundRewrites domain qtype layers) = found
    cases found with
    | nil => rfl
    | cons m found =>
      simp only [collectActions_eq, actionsOf, linesText, List.map_map, List.filterMap_map,
        Option.isSome_map, Option.map_map]
      rfl

/-- **Matching in layers** gives the verdict on the rules found in the places. -/
theorem blockingMatchLayers_eq_verdict {layers : List CompiledRules}
    (h : ∀ l ∈ layers, l.Flagged) :
    blockingMatchLayers layers domain qtype = verdict domain qtype linesText
      (layerCandidates layers false domain) (layerCandidates layers true domain) := by
  unfold blockingMatchLayers verdict
  rw [rewriteMatchLayers_eq_verdict domain qtype h]
  simp only [findLayeredMatch_eq, Option.isSome_map, Option.map_map]
  have hblock : ∀ important r, firstMatch domain qtype (layerCandidates layers false domain)
      important = some r → r.dnsrewrite = none := by
    intro important r hr
    unfold firstMatch at hr
    have hpred := List.find?_some hr
    simp only [Bool.and_eq_true, Option.isNone_iff_eq_none] at hpred
    exact hpred.1.1
  generalize rewriteVerdict _ _ _ = rewrite
  cases rewrite with
  | some rewrite => rfl
  | none =>
    dsimp only
    refine ite_congr rfl (fun _ => rfl) fun _ => ?_
    cases hi : firstMatch domain qtype (layerCandidates layers false domain) true with
    | some r =>
      simp only [Option.map_some, buildBlockMatch, RefRule.blockMatch, RefRule.candidate,
        hblock true r hi, Option.map_map]
      rfl
    | none =>
      refine ite_congr rfl (fun _ => rfl) fun _ => ?_
      cases ho : firstMatch domain qtype (layerCandidates layers false domain) false with
      | none => rfl
      | some r =>
        simp only [Option.map_some, buildBlockMatch, RefRule.blockMatch, RefRule.candidate,
          hblock false r ho, Function.comp_apply]
        rfl

end

end DnsBlackhole.Rules
