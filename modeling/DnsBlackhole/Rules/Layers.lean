/-
  Custom rules over shared rules (`with_custom_layer`).

  Looking the two layers up place by place gives the verdict that compiling the
  text of all rules gives, but for the text of the rules with `$dnsrewrite`
  (`layered_agrees`).
-/
import DnsBlackhole.Rules.Effective

namespace DnsBlackhole.Rules
open Lib

section
variable (jsonString : Text → Option Text) (remote custom : Text)

/-- The shared rules, with the custom rules over them. -/
def layeredRules : CompiledRules := withCustomLayer jsonString (compileRules jsonString remote) custom

/-- The text of all rules, compiled. -/
def fullRules : CompiledRules := compileRules jsonString (buildEffectiveRules remote custom)

/-- The rules of the custom text that the shared text does not disable. -/
def customRefRules : List RefRule := refRulesWithDisabled jsonString custom (disabledLines remote)

/-- The rules found under a place: first the shared, then the custom ones. -/
def layeredAt (isAllow : Bool) (place : Bool × Text) : List RefRule :=
  firstOf RefRule.semantics ((refRules jsonString remote).filter fun r => r.isAt isAllow place) ++
    firstOf RefRule.semantics
      ((customRefRules jsonString remote custom).filter fun r => r.isAt isAllow place)

def layeredCandidates (isAllow : Bool) (domain : Text) : List RefRule :=
  (places domain).flatMap (layeredAt jsonString remote custom isAllow)

theorem isAt_of_mem_layeredAt {isAllow : Bool} (place : Bool × Text) :
    ∀ r ∈ layeredAt jsonString remote custom isAllow place, r.isAt isAllow place := by
  intro r hr
  rcases List.mem_append.1 hr with hr | hr
  · exact (List.mem_filter.1 (mem_of_mem_firstOf hr)).2
  · exact (List.mem_filter.1 (mem_of_mem_firstOf hr)).2

/-! ## The two sides -/

theorem layeredRules_blockingMatch (domain : Text) (qtype : UInt16) :
    (layeredRules jsonString remote custom).blockingMatch domain qtype =
      verdict domain qtype linesText (layeredCandidates jsonString remote custom false domain)
        (layeredCandidates jsonString remote custom true domain) := by
  have hflagged : ∀ l ∈ [compileRules jsonString remote, layeredRules jsonString remote custom],
      l.Flagged := by
    intro l hl
    rcases List.mem_cons.1 hl with rfl | hl
    · exact compileRulesWithDisabled_flagged jsonString remote []
    · cases List.mem_singleton.1 hl
      exact compileRulesWithDisabled_flagged jsonString custom (disabledLines remote)
  have hcandidates : ∀ isAllow, layerCandidates
      [compileRules jsonString remote, layeredRules jsonString remote custom] isAllow domain =
        layeredCandidates jsonString remote custom isAllow domain := by
    intro isAllow
    refine List.flatMap_congr fun place _ => ?_
    rw [List.flatMap_cons, List.flatMap_singleton]
    exact congrArg₂ (· ++ ·) (compileRulesWithDisabled_found jsonString remote [] isAllow place)
      (compileRulesWithDisabled_found jsonString custom (disabledLines remote) isAllow place)
  have hlayers : (layeredRules jsonString remote custom).blockingMatch domain qtype =
      blockingMatchLayers [compileRules jsonString remote, layeredRules jsonString remote custom]
        domain qtype := rfl
  rw [hlayers, blockingMatchLayers_eq_verdict domain qtype hflagged, hcandidates, hcandidates]

variable {remote custom}

theorem firstOf_candidates (isAllow : Bool) (domain : Text) :
    firstOf RefRule.identity (candidates (refRules jsonString remote ++
        customRefRules jsonString remote custom) isAllow domain) =
      firstOf RefRule.identity (layeredCandidates jsonString remote custom isAllow domain) := by
  rw [candidates, firstOf_identity_places domain isAllow _ isAt_of_mem_filter, layeredCandidates,
    firstOf_identity_places domain isAllow _ (isAt_of_mem_layeredAt jsonString remote custom)]
  refine List.flatMap_congr fun place _ => ?_
  rw [List.filter_append, layeredAt, firstOf_append_firstOf]

theorem fullRules_blockingMatch (h : Mergeable jsonString remote custom) (domain : Text)
    (qtype : UInt16) :
    (fullRules jsonString remote custom).blockingMatch domain qtype =
      verdict domain qtype rewriteText (layeredCandidates jsonString remote custom false domain)
        (layeredCandidates jsonString remote custom true domain) := by
  have href : (fullRules jsonString remote custom).blockingMatch domain qtype =
      reference (refRules jsonString (buildEffectiveRules remote custom)) domain qtype := by
    unfold fullRules
    exact compileRules_blockingMatch jsonString _ domain qtype
  rw [href, refRules_effective jsonString h, reference, ← verdict_firstOf, ← verdict_firstOf]
  exact congrArg₂ (verdict domain qtype linesText) (firstOf_candidates jsonString false domain)
    (firstOf_candidates jsonString true domain)

end

/-! ## Agreement -/

/-- The same verdict, but for the text of rules with `$dnsrewrite`. -/
structure BlockMatch.Agrees (a b : BlockMatch) : Prop where
  source : a.source = b.source
  ruleType : a.ruleType = b.ruleType
  importantOverrode : a.importantOverrode = b.importantOverrode
  allowlistRule : a.allowlistRule = b.allowlistRule
  dnsrewrite : a.dnsrewrite = b.dnsrewrite
  rule : a.dnsrewrite = none → a.rule = b.rule

theorem BlockMatch.Agrees.refl (a : BlockMatch) : a.Agrees a :=
  ⟨rfl, rfl, rfl, rfl, rfl, fun _ => rfl⟩

theorem verdict_agrees (domain : Text) (qtype : UInt16) (text text' : List RefRule → Text)
    (blocks allows : List RefRule) :
    Option.Rel BlockMatch.Agrees (verdict domain qtype text blocks allows)
      (verdict domain qtype text' blocks allows) := by
  have hrefl : ∀ m : Option BlockMatch, Option.Rel BlockMatch.Agrees m m := fun m => by
    cases m with
    | none => exact .none
    | some m => exact .some (.refl m)
  unfold verdict rewriteVerdict
  dsimp only
  cases (chosenRewrites domain qtype blocks).head? with
  | none => exact hrefl _
  | some first => exact .some ⟨rfl, rfl, rfl, rfl, rfl, fun h => by cases h⟩

/-- **The layers agree with the whole**: for all rule texts of which the custom one
    disables nothing, and every query, both pass, or both block alike; only the
    text of rules with `$dnsrewrite` may differ. -/
theorem layered_agrees (jsonString : Text → Option Text) {remote custom : Text}
    (h : Mergeable jsonString remote custom) (domain : Text) (qtype : UInt16) :
    Option.Rel BlockMatch.Agrees
      ((withCustomLayer jsonString (compileRules jsonString remote) custom).blockingMatch
        domain qtype)
      ((compileRules jsonString (buildEffectiveRules remote custom)).blockingMatch
        domain qtype) := by
  have hlayered := layeredRules_blockingMatch jsonString remote custom domain qtype
  have hfull := fullRules_blockingMatch jsonString h domain qtype
  unfold layeredRules at hlayered
  unfold fullRules at hfull
  rw [hlayered, hfull]
  exact verdict_agrees domain qtype linesText rewriteText _ _

theorem smallRules_agree :
    Option.Rel BlockMatch.Agrees
      ((withCustomLayer plainJsonString (compileRules plainJsonString smallRemote)
        smallCustom).blockingMatch ['x', '.', 'a', '.', 'b'] 1)
      ((compileRules plainJsonString (buildEffectiveRules smallRemote smallCustom)).blockingMatch
        ['x', '.', 'a', '.', 'b'] 1) :=
  layered_agrees plainJsonString smallRules_mergeable _ _

end DnsBlackhole.Rules
