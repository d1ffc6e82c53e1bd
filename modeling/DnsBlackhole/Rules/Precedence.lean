/-
  Matching is the linear reference.

  Of rules with the same identity only the first can be found, so the verdict on
  the rules that are kept is that on all of them (`verdict_firstOf`), and
  matching with a compiled text is the reference on the rules of the text
  (`blockingMatch_eq_reference`).
-/
import DnsBlackhole.Rules.Compile

namespace DnsBlackhole.Rules
open Lib

/-! ## Rules with the same identity -/

section
variable (domain : Text) (qtype : UInt16)

theorem RefRule.eq_of_identity {a b : RefRule} (h : a.identity = b.identity) :
    a.important = b.important ∧ a.dnsrewrite = b.dnsrewrite ∧
      a.applies domain qtype = b.applies domain qtype := by
  simp only [identity, semantics, Prod.mk.injEq, Semantics.mk.injEq] at h
  obtain ⟨-, -, himportant, htypes, hdenyallow, hrewrite⟩ := h
  exact ⟨himportant, hrewrite, by rw [applies, applies, htypes, hdenyallow]⟩

theorem firstMatch_firstOf (l : List RefRule) (important : Bool) :
    firstMatch domain qtype (firstOf RefRule.identity l) important =
      firstMatch domain qtype l important :=
  find?_firstOf (fun a b h => by
    obtain ⟨himportant, hrewrite, happlies⟩ := RefRule.eq_of_identity domain qtype h
    rw [himportant, hrewrite, happlies]) l

theorem rewrites_firstOf (l : List RefRule) :
    rewrites domain qtype (firstOf RefRule.identity l) =
      firstOf RefRule.identity (rewrites domain qtype l) := by
  have himportant : ∀ a b : RefRule, a.identity = b.identity → a.important = b.important :=
    fun a b h => (RefRule.eq_of_identity domain qtype h).1
  have hfound : ∀ a b : RefRule, a.identity = b.identity →
      (a.dnsrewrite.isSome && a.applies domain qtype) =
        (b.dnsrewrite.isSome && b.applies domain qtype) := fun a b h => by
    obtain ⟨-, hrewrite, happlies⟩ := RefRule.eq_of_identity domain qtype h
    rw [hrewrite, happlies]
  unfold rewrites
  dsimp only
  rw [filter_firstOf hfound, any_firstOf himportant, filter_firstOf himportant]
  split_ifs <;> rfl

theorem chosenRewrites_firstOf (l : List RefRule) :
    chosenRewrites domain qtype (firstOf RefRule.identity l) =
      firstOf RefRule.identity (chosenRewrites domain qtype l) := by
  have hrewrite : ∀ a b : RefRule, a.identity = b.identity → a.dnsrewrite = b.dnsrewrite :=
    fun a b h => (RefRule.eq_of_identity domain qtype h).2.1
  have hrcode : ∀ a b : RefRule, a.identity = b.identity → a.isRcode = b.isRcode :=
    fun a b h => by rw [RefRule.isRcode, RefRule.isRcode, hrewrite a b h]
  have hcname : ∀ a b : RefRule, a.identity = b.identity → a.isCname = b.isCname :=
    fun a b h => by rw [RefRule.isCname, RefRule.isCname, hrewrite a b h]
  unfold chosenRewrites
  dsimp only
  rw [rewrites_firstOf, find?_firstOf hrcode, find?_firstOf hcname]
  generalize rewrites domain qtype l = found
  cases found.find? RefRule.isRcode with
  | some r => rfl
  | none => cases found.find? RefRule.isCname <;> rfl

theorem actionsOf_firstOf (l : List RefRule) :
    actionsOf (firstOf RefRule.identity l) = actionsOf l := by
  unfold actionsOf
  rw [firstOf_filterMap, firstOf_filterMap, firstOf_firstOf fun a b h =>
    (RefRule.eq_of_identity [] 0 h).2.1]

theorem head?_firstOf {α κ : Type*} [DecidableEq κ] (f : α → κ) (l : List α) :
    (firstOf f l).head? = l.head? := by
  cases l with
  | nil => rfl
  | cons a l => rw [firstOf_cons]; rfl

/-- **Of rules with the same identity only the first counts**; all of them are only
    seen in the text of the rules with `$dnsrewrite`. -/
theorem verdict_firstOf (blocks allows : List RefRule) :
    verdict domain qtype linesText (firstOf RefRule.identity blocks)
        (firstOf RefRule.identity allows) =
      verdict domain qtype rewriteText blocks allows := by
  unfold verdict rewriteVerdict
  simp only [firstMatch_firstOf, chosenRewrites_firstOf, actionsOf_firstOf, head?_firstOf]
  rfl

/-! ## Places -/

theorem parents_nodup : (parents domain).Nodup := by
  induction domain with
  | nil => exact List.nodup_nil
  | cons c t ih =>
    rw [parents]
    split_ifs
    · refine List.nodup_cons.2 ⟨fun h => ?_, ih⟩
      exact Nat.lt_irrefl _ (length_lt_of_mem_parents h)
    · exact ih

theorem places_nodup : (places domain).Nodup := by
  have hnames : (domain :: parents domain).Nodup := by
    refine List.nodup_cons.2 ⟨fun h => ?_, parents_nodup domain⟩
    exact Nat.lt_irrefl _ (length_lt_of_mem_parents h)
  rw [places, List.nodup_cons]
  refine ⟨fun h => ?_, hnames.map fun a b h => (Prod.mk.inj h).2⟩
  obtain ⟨name, -, hname⟩ := List.mem_map.1 h
  cases hname

theorem firstOf_identity_of_isAt {l : List RefRule} {isAllow : Bool} {place : Bool × Text}
    (h : ∀ r ∈ l, r.isAt isAllow place) :
    firstOf RefRule.identity l = firstOf RefRule.semantics l := by
  refine firstOf_congr fun a ha b hb => ?_
  obtain ⟨-, hexact, hdomain⟩ := (RefRule.isAt_iff _ _ _).1 (h a ha)
  obtain ⟨-, hexact', hdomain'⟩ := (RefRule.isAt_iff _ _ _).1 (h b hb)
  rw [hexact, Bool.not_inj_iff] at hexact'
  simp only [RefRule.identity, Prod.mk.injEq, hexact', ← hdomain, ← hdomain', true_and]

theorem firstOf_identity_places (isAllow : Bool) (l : Bool × Text → List RefRule)
    (h : ∀ place, ∀ r ∈ l place, r.isAt isAllow place) :
    firstOf RefRule.identity ((places domain).flatMap l) =
      (places domain).flatMap fun place => firstOf RefRule.semantics (l place) := by
  rw [firstOf_flatMap (places_nodup domain)]
  · exact List.flatMap_congr fun place _ => firstOf_identity_of_isAt (h place)
  · intro place _ place' _ hne a ha b hb hid
    obtain ⟨-, hexact, hdomain⟩ := (RefRule.isAt_iff _ _ _).1 (h place a ha)
    obtain ⟨-, hexact', hdomain'⟩ := (RefRule.isAt_iff _ _ _).1 (h place' b hb)
    simp only [RefRule.identity, Prod.mk.injEq] at hid
    exact hne (Prod.ext (by rw [hexact, hexact', hid.1]) (by rw [hdomain, hdomain', hid.2.1]))

theorem isAt_of_mem_filter {rules : List RefRule} {isAllow : Bool} (place : Bool × Text) :
    ∀ r ∈ rules.filter fun r => r.isAt isAllow place, r.isAt isAllow place :=
  fun _ hr => (List.mem_filter.1 hr).2

end

/-! ## The reference -/

section
variable (jsonString : Text → Option Text) (text domain : Text) (qtype : UInt16)

theorem layerCandidates_compileRules (isAllow : Bool) :
    layerCandidates [compileRules jsonString text] isAllow domain =
      firstOf RefRule.identity (candidates (refRules jsonString text) isAllow domain) := by
  rw [candidates, firstOf_identity_places domain isAllow _ isAt_of_mem_filter, layerCandidates]
  refine List.flatMap_congr fun place _ => ?_
  rw [List.flatMap_singleton]
  exact compileRulesWithDisabled_found jsonString text [] isAllow place

theorem compileRules_blockingMatch :
    (compileRules jsonString text).blockingMatch domain qtype =
      reference (refRules jsonString text) domain qtype := by
  have hflagged : ∀ l ∈ [compileRules jsonString text], l.Flagged := fun l hl => by
    cases List.mem_singleton.1 hl
    exact compileRulesWithDisabled_flagged jsonString text []
  have hlayers : (compileRules jsonString text).blockingMatch domain qtype =
      blockingMatchLayers [compileRules jsonString text] domain qtype := rfl
  rw [hlayers, blockingMatchLayers_eq_verdict domain qtype hflagged,
    layerCandidates_compileRules, layerCandidates_compileRules, verdict_firstOf]
  rfl

/-- **Matching is the linear reference**, for every text, every domain and every query
    type; and the text of a rule is the line that it is from, trimmed. -/
theorem blockingMatch_eq_reference :
    (compileRules jsonString text).blockingMatch domain qtype =
        reference (refRules jsonString text) domain qtype ∧
      ∀ line disabled rule,
        ScanEvent.rule (.block rule) ∈ scanLine jsonString disabled line ∨
          ScanEvent.rule (.allow rule) ∈ scanLine jsonString disabled line →
        rule.raw = line.trim := by
  refine ⟨compileRules_blockingMatch jsonString text domain qtype, fun line disabled rule h => ?_⟩
  rcases h with h | h
  · exact (fromLine_of_mem_scanLine h).2
  · exact (fromLine_of_mem_scanLine h).2

end

end DnsBlackhole.Rules
