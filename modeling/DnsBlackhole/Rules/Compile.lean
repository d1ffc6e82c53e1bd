/-
  What compiling keeps of a text.

  Under every place there are the rules of the text for it, of those with the
  same semantics the first, with the names of their sources (`Compiled`).  One
  event keeps this (`compiled_compileEvent`), and so does a whole text
  (`compileRulesWithDisabled_found`).
-/
import DnsBlackhole.Rules.Found

namespace DnsBlackhole.Rules
open Lib

/-! ## Sources -/

/-- The table of sources begins with the default one and can be indexed by a `u16`. -/
structure SourceTable (sources : List Text) : Prop where
  first : sources[0]? = some defaultSource
  length_le : sources.length ≤ 65536

theorem nameIn_append {sources : List Text} {sourceId : UInt16} (h : sourceId.toNat < sources.length)
    (more : List Text) : nameIn (sources ++ more) sourceId = nameIn sources sourceId := by
  rw [nameIn, nameIn, List.getElem?_append_left h]

theorem toNat_ofNat_index {sources : List Text} (h : SourceTable sources) {index : ℕ}
    (hi : index < sources.length) : (UInt16.ofNat index).toNat = index := by
  have := h.length_le
  rw [UInt16.toNat_ofNat']
  exact Nat.mod_eq_of_lt (by omega)

/-- What interning a name does: the table grows at most, and the id is that of the
    name, or of the default source if the table is full. -/
theorem internSource_eq {sources : List Text} (h : SourceTable sources) (name : Text) :
    ∃ more sourceId, internSource sources name = (sources ++ more, sourceId) ∧
      SourceTable (sources ++ more) ∧ sourceId.toNat < (sources ++ more).length ∧
      sourceOf sources name = (sources ++ more, nameIn (sources ++ more) sourceId) := by
  have hpos : 0 < sources.length := (List.getElem?_eq_some_iff.1 h.first).1
  unfold internSource sourceOf
  cases hidx : sources.idxOf? name with
  | some index =>
    obtain ⟨hlt, hname, -⟩ := List.idxOf?_eq_some_iff.1 hidx
    have hmem : sources.contains name := List.contains_iff_mem.2 (hname ▸ List.getElem_mem hlt)
    refine ⟨[], .ofNat index, by rw [List.append_nil], by rwa [List.append_nil], ?_, ?_⟩
    · rwa [List.append_nil, toNat_ofNat_index h hlt]
    · rw [if_pos hmem, List.append_nil, nameIn, toNat_ofNat_index h hlt,
        List.getElem?_eq_getElem hlt, hname]
      rfl
  | none =>
    have hmem : ¬ sources.contains name := fun hc =>
      List.idxOf?_eq_none_iff.1 hidx (List.contains_iff_mem.1 hc)
    dsimp only
    rw [if_neg hmem]
    by_cases hfull : 65535 < sources.length
    · refine ⟨[], 0, ?_, ?_, ?_, ?_⟩
      · rw [if_pos hfull, List.append_nil]
      · rwa [List.append_nil]
      · rwa [List.append_nil]
      · rw [if_pos hfull, List.append_nil, nameIn]
        change _ = (sources, sources[0]?.getD defaultSource)
        rw [h.first]
        rfl
    · have htable : SourceTable (sources ++ [name]) := by
        refine ⟨?_, ?_⟩
        · rw [List.getElem?_append_left hpos, h.first]
        · rw [List.length_append, List.length_singleton]
          omega
      have hlt : sources.length < (sources ++ [name]).length := by simp
      refine ⟨[name], .ofNat sources.length, ?_, htable, ?_, ?_⟩
      · rw [if_neg hfull]
      · rwa [toNat_ofNat_index htable hlt]
      · rw [if_neg hfull, nameIn, toNat_ofNat_index htable hlt, List.getElem?_concat_length]
        rfl

/-! ## Insertion -/

theorem RefRule.isAt_iff (r : RefRule) (isAllow : Bool) (place : Bool × Text) :
    r.isAt isAllow place ↔
      r.isAllow = isAllow ∧ place.1 = !r.includeSubdomains ∧ place.2 = r.domain := by
  have hplace : (r.includeSubdomains = !place.1) ↔ place.1 = !r.includeSubdomains := by
    cases r.includeSubdomains <;> cases place.1 <;> decide
  simp only [isAt, Bool.and_eq_true, beq_iff_eq, hplace, and_assoc, eq_comm (a := r.domain)]

theorem found_insert (set : RuleSet) (sources : List Text) {rule : RuleData} {isAllow : Bool}
    (h : rule.Canonical isAllow) (sourceId : UInt16) (place : Bool × Text) :
    (set.insert rule sourceId isAllow).found sources isAllow place =
      if (RefRule.ofData isAllow (nameIn sources sourceId) rule).isAt isAllow place ∧
          ∀ r ∈ set.found sources isAllow place,
            r.semantics ≠ (RefRule.ofData isAllow (nameIn sources sourceId) rule).semantics
      then set.found sources isAllow place ++ [RefRule.ofData isAllow (nameIn sources sourceId) rule]
      else set.found sources isAllow place := by
  have hcond : ((RefRule.ofData isAllow (nameIn sources sourceId) rule).isAt isAllow place ∧
      ∀ r ∈ set.found sources isAllow place,
        r.semantics ≠ (RefRule.ofData isAllow (nameIn sources sourceId) rule).semantics) ↔
      (place.1 = !rule.includeSubdomains) ∧ place.2 = rule.domain ∧
        ∀ r ∈ set.rulesAt isAllow place.1 place.2,
          r.semantics ≠ (rule.toComplex sourceId).semantics := by
    rw [RefRule.isAt_iff, RuleSet.found, List.forall_mem_map]
    exact ⟨fun h => ⟨h.1.2.1, h.1.2.2, h.2⟩, fun h => ⟨⟨rfl, h.1, h.2.1⟩, h.2.2⟩⟩
  unfold RuleSet.found at hcond ⊢
  rw [RuleSet.rulesAt_insert set h, if_congr hcond rfl rfl]
  split_ifs with hnew
  · obtain ⟨hexact, hdomain, -⟩ := hnew
    rw [List.map_append, List.map_singleton]
    have hrule : (rule.toComplex sourceId).toRef isAllow place (nameIn sources sourceId) =
        RefRule.ofData isAllow (nameIn sources sourceId) rule := by
      simp only [ComplexRule.toRef, RefRule.ofData, RuleData.toComplex, hexact, hdomain,
        Bool.not_not]
    exact congrArg (_ ++ [·]) hrule
  · rfl

theorem found_insert_of_eq {set : RuleSet} {sources : List Text} {isAllow : Bool}
    {rules : List RefRule} {place : Bool × Text}
    (hset : set.found sources isAllow place =
      firstOf RefRule.semantics (rules.filter fun r => r.isAt isAllow place))
    {rule : RuleData} (h : rule.Canonical isAllow) (sourceId : UInt16) :
    (set.insert rule sourceId isAllow).found sources isAllow place =
      firstOf RefRule.semantics
        ((rules ++ [RefRule.ofData isAllow (nameIn sources sourceId) rule]).filter
          fun r => r.isAt isAllow place) := by
  rw [found_insert set sources h, List.filter_append]
  by_cases hat : (RefRule.ofData isAllow (nameIn sources sourceId) rule).isAt isAllow place
  · rw [List.filter_cons_of_pos hat, List.filter_nil, firstOf_concat, hset]
    have hold : (∃ a ∈ rules.filter fun r => r.isAt isAllow place,
        a.semantics = (RefRule.ofData isAllow (nameIn sources sourceId) rule).semantics) ↔
        ¬ ∀ r ∈ firstOf RefRule.semantics (rules.filter fun r => r.isAt isAllow place),
          r.semantics ≠ (RefRule.ofData isAllow (nameIn sources sourceId) rule).semantics := by
      simp only [ne_eq, not_forall, not_not, exists_prop]
      constructor
      · rintro ⟨a, ha, hsem⟩
        obtain ⟨b, hb, hab⟩ := exists_mem_firstOf (f := RefRule.semantics) ha
        exact ⟨b, hb, hab.trans hsem⟩
      · rintro ⟨a, ha, hsem⟩
        exact ⟨a, mem_of_mem_firstOf ha, hsem⟩
    rw [if_congr hold rfl rfl, ite_not, if_congr (and_iff_right hat) rfl rfl]
  · rw [List.filter_cons_of_neg hat, List.filter_nil, List.append_nil, if_neg fun hc => hat hc.1,
      hset]

/-! ## Events -/

namespace CompileState

def set (s : CompileState) (isAllow : Bool) : RuleSet := if isAllow then s.allows else s.blocks

/-- The name of the source of the lines to come. -/
def source (s : CompileState) : Text := nameIn s.sources s.sourceId

end CompileState

/-- What is kept after the rules `rules` of a text. -/
structure Compiled (s : CompileState) (rules : List RefRule) : Prop where
  found : ∀ isAllow place, (s.set isAllow).found s.sources isAllow place =
    firstOf RefRule.semantics (rules.filter fun r => r.isAt isAllow place)
  sourceIds : ∀ isAllow exact domain, ∀ r ∈ (s.set isAllow).rulesAt isAllow exact domain,
    r.sourceId.toNat < s.sources.length
  sourceId_lt : s.sourceId.toNat < s.sources.length
  sources : SourceTable s.sources
  rewrites : s.hasDnsrewrites = rules.any fun r => !r.isAllow && r.dnsrewrite.isSome

theorem compiled_new : Compiled newCompileState [] where
  found isAllow place := by
    obtain ⟨exact, name⟩ := place
    cases isAllow <;> cases exact <;> rfl
  sourceIds isAllow exact domain r hr := by cases isAllow <;> cases exact <;> cases hr
  sourceId_lt := by simp [newCompileState]
  sources := ⟨rfl, by simp [newCompileState]⟩
  rewrites := rfl

theorem rulesAt_insert_sourceId {set : RuleSet} {n : ℕ} {isAllow : Bool}
    (hset : ∀ exact domain, ∀ r ∈ set.rulesAt isAllow exact domain, r.sourceId.toNat < n)
    {rule : RuleData} (h : rule.Canonical isAllow) {sourceId : UInt16} (hs : sourceId.toNat < n) :
    ∀ exact domain, ∀ r ∈ (set.insert rule sourceId isAllow).rulesAt isAllow exact domain,
      r.sourceId.toNat < n := by
  intro exact domain r hr
  rw [RuleSet.rulesAt_insert set h] at hr
  split_ifs at hr
  · rcases List.mem_append.1 hr with hr | hr
    · exact hset exact domain r hr
    · cases List.mem_singleton.1 hr
      exact hs
  · exact hset exact domain r hr

theorem compiled_insert {s s' : CompileState} {rules : List RefRule} (hs : Compiled s rules)
    {rule : RuleData} {isAllow : Bool} (h : rule.Canonical isAllow)
    (hset : s'.set isAllow = (s.set isAllow).insert rule s.sourceId isAllow)
    (hother : s'.set (!isAllow) = s.set (!isAllow)) (hsources : s'.sources = s.sources)
    (hid : s'.sourceId = s.sourceId)
    (hflag : s'.hasDnsrewrites = (s.hasDnsrewrites || !isAllow && rule.dnsrewrite.isSome)) :
    Compiled s' (rules ++ [RefRule.ofData isAllow s.source rule]) where
  found a place := by
    rw [hsources]
    by_cases ha : a = isAllow
    · rw [ha, hset]
      exact found_insert_of_eq (hs.found isAllow place) h s.sourceId
    · have hnot : ¬ (RefRule.ofData isAllow s.source rule).isAt a place := fun hat =>
        ha (((RefRule.isAt_iff _ _ _).1 hat).1).symm
      rw [Bool.eq_not.2 ha, hother, ← Bool.eq_not.2 ha, hs.found, List.filter_append,
        List.filter_cons_of_neg hnot, List.filter_nil, List.append_nil]
  sourceIds a := by
    rw [hsources]
    by_cases ha : a = isAllow
    · rw [ha, hset]
      exact rulesAt_insert_sourceId (hs.sourceIds isAllow) h hs.sourceId_lt
    · rw [Bool.eq_not.2 ha, hother]
      exact hs.sourceIds (!isAllow)
  sourceId_lt := by rw [hsources, hid]; exact hs.sourceId_lt
  sources := hsources ▸ hs.sources
  rewrites := by rw [hflag, hs.rewrites, List.any_append]; simp [RefRule.ofData]

theorem compiled_source {s s' : CompileState} {rules : List RefRule} (hs : Compiled s rules)
    {more : List Text} (hsources : s'.sources = s.sources ++ more)
    (htable : SourceTable s'.sources) (hid : s'.sourceId.toNat < s'.sources.length)
    (hset : ∀ isAllow, s'.set isAllow = s.set isAllow)
    (hflag : s'.hasDnsrewrites = s.hasDnsrewrites) : Compiled s' rules where
  found isAllow place := by
    rw [hset, ← hs.found, RuleSet.found, RuleSet.found, hsources]
    refine List.map_congr_left fun r hr => ?_
    rw [nameIn_append (hs.sourceIds isAllow place.1 place.2 r hr)]
  sourceIds isAllow exact domain r hr := by
    rw [hset] at hr
    rw [hsources, List.length_append]
    exact Nat.lt_add_right _ (hs.sourceIds isAllow exact domain r hr)
  sourceId_lt := hid
  sources := htable
  rewrites := hflag.trans hs.rewrites

/-- What a scanned event says comes from a line. -/
def ScanEvent.FromLine : ScanEvent → Prop
  | .source _ => True
  | .rule parsed => ∃ line, parsed.FromLine line

/-- **One event**: the rule that it adds to the text is added to what is kept. -/
theorem compiled_compileEvent {s : CompileState} {rules : List RefRule} (hs : Compiled s rules)
    {e : ScanEvent} (he : e.FromLine) (es : List ScanEvent) :
    ∃ more, Compiled (compileEvent s e) (rules ++ more) ∧
      rulesOfEvents s.sources s.source (e :: es) =
        more ++ rulesOfEvents (compileEvent s e).sources (compileEvent s e).source es := by
  cases e with
  | source name =>
    obtain ⟨more, sourceId, hintern, htable, hlt, hof⟩ := internSource_eq hs.sources name
    have hsources : (compileEvent s (.source name)).sources = s.sources ++ more := by
      rw [compileEvent, hintern]
    have hid : (compileEvent s (.source name)).sourceId = sourceId := by rw [compileEvent, hintern]
    refine ⟨[], ?_, ?_⟩
    · rw [List.append_nil]
      refine compiled_source hs hsources (hsources ▸ htable) ?_ (fun _ => rfl) rfl
      rw [hid, hsources]
      exact hlt
    · rw [rulesOfEvents, hof, CompileState.source, hsources, hid, List.nil_append]
  | rule parsed =>
    obtain ⟨line, hline⟩ := he
    cases parsed with
    | block rule =>
      refine ⟨[RefRule.ofData false s.source rule], ?_, rfl⟩
      exact compiled_insert hs hline.1 rfl rfl rfl rfl (by simp [compileEvent])
    | allow rule =>
      refine ⟨[RefRule.ofData true s.source rule], ?_, rfl⟩
      exact compiled_insert hs hline.1 rfl rfl rfl rfl (by simp [compileEvent])
    | ignored reason =>
      refine ⟨[], ?_, rfl⟩
      rw [List.append_nil]
      exact compiled_source hs (List.append_nil _).symm hs.sources hs.sourceId_lt (fun _ => rfl) rfl
    | disable =>
      refine ⟨[], ?_, rfl⟩
      rw [List.append_nil]
      exact compiled_source hs (List.append_nil _).symm hs.sources hs.sourceId_lt (fun _ => rfl) rfl

theorem compiled_foldl {es : List ScanEvent} (hes : ∀ e ∈ es, e.FromLine) :
    ∀ {s : CompileState} {rules : List RefRule}, Compiled s rules →
      Compiled (es.foldl compileEvent s) (rules ++ rulesOfEvents s.sources s.source es) := by
  induction es with
  | nil =>
    intro s rules hs
    rw [rulesOfEvents, List.append_nil]
    exact hs
  | cons e es ih =>
    intro s rules hs
    obtain ⟨more, hmore, heq⟩ := compiled_compileEvent hs (hes e List.mem_cons_self) es
    rw [heq, ← List.append_assoc]
    exact ih (fun e' he' => hes e' (List.mem_cons_of_mem _ he')) hmore

/-! ## Texts -/

section
variable (jsonString : Text → Option Text) (raw : Text) (extraDisabled : List Text)

/-- The rules of a text, less those that are disabled from elsewhere too. -/
def refRulesWithDisabled : List RefRule :=
  rulesOfEvents [defaultSource] defaultSource (scanRulesWithDisabled jsonString raw extraDisabled)

theorem fromLine_of_mem_scan :
    ∀ e ∈ scanRulesWithDisabled jsonString raw extraDisabled, e.FromLine := by
  intro e he
  obtain ⟨line, -, he⟩ := List.mem_flatMap.1 he
  cases e with
  | source name => trivial
  | rule parsed => exact ⟨line.trim, fromLine_of_mem_scanLine he⟩

theorem compiled_scan :
    Compiled ((scanRulesWithDisabled jsonString raw extraDisabled).foldl compileEvent
      newCompileState) (refRulesWithDisabled jsonString raw extraDisabled) :=
  compiled_foldl (fromLine_of_mem_scan jsonString raw extraDisabled) compiled_new

/-- **What compiling keeps**: under each place the rules of the text for it, of those
    with the same semantics the first. -/
theorem compileRulesWithDisabled_found (isAllow : Bool) (place : Bool × Text) :
    (compileRulesWithDisabled jsonString raw extraDisabled).found isAllow place =
      firstOf RefRule.semantics ((refRulesWithDisabled jsonString raw extraDisabled).filter
        fun r => r.isAt isAllow place) := by
  rw [← (compiled_scan jsonString raw extraDisabled).found]
  cases isAllow <;> rfl

theorem compileRulesWithDisabled_flagged :
    (compileRulesWithDisabled jsonString raw extraDisabled).Flagged := by
  intro hflag place r hr
  have hnone := (compiled_scan jsonString raw extraDisabled).rewrites.symm.trans hflag
  rw [compileRulesWithDisabled_found] at hr
  obtain ⟨hmem, hat⟩ := List.mem_filter.1 (mem_of_mem_firstOf hr)
  have hr := List.any_eq_false.1 hnone r hmem
  rw [((RefRule.isAt_iff _ _ _).1 hat).1] at hr
  simpa using hr

end

end DnsBlackhole.Rules
