/-
  The policy that the editor shows for a client (`resolveEffectiveClientPolicy`), and the one
  that the service applies (`decision_at`).

  The editor reads the lines of the configuration again, and passes over those that are not
  written as it expects.

  * `parseClientPolicyRules_eq`: the rules of the editor are those of the plain lines;
  * `matchedRule_eq`: of the same rules, the same one decides;
  * **`resolved_policy_applied`**: the editor shows what the plain lines decide, and that is what
    the service applies unless a line that is not plain decides there.
-/
import DnsBlackhole.Form.Rules

namespace DnsBlackhole.Form
open Admin (AppConfig)
open Config (ClientFilteringRuleSpec okOr_eq_ok parseClientFilteringRule parseClientFilteringRules)
open DnsBlackhole.Filter (ClientFilteringPolicies ClientFilteringRule ClientPolicyProfile
  IpNetwork LocalTime ipParts maxByKey maxByKey_concat maxByKey_spec prefixNetwork)
open Lib (bind_eq_ok forall₂_of_mapM pure_eq_ok)
open Service (clientFilteringPolicies)

/-! ## Lines -/

/-- The lines that the service takes for rules, as they are written. -/
def ruleLines (value : Text) : List Text :=
  (value.split (· == '\n')).filter fun line => !Config.isComment line.trim

/-- Of what the lines stand for, that of the plain ones. -/
def ofPlain {α : Type} (lines : List Text) (l : List α) : List α :=
  ((lines.zip l).filter fun p => plainRule p.1).map Prod.snd

theorem map_numberedLines (value : Text) :
    (Config.numberedLines value).map Prod.fst = (ruleLines value).map Text.trim := by
  have htrim : value.lines.zipIdx.map (fun p : Text × ℕ => p.1.trim) =
      value.lines.map Text.trim := by
    rw [← List.zipIdx_map_fst 0 value.lines, List.map_map, List.zipIdx_map_fst]
    rfl
  have hpieces : (value.split (· == '\n')).map Text.trim =
      ((value.split (· == '\n')).map Text.stripReturn).map Text.trim := by
    rw [List.map_map]
    exact List.map_congr_left fun line _ => (Text.trim_stripReturn line).symm
  have hfilter (l : List Text) : (l.map Text.trim).filter (!Config.isComment ·) =
      (l.filter fun line => !Config.isComment line.trim).map Text.trim := List.filter_map
  have hnumbered : (Config.numberedLines value).map Prod.fst =
      (value.lines.map Text.trim).filter (!Config.isComment ·) := by
    rw [Config.numberedLines, ← htrim, List.filter_map, List.filter_map, List.map_map]
    rfl
  rw [hnumbered, ruleLines, ← hfilter, hpieces, Text.map_trim_split, List.map_append,
    List.filter_append]
  split_ifs
  · exact (List.append_nil _).symm
  · exact (List.append_nil _).symm

theorem forall₂_ruleLines {value : Text} {specs : List ClientFilteringRuleSpec}
    (h : parseClientFilteringRules value = .ok specs) :
    List.Forall₂ (fun line spec => ∃ index, parseClientFilteringRule index line.trim = .ok spec)
      (ruleLines value) specs := by
  have hlines : List.Forall₂ (fun line spec => ∃ index, parseClientFilteringRule index line =
      .ok spec) ((Config.numberedLines value).map Prod.fst) specs :=
    List.forall₂_map_left_iff.2 ((forall₂_of_mapM h).imp fun _ _ hline => ⟨_, hline⟩)
  rw [map_numberedLines] at hlines
  exact List.forall₂_map_left_iff.1 hlines

/-- What the editor has read of a rule of the service. -/
structure Reads (rule : ClientPolicyRule) (spec : ClientFilteringRuleSpec) : Prop where
  asSpec : rule.asSpec = some spec
  valid : Config.validateIpOrCidr spec.network
  plain : plainNetwork spec.network

theorem plainNetwork_of_plainRule {index : ℕ} {line : Text} {spec : ClientFilteringRuleSpec}
    (h : parseClientFilteringRule index line.trim = .ok spec) (hplain : plainRule line) :
    Config.validateIpOrCidr spec.network ∧ plainNetwork spec.network := by
  obtain ⟨network, policy, profile, hsplit, hnetwork, -, -, hspec⟩ := isRule_of_ok h
  have hvalue : spec.network = network.trim := congrArg ClientFilteringRuleSpec.network hspec
  rw [plainRule, Bool.and_eq_true, hsplit] at hplain
  rw [hvalue]
  exact ⟨hnetwork, ((Bool.and_eq_true _ _).mp hplain.2).1⟩

theorem parseClientPolicyRuleLine_of_ok {index : ℕ} {line : Text} {spec : ClientFilteringRuleSpec}
    (hcomment : ¬Config.isComment line.trim)
    (h : parseClientFilteringRule index line.trim = .ok spec) :
    if plainRule line then ∃ rule, parseClientPolicyRuleLine line = some rule ∧ Reads rule spec
    else parseClientPolicyRuleLine line = none := by
  by_cases hnext : nextLine ∈ line
  · have hplain : plainRule line = false := by
      rw [plainRule, decide_eq_false (not_not.2 hnext), Bool.false_and]
    rw [hplain]
    exact parseClientPolicyRuleLine_nextLine h hnext
  · have hread := parseClientPolicyRuleLine_eq hcomment h hnext
    split_ifs at hread ⊢ with hplain
    · obtain ⟨rule, hrule, hspec⟩ := hread
      obtain ⟨hvalid, hnetwork⟩ := plainNetwork_of_plainRule h hplain
      exact ⟨rule, hrule, hspec, hvalid, hnetwork⟩
    · exact hread

theorem filterMap_of_forall₂ {lines : List Text} {specs : List ClientFilteringRuleSpec}
    (hcomments : ∀ line ∈ lines, ¬Config.isComment line.trim)
    (h : List.Forall₂ (fun line spec => ∃ index, parseClientFilteringRule index line.trim =
      .ok spec) lines specs) :
    List.Forall₂ Reads (lines.filterMap parseClientPolicyRuleLine) (ofPlain lines specs) := by
  induction h with
  | nil => exact .nil
  | cons hline _ ih =>
    obtain ⟨hcomment, hcomments⟩ := List.forall_mem_cons.1 hcomments
    obtain ⟨index, hline⟩ := hline
    have hread := parseClientPolicyRuleLine_of_ok hcomment hline
    unfold ofPlain at ih ⊢
    rw [List.filterMap_cons, List.zip_cons_cons, List.filter_cons]
    dsimp only
    split_ifs at hread ⊢
    · obtain ⟨rule, hrule, hspec⟩ := hread
      rw [hrule]
      exact .cons hspec (ih hcomments)
    · rw [hread]
      exact ih hcomments

/-- **The rules of the editor** are those of the plain lines. -/
theorem parseClientPolicyRules_eq {value : Text} {specs : List ClientFilteringRuleSpec}
    (h : parseClientFilteringRules value = .ok specs) :
    List.Forall₂ Reads (parseClientPolicyRules value) (ofPlain (ruleLines value) specs) := by
  have hskipped : (value.split (· == '\n')).filterMap parseClientPolicyRuleLine =
      (ruleLines value).filterMap parseClientPolicyRuleLine := by
    rw [ruleLines, List.filterMap_filter]
    refine List.filterMap_congr fun line _ => ?_
    cases hcomment : Config.isComment line.trim with
    | true => exact parseClientPolicyRuleLine_comment hcomment
    | false => rfl
  rw [parseClientPolicyRules, hskipped]
  refine filterMap_of_forall₂ (fun line hline => ?_) (forall₂_ruleLines h)
  have hkept := (List.mem_filter.1 hline).2
  rwa [Bool.not_eq_true', ← Bool.not_eq_true] at hkept

/-! ## Rules -/

/-- What `from_config` has built of a rule. -/
structure Builds (spec : ClientFilteringRuleSpec) (built : ClientFilteringRule) : Prop where
  network : Service.parseIpNetwork spec.network "客户端过滤策略".toList = .ok built.network
  source : built.source = spec.network
  profile : built.profile.name = spec.profile
  schedule : built.schedule = spec.schedule

/-- A profile is found under its name. -/
theorem name_of_lookup : ∀ (profiles : List ClientPolicyProfile)
    {m : Lib.HashMap Text ClientPolicyProfile},
    (∀ name profile, m.lookup name = some profile → profile.name = name) →
    ∀ name profile, (profiles.foldl (fun (m : Lib.HashMap Text ClientPolicyProfile) profile =>
      m.insert profile.name profile) m).lookup name = some profile → profile.name = name
  | [], _, hm => hm
  | first :: profiles, m, hm => by
    refine name_of_lookup profiles fun name profile hlookup => ?_
    rw [Lib.HashMap.lookup_insert_eq_ite] at hlookup
    split_ifs at hlookup with hname
    · cases hlookup
      exact hname.symm
    · exact hm name profile hlookup

theorem exists_builds {config : AppConfig} {policies : ClientFilteringPolicies}
    (h : clientFilteringPolicies config = .ok policies) :
    policies.defaultProfile.name = "filter".toList ∧
      ∃ specs, parseClientFilteringRules config.clientFilteringRules = .ok specs ∧
        List.Forall₂ Builds specs policies.rules := by
  obtain ⟨groups, -, h⟩ := bind_eq_ok.1 h
  obtain ⟨services, -, h⟩ := bind_eq_ok.1 h
  obtain ⟨specs, hspecs, h⟩ := bind_eq_ok.1 h
  obtain ⟨rules, hrules, h⟩ := bind_eq_ok.1 h
  cases pure_eq_ok.1 h
  refine ⟨rfl, specs, hspecs, (forall₂_of_mapM hrules).imp fun spec built hbuilt => ?_⟩
  obtain ⟨profile, hprofile, hbuilt⟩ := bind_eq_ok.1 hbuilt
  obtain ⟨network, hnetwork, hbuilt⟩ := bind_eq_ok.1 hbuilt
  cases pure_eq_ok.1 hbuilt
  refine ⟨hnetwork, rfl, ?_, rfl⟩
  exact name_of_lookup _ (fun name profile hlookup => by cases hlookup) _ _ (okOr_eq_ok.1 hprofile)

/-- A rule of the editor applies where one of the service does, and to the same profile. -/
structure SameRule (rule : ClientPolicyRule) (built : ClientFilteringRule) : Prop where
  network : ∃ network, parseNetwork rule.network = some network ∧
    network.prefixLen = built.network.prefixLen ∧
    ∀ client, networkContains network (parsedIp client) = built.network.contains client
  source : built.source = rule.network
  profile : built.profile.name = rule.profile
  scheduled : built.schedule.isSome = rule.schedule.isSome
  active : ∀ now, (rule.schedule.any fun schedule => !scheduleIsActive schedule now) =
    !built.schedule.all fun schedule => Filter.scheduleIsActive schedule now

theorem scheduleIsActive_eq {schedule : ClientPolicySchedule} {weekdays : List Bool}
    {start finish : ℕ} (hdays : parseWeekdays schedule.days = some weekdays)
    (hstart : parseTime schedule.start = some start)
    (hfinish : parseTime schedule.finish = some finish) (now : LocalTime) :
    scheduleIsActive schedule now = Filter.scheduleIsActive ⟨weekdays, start, finish⟩ now := by
  unfold scheduleIsActive Filter.scheduleIsActive
  rw [hdays, hstart, hfinish]
  dsimp only [Option.getD_some]
  split_ifs with hsame hday hlate hearly
  · rfl
  · rfl
  · rfl
  · rw [decide_eq_true hearly, Bool.true_and]
  · rw [decide_eq_false hearly, Bool.false_and]

theorem Reads.sameRule {rule : ClientPolicyRule} {spec : ClientFilteringRuleSpec}
    {built : ClientFilteringRule} (hread : Reads rule spec) (hbuilt : Builds spec built) :
    SameRule rule built := by
  obtain ⟨address, prefixLen, hnetwork⟩ := isNetwork_of_validate hread.valid
  have hparsed := parseNetwork_eq hnetwork
  rw [if_pos hread.plain] at hparsed
  have hnet := hbuilt.network
  rw [parseIpNetwork_eq hnetwork, Except.ok.injEq] at hnet
  have hspec := hread.asSpec
  unfold ClientPolicyRule.asSpec at hspec
  have hsame (hsource : spec.network = rule.network) : ∃ network,
      parseNetwork rule.network = some network ∧ network.prefixLen = built.network.prefixLen ∧
        ∀ client, networkContains network (parsedIp client) = built.network.contains client := by
    rw [← hsource, ← hnet]
    exact ⟨_, hparsed, rfl, fun client => networkContains_eq address client prefixLen⟩
  cases hschedule : rule.schedule with
  | none =>
    rw [hschedule] at hspec
    cases hspec
    refine ⟨hsame rfl, hbuilt.source, hbuilt.profile, ?_, fun now => ?_⟩
    · rw [hbuilt.schedule, hschedule]
      rfl
    · rw [hbuilt.schedule, hschedule]
      rfl
  | some schedule =>
    rw [hschedule] at hspec
    obtain ⟨weekdays, hdays, hspec⟩ := Option.bind_eq_some_iff.1 hspec
    obtain ⟨start, hstart, hspec⟩ := Option.bind_eq_some_iff.1 hspec
    obtain ⟨finish, hfinish, hspec⟩ := Option.bind_eq_some_iff.1 hspec
    cases hspec
    refine ⟨hsame rfl, hbuilt.source, hbuilt.profile, ?_, fun now => ?_⟩
    · rw [hbuilt.schedule, hschedule]
      rfl
    · rw [hbuilt.schedule, hschedule]
      exact congrArg (!·) (scheduleIsActive_eq hdays hstart hfinish now)

/-! ## The rule that decides -/

/-- `matched` of `decision_at`. -/
def decidingRule (rules : List ClientFilteringRule) (client : IpAddr) (now : LocalTime) :
    Option ClientFilteringRule :=
  maxByKey (fun rule : ClientFilteringRule => rule.network.prefixLen)
    (rules.filter fun rule => rule.network.contains client &&
      rule.schedule.all fun schedule => Filter.scheduleIsActive schedule now)

/-- The rule that the editor has found, and its length, are those of the service. -/
def SameMatch : Option (ClientPolicyRule × ℕ) → Option ClientFilteringRule → Prop :=
  Option.Rel fun matched built => SameRule matched.1 built ∧ matched.2 = built.network.prefixLen

/-- **Of the same rules, the same one decides**: the last of those with the longest network. -/
theorem matchedRule_eq {rules : List ClientPolicyRule} {built : List ClientFilteringRule}
    (h : List.Forall₂ SameRule rules built) (client : IpAddr) (now : LocalTime) :
    SameMatch (matchedRule (parsedIp client) rules now) (decidingRule built client now) := by
  unfold matchedRule decidingRule maxByKey
  rw [List.foldl_filter]
  have hnone : SameMatch none none := .none
  -- by induction on the rules, from any two that have been found before
  revert hnone
  generalize (none : Option (ClientPolicyRule × ℕ)) = matched
  generalize (none : Option ClientFilteringRule) = best
  induction h generalizing matched best with
  | nil => exact fun hmatched => hmatched
  | @cons rule built _ _ hrule _ ih =>
    intro hmatched
    rw [List.foldl_cons, List.foldl_cons]
    refine ih _ _ ?_
    obtain ⟨network, hnetwork, hlength, hcontains⟩ := hrule.network
    rw [hnetwork]
    dsimp only
    rw [hcontains, hrule.active, ← Bool.not_and]
    cases built.network.contains client &&
        built.schedule.all fun schedule => Filter.scheduleIsActive schedule now with
    | false => exact hmatched
    | true =>
      cases hmatched with
      | none => exact .some ⟨hrule, hlength⟩
      | some hmatched =>
        obtain ⟨hbest, hbestLength⟩ := hmatched
        simp only [Bool.not_true, Bool.false_eq_true, if_false, if_true, Option.all_some,
          decide_eq_true_iff]
        rw [hbestLength, hlength]
        split_ifs
        · exact .some ⟨hrule, rfl⟩
        · exact .some ⟨hbest, hbestLength⟩

/-! ## The greatest elements of a part -/

section
variable {α β : Type} {key : α → ℕ} {items : List α}

theorem maxByKey_map (key : β → ℕ) (f : α → β) (items : List α) :
    maxByKey key (items.map f) = (maxByKey (fun a => key (f a)) items).map f := by
  unfold maxByKey
  rw [List.foldl_map, ← Option.map_none (f := f)]
  refine List.foldl_hom (Option.map f) fun best item => ?_
  cases best with
  | none => rfl
  | some best =>
    dsimp only [Option.map_some]
    split_ifs <;> rfl

/-- A part with the last of the greatest elements has the same one. -/
theorem maxByKey_filter {p : α → Bool} (h : ∀ a ∈ maxByKey key items, p a) :
    maxByKey key (items.filter p) = maxByKey key items := by
  induction items using List.reverseRecOn with
  | nil => rfl
  | append_singleton items item ih =>
    rw [maxByKey_concat] at h ⊢
    rw [List.filter_append, List.filter_singleton]
    cases hbest : maxByKey key items with
    | none =>
      have hnil := maxByKey_spec key items
      rw [hbest] at h hnil
      subst hnil
      rw [h item rfl]
      rfl
    | some best =>
      have hspec := maxByKey_spec key items
      rw [hbest] at h hspec ih
      dsimp only at h hspec ⊢
      split_ifs at h ⊢ with hitem
      · rw [h item rfl, cond_true, maxByKey_concat]
        have hpart := maxByKey_spec key (items.filter p)
        cases hfound : maxByKey key (items.filter p) with
        | none => rfl
        | some found =>
          rw [hfound] at hpart
          exact if_pos ((hspec.2 found (List.mem_filter.1 hpart.1).1).trans hitem)
      · have hsame := ih h
        cases p item with
        | false => rw [cond_false, List.append_nil, hsame]
        | true =>
          rw [cond_true, maxByKey_concat, hsame]
          exact if_neg hitem

end

/-! ## What is shown -/

/-- What the service decides, as the editor shows it. -/
def decidedPolicy (policies : ClientFilteringPolicies) (client : IpAddr) (now : LocalTime) :
    EffectiveClientPolicy where
  profile := (policies.decisionAt client now).profile
  source := (policies.decisionAt client now).source
  scheduled := (decidingRule policies.rules client now).any (·.schedule.isSome)

/-- The line whose rule decides in the service, with the rule. -/
def decidingLine (lines : List Text) (rules : List ClientFilteringRule) (client : IpAddr)
    (now : LocalTime) : Option (Text × ClientFilteringRule) :=
  maxByKey (fun p : Text × ClientFilteringRule => p.2.network.prefixLen)
    ((lines.zip rules).filter fun p => p.2.network.contains client &&
      p.2.schedule.all fun schedule => Filter.scheduleIsActive schedule now)

/-- The service with the plain lines only. -/
def plainPolicies (config : AppConfig) (policies : ClientFilteringPolicies) :
    ClientFilteringPolicies :=
  { policies with rules := ofPlain (ruleLines config.clientFilteringRules) policies.rules }

theorem forall₂_sameRule {rules : List ClientPolicyRule} {specs : List ClientFilteringRuleSpec}
    {built : List ClientFilteringRule} (hread : List.Forall₂ Reads rules specs)
    (hbuilt : List.Forall₂ Builds specs built) : List.Forall₂ SameRule rules built := by
  induction hread generalizing built with
  | nil =>
    cases hbuilt
    exact .nil
  | cons hrule _ ih =>
    cases hbuilt with
    | cons hfirst hrest => exact .cons (hrule.sameRule hfirst) (ih hrest)

theorem forall₂_ofPlain {specs : List ClientFilteringRuleSpec}
    {built : List ClientFilteringRule} (h : List.Forall₂ Builds specs built)
    (lines : List Text) :
    List.Forall₂ Builds (ofPlain lines specs) (ofPlain lines built) := by
  induction h generalizing lines with
  | nil =>
    cases lines <;> exact .nil
  | cons hfirst _ ih =>
    cases lines with
    | nil => exact .nil
    | cons line lines =>
      have hrest := ih lines
      unfold ofPlain at hrest ⊢
      rw [List.zip_cons_cons, List.zip_cons_cons, List.filter_cons, List.filter_cons]
      dsimp only
      split_ifs
      · exact .cons hfirst hrest
      · exact hrest

/-- What the editor shows of the rule that it has found. -/
def shownPolicy : Option (ClientPolicyRule × ℕ) → EffectiveClientPolicy
  | some (rule, _) => ⟨rule.profile, some rule.network, rule.schedule.isSome⟩
  | none => ⟨"filter".toList, none, false⟩

theorem decidedPolicy_eq (policies : ClientFilteringPolicies) (client : IpAddr) (now : LocalTime) :
    decidedPolicy policies client now =
      { profile := (((decidingRule policies.rules client now).map
          ClientFilteringRule.profile).getD policies.defaultProfile).name
        source := (decidingRule policies.rules client now).map ClientFilteringRule.source
        scheduled := (decidingRule policies.rules client now).any (·.schedule.isSome) } := rfl

theorem shown_of_match {matched : Option (ClientPolicyRule × ℕ)}
    {policies : ClientFilteringPolicies} {client : IpAddr} {now : LocalTime}
    (hdefault : policies.defaultProfile.name = "filter".toList)
    (h : SameMatch matched (decidingRule policies.rules client now)) :
    shownPolicy matched = decidedPolicy policies client now := by
  rw [decidedPolicy_eq]
  generalize decidingRule policies.rules client now = deciding at h ⊢
  cases h with
  | none =>
    rw [Option.map_none, Option.getD_none, hdefault]
    rfl
  | some hsame =>
    obtain ⟨hrule, -⟩ := hsame
    rw [shownPolicy, ← hrule.profile, ← hrule.source, ← hrule.scheduled]
    rfl

theorem parseIp_trim {client : Text} {address : IpAddr} (h : parseIpAddr client = some address) :
    parseIp (trim client) = some (parsedIp address) := by
  have hread := parseIp_of_parseIpAddr h
  have hchars : ∀ c ∈ client, c.toNat < 128 ∧ ¬Text.isWhitespace c := fun c hc =>
    toNat_of_isIpChar (isIpChar_of_parseIp hread c hc)
  have hspace : SameSpace client := sameSpace_of_not_mem
    (fun hnext => absurd (hchars _ hnext).1 (by decide))
    fun hmark => absurd (hchars _ hmark).1 (by decide)
  rwa [trim_of_isWord hspace fun c hc => (hchars c hc).2]

/-- The lines of a text stand for its rules, one by one. -/
theorem map_zip_ruleLines {config : AppConfig} {policies : ClientFilteringPolicies}
    (h : clientFilteringPolicies config = .ok policies) :
    ((ruleLines config.clientFilteringRules).zip policies.rules).map Prod.snd = policies.rules := by
  obtain ⟨-, specs, hspecs, hbuilt⟩ := exists_builds h
  refine List.map_snd_zip ?_
  rw [(forall₂_ruleLines hspecs).length_eq, hbuilt.length_eq]

section
variable {config : AppConfig} {policies : ClientFilteringPolicies} {client : Text}
  {address : IpAddr}

/-- **The editor shows what the plain lines decide.** -/
theorem resolveEffectiveClientPolicy_eq (h : clientFilteringPolicies config = .ok policies)
    (hclient : parseIpAddr client = some address) (now : LocalTime) :
    resolveEffectiveClientPolicy client config.clientFilteringRules now =
      decidedPolicy (plainPolicies config policies) address now := by
  obtain ⟨hdefault, specs, hspecs, hbuilt⟩ := exists_builds h
  have hrules := forall₂_sameRule (parseClientPolicyRules_eq hspecs) (forall₂_ofPlain hbuilt _)
  unfold resolveEffectiveClientPolicy
  rw [parseIp_trim hclient]
  change shownPolicy (matchedRule _ _ now) = _
  exact shown_of_match (hdefault : (plainPolicies config policies).defaultProfile.name = _)
    (matchedRule_eq hrules address now)

/-- Where a plain line decides, or none, the plain lines decide the same. -/
theorem decidingRule_plain (h : clientFilteringPolicies config = .ok policies) {now : LocalTime}
    (hplain : ∀ deciding ∈ decidingLine (ruleLines config.clientFilteringRules) policies.rules
      address now, plainRule deciding.1) :
    decidingRule (plainPolicies config policies).rules address now =
      decidingRule policies.rules address now := by
  have hall : decidingRule policies.rules address now =
      (decidingLine (ruleLines config.clientFilteringRules) policies.rules address now).map
        Prod.snd := by
    conv_lhs => rw [← map_zip_ruleLines h]
    unfold decidingRule decidingLine
    rw [List.filter_map, maxByKey_map]
    rfl
  have hpart : decidingRule (plainPolicies config policies).rules address now =
      (decidingLine (ruleLines config.clientFilteringRules) policies.rules address now).map
        Prod.snd := by
    unfold decidingLine at hplain ⊢
    rw [← maxByKey_filter (p := fun p => plainRule p.1) hplain, List.filter_comm]
    unfold decidingRule plainPolicies ofPlain
    dsimp only
    rw [List.filter_map, maxByKey_map]
    rfl
  rw [hpart, hall]

theorem plainRule_of_forall {lines : List Text} {rules : List ClientFilteringRule}
    {now : LocalTime} (h : ∀ line ∈ lines, plainRule line) :
    ∀ deciding ∈ decidingLine lines rules address now, plainRule deciding.1 := by
  intro deciding hdeciding
  have hspec := maxByKey_spec (fun p : Text × ClientFilteringRule => p.2.network.prefixLen)
    ((lines.zip rules).filter fun p => p.2.network.contains address &&
      p.2.schedule.all fun schedule => Filter.scheduleIsActive schedule now)
  unfold decidingLine at hdeciding
  rw [hdeciding] at hspec
  exact h _ (List.of_mem_zip (List.mem_filter.1 hspec.1).1).1

/-- **The policy that is shown is applied**: for every configuration that the service is built
    with, every client and every time, the editor shows what the plain lines decide, and this is
    what the service decides unless the line that decides there is not plain. -/
theorem resolved_policy_applied (h : clientFilteringPolicies config = .ok policies)
    (hclient : parseIpAddr client = some address) (now : LocalTime) :
    resolveEffectiveClientPolicy client config.clientFilteringRules now =
      decidedPolicy (plainPolicies config policies) address now ∧
    ((∀ deciding ∈ decidingLine (ruleLines config.clientFilteringRules) policies.rules
        address now, plainRule deciding.1) →
      resolveEffectiveClientPolicy client config.clientFilteringRules now =
        decidedPolicy policies address now) := by
  refine ⟨resolveEffectiveClientPolicy_eq h hclient now, fun hplain => ?_⟩
  rw [resolveEffectiveClientPolicy_eq h hclient now, decidedPolicy_eq, decidedPolicy_eq,
    decidingRule_plain h hplain]
  rfl

end

/-- A network whose address is let through in the morning. -/
def morningRules : AppConfig :=
  { (default : AppConfig) with
    clientFilteringRules :=
      "192.168.1.0/24 => family\n192.168.1.10 => bypass @ daily 07:00-09:00".toList }

theorem morning_policy_applied : ∃ policies, clientFilteringPolicies morningRules = .ok policies ∧
    resolveEffectiveClientPolicy "192.168.1.10".toList morningRules.clientFilteringRules ⟨0, 480⟩ =
      decidedPolicy policies (.v4 ⟨192, 168, 1, 10⟩) ⟨0, 480⟩ := by
  have hbuilt : (clientFilteringPolicies morningRules).toOption.isSome := by decide +kernel
  obtain ⟨policies, hpolicies⟩ := Option.isSome_iff_exists.1 hbuilt
  have hlines : ∀ line ∈ ruleLines morningRules.clientFilteringRules, plainRule line := by
    decide +kernel
  refine ⟨policies, Lib.toOption_eq_some.1 hpolicies, ?_⟩
  exact (resolved_policy_applied (Lib.toOption_eq_some.1 hpolicies) (by decide +kernel) ⟨0, 480⟩).2
    (plainRule_of_forall hlines)

end DnsBlackhole.Form
