/-
  Lines with rules for clients, as the editor reads them.

  * `parseClientPolicyRuleLine_eq`: of the lines that the service accepts, the editor
    reads those that are written as it expects (`plainRule`), and to the same rule;
  * `parseClientPolicyRuleLine_comment`: it reads no other line.
-/
import DnsBlackhole.Form.Networks
import DnsBlackhole.Form.Schedules

namespace DnsBlackhole.Form
open Text (exists_trim length_le_len mem_of_mem_trim mem_or_of_mem splitOnceAt_append
  splitOnceAt_append_right splitOnceAt_eq_none splitOnceAt_eq_some splitOnce_append
  splitOnce_eq_none splitOnce_eq_some split_cons_append split_of_not_mem trim_append
  trim_of_forall_not)
open Config (ClientFilteringRuleSpec okOr okOr_eq_ok require_bind_eq_ok parseClientFilteringRule
  validPolicyName)
open DnsBlackhole.Filter (ClientScheduleSpec)
open Lib (bind_eq_ok pure_eq_ok)

/-! ## Rules of the service -/

/-- What a rule has behind its arrow. -/
def IsPolicy (index : ℕ) (policy profile : Text) : Option ClientScheduleSpec → Prop
  | none => '@' ∉ policy ∧ profile = policy
  | some spec => ∃ schedule, Text.splitOnce (· == '@') policy = some (profile, schedule) ∧
      Config.parseClientSchedule index schedule.trim = .ok spec

/-- What a line with a rule is to the service. -/
def IsRule (index : ℕ) (line : Text) (spec : ClientFilteringRuleSpec) : Prop :=
  ∃ network policy profile, Text.splitOnceAt line "=>".toList = some (network, policy) ∧
    Config.validateIpOrCidr network.trim ∧ IsPolicy index policy profile spec.schedule ∧
    validPolicyName profile.trim.toAsciiLowercase ∧
    spec = ⟨network.trim, profile.trim.toAsciiLowercase, spec.schedule⟩

section
variable {index : ℕ} {line : Text} {spec : ClientFilteringRuleSpec}

theorem isRule_of_ok (h : parseClientFilteringRule index line = .ok spec) :
    IsRule index line spec := by
  unfold parseClientFilteringRule at h
  obtain ⟨⟨network, policy⟩, hsplit, h⟩ := bind_eq_ok.1 h
  obtain ⟨hnetwork, h⟩ := require_bind_eq_ok.1 h
  have hsplit := okOr_eq_ok.1 hsplit
  have hend : ∀ {profile : Text} {schedule : Option ClientScheduleSpec},
      (Config.require (validPolicyName profile.toAsciiLowercase)
        (Config.filteringLine index ++ "的策略组名称无效".toList) >>= fun _ =>
          (pure ⟨network.trim, profile.toAsciiLowercase, schedule⟩ : Except Text _)) = .ok spec →
      validPolicyName profile.toAsciiLowercase ∧
        spec = ⟨network.trim, profile.toAsciiLowercase, schedule⟩ := fun h => by
    obtain ⟨hname, h⟩ := require_bind_eq_ok.1 h
    exact ⟨hname, (pure_eq_ok.1 h).symm⟩
  cases hat : Text.splitOnce (· == '@') policy with
  | none =>
    rw [hat] at h
    obtain ⟨hname, rfl⟩ := hend h
    exact ⟨network, policy, policy, hsplit, hnetwork, ⟨splitOnce_eq_none.1 hat, rfl⟩, hname, rfl⟩
  | some parts =>
    rw [hat] at h
    obtain ⟨schedule, hschedule, h⟩ := bind_eq_ok.1 h
    obtain ⟨hname, rfl⟩ := hend h
    exact ⟨network, policy, parts.1, hsplit, hnetwork, ⟨parts.2, hat, hschedule⟩, hname, rfl⟩

theorem isRule_of_trim (h : IsRule index line.trim spec) : IsRule index line spec := by
  obtain ⟨network, policy, profile, hsplit, hnetwork, hpolicy, hname, hspec⟩ := h
  obtain ⟨a, b, ha, hb, hline⟩ := exists_trim Text.isWhitespace line
  have hnot : ∀ {t : Text} {c : Char}, (∀ c ∈ t, Text.isWhitespace c) →
      Text.isWhitespace c = false → c ∉ t := fun ht hc hmem => by
    rw [ht _ hmem] at hc
    cases hc
  have hsplit' : Text.splitOnceAt line "=>".toList = some (a ++ network, policy ++ b) := by
    rw [hline, splitOnceAt_append rfl (hnot ha rfl)]
    exact congrArg _ (splitOnceAt_append_right hsplit b)
  have hleft : Text.trim (a ++ network) = network.trim := by
    have h := trim_append (t := network) (b := []) ha (by simp)
    rwa [List.append_nil] at h
  have hright : ∀ t : Text, Text.trim (t ++ b) = t.trim := fun t =>
    trim_append (a := []) (by simp) hb
  cases hschedule : spec.schedule with
  | none =>
    rw [hschedule] at hpolicy hspec
    obtain ⟨hat, rfl⟩ := hpolicy
    refine ⟨_, _, profile ++ b, hsplit', hleft ▸ hnetwork, ?_, (hright _).symm ▸ hname, ?_⟩
    · rw [hschedule]
      exact ⟨fun hmem => (List.mem_append.1 hmem).elim hat (hnot hb rfl), rfl⟩
    · rw [hleft, hright, hschedule]
      exact hspec
  | some schedule =>
    rw [hschedule] at hpolicy hspec
    obtain ⟨text, hat, hparse⟩ := hpolicy
    refine ⟨_, _, profile, hsplit', hleft ▸ hnetwork, ?_, hname, ?_⟩
    · rw [hschedule]
      obtain ⟨rfl, hnone⟩ := splitOnce_eq_some hat
      refine ⟨text ++ b, ?_, (hright text).symm ▸ hparse⟩
      rw [List.append_assoc]
      exact splitOnce_append hnone
    · rw [hleft, hschedule]
      exact hspec

/-! ### Characters -/

theorem isRuleChar_of_isNameChar {c : Char} (h : isNameChar c) : isRuleChar c := by
  have hbounds := toNat_of_isNameChar h
  have hne : ∀ d : Char, d.toNat = 61 ∨ d.toNat = 64 → c ≠ d := by
    intro d hd heq
    rw [heq] at h hbounds
    rcases hbounds with hb | hb | hb | rfl | rfl
    · omega
    · omega
    · omega
    · cases hd with | inl hd => cases hd | inr hd => cases hd
    · cases hd with | inl hd => cases hd | inr hd => cases hd
  have hlt : c.toNat < 128 := by
    rcases hbounds with hb | hb | hb | rfl | rfl
    · omega
    · omega
    · omega
    · decide
    · decide
  simp [isRuleChar, hlt, hne '=' (.inl rfl), hne '@' (.inr rfl)]

theorem isNameChar_of_valid {name : Text} (h : validPolicyName name.toAsciiLowercase) :
    1 ≤ name.length ∧ name.length ≤ 32 ∧ ∀ c ∈ name, isNameChar c := by
  have hvalid : name.toAsciiLowercase ≠ [] ∧ name.toAsciiLowercase.len ≤ 32 ∧
      name.toAsciiLowercase.all fun c => c.isAlphanum || c == '_' || c == '-' :=
    of_decide_eq_true h
  obtain ⟨hne, hlen, hall⟩ := hvalid
  have hlower : ∀ c ∈ name.toAsciiLowercase, isNameChar c := List.all_eq_true.1 hall
  have hlength := length_le_len name.toAsciiLowercase
  have hmap : name.toAsciiLowercase.length = name.length := List.length_map _
  refine ⟨?_, ?_, fun c hc => isNameChar_of_toLower (hlower _ (List.mem_map_of_mem hc))⟩
  · rw [← hmap]
    exact List.length_pos_iff.2 hne
  · omega

theorem isRuleChar_of_policy {policy profile : Text} {schedule : Option ClientScheduleSpec}
    (h : IsPolicy index policy profile schedule)
    (hname : validPolicyName profile.trim.toAsciiLowercase) :
    ∀ c ∈ policy, Text.isWhitespace c ∨ isRuleChar c ∨ c = '@' := by
  have hprofile : ∀ c ∈ profile, Text.isWhitespace c ∨ isRuleChar c ∨ c = '@' := by
    intro c hc
    rcases mem_or_of_mem (p := Text.isWhitespace) hc with hspace | hmem
    · exact .inl hspace
    · exact .inr (.inl (isRuleChar_of_isNameChar ((isNameChar_of_valid hname).2.2 c hmem)))
  cases schedule with
  | none =>
    obtain ⟨-, rfl⟩ := h
    exact hprofile
  | some spec =>
    obtain ⟨schedule, hat, hparse⟩ := h
    obtain ⟨rfl, -⟩ := splitOnce_eq_some hat
    intro c hc
    rcases List.mem_append.1 hc with hc | hc
    · exact hprofile c hc
    rcases List.mem_cons.1 hc with rfl | hc
    · exact .inr (.inr rfl)
    rcases mem_or_of_mem (p := Text.isWhitespace) hc with hspace | hmem
    · exact .inl hspace
    · exact (isRuleChar_of_schedule hparse c hmem).imp_right .inl

theorem isCaseless_of_isRule (h : IsRule index line spec) : IsCaseless line := by
  obtain ⟨network, policy, profile, hsplit, hnetwork, hpolicy, hname, -⟩ := h
  intro c hc
  rw [splitOnceAt_eq_some hsplit, List.append_assoc] at hc
  rcases List.mem_append.1 hc with hc | hc
  · rcases mem_or_of_mem (p := Text.isWhitespace) hc with hspace | hmem
    · exact .inr hspace
    · exact .inl (toNat_of_validate hnetwork c hmem).1
  rcases List.mem_append.1 hc with hc | hc
  · have harrow : ∀ c ∈ "=>".toList, c.toNat < 128 :=
      List.all_iff_forall_prop.1 (by decide)
    exact .inl (harrow c hc)
  · rcases isRuleChar_of_policy hpolicy hname c hc with hspace | hchar | rfl
    · exact .inr hspace
    · rw [isRuleChar, Bool.and_eq_true, Bool.and_eq_true, decide_eq_true_iff] at hchar
      exact .inl hchar.1.1
    · exact .inl (by decide)

/-! ## Lines of the editor -/

/-- The line of a rule is written as the editor reads it: without U+0085, with at most three
    digits for the length of the prefix, and with two for every hour and minute. -/
def plainRule (line : Text) : Bool :=
  nextLine ∉ line &&
    match Text.splitOnceAt line.trim "=>".toList with
    | some (network, policy) =>
      plainNetwork network.trim &&
        match Text.splitOnce (· == '@') policy with
        | some (_, schedule) => plainSchedule schedule.trim
        | none => true
    | none => true

/-- What the service would make of a rule of the editor. -/
def ClientPolicyRule.asSpec (rule : ClientPolicyRule) : Option ClientFilteringRuleSpec :=
  match rule.schedule with
  | none => some ⟨rule.network, rule.profile, none⟩
  | some schedule => do
    let weekdays ← parseWeekdays schedule.days
    let startMinute ← parseTime schedule.start
    let endMinute ← parseTime schedule.finish
    some ⟨rule.network, rule.profile, some { weekdays, startMinute, endMinute }⟩

theorem isRule_trimmed (h : IsRule index line.trim spec) : IsRule index (trim line) spec := by
  have hmark := not_mem_of_isCaseless (isCaseless_of_isRule (isRule_of_trim h))
  exact isRule_of_trim ((trim_trim hmark).symm ▸ h)

section
variable {network policy : Text} {profile : Text}

theorem splitOn_arrow (hne : line ≠ [])
    (hsplit : Text.splitOnceAt line "=>".toList = some (network, policy)) (heq : '=' ∉ policy) :
    splitOn "=>".toList line = [network, policy] :=
  splitOn_of_some hne hsplit (splitOnceAt_eq_none rfl heq)

theorem SameSpace.mono {t u : Text} (h : SameSpace t) (hsub : ∀ c ∈ u, c ∈ t) : SameSpace u :=
  fun c hc => h c (hsub c hc)

theorem trim_of_isWord {t : Text} (hspace : SameSpace t) (h : IsWord t) : trim t = t :=
  (trim_eq hspace).trans (trim_of_forall_not h)

theorem validateIpOrCidr_eq (hspace : SameSpace network)
    (h : Config.validateIpOrCidr network.trim) :
    validateIpOrCidr network.trim = plainNetwork network.trim := by
  have hword : IsWord network.trim := fun c hc => (toNat_of_validate h c hc).2
  obtain ⟨address, prefixLen, hnetwork⟩ := isNetwork_of_validate h
  rw [validateIpOrCidr, trim_of_isWord (hspace.mono fun c hc => mem_of_mem_trim hc) hword,
    parseNetwork_eq hnetwork]
  cases plainNetwork network.trim <;> rfl

theorem isWord_of_isNameChar {t : Text} (h : ∀ c ∈ t, isNameChar c) : IsWord t := by
  intro c hc
  rcases toNat_of_isNameChar (h c hc) with hb | hb | hb | rfl | rfl
  · simp [Text.isWhitespace]
    omega
  · simp [Text.isWhitespace]
    omega
  · simp [Text.isWhitespace]
    omega
  · decide
  · decide

theorem validatePolicyName_eq (hspace : SameSpace profile)
    (h : validPolicyName profile.trim.toAsciiLowercase) : validatePolicyName profile.trim := by
  obtain ⟨hpos, hlen, hall⟩ := isNameChar_of_valid h
  rw [validatePolicyName, trim_of_isWord (hspace.mono fun c hc => mem_of_mem_trim hc)
    (isWord_of_isNameChar hall)]
  have hname : profile.trim.all isNameChar := List.all_eq_true.2 hall
  simp [hpos, hlen, hname]

theorem toLowerCase_of_name (h : validPolicyName profile.trim.toAsciiLowercase) :
    toLowerCase profile.trim = profile.trim.toAsciiLowercase := by
  refine toLowerCase_eq fun c hc => .inl ?_
  have hchar := isRuleChar_of_isNameChar ((isNameChar_of_valid h).2.2 c hc)
  rw [isRuleChar, Bool.and_eq_true, Bool.and_eq_true, decide_eq_true_iff] at hchar
  exact hchar.1.1

theorem not_mem_of_schedule {schedule : Text} {spec : ClientScheduleSpec}
    (h : Config.parseClientSchedule index schedule.trim = .ok spec) : '@' ∉ schedule := by
  intro hmem
  rcases mem_or_of_mem (p := Text.isWhitespace) hmem with hspace | hmem
  · cases hspace
  · rcases isRuleChar_of_schedule h _ hmem with hc | hc <;> cases hc

end

/-- **Of the rules that the service reads, the editor reads those that are plain.** -/
theorem parseClientPolicyRuleLine_eq (hcomment : ¬ Config.isComment line.trim)
    (h : parseClientFilteringRule index line.trim = .ok spec) (hnext : nextLine ∉ line) :
    if plainRule line then ∃ rule, parseClientPolicyRuleLine line = some rule ∧
      rule.asSpec = some spec
    else parseClientPolicyRuleLine line = none := by
  have hrule := isRule_of_ok h
  have hspace := sameSpace_of_not_mem hnext
    (not_mem_of_isCaseless (isCaseless_of_isRule (isRule_of_trim hrule)))
  have hne : line.trim ≠ [] := fun hnil => hcomment (by rw [hnil]; rfl)
  obtain ⟨network, policy, profile, hsplit, hnetwork, hpolicy, hname, hspec⟩ := hrule
  have hmem : ∀ c, c ∈ network ∨ c ∈ policy → c ∈ line := by
    intro c hc
    refine mem_of_mem_trim ?_
    rw [splitOnceAt_eq_some hsplit]
    rcases hc with hc | hc <;> simp [hc]
  have heq : '=' ∉ policy := by
    intro hmem
    rcases isRuleChar_of_policy hpolicy hname _ hmem with hc | hc | hc <;> cases hc
  have hspaceNetwork : SameSpace network := hspace.mono fun c hc => hmem c (.inl hc)
  have hspacePolicy : SameSpace policy := hspace.mono fun c hc => hmem c (.inr hc)
  have hvalid := validateIpOrCidr_eq hspaceNetwork hnetwork
  have hplain : plainRule line = (plainNetwork network.trim &&
      match Text.splitOnce (· == '@') policy with
      | some (_, schedule) => plainSchedule schedule.trim
      | none => true) := by
    rw [plainRule, decide_eq_true hnext, Bool.true_and, hsplit]
  have hcomment' : ¬ isComment (trim line) := by
    rw [trim_eq hspace]
    exact hcomment
  unfold parseClientPolicyRuleLine
  dsimp only
  rw [if_neg hcomment', trim_eq hspace, splitOn_arrow hne hsplit heq]
  dsimp only
  rw [trim_eq hspaceNetwork, hvalid, hplain]
  cases hschedule : spec.schedule with
  | none =>
    rw [hschedule] at hpolicy hspec
    obtain ⟨hat, rfl⟩ := hpolicy
    rw [split_of_not_mem hat, splitOnce_eq_none.2 hat, Bool.and_true]
    dsimp only
    rw [trim_eq hspacePolicy, validatePolicyName_eq hspacePolicy hname, toLowerCase_of_name hname]
    by_cases hp : plainNetwork network.trim
    · rw [if_pos hp, if_pos ⟨hp, rfl⟩]
      exact ⟨_, rfl, congrArg some hspec.symm⟩
    · rw [if_neg hp, if_neg fun hand => hp hand.1]
  | some clock =>
    rw [hschedule] at hpolicy hspec
    obtain ⟨schedule, hat, hparse⟩ := hpolicy
    obtain ⟨rfl, hbefore⟩ := splitOnce_eq_some hat
    have hbehind : '@' ∉ schedule := not_mem_of_schedule hparse
    have hspaceProfile : SameSpace profile :=
      hspacePolicy.mono fun c hc => List.mem_append_left _ hc
    have hspaceSchedule : SameSpace schedule :=
      hspacePolicy.mono fun c hc => List.mem_append_right _ (List.mem_cons_of_mem _ hc)
    obtain ⟨days, start, finish, hdays, hstart, hfinish, hclock, hread⟩ :=
      parseSchedule_eq hspaceSchedule hparse
    rw [split_cons_append hbefore, split_of_not_mem hbehind, hat]
    dsimp only
    rw [trim_eq hspaceProfile, validatePolicyName_eq hspaceProfile hname, hread,
      toLowerCase_of_name hname]
    by_cases hp : plainNetwork network.trim
    · rw [hp, Bool.true_and]
      by_cases hs : plainSchedule schedule.trim
      · rw [if_pos hs, if_pos hs, if_pos ⟨rfl, rfl⟩]
        refine ⟨_, rfl, ?_⟩
        rw [hs, eq_comm, Bool.and_eq_true] at hclock
        rw [if_pos hclock.1] at hstart
        rw [if_pos hclock.2] at hfinish
        rw [ClientPolicyRule.asSpec]
        dsimp only
        rw [hdays, hstart, hfinish]
        exact congrArg some hspec.symm
      · rw [if_neg hs, if_neg hs, if_pos ⟨rfl, rfl⟩]
        rfl
    · rw [Bool.eq_false_of_not_eq_true hp, Bool.false_and, if_neg Bool.false_ne_true,
        if_neg fun hand => Bool.false_ne_true hand.1]

/-! ## Other lines -/

theorem exists_of_parse {rule : ClientPolicyRule} (h : parseClientPolicyRuleLine line = some rule) :
    ∃ network policy, splitOn "=>".toList (trim line) = [network, policy] ∧
      validateIpOrCidr (trim network) ∧
      (∀ profile, Text.split (· == '@') policy = [profile] → validatePolicyName (trim profile)) ∧
      ∀ profile schedule, Text.split (· == '@') policy = [profile, schedule] →
        validatePolicyName (trim profile) ∧ ∃ read, parseSchedule schedule = some read := by
  unfold parseClientPolicyRuleLine at h
  dsimp only at h
  split_ifs at h with hcomment
  split at h
  · next network policy hsplit =>
    refine ⟨network, policy, hsplit, ?_⟩
    split at h
    · next profile hpolicy =>
      split_ifs at h with hvalid
      rw [hpolicy]
      refine ⟨hvalid.1, fun profile' heq => ?_, fun profile' schedule heq => ?_⟩
      · rw [← List.singleton_inj.1 heq]
        exact hvalid.2
      · cases heq
    · next profile schedule hpolicy =>
      split_ifs at h with hvalid
      obtain ⟨read, hread, -⟩ := Option.map_eq_some_iff.1 h
      rw [hpolicy]
      refine ⟨hvalid.1, fun profile' heq => ?_, fun profile' schedule' heq => ?_⟩
      · cases heq
      · injection heq with hprofile hschedule
        injection hschedule with hschedule
        exact ⟨hprofile ▸ hvalid.2, read, hschedule ▸ hread⟩
    · cases h
  · cases h

theorem mem_trim_of_mem {t : Text} {c : Char} (hc : c ∈ t) (h : isWhitespace c = false) :
    c ∈ trim t := by
  rcases mem_or_of_mem (p := isWhitespace) hc with hspace | hmem
  · rw [h] at hspace
    cases hspace
  · exact hmem

theorem isNameChar_of_validate {name : Text} {c : Char} (h : validatePolicyName name)
    (hc : c ∈ name) (hspace : isWhitespace c = false) : isNameChar c := by
  rw [validatePolicyName, Bool.and_eq_true, List.all_eq_true] at h
  exact h.2 c (mem_trim_of_mem hc hspace)

theorem isIpChar_of_validate {network : Text} {c : Char} (h : validateIpOrCidr network)
    (hc : c ∈ network) (hspace : isWhitespace c = false) : isIpChar c ∨ c = '/' := by
  obtain ⟨parsed, hparsed⟩ := Option.isSome_iff_exists.1 h
  exact (isIpChar_of_parseNetwork hparsed).2 c (mem_trim_of_mem hc hspace)

/-- **A rule with U+0085 in its line is none** to the editor. -/
theorem parseClientPolicyRuleLine_nextLine (h : parseClientFilteringRule index line.trim = .ok spec)
    (hnext : nextLine ∈ line) : parseClientPolicyRuleLine line = none := by
  refine Option.eq_none_iff_forall_not_mem.2 fun rule hrule => ?_
  obtain ⟨network', policy', hsplit', hnetwork', hname', hschedule'⟩ := exists_of_parse hrule
  obtain ⟨network, policy, profile, hsplit, hnetwork, hpolicy, hname, -⟩ :=
    isRule_trimmed (isRule_of_ok h)
  obtain ⟨rfl, rfl⟩ := Prod.mk.inj
    (Option.some.inj (hsplit.symm.trans (splitOnceAt_of_splitOn hsplit')))
  have hbeyond : isWhitespace nextLine = false := rfl
  have hmem := mem_trim_of_mem hnext hbeyond
  rw [splitOnceAt_eq_some hsplit, List.append_assoc] at hmem
  rcases List.mem_append.1 hmem with hmem | hmem
  · rcases isIpChar_of_validate hnetwork' (mem_trim_of_mem hmem hbeyond) hbeyond with hc | hc <;>
      cases hc
  have hmem : nextLine ∈ policy := (List.mem_append.1 hmem).resolve_left (by decide)
  have hnameChar : ∀ {name : Text}, validatePolicyName (trim name) → nextLine ∉ name := by
    intro name hvalid hmem
    cases isNameChar_of_validate hvalid (mem_trim_of_mem hmem hbeyond) hbeyond
  cases hschedule : spec.schedule with
  | none =>
    rw [hschedule] at hpolicy
    exact hnameChar (hname' policy (split_of_not_mem hpolicy.1)) hmem
  | some clock =>
    rw [hschedule] at hpolicy
    obtain ⟨schedule, hat, hparse⟩ := hpolicy
    obtain ⟨rfl, hbefore⟩ := splitOnce_eq_some hat
    obtain ⟨hvalid, read, hread⟩ := hschedule' profile schedule (by
      rw [split_cons_append hbefore, split_of_not_mem (not_mem_of_schedule hparse)])
    rcases List.mem_append.1 hmem with hmem | hmem
    · exact hnameChar hvalid hmem
    rcases List.mem_cons.1 hmem with hc | hmem
    · cases hc
    · exact nextLine_not_mem_schedule hparse hread hmem

theorem find?_of_spaces {a rest : Text} {c : Char}
    (ha : ∀ d ∈ a, isWhitespace d || Text.isWhitespace d)
    (hc : (isWhitespace c || Text.isWhitespace c) = false) :
    (a ++ c :: rest).find? (fun d => !(isWhitespace d || Text.isWhitespace d)) = some c := by
  rw [List.find?_append, List.find?_eq_none.2 fun d hd => by rw [ha d hd]; decide,
    Option.none_or, List.find?_cons, hc]
  rfl

theorem parseClientPolicyRuleLine_comment (h : Config.isComment line.trim) :
    parseClientPolicyRuleLine line = none := by
  refine Option.eq_none_iff_forall_not_mem.2 fun rule hrule => ?_
  obtain ⟨network, policy, hsplit, hnetwork, -⟩ := exists_of_parse hrule
  obtain ⟨parsed, hparsed⟩ := Option.isSome_iff_exists.1 hnetwork
  obtain ⟨hne, hchars⟩ := isIpChar_of_parseNetwork hparsed
  obtain ⟨c, rest, hnetworkText⟩ := List.exists_cons_of_ne_nil hne
  have hbounds : 46 ≤ c.toNat ∧ c.toNat ≤ 122 := by
    rcases hchars c (hnetworkText ▸ List.mem_cons_self) with hc | rfl
    · exact bounds_of_isIpChar hc
    · decide
  have hspace : (isWhitespace c || Text.isWhitespace c) = false := by
    simp [isWhitespace, Text.isWhitespace]
    omega
  -- the line begins with white space and a character of a network
  have hfirst : line.find? (fun d => !(isWhitespace d || Text.isWhitespace d)) = some c := by
    obtain ⟨a₀, b₀, ha₀, -, h₀⟩ := exists_trim isWhitespace line
    obtain ⟨a₁, b₁, ha₁, -, h₁⟩ := exists_trim isWhitespace network
    obtain ⟨a₂, b₂, ha₂, -, h₂⟩ := exists_trim isWhitespace (trim network)
    change line = a₀ ++ (trim line ++ b₀) at h₀
    change network = a₁ ++ (trim network ++ b₁) at h₁
    change trim network = a₂ ++ (trim (trim network) ++ b₂) at h₂
    have htext : line = (a₀ ++ a₁ ++ a₂) ++ c :: (rest ++ b₂ ++ b₁ ++ "=>".toList ++ policy ++ b₀) := by
      rw [h₀, splitOnceAt_eq_some (splitOnceAt_of_splitOn hsplit), h₁, h₂, hnetworkText]
      simp only [List.append_assoc, List.cons_append]
    rw [htext]
    refine find?_of_spaces (fun d hd => ?_) hspace
    rw [Bool.or_eq_true]
    left
    rcases List.mem_append.1 hd with hd | hd
    · exact (List.mem_append.1 hd).elim (ha₀ d) (ha₁ d)
    · exact ha₂ d hd
  obtain ⟨a, b, ha, hb, hline⟩ := exists_trim Text.isWhitespace line
  change line = a ++ (line.trim ++ b) at hline
  have hspaces : ∀ {t : Text}, (∀ d ∈ t, Text.isWhitespace d) →
      ∀ d ∈ t, isWhitespace d || Text.isWhitespace d := fun ht d hd => by
    rw [ht d hd, Bool.or_true]
  have hhead : ∀ {d : Char}, line.trim.startsWith d →
      (isWhitespace d || Text.isWhitespace d) = false → c = d := by
    intro d hd hspace
    obtain ⟨rest', hrest'⟩ := List.head?_eq_some_iff.1 (eq_of_beq hd)
    rw [hline, hrest', List.cons_append, find?_of_spaces (hspaces ha) hspace] at hfirst
    exact (Option.some.inj hfirst).symm
  rw [Config.isComment, Bool.or_eq_true, Bool.or_eq_true] at h
  rcases h with (hempty | hstart) | hstart
  · rw [hline, List.isEmpty_iff.1 hempty, List.nil_append, List.find?_eq_none.2] at hfirst
    · cases hfirst
    · intro d hd
      rcases List.mem_append.1 hd with hd | hd
      · rw [hspaces ha d hd]
        decide
      · rw [hspaces hb d hd]
        decide
  · obtain rfl := hhead hstart rfl
    revert hbounds
    decide
  · obtain rfl := hhead hstart rfl
    revert hbounds
    decide

end

end DnsBlackhole.Form
