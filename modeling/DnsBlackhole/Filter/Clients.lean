/-
  Policies for clients (`dns/client_policy.rs`): whether the filter is on for a
  client, which services are blocked for it, and where safe search sends it.

  The rule with the longest network that is active decides; without one, the
  filter is on and nothing else is.
-/
import DnsBlackhole.Rules.Index

namespace DnsBlackhole.Filter
open Rules

/-! ## Networks (`dns/ip_network.rs`) -/

inductive IpFamily
  | v4
  | v6
  deriving DecidableEq

/-- The number with the digits `ds` to the base `base`. -/
def ofBigEndian (base : ℕ) (ds : List ℕ) : ℕ := ds.foldl (fun n d => n * base + d) 0

/-- The family of an address, the number of its bits, and the address as a
    number. -/
def ipParts : IpAddr → IpFamily × ℕ × ℕ
  | .v4 a => (.v4, 32, ofBigEndian 256 ([a.first, a.second, a.third, a.fourth].map UInt8.toNat))
  | .v6 a => (.v6, 128, ofBigEndian 65536 (a.segments.map UInt16.toNat))

def prefixNetwork (value bits prefixLen : ℕ) : ℕ :=
  if prefixLen = 0 then 0 else (value >>> (bits - prefixLen)) <<< (bits - prefixLen)

structure IpNetwork where
  family : IpFamily
  network : ℕ
  prefixLen : ℕ
  deriving DecidableEq

def IpNetwork.contains (network : IpNetwork) (ip : IpAddr) : Bool :=
  let (family, bits, raw) := ipParts ip
  family == network.family && prefixNetwork raw bits network.prefixLen == network.network

/-- `Iterator::max_by_key`: the last of the greatest elements. -/
def maxByKey {α : Type} (key : α → ℕ) (items : List α) : Option α :=
  items.foldl (fun best item => match best with
    | none => some item
    | some best => if key best ≤ key item then some item else some best) none

theorem maxByKey_concat {α : Type} (key : α → ℕ) (items : List α) (item : α) :
    maxByKey key (items ++ [item]) = match maxByKey key items with
      | none => some item
      | some best => if key best ≤ key item then some item else some best := List.foldl_concat ..

/-- What is found is a greatest element, if there is one. -/
theorem maxByKey_spec {α : Type} (key : α → ℕ) (items : List α) :
    match maxByKey key items with
    | none => items = []
    | some a => a ∈ items ∧ ∀ b ∈ items, key b ≤ key a := by
  induction items using List.reverseRecOn with
  | nil => rfl
  | append_singleton items item ih =>
    rw [maxByKey_concat]
    cases hbest : maxByKey key items with
    | none =>
      rw [hbest] at ih
      subst ih
      exact ⟨List.mem_singleton_self _, fun b hb => by rw [List.mem_singleton.1 hb]⟩
    | some best =>
      rw [hbest] at ih
      obtain ⟨hmem, hle⟩ := ih
      dsimp only
      split_ifs with hitem
      · refine ⟨List.mem_append_right _ (List.mem_singleton_self _), fun b hb => ?_⟩
        rcases List.mem_append.1 hb with hb | hb
        · exact (hle b hb).trans hitem
        · rw [List.mem_singleton.1 hb]
      · refine ⟨List.mem_append_left _ hmem, fun b hb => ?_⟩
        rcases List.mem_append.1 hb with hb | hb
        · exact hle b hb
        · rw [List.mem_singleton.1 hb]
          exact (not_le.1 hitem).le

/-! ## Profiles and schedules -/

inductive ClientFilteringMode
  | filter
  | bypass
  deriving DecidableEq

structure ClientPolicyProfile where
  name : Text
  mode : ClientFilteringMode
  safeSearch : Bool
  blockedServices : List Text

/-- The days, from Monday, and the minutes of a day in which a rule is active. -/
structure ClientScheduleSpec where
  weekdays : List Bool
  startMinute : ℕ
  endMinute : ℕ

/-- What a schedule looks at: the day of the week, from Monday, and the minute of
    the day. -/
structure LocalTime where
  weekday : ℕ
  minute : ℕ

def scheduleIsActive (schedule : ClientScheduleSpec) (now : LocalTime) : Bool :=
  if schedule.startMinute = schedule.endMinute then schedule.weekdays.getD now.weekday false
  else if schedule.startMinute < schedule.endMinute then
    schedule.weekdays.getD now.weekday false && schedule.startMinute ≤ now.minute &&
      now.minute < schedule.endMinute
  else if schedule.startMinute ≤ now.minute then schedule.weekdays.getD now.weekday false
  -- behind midnight it is the day before that counts
  else if now.minute < schedule.endMinute then
    schedule.weekdays.getD ((now.weekday + 6) % 7) false
  else false

structure ClientFilteringRule where
  network : IpNetwork
  source : Text
  profile : ClientPolicyProfile
  schedule : Option ClientScheduleSpec

structure ClientFilteringPolicies where
  rules : List ClientFilteringRule
  defaultProfile : ClientPolicyProfile

def defaultFilterProfile : ClientPolicyProfile where
  name := "filter".toList
  mode := .filter
  safeSearch := false
  blockedServices := []

structure ClientFilteringDecision where
  mode : ClientFilteringMode
  source : Option Text
  profile : Text
  profileData : ClientPolicyProfile

def ClientFilteringPolicies.decisionAt (policies : ClientFilteringPolicies) (client : IpAddr)
    (now : LocalTime) : ClientFilteringDecision :=
  let matched := maxByKey (fun rule : ClientFilteringRule => rule.network.prefixLen)
    (policies.rules.filter fun rule => rule.network.contains client &&
      rule.schedule.all fun schedule => scheduleIsActive schedule now)
  let profile := (matched.map ClientFilteringRule.profile).getD policies.defaultProfile
  { mode := profile.mode
    source := matched.map ClientFilteringRule.source
    profile := profile.name
    profileData := profile }

/-! ## Safe search and services -/

def safeSearchTargets : List (List Text × Text) :=
  [([ "google.com".toList, "www.google.com".toList, "google.com.hk".toList,
      "www.google.com.hk".toList], "forcesafesearch.google.com".toList),
    (["bing.com".toList, "www.bing.com".toList], "strict.bing.com".toList),
    (["duckduckgo.com".toList, "www.duckduckgo.com".toList], "safe.duckduckgo.com".toList),
    (["youtube.com".toList, "www.youtube.com".toList, "m.youtube.com".toList,
      "youtubei.googleapis.com".toList, "youtube.googleapis.com".toList,
      "youtube-nocookie.com".toList, "www.youtube-nocookie.com".toList],
      "restrictmoderate.youtube.com".toList)]

def safeSearchTarget (domain : Text) : Option Text :=
  (safeSearchTargets.find? fun (domains, target) => !domain.eqIgnoreAsciiCase target &&
    domains.any fun candidate => domain.eqIgnoreAsciiCase candidate).map Prod.snd

/-- The domains of each service. -/
def serviceDomainTable : List (Text × List Text) :=
  [("youtube".toList, ["youtube.com".toList, "youtu.be".toList, "youtube-nocookie.com".toList,
      "googlevideo.com".toList, "ytimg.com".toList, "youtubei.googleapis.com".toList]),
    ("tiktok".toList, ["tiktok.com".toList, "tiktokcdn.com".toList, "tiktokv.com".toList,
      "musical.ly".toList]),
    ("instagram".toList, ["instagram.com".toList, "cdninstagram.com".toList]),
    ("facebook".toList, ["facebook.com".toList, "facebook.net".toList, "fb.com".toList,
      "fbcdn.net".toList, "messenger.com".toList]),
    ("x".toList, ["x.com".toList, "twitter.com".toList, "t.co".toList, "twimg.com".toList]),
    ("reddit".toList, ["reddit.com".toList, "redd.it".toList, "redditmedia.com".toList,
      "redditstatic.com".toList]),
    ("twitch".toList, ["twitch.tv".toList, "twitchcdn.net".toList]),
    ("discord".toList, ["discord.com".toList, "discord.gg".toList, "discordapp.com".toList,
      "discordapp.net".toList]),
    ("steam".toList, ["steampowered.com".toList, "steamcommunity.com".toList,
      "steamstatic.com".toList, "steamcontent.com".toList]),
    ("epic".toList, ["epicgames.com".toList, "epicgames.dev".toList]),
    ("roblox".toList, ["roblox.com".toList, "rbxcdn.com".toList])]

def serviceDomains (service : Text) : List Text := (serviceDomainTable.lookup service).getD []

/-- `domain_matches` of the policies: the case of the whole domain does not
    matter, that of a domain above it does. -/
def serviceDomainMatches (domain base : Text) : Bool :=
  domain.eqIgnoreAsciiCase base || (domain.stripSuffix base).any fun start => start.endsWith '.'

namespace ClientFilteringDecision
variable (decision : ClientFilteringDecision) (domain : Text)

def safeSearchTarget : Option Text :=
  if decision.profileData.safeSearch then Filter.safeSearchTarget domain else none

def blockedService : Option Text :=
  decision.profileData.blockedServices.find? fun service =>
    (serviceDomains service).any fun base => serviceDomainMatches domain base

end ClientFilteringDecision

/-! ## Networks as numbers -/

theorem ofBigEndian_lt {base : ℕ} {ds : List ℕ} (h : ∀ d ∈ ds, d < base) :
    ofBigEndian base ds < base ^ ds.length := by
  have hfrom : ∀ bound init, init < bound →
      ds.foldl (fun n d => n * base + d) init < bound * base ^ ds.length := by
    induction ds with
    | nil => exact fun bound init hinit => by simpa using hinit
    | cons d ds ih =>
      obtain ⟨hd, hds⟩ := List.forall_mem_cons.1 h
      intro bound init hinit
      have hnext : init * base + d < bound * base := by
        calc init * base + d < init * base + base := Nat.add_lt_add_left hd _
          _ = (init + 1) * base := (Nat.succ_mul init base).symm
          _ ≤ bound * base := Nat.mul_le_mul_right base hinit
      rw [List.foldl_cons, List.length_cons, Nat.pow_succ', ← Nat.mul_assoc]
      exact ih hds _ _ hnext
  exact (hfrom 1 0 Nat.one_pos).trans_eq (Nat.one_mul _)

theorem ipParts_lt (address : IpAddr) : (ipParts address).2.2 < 2 ^ (ipParts address).2.1 := by
  cases address with
  | v4 a =>
    have hlt : ofBigEndian 256 ([a.first, a.second, a.third, a.fourth].map UInt8.toNat) <
        256 ^ ([a.first, a.second, a.third, a.fourth].map UInt8.toNat).length := by
      refine ofBigEndian_lt fun octet hoctet => ?_
      obtain ⟨byte, -, rfl⟩ := List.mem_map.1 hoctet
      exact byte.toNat_lt
    exact hlt.trans_le (by simp [ipParts])
  | v6 a =>
    have hlt : ofBigEndian 65536 (a.segments.map UInt16.toNat) <
        65536 ^ (a.segments.map UInt16.toNat).length := by
      refine ofBigEndian_lt fun group hgroup => ?_
      obtain ⟨segment, -, rfl⟩ := List.mem_map.1 hgroup
      exact segment.toNat_lt
    rw [List.length_map, a.length_segments] at hlt
    exact hlt.trans_le (by simp [ipParts])

theorem prefixNetwork_eq_iff {a b bits prefixLen : ℕ} (ha : a < 2 ^ bits) (hb : b < 2 ^ bits) :
    prefixNetwork a bits prefixLen = prefixNetwork b bits prefixLen ↔
      a >>> (bits - prefixLen) = b >>> (bits - prefixLen) := by
  unfold prefixNetwork
  split_ifs with hzero
  · rw [hzero, Nat.sub_zero, Nat.shiftRight_eq_div_pow, Nat.shiftRight_eq_div_pow,
      Nat.div_eq_of_lt ha, Nat.div_eq_of_lt hb]
  · rw [Nat.shiftLeft_eq, Nat.shiftLeft_eq]
    exact Nat.mul_left_inj (Nat.two_pow_pos _).ne'

theorem family_eq_iff {a b : IpAddr} (h : (ipParts a).1 = (ipParts b).1) :
    (ipParts a).2.1 = (ipParts b).2.1 := by
  cases a <;> cases b <;> first | rfl | cases h

theorem prefixNetwork_eq_div {a bits prefixLen : ℕ} (ha : a < 2 ^ bits) :
    prefixNetwork a bits prefixLen =
      a / 2 ^ (bits - prefixLen) * 2 ^ (bits - prefixLen) := by
  unfold prefixNetwork
  split_ifs with hzero
  · rw [hzero, Nat.sub_zero, Nat.div_eq_of_lt ha, Nat.zero_mul]
  · rw [Nat.shiftLeft_eq, Nat.shiftRight_eq_div_pow]

theorem prefixNetwork_congr {a b bits prefixLen len : ℕ} (ha : a < 2 ^ bits) (hb : b < 2 ^ bits)
    (h : a / 2 ^ (bits - prefixLen) = b / 2 ^ (bits - prefixLen)) (hlen : len ≤ prefixLen) :
    prefixNetwork a bits len = prefixNetwork b bits len := by
  have hsplit : 2 ^ (bits - len) =
      2 ^ (bits - prefixLen) * 2 ^ (bits - len - (bits - prefixLen)) := by
    rw [← Nat.pow_add]
    congr 1
    omega
  rw [prefixNetwork_eq_div ha, prefixNetwork_eq_div hb, hsplit, ← Nat.div_div_eq_div_mul,
    ← Nat.div_div_eq_div_mul, h]

end DnsBlackhole.Filter
