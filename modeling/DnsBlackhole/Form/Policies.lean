/-
  The policy editor of the interface (`client-policy-form.ts`): how it reads client
  rules, and the policy it shows for a client.

  `null` is `none`, and so is a check that throws.
-/
import DnsBlackhole.Config.Policies
import DnsBlackhole.Form.Strings

namespace DnsBlackhole.Form
open DnsBlackhole.Filter (IpFamily LocalTime)

def clientPolicyWeekdays : List Text :=
  ["mon".toList, "tue".toList, "wed".toList, "thu".toList, "fri".toList, "sat".toList, "sun".toList]

structure ClientPolicySchedule where
  days : Text
  start : Text
  finish : Text

structure ClientPolicyRule where
  network : Text
  profile : Text
  schedule : Option ClientPolicySchedule

structure EffectiveClientPolicy where
  profile : Text
  source : Option Text
  scheduled : Bool
  deriving DecidableEq

/-! ## Addresses -/

structure ParsedIp where
  family : IpFamily
  value : ℕ
  bits : ℕ

structure ParsedNetwork extends ParsedIp where
  prefixLen : ℕ

/-- `/^(0|[1-9]\d{0,2})$/` -/
def isOctet : Text → Bool
  | [] => false
  | c :: digits => (c == '0' && digits.isEmpty) ||
      (isDigit c && c != '0' && digits.length ≤ 2 && digits.all isDigit)

def parseIpv4 (value : Text) : Option ℕ :=
  let parts := value.split (· == '.')
  if parts.length ≠ 4 ∨ parts.any fun part => !isOctet part || 255 < number 10 part then none
  else some (parts.foldl (fun result part => (result <<< 8) ||| number 10 part) 0)

/-- `/^[0-9a-f]{1,4}$/i` -/
def isHexGroup (token : Text) : Bool :=
  1 ≤ token.length && token.length ≤ 4 && token.all fun c => (Text.toDigit 16 c).isSome

/-- The loop of `parseIpv6Side`: an IPv4 address may be the last token. -/
def parseIpv6Tokens : List Text → Option (List ℕ)
  | [] => some []
  | token :: tokens =>
    match parseIpv4 token with
    | some ipv4 => if tokens = [] then some [(ipv4 >>> 16) &&& 0xffff, ipv4 &&& 0xffff] else none
    | none =>
      if isHexGroup token then (parseIpv6Tokens tokens).map (number 16 token :: ·) else none

def parseIpv6Side (value : Text) : Option (List ℕ) :=
  if value = [] then some [] else parseIpv6Tokens (value.split (· == ':'))

def parseIpv6 (value : Text) : Option ℕ :=
  let sides := splitOn "::".toList value
  if value = [] ∨ '%' ∈ value ∨ 2 < sides.length then none
  else do
    let hasCompression := 1 < sides.length
    let left ← parseIpv6Side (sides.getD 0 [])
    let right ← parseIpv6Side (sides.getD 1 [])
    let missing : ℤ := 8 - left.length - right.length
    if (¬ hasCompression ∧ missing ≠ 0) ∨ (hasCompression ∧ missing < 1) then none
    else
      let groups := left ++ List.replicate missing.toNat 0 ++ right
      if groups.length ≠ 8 then none
      else some (groups.foldl (fun result group => (result <<< 16) ||| group) 0)

def parseIp (value : Text) : Option ParsedIp :=
  match parseIpv4 value with
  | some ipv4 => some ⟨.v4, ipv4, 32⟩
  | none => (parseIpv6 value).map fun ipv6 => ⟨.v6, ipv6, 128⟩

/-- `/^\d{1,3}$/` -/
def isPrefixText (t : Text) : Bool := 1 ≤ t.length && t.length ≤ 3 && t.all isDigit

def parseNetwork (value : Text) : Option ParsedNetwork :=
  match value.split (· == '/') with
  | [ip] => (parseIp ip).map fun ip => { ip with prefixLen := ip.bits }
  | [ip, length] => do
    let ip ← parseIp ip
    if isPrefixText length ∧ number 10 length ≤ ip.bits then
      some { ip with prefixLen := number 10 length }
    else none
  | _ => none

def networkContains (network : ParsedNetwork) (address : ParsedIp) : Bool :=
  network.family == address.family &&
    network.value >>> (network.bits - network.prefixLen) ==
      address.value >>> (network.bits - network.prefixLen)

/-! ## Checks -/

def validateIpOrCidr (value : Text) : Bool := (parseNetwork (trim value)).isSome

/-- `/^[a-z0-9_-]{1,32}$/i` -/
def validatePolicyName (value : Text) : Bool :=
  let name := trim value
  1 ≤ name.length && name.length ≤ 32 && name.all isNameChar

/-! ## Schedules -/

/-- The loop over the days from one to another is that of the service. -/
def parseWeekdays (value : Text) : Option (List Bool) :=
  if toLowerCase value = "daily".toList then some (List.replicate 7 true)
  else do
    let weekdays ← ((toLowerCase value).split (· == ',')).foldlM (fun weekdays item => do
      let parts := item.split (· == '-')
      let startValue := parts.getD 0 []
      let start ← clientPolicyWeekdays.idxOf? startValue
      let finish ← clientPolicyWeekdays.idxOf? (parts.getD 1 startValue)
      some (List.zipWith (· || ·) weekdays (Config.weekdaysBetween start finish)))
      (List.replicate 7 false)
    if weekdays.any id then some weekdays else none

/-- `/^(\d{2}):(\d{2})$/`, and the minute of the day. -/
def parseTime (value : Text) : Option ℕ :=
  match value with
  | [h₁, h₂, colon, m₁, m₂] =>
    if isDigit h₁ && isDigit h₂ && colon == ':' && isDigit m₁ && isDigit m₂ then
      let hour := number 10 [h₁, h₂]
      let minute := number 10 [m₁, m₂]
      if hour ≤ 23 ∧ minute ≤ 59 then some (hour * 60 + minute) else none
    else none
  | _ => none

def validateSchedule (schedule : ClientPolicySchedule) : Bool :=
  (parseWeekdays schedule.days).isSome && (parseTime schedule.start).isSome &&
    (parseTime schedule.finish).isSome

def parseSchedule (value : Text) : Option ClientPolicySchedule :=
  match trimmedWords value with
  | [days, time] =>
    match time.split (· == '-') with
    | [start, finish] =>
      let schedule := ⟨toLowerCase days, start, finish⟩
      if validateSchedule schedule then some schedule else none
    | _ => none
  | _ => none

def scheduleIsActive (schedule : ClientPolicySchedule) (now : LocalTime) : Bool :=
  let weekdays := (parseWeekdays schedule.days).getD []
  match parseTime schedule.start, parseTime schedule.finish with
  | some start, some finish =>
    if start = finish then weekdays.getD now.weekday false
    else if start < finish then
      weekdays.getD now.weekday false && start ≤ now.minute && now.minute < finish
    else if start ≤ now.minute then weekdays.getD now.weekday false
    else now.minute < finish && weekdays.getD ((now.weekday + 6) % 7) false
  | _, _ => false

/-! ## Lines -/

def isComment (t : Text) : Bool := t.isEmpty || t.startsWith '#' || t.startsWith '!'

def parseClientPolicyRuleLine (line : Text) : Option ClientPolicyRule :=
  let trimmed := trim line
  if isComment trimmed then none
  else match splitOn "=>".toList trimmed with
    | [network, policy] =>
      let network := trim network
      match policy.split (· == '@') with
      | [profile] =>
        if validateIpOrCidr network ∧ validatePolicyName (trim profile) then
          some ⟨network, toLowerCase (trim profile), none⟩
        else none
      | [profile, schedule] =>
        if validateIpOrCidr network ∧ validatePolicyName (trim profile) then
          (parseSchedule schedule).map fun schedule =>
            ⟨network, toLowerCase (trim profile), some schedule⟩
        else none
      | _ => none
    | _ => none

def parseClientPolicyRules (value : Text) : List ClientPolicyRule :=
  (value.split (· == '\n')).filterMap parseClientPolicyRuleLine

/-! ## The effective policy -/

/-- The rule that decides for an address, with the length of its network. -/
def matchedRule (address : ParsedIp) (rules : List ClientPolicyRule) (now : LocalTime) :
    Option (ClientPolicyRule × ℕ) :=
  rules.foldl (fun matched rule =>
    match parseNetwork rule.network with
    | some network =>
      if !networkContains network address ||
          rule.schedule.any fun schedule => !scheduleIsActive schedule now then matched
      else if matched.all fun best => best.2 ≤ network.prefixLen then
        some (rule, network.prefixLen)
      else matched
    | none => matched) none

/-- `now` has the weekday from Monday, to which the source moves that of `Date`. -/
def resolveEffectiveClientPolicy (client rulesValue : Text) (now : LocalTime) :
    EffectiveClientPolicy :=
  match parseIp (trim client) with
  | none => ⟨"filter".toList, none, false⟩
  | some address =>
    match matchedRule address (parseClientPolicyRules rulesValue) now with
    | some (rule, _) => ⟨rule.profile, some rule.network, rule.schedule.isSome⟩
    | none => ⟨"filter".toList, none, false⟩

end DnsBlackhole.Form
