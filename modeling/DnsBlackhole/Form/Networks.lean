/-
  Networks that the service accepts, as the editor reads them.

  * `parseNetwork_eq`: it reads a network if the length of its prefix is written with
    at most three digits and no sign (`plainNetwork`);
  * `networkContains_eq`: then both have the same addresses in it.
-/
import DnsBlackhole.Form.Addresses
import DnsBlackhole.Lib.Fallible
import DnsBlackhole.Service.Build

namespace DnsBlackhole.Form
open Text (mem_split_of_mem splitOnce_eq_none splitOnce_eq_some split_cons_append
  split_of_not_mem)
open DnsBlackhole.Filter (IpNetwork family_eq_iff ipParts ipParts_lt prefixNetwork
  prefixNetwork_eq_iff)
open Service (ipNetwork parseIpNetwork)
open Config (okOr okOr_eq_ok)
open Lib (bind_eq_ok pure_eq_ok)

/-- The length of the prefix is written as the editor reads it. -/
def plainNetwork (value : Text) : Bool :=
  match value.splitOnce (· == '/') with
  | some (_, length) => isPrefixText length
  | none => true

/-- What a network is to the service: an address, perhaps with a length. -/
inductive IsNetwork : Text → IpAddr → ℕ → Prop
  | address {t address} : Text.splitOnce (· == '/') t = none → parseIpAddr t = some address →
      IsNetwork t address (ipParts address).2.1
  | withLength {t ip length address prefixLen} :
      Text.splitOnce (· == '/') t = some (ip, length) → parseIpAddr ip = some address →
      Filter.parseU8 length = some prefixLen → prefixLen ≤ (ipParts address).2.1 →
      IsNetwork t address prefixLen

theorem isNetwork_of_validate {value : Text} (h : Config.validateIpOrCidr value) :
    ∃ address prefixLen, IsNetwork value address prefixLen := by
  rw [Config.validateIpOrCidr, Bool.or_eq_true] at h
  rcases h with h | h
  · obtain ⟨address, haddress⟩ := Option.isSome_iff_exists.1 h
    refine ⟨address, _, .address (splitOnce_eq_none.2 fun hslash => ?_) haddress⟩
    have hchar := isIpChar_of_parseIp (parseIp_of_parseIpAddr haddress) _ hslash
    cases hchar
  · split at h
    · next ip length hsplit =>
      split at h
      · next address prefixLen haddress hlength =>
        exact ⟨_, _, .withLength hsplit haddress hlength (of_decide_eq_true h)⟩
      · next address prefixLen haddress hlength =>
        exact ⟨_, _, .withLength hsplit haddress hlength (of_decide_eq_true h)⟩
      · cases h
    · cases h

theorem number_of_parseU8 {t : Text} {value : ℕ} (h : Filter.parseU8 t = some value) :
    '/' ∉ t ∧ (isPrefixText t → number 10 t = value) := by
  obtain ⟨value', hvalue, h⟩ := Option.bind_eq_some_iff.1 h
  split_ifs at h
  cases h
  obtain ⟨digits, hdigits, -, hall, -⟩ := parseU16_eq_some hvalue
  have hslash : '/' ∉ digits := fun hmem => by cases hall _ hmem
  refine ⟨?_, fun hstart => number_of_parseU16 hvalue ?_⟩
  · rcases hdigits with rfl | rfl
    · exact hslash
    · exact List.not_mem_cons_of_ne_of_not_mem (by decide) hslash
  · rw [isPrefixText, Bool.and_eq_true, List.all_eq_true] at hstart
    exact hstart.2

theorem parseNetwork_eq {value : Text} {address : IpAddr} {prefixLen : ℕ}
    (h : IsNetwork value address prefixLen) :
    parseNetwork value =
      if plainNetwork value then some { parsedIp address with prefixLen } else none := by
  cases h with
  | address hsplit haddress =>
    rw [parseNetwork, plainNetwork, hsplit, split_of_not_mem (splitOnce_eq_none.1 hsplit)]
    dsimp only
    rw [parseIp_of_parseIpAddr haddress]
    rfl
  | @withLength ip length _ prefixLen hsplit haddress hlength hle =>
    obtain ⟨rfl, hip⟩ := splitOnce_eq_some hsplit
    obtain ⟨hslash, hnumber⟩ := number_of_parseU8 hlength
    rw [parseNetwork, plainNetwork, hsplit, split_cons_append hip, split_of_not_mem hslash]
    dsimp only
    rw [parseIp_of_parseIpAddr haddress]
    change (if _ then _ else _) = _
    by_cases hstart : isPrefixText length
    · have hbits : number 10 length ≤ (parsedIp address).bits := (hnumber hstart).le.trans hle
      rw [if_pos ⟨hstart, hbits⟩, if_pos hstart, hnumber hstart]
    · rw [if_neg fun hand => hstart hand.1, if_neg hstart]

theorem toNat_of_isIpChar {c : Char} (h : isIpChar c) :
    c.toNat < 128 ∧ ¬ Text.isWhitespace c := by
  have hbounds := bounds_of_isIpChar h
  refine ⟨by omega, ?_⟩
  simp [Text.isWhitespace]
  omega

theorem toNat_of_validate {value : Text} (h : Config.validateIpOrCidr value) :
    ∀ c ∈ value, c.toNat < 128 ∧ ¬ Text.isWhitespace c := by
  obtain ⟨address, prefixLen, hnetwork⟩ := isNetwork_of_validate h
  have haddress : ∀ {t : Text}, parseIpAddr t = some address →
      ∀ c ∈ t, c.toNat < 128 ∧ ¬ Text.isWhitespace c := fun ht c hc =>
    toNat_of_isIpChar (isIpChar_of_parseIp (parseIp_of_parseIpAddr ht) c hc)
  cases hnetwork with
  | address _ hparse => exact haddress hparse
  | @withLength ip length _ _ hsplit hparse hlength _ =>
    obtain ⟨rfl, -⟩ := splitOnce_eq_some hsplit
    have hdigits : ∀ c ∈ length, isDigit c ∨ c = '+' := by
      obtain ⟨value, hvalue, -⟩ := Option.bind_eq_some_iff.1 hlength
      obtain ⟨digits, rfl | rfl, -, hall, -⟩ := parseU16_eq_some hvalue
      · exact fun c hc => .inl (hall c hc)
      · exact List.forall_mem_cons.2 ⟨.inr rfl, fun c hc => .inl (hall c hc)⟩
    intro c hc
    rcases List.mem_append.1 hc with hc | hc
    · exact haddress hparse c hc
    rcases List.mem_cons.1 hc with rfl | hc
    · decide
    rcases hdigits c hc with hdigit | rfl
    · exact toNat_of_isIpChar (isIpChar_of_isDigit hdigit)
    · decide

theorem isIpChar_of_parseNetwork {t : Text} {network : ParsedNetwork}
    (h : parseNetwork t = some network) : t ≠ [] ∧ ∀ c ∈ t, isIpChar c ∨ c = '/' := by
  refine ⟨fun hnil => ?_, fun c hc => ?_⟩
  · rw [hnil] at h
    cases h
  by_cases hslash : c = '/'
  · exact .inr hslash
  left
  obtain ⟨part, hpart, hmem⟩ := mem_split_of_mem (p := (· == '/')) hc
    fun heq => hslash (eq_of_beq heq)
  unfold parseNetwork at h
  split at h
  · next ip hsplit =>
    rw [hsplit, List.mem_singleton] at hpart
    obtain ⟨address, haddress, -⟩ := Option.map_eq_some_iff.1 h
    exact isIpChar_of_parseIp haddress c (hpart ▸ hmem)
  · next ip length hsplit =>
    rw [hsplit] at hpart
    obtain ⟨address, haddress, h⟩ := Option.bind_eq_some_iff.1 h
    split_ifs at h with hlength
    rcases List.mem_pair.1 hpart with rfl | rfl
    · exact isIpChar_of_parseIp haddress c hmem
    · have hstart := hlength.1
      rw [isPrefixText, Bool.and_eq_true, List.all_eq_true] at hstart
      exact isIpChar_of_isDigit (hstart.2 c hmem)
  · cases h

/-! ## Addresses of a network -/

theorem parseIpNetwork_eq {value : Text} {address : IpAddr} {prefixLen : ℕ}
    (h : IsNetwork value address prefixLen) (label : Text) :
    parseIpNetwork value label = .ok ⟨(ipParts address).1,
      prefixNetwork (ipParts address).2.2 (ipParts address).2.1 prefixLen, prefixLen⟩ := by
  have hnetwork : ∀ {prefixLen : ℕ}, prefixLen ≤ (ipParts address).2.1 →
      ipNetwork address prefixLen = some ⟨(ipParts address).1,
        prefixNetwork (ipParts address).2.2 (ipParts address).2.1 prefixLen, prefixLen⟩ :=
    fun hle => if_neg (not_lt.2 hle)
  unfold parseIpNetwork
  cases h with
  | address hsplit haddress =>
    rw [hsplit, haddress]
    exact okOr_eq_ok.2 (hnetwork le_rfl)
  | withLength hsplit haddress hlength hle =>
    rw [hsplit]
    dsimp only
    rw [haddress, hlength]
    exact okOr_eq_ok.2 (hnetwork hle)

/-- **Both have the same addresses in a network.** -/
theorem networkContains_eq (address client : IpAddr) (prefixLen : ℕ) :
    networkContains { parsedIp address with prefixLen } (parsedIp client) =
      IpNetwork.contains ⟨(ipParts address).1,
        prefixNetwork (ipParts address).2.2 (ipParts address).2.1 prefixLen, prefixLen⟩ client := by
  rw [Bool.eq_iff_iff]
  simp only [networkContains, IpNetwork.contains, parsedIp, Bool.and_eq_true, beq_iff_eq]
  constructor
  · rintro ⟨hfamily, hshift⟩
    have hbits := family_eq_iff hfamily
    refine ⟨hfamily.symm, ?_⟩
    rw [← hbits, prefixNetwork_eq_iff (hbits ▸ ipParts_lt client) (ipParts_lt address)]
    exact hshift.symm
  · rintro ⟨hfamily, hnetwork⟩
    have hbits := family_eq_iff hfamily
    refine ⟨hfamily.symm, ?_⟩
    rw [hbits, prefixNetwork_eq_iff (hbits ▸ ipParts_lt client) (ipParts_lt address)] at hnetwork
    exact hnetwork.symm

end DnsBlackhole.Form
