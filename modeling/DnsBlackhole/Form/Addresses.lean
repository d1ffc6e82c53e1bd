/-
  Addresses that the service reads (`std::net`), as the editor reads them.

  * `parseIpv4_of_read`, `parseIpv6_of_read`: the same number;
  * `parseIp_of_parseIpAddr`: every text of an address is one to the editor too.
-/
import DnsBlackhole.Form.Policies

namespace DnsBlackhole.Form
open Text (mem_split_of_mem splitOnceAt_append splitOnceAt_cons split_cons_append
  split_of_not_mem)
open DnsBlackhole.Filter (IpFamily ipParts ofBigEndian)
open Protocol

/-! ## Numbers -/

theorem foldl_shift (bits : ℕ) {parts : List ℕ} (h : ∀ part ∈ parts, part < 2 ^ bits) (init : ℕ) :
    parts.foldl (fun result part => (result <<< bits) ||| part) init =
      parts.foldl (fun n d => n * 2 ^ bits + d) init := by
  induction parts generalizing init with
  | nil => rfl
  | cons part parts ih =>
    obtain ⟨hpart, hparts⟩ := List.forall_mem_cons.1 h
    rw [List.foldl_cons, List.foldl_cons, ← Nat.shiftLeft_add_eq_or_of_lt hpart,
      Nat.shiftLeft_eq, ih hparts]

theorem readNumber_eq_some {radix maxDigits bound n : ℕ} {allowZeroPrefix : Bool} {t rest : Text}
    (h : readNumber radix maxDigits allowZeroPrefix bound t = some (n, rest)) :
    ∃ digits, t = digits ++ rest ∧ digits ≠ [] ∧ digits.length ≤ maxDigits ∧
      (∀ c ∈ digits, (Text.toDigit radix c).isSome) ∧
      (allowZeroPrefix ∨ ¬ digits.startsWith '0' ∨ digits.length = 1) ∧
      number radix digits = n ∧ n < bound := by
  simp only [readNumber] at h
  split_ifs at h with hempty hzero hbound
  push Not at hempty hzero
  obtain ⟨rfl, rfl⟩ := Prod.mk.injEq .. ▸ Option.some_inj.1 h
  have hstart := List.takeWhile_prefix (l := t) fun c => (Text.toDigit radix c).isSome
  refine ⟨_, (List.prefix_iff_eq_append.1 hstart).symm, hempty.1, hempty.2,
    fun c hc => List.mem_takeWhile_imp (p := fun c => (Text.toDigit radix c).isSome) hc, ?_, rfl,
    hbound⟩
  cases allowZeroPrefix with
  | true => exact .inl rfl
  | false =>
    refine .inr (or_iff_not_imp_left.2 fun hstart => ?_)
    have htext : t.startsWith '0' := by
      have hhead := eq_of_beq (not_not.1 hstart)
      rw [List.head?_takeWhile] at hhead
      exact beq_iff_eq.2 (Option.eq_some_of_filter_eq_some hhead)
    have hone := hzero (by simp) htext
    have hpos := List.length_pos_iff.2 hempty.1
    omega

/-! ## IPv4 -/

theorem isOctet_of_read {n : ℕ} {t rest : Text}
    (h : readNumber 10 3 false 256 t = some (n, rest)) :
    ∃ digits, t = digits ++ rest ∧ isOctet digits ∧ number 10 digits = n ∧ n < 256 := by
  obtain ⟨digits, rfl, hne, hlen, hdigits, hzero, hnumber, hbound⟩ := readNumber_eq_some h
  refine ⟨digits, rfl, ?_, hnumber, hbound⟩
  obtain ⟨c, digits, rfl⟩ := List.exists_cons_of_ne_nil hne
  obtain ⟨hc, hall⟩ := List.forall_mem_cons.1 hdigits
  rw [isDigit_iff] at hc
  by_cases h0 : c = '0'
  · subst h0
    rcases hzero with hzero | hzero | hzero
    · cases hzero
    · exact absurd rfl hzero
    · rw [List.length_eq_zero_iff.1 (Nat.succ_injective hzero)]
      rfl
  · have hrest : digits.all isDigit := List.all_eq_true.2 fun d hd => isDigit_iff.1 (hall d hd)
    have hlen : digits.length ≤ 2 := Nat.le_of_succ_le_succ hlen
    simp [isOctet, hc, h0, hlen, hrest]

theorem isDigit_of_isOctet {part : Text} (h : isOctet part) : ∀ c ∈ part, isDigit c := by
  cases part with
  | nil => cases h
  | cons c digits =>
    rw [isOctet, Bool.or_eq_true, Bool.and_eq_true, Bool.and_eq_true, Bool.and_eq_true,
      Bool.and_eq_true, List.all_eq_true] at h
    rcases h with ⟨hc, hdigits⟩ | ⟨⟨⟨hc, -⟩, -⟩, hdigits⟩
    · rw [eq_of_beq hc, List.isEmpty_iff.1 hdigits]
      intro d hd
      rw [List.mem_singleton.1 hd]
      rfl
    · exact List.forall_mem_cons.2 ⟨hc, hdigits⟩

theorem not_mem_of_isOctet {part : Text} {c : Char} (h : isOctet part) (hc : isDigit c = false) :
    c ∉ part := by
  intro hmem
  rw [isDigit_of_isOctet h c hmem] at hc
  cases hc

/-- The text of an IPv4 address: its octets between dots. -/
def IsIpv4Text (t : Text) (address : Ipv4Addr) : Prop :=
  ∃ d₁ d₂ d₃ d₄, t = d₁ ++ '.' :: (d₂ ++ '.' :: (d₃ ++ '.' :: d₄)) ∧
    (isOctet d₁ ∧ isOctet d₂ ∧ isOctet d₃ ∧ isOctet d₄) ∧
    number 10 d₁ = address.first.toNat ∧ number 10 d₂ = address.second.toNat ∧
    number 10 d₃ = address.third.toNat ∧ number 10 d₄ = address.fourth.toNat

theorem readGivenChar_eq_some {c : Char} {t rest : Text}
    (h : readGivenChar c t = some ((), rest)) : t = c :: rest := by
  cases t with
  | nil => cases h
  | cons d t =>
    rw [readGivenChar] at h
    split_ifs at h with heq
    cases h
    rw [heq]

theorem readIpv4Addr_eq_some {t rest : Text} {address : Ipv4Addr}
    (h : readIpv4Addr t = some (address, rest)) :
    ∃ text, t = text ++ rest ∧ IsIpv4Text text address := by
  have hoctet : ∀ {n : ℕ} {t rest : Text},
      readSeparator '.' 1 (readNumber 10 3 false 256) t = some (n, rest) →
      ∃ digits, t = '.' :: (digits ++ rest) ∧ isOctet digits ∧ number 10 digits = n ∧ n < 256 := by
    intro n t rest h
    obtain ⟨⟨_, u⟩, hdot, hread⟩ := Option.bind_eq_some_iff.1 h
    obtain ⟨digits, hu, hdigits⟩ := isOctet_of_read hread
    exact ⟨digits, hu ▸ readGivenChar_eq_some hdot, hdigits⟩
  unfold readIpv4Addr at h
  simp only [Option.bind_eq_bind, Option.bind_eq_some_iff] at h
  obtain ⟨⟨n₁, t₁⟩, h₁, ⟨n₂, t₂⟩, h₂, ⟨n₃, t₃⟩, h₃, ⟨n₄, t₄⟩, h₄, heq⟩ := h
  cases heq
  obtain ⟨d₁, rfl, ho₁, hn₁, hb₁⟩ := isOctet_of_read h₁
  obtain ⟨d₂, rfl, ho₂, hn₂, hb₂⟩ := hoctet h₂
  obtain ⟨d₃, rfl, ho₃, hn₃, hb₃⟩ := hoctet h₃
  obtain ⟨d₄, rfl, ho₄, hn₄, hb₄⟩ := hoctet h₄
  have hoctets : ∀ {n : ℕ}, n < 256 → (UInt8.ofNat n).toNat = n := fun hn =>
    UInt8.toNat_ofNat_of_lt hn
  refine ⟨d₁ ++ '.' :: (d₂ ++ '.' :: (d₃ ++ '.' :: d₄)), by simp, d₁, d₂, d₃, d₄, rfl,
    ⟨ho₁, ho₂, ho₃, ho₄⟩, ?_, ?_, ?_, ?_⟩
  · rw [hn₁, hoctets hb₁]
  · rw [hn₂, hoctets hb₂]
  · rw [hn₃, hoctets hb₃]
  · rw [hn₄, hoctets hb₄]

theorem parseIpv4_of_isIpv4Text {t : Text} {address : Ipv4Addr} (h : IsIpv4Text t address) :
    parseIpv4 t = some (ipParts (.v4 address)).2.2 := by
  obtain ⟨d₁, d₂, d₃, d₄, rfl, ⟨ho₁, ho₂, ho₃, ho₄⟩, hn₁, hn₂, hn₃, hn₄⟩ := h
  have hsplit : Text.split (· == '.') (d₁ ++ '.' :: (d₂ ++ '.' :: (d₃ ++ '.' :: d₄))) =
      [d₁, d₂, d₃, d₄] := by
    rw [split_cons_append (not_mem_of_isOctet ho₁ rfl), split_cons_append
      (not_mem_of_isOctet ho₂ rfl), split_cons_append (not_mem_of_isOctet ho₃ rfl),
      split_of_not_mem (not_mem_of_isOctet ho₄ rfl)]
  have hlt : ∀ octet : UInt8, octet.toNat < 256 := fun octet => octet.toNat_lt
  have hle : ∀ octet : UInt8, ¬ 255 < octet.toNat := fun octet => by
    have := octet.toNat_lt
    omega
  have hvalid : ¬ ([d₁, d₂, d₃, d₄].length ≠ 4 ∨ [d₁, d₂, d₃, d₄].any fun part =>
      !isOctet part || 255 < number 10 part) := by
    simp [ho₁, ho₂, ho₃, ho₄, hn₁, hn₂, hn₃, hn₄, hle]
  have hfold : ∀ init : ℕ, [d₁, d₂, d₃, d₄].foldl
      (fun result part => (result <<< 8) ||| number 10 part) init =
      ([d₁, d₂, d₃, d₄].map (number 10)).foldl (fun result n => (result <<< 8) ||| n) init :=
    fun _ => List.foldl_map.symm
  unfold parseIpv4
  rw [hsplit, if_neg hvalid, hfold, List.map_cons, List.map_cons, List.map_cons, List.map_cons,
    List.map_nil, hn₁, hn₂, hn₃, hn₄, foldl_shift 8 (by simp [hlt])]
  rfl

/-! ## IPv6 -/

/-- Tokens as they stand in an address: each behind a colon, perhaps but the first. -/
def separated : Bool → List Text → Text
  | _, [] => []
  | true, token :: tokens => ':' :: (token ++ separated true tokens)
  | false, token :: tokens => token ++ separated true tokens

theorem separated_nil (behind : Bool) : separated behind [] = [] := by
  cases behind <;> rfl

theorem separated_true_cons (token : Text) (tokens : List Text) :
    separated true (token :: tokens) = ':' :: (token ++ separated true tokens) := rfl

theorem separated_false_cons (token : Text) (tokens : List Text) :
    separated false (token :: tokens) = token ++ separated true tokens := rfl

/-- A token that can stand there. -/
def IsToken (token : Text) : Prop := token ≠ [] ∧ ':' ∉ token ∧ '%' ∉ token

theorem split_separated {token : Text} {tokens : List Text} (h : IsToken token)
    (hs : ∀ token ∈ tokens, IsToken token) :
    Text.split (· == ':') (token ++ separated true tokens) = token :: tokens := by
  induction tokens generalizing token with
  | nil => rw [separated_nil, List.append_nil, split_of_not_mem h.2.1]
  | cons token' tokens ih =>
    obtain ⟨htoken', htokens⟩ := List.forall_mem_cons.1 hs
    rw [separated_true_cons, split_cons_append h.2.1, ih htoken' htokens]

theorem parseIpv6Side_separated {tokens : List Text} (hs : ∀ token ∈ tokens, IsToken token) :
    parseIpv6Side (separated false tokens) = parseIpv6Tokens tokens := by
  cases tokens with
  | nil => rfl
  | cons token tokens =>
    obtain ⟨htoken, htokens⟩ := List.forall_mem_cons.1 hs
    have hne : separated false (token :: tokens) ≠ [] := fun hnil =>
      htoken.1 (List.append_eq_nil_iff.1 hnil).1
    rw [parseIpv6Side, if_neg hne, separated_false_cons, split_separated htoken htokens]

theorem splitOnceAt_separated {tokens : List Text} (hs : ∀ token ∈ tokens, IsToken token)
    (behind : Bool) (rest : Text) :
    Text.splitOnceAt (separated behind tokens ++ rest) "::".toList =
      (Text.splitOnceAt rest "::".toList).map fun r => (separated behind tokens ++ r.1, r.2) := by
  induction tokens generalizing behind with
  | nil => cases behind <;> exact (congrFun Option.map_id _).symm
  | cons token tokens ih =>
    obtain ⟨htoken, htokens⟩ := List.forall_mem_cons.1 hs
    have hbody : Text.splitOnceAt (token ++ (separated true tokens ++ rest)) "::".toList =
        (Text.splitOnceAt rest "::".toList).map fun r =>
          (token ++ (separated true tokens ++ r.1), r.2) := by
      rw [splitOnceAt_append rfl htoken.2.1, ih htokens true, Option.map_map]
      rfl
    cases behind with
    | false =>
      simp only [separated_false_cons, List.append_assoc]
      exact hbody
    | true =>
      have hstrip : Text.stripPrefix (':' :: (token ++ (separated true tokens ++ rest)))
          "::".toList = none := by
        refine Option.eq_none_iff_forall_not_mem.2 fun u hu => ?_
        obtain ⟨c, token, rfl⟩ := List.exists_cons_of_ne_nil htoken.1
        injection Text.stripPrefix_eq_some.1 hu with _ htail
        injection htail with hc
        exact htoken.2.1 (hc ▸ List.mem_cons_self)
      simp only [separated_true_cons, List.cons_append, List.append_assoc]
      rw [splitOnceAt_cons hstrip, hbody, Option.map_map]
      rfl

theorem isHexGroup_of_read {n : ℕ} {t rest : Text}
    (h : readNumber 16 4 true 65536 t = some (n, rest)) :
    ∃ token, t = token ++ rest ∧ isHexGroup token ∧ number 16 token = n ∧ n < 65536 := by
  obtain ⟨token, rfl, hne, hlen, hdigits, -, hnumber, hbound⟩ := readNumber_eq_some h
  refine ⟨token, rfl, ?_, hnumber, hbound⟩
  have hpos : 1 ≤ token.length := List.length_pos_iff.2 hne
  have hall : token.all fun c => (Text.toDigit 16 c).isSome := List.all_eq_true.2 hdigits
  simp [isHexGroup, hpos, hlen, hall]

theorem isToken_of_isHexGroup {token : Text} (h : isHexGroup token) :
    IsToken token ∧ '.' ∉ token := by
  rw [isHexGroup, Bool.and_eq_true, Bool.and_eq_true, decide_eq_true_iff, List.all_eq_true] at h
  obtain ⟨⟨hpos, -⟩, hdigits⟩ := h
  have hnot : ∀ c : Char, Text.toDigit 16 c = none → c ∉ token := by
    intro c hc hmem
    have hdigit := hdigits c hmem
    rw [hc] at hdigit
    cases hdigit
  exact ⟨⟨List.length_pos_iff.1 hpos, hnot ':' (by decide), hnot '%' (by decide)⟩,
    hnot '.' (by decide)⟩

theorem isToken_of_isIpv4Text {t : Text} {address : Ipv4Addr} (h : IsIpv4Text t address) :
    IsToken t := by
  obtain ⟨d₁, d₂, d₃, d₄, rfl, ⟨ho₁, ho₂, ho₃, ho₄⟩, -⟩ := h
  have hnot : ∀ c : Char, isDigit c = false → c ≠ '.' →
      c ∉ d₁ ++ '.' :: (d₂ ++ '.' :: (d₃ ++ '.' :: d₄)) := by
    intro c hc hdot
    simp [not_mem_of_isOctet ho₁ hc, not_mem_of_isOctet ho₂ hc, not_mem_of_isOctet ho₃ hc,
      not_mem_of_isOctet ho₄ hc, hdot]
  exact ⟨by simp, hnot ':' (by decide) (by decide), hnot '%' (by decide) (by decide)⟩

theorem parseIpv4_of_not_mem {t : Text} (h : '.' ∉ t) : parseIpv4 t = none := by
  unfold parseIpv4
  rw [split_of_not_mem h]
  rfl

theorem ipv4Groups (address : Ipv4Addr) :
    [((ipParts (.v4 address)).2.2 >>> 16) &&& 0xffff, (ipParts (.v4 address)).2.2 &&& 0xffff] =
      [u16OfBytes address.first address.second, u16OfBytes address.third address.fourth].map
        UInt16.toNat := by
  have hvalue : (ipParts (.v4 address)).2.2 = ((address.first.toNat * 256 +
      address.second.toNat) * 256 + address.third.toNat) * 256 + address.fourth.toNat := by
    simp [ipParts, ofBigEndian]
  have h₁ := address.first.toNat_lt
  have h₂ := address.second.toNat_lt
  have h₃ := address.third.toNat_lt
  have h₄ := address.fourth.toNat_lt
  have hmask : ∀ n : ℕ, n &&& 0xffff = n % 65536 := fun n => Nat.and_two_pow_sub_one_eq_mod n 16
  have hhigh : ((ipParts (.v4 address)).2.2 >>> 16) &&& 0xffff =
      (u16OfBytes address.first address.second).toNat := by
    rw [hmask, Nat.shiftRight_eq_div_pow, hvalue, u16OfBytes, UInt16.toNat_ofNat']
    omega
  have hlow : (ipParts (.v4 address)).2.2 &&& 0xffff =
      (u16OfBytes address.third address.fourth).toNat := by
    rw [hmask, hvalue, u16OfBytes, UInt16.toNat_ofNat']
    omega
  rw [hhigh, hlow]
  rfl

theorem separated_cons (behind : Bool) (token : Text) (tokens : List Text) :
    separated behind (token :: tokens) =
      (if behind then [':'] else []) ++ (token ++ separated true tokens) := by
  cases behind <;> rfl

theorem readSeparator_eq_some {α : Type} {index : ℕ} {read : Reader α} {a : α} {t rest : Text}
    (h : readSeparator ':' index read t = some (a, rest)) :
    ∃ u, read u = some (a, rest) ∧ t = (if 0 < index then [':'] else []) ++ u := by
  unfold readSeparator at h
  split_ifs at h with hindex
  · obtain ⟨⟨_, u⟩, hcolon, hread⟩ := Option.bind_eq_some_iff.1 h
    exact ⟨u, hread, by rw [if_pos hindex]; exact readGivenChar_eq_some hcolon⟩
  · exact ⟨t, h, by rw [if_neg hindex]; rfl⟩

/-- **The groups of an address** are those of its tokens. -/
theorem readGroups_eq {limit slots : ℕ} (hslots : slots ≤ limit) (t : Text) :
    ∃ tokens, t = separated (0 < limit - slots) tokens ++ (readGroups limit slots t).2 ∧
      (∀ token ∈ tokens, IsToken token) ∧
      parseIpv6Tokens tokens = some ((readGroups limit slots t).1.1.map UInt16.toNat) ∧
      (readGroups limit slots t).1.1.length ≤ slots := by
  induction slots generalizing t with
  | zero =>
    refine ⟨[], ?_, by simp, rfl, le_rfl⟩
    rw [separated_nil]
    rfl
  | succ slots ih =>
    have hif : ∀ i : ℕ, (if decide (0 < i) then [':'] else ([] : Text)) =
        if 0 < i then [':'] else [] := fun i => by simp
    rw [readGroups]
    split
    · next address rest hread =>
      -- an IPv4 address, which is the last token
      split_ifs at hread with hlast
      obtain ⟨u, haddress, rfl⟩ := readSeparator_eq_some hread
      obtain ⟨token, rfl, htoken⟩ := readIpv4Addr_eq_some haddress
      refine ⟨[token], ?_, ?_, ?_, ?_⟩
      · rw [separated_cons, separated_nil, List.append_nil, hif, List.append_assoc]
      · simpa using isToken_of_isIpv4Text htoken
      · rw [parseIpv6Tokens, parseIpv4_of_isIpv4Text htoken]
        exact congrArg some (ipv4Groups address)
      · change 2 ≤ slots + 1
        omega
    · split
      · next group rest hread =>
        obtain ⟨u, hnumber, rfl⟩ := readSeparator_eq_some hread
        obtain ⟨token, rfl, hgroup, hvalue, hbound⟩ := isHexGroup_of_read hnumber
        obtain ⟨htoken, hdot⟩ := isToken_of_isHexGroup hgroup
        obtain ⟨tokens, hrest, htokens, hgroups, hlen⟩ := ih (by omega) rest
        have hpos : 0 < limit - slots := by omega
        have hsegment : (UInt16.ofNat group).toNat = group := UInt16.toNat_ofNat_of_lt hbound
        rw [decide_eq_true hpos] at hrest
        refine ⟨token :: tokens, ?_, ?_, ?_, ?_⟩
        · rw [separated_cons, hif, List.append_assoc, List.append_assoc, ← hrest]
        · exact List.forall_mem_cons.2 ⟨htoken, htokens⟩
        · rw [parseIpv6Tokens, parseIpv4_of_not_mem hdot]
          dsimp only
          rw [if_pos hgroup, hgroups, Option.map_some, hvalue, List.map_cons,
            hsegment]
        · exact Nat.succ_le_succ hlen
      · refine ⟨[], ?_, by simp, rfl, Nat.zero_le _⟩
        rw [separated_nil]
        rfl

/-- What the editor makes of groups before and behind two colons. -/
def groupsValue (groups : List ℕ) : ℕ :=
  groups.foldl (fun result group => (result <<< 16) ||| group) 0

theorem groupsValue_segments (segments : List UInt16) :
    groupsValue (segments.map UInt16.toNat) = ofBigEndian 65536 (segments.map UInt16.toNat) := by
  refine foldl_shift 16 (fun group hgroup => ?_) 0
  obtain ⟨segment, -, rfl⟩ := List.mem_map.1 hgroup
  exact segment.toNat_lt

theorem not_mem_separated {tokens : List Text} (hs : ∀ token ∈ tokens, IsToken token)
    (behind : Bool) : '%' ∉ separated behind tokens := by
  induction tokens generalizing behind with
  | nil => cases behind <;> exact List.not_mem_nil
  | cons token tokens ih =>
    obtain ⟨htoken, htokens⟩ := List.forall_mem_cons.1 hs
    rw [separated_cons]
    have hcolon : '%' ∉ (if behind then [':'] else ([] : Text)) := by cases behind <;> decide
    simp only [List.mem_append, hcolon, htoken.2.2, ih htokens true, or_self, not_false_eq_true]

section
variable {t : Text} (ht : t ≠ []) (hzone : '%' ∉ t)
include ht hzone

theorem parseIpv6_of_groups {groups : List ℕ} (hsides : Text.splitOnceAt t "::".toList = none)
    (hgroups : parseIpv6Side t = some groups) (hlen : groups.length = 8) :
    parseIpv6 t = some (groupsValue groups) := by
  have hright : parseIpv6Side [] = some [] := rfl
  unfold parseIpv6
  rw [splitOn_of_none hsides]
  simp [ht, hzone, hgroups, hright, hlen, groupsValue]

theorem parseIpv6_of_sides {a b : Text} {left right : List ℕ}
    (hsides : Text.splitOnceAt t "::".toList = some (a, b))
    (hb : Text.splitOnceAt b "::".toList = none) (hleft : parseIpv6Side a = some left)
    (hright : parseIpv6Side b = some right) (hlen : left.length + right.length < 8) :
    parseIpv6 t = some (groupsValue
      (left ++ List.replicate (8 - left.length - right.length) 0 ++ right)) := by
  have hmissing : ¬ ((8 : ℤ) - left.length - right.length < 1) := by omega
  have htotal : left.length + (8 - left.length - right.length + right.length) = 8 := by omega
  unfold parseIpv6
  rw [splitOn_of_some ht hsides hb]
  simp [ht, hzone, hleft, hright, hmissing, htotal, groupsValue]

end

theorem mem_separated_of_length {tokens : List Text} {groups : List ℕ}
    (h : parseIpv6Tokens tokens = some groups) (hlen : 2 < groups.length) :
    ':' ∈ separated false tokens := by
  cases tokens with
  | nil =>
    cases h
    cases hlen
  | cons token tokens =>
    cases tokens with
    | nil =>
      have hle : groups.length ≤ 2 := by
        rw [parseIpv6Tokens] at h
        split at h
        · rw [if_pos rfl] at h
          cases h
          exact le_rfl
        · split_ifs at h
          cases h
          exact Nat.le_succ 1
      omega
    | cons token' tokens => simp [separated]

/-- **An IPv6 address has the same number**; its text has a colon. -/
theorem parseIpv6_of_parseWith {t : Text} {address : Ipv6Addr}
    (h : parseWith readIpv6Addr t = some address) :
    ':' ∈ t ∧ parseIpv6 t = some (ipParts (.v6 address)).2.2 := by
  obtain ⟨⟨address', rest⟩, hread, hend⟩ := Option.bind_eq_some_iff.1 h
  split_ifs at hend with hrest
  cases hend
  obtain rfl : rest = [] := hrest
  obtain ⟨tokens, ht, htokens, hgroups, hlen⟩ := readGroups_eq (le_refl 8) t
  unfold readIpv6Addr at hread
  obtain ⟨⟨⟨head, headIpv4⟩, t'⟩, hgroupsRead⟩ : ∃ r, readGroups 8 8 t = r := ⟨_, rfl⟩
  rw [hgroupsRead] at ht hgroups hlen hread
  dsimp only at ht hgroups hlen hread
  have hleft := (parseIpv6Side_separated htokens).trans hgroups
  have hsplit := splitOnceAt_separated htokens false
  have hzone := not_mem_separated htokens false
  split_ifs at hread with hfull hipv4
  · -- eight groups
    obtain ⟨rfl, rfl⟩ := Prod.mk.inj (Option.some.inj hread)
    rw [List.append_nil] at ht
    subst ht
    have hcolon := mem_separated_of_length hgroups (by rw [List.length_map, hfull]; decide)
    have hnone := hsplit []
    rw [List.append_nil] at hnone
    refine ⟨hcolon, ?_⟩
    have hvalue := parseIpv6_of_groups (List.ne_nil_of_mem hcolon) hzone hnone hleft
      ((List.length_map _).trans hfull)
    rw [groupsValue_segments] at hvalue
    exact hvalue
  · -- two colons
    simp only [Option.bind_eq_bind, Option.bind_eq_some_iff] at hread
    obtain ⟨⟨_, t₁⟩, hcolon₁, ⟨_, t₂⟩, hcolon₂, hread⟩ := hread
    split_ifs at hread with hsegments
    obtain ⟨rfl, hrest⟩ := Prod.mk.inj (Option.some.inj hread)
    obtain ⟨tokens', ht₂, htokens', hgroups', hlen'⟩ :=
      readGroups_eq (le_refl (8 - (head.length + 1))) t₂
    obtain rfl := readGivenChar_eq_some hcolon₁
    obtain rfl := readGivenChar_eq_some hcolon₂
    generalize readGroups (8 - (head.length + 1)) (8 - (head.length + 1)) t₂ = r at *
    obtain ⟨⟨tail, tailIpv4⟩, rest⟩ := r
    dsimp only at ht₂ hgroups' hlen' hrest hsegments
    subst hrest
    rw [Nat.sub_self, List.append_nil] at ht₂
    have hsides : Text.splitOnceAt t "::".toList = some (separated false tokens, t₂) := by
      have htwo : Text.splitOnceAt (':' :: ':' :: t₂) "::".toList = some ([], t₂) := by
        simp [Text.splitOnceAt, Text.stripPrefix, List.isPrefixOf?]
      rw [ht]
      refine (hsplit _).trans ?_
      rw [htwo, Option.map_some, List.append_nil]
    have hnone := splitOnceAt_separated htokens' false []
    rw [List.append_nil] at hnone
    have hzone' : '%' ∉ t := by
      rw [ht, ht₂]
      simp only [List.mem_append, List.mem_cons, not_or]
      exact ⟨hzone, by decide, by decide, not_mem_separated htokens' false⟩
    have hcolon : ':' ∈ t := by
      rw [ht]
      exact List.mem_append_right _ List.mem_cons_self
    have hcount : 8 - head.length - tail.length = 8 - tail.length - head.length := by omega
    have hvalue := parseIpv6_of_sides (List.ne_nil_of_mem hcolon) hzone' hsides
      (ht₂ ▸ hnone) hleft (ht₂ ▸ (parseIpv6Side_separated htokens').trans hgroups')
      (by rw [List.length_map, List.length_map]; omega)
    rw [List.length_map, List.length_map, hcount] at hvalue
    refine ⟨hcolon, hvalue.trans ?_⟩
    have hmap : head.map UInt16.toNat ++ List.replicate (8 - tail.length - head.length) 0 ++
        tail.map UInt16.toNat = (head ++ List.replicate (8 - tail.length - head.length) 0 ++
          tail).map UInt16.toNat := by
      rw [List.map_append, List.map_append, List.map_replicate]
      rfl
    rw [hmap, groupsValue_segments]
    rfl

/-! ## Addresses -/

theorem isDigit_of_parseIpv4 {t : Text} {value : ℕ} (h : parseIpv4 t = some value) {c : Char}
    (hc : c ∈ t) (hdot : c ≠ '.') : isDigit c := by
  unfold parseIpv4 at h
  dsimp only at h
  split_ifs at h with hvalid
  obtain ⟨part, hpart, hmem⟩ := mem_split_of_mem (p := (· == '.')) hc fun heq => hdot (eq_of_beq heq)
  push Not at hvalid
  have hoctet := hvalid.2
  rw [ne_eq, Bool.not_eq_true, List.any_eq_false] at hoctet
  have hpart := hoctet part hpart
  rw [Bool.or_eq_true, not_or, Bool.not_eq_true', Bool.not_eq_false] at hpart
  exact isDigit_of_isOctet hpart.1 c hmem

/-- An address as the editor has it. -/
def parsedIp (address : IpAddr) : ParsedIp :=
  ⟨(ipParts address).1, (ipParts address).2.2, (ipParts address).2.1⟩

/-- **Every address of the service is one to the editor**, with the same number. -/
theorem parseIp_of_parseIpAddr {t : Text} {address : IpAddr} (h : parseIpAddr t = some address) :
    parseIp t = some (parsedIp address) := by
  obtain ⟨⟨address', rest⟩, hread, hend⟩ := Option.bind_eq_some_iff.1 h
  split_ifs at hend with hrest
  cases hend
  obtain rfl : rest = [] := hrest
  dsimp only at hread
  split at hread
  · next ipv4 rest hipv4 =>
    cases hread
    obtain ⟨text, rfl, htext⟩ := readIpv4Addr_eq_some hipv4
    rw [List.append_nil, parseIp, parseIpv4_of_isIpv4Text htext]
    rfl
  · obtain ⟨⟨ipv6, rest⟩, hipv6, heq⟩ := Option.map_eq_some_iff.1 hread
    cases heq
    have hwith : parseWith readIpv6Addr t = some ipv6 :=
      Option.bind_eq_some_iff.2 ⟨_, hipv6, if_pos rfl⟩
    obtain ⟨hcolon, hvalue⟩ := parseIpv6_of_parseWith hwith
    have hnone : parseIpv4 t = none := by
      refine Option.eq_none_iff_forall_not_mem.2 fun value hv => ?_
      have hdigit := isDigit_of_parseIpv4 hv hcolon (by decide)
      cases hdigit
    rw [parseIp, hnone]
    dsimp only
    rw [hvalue]
    rfl

/-! ## Characters of addresses -/

def isIpChar (c : Char) : Bool := (Text.toDigit 16 c).isSome || c == ':' || c == '.'

theorem bounds_of_isIpChar {c : Char} (h : isIpChar c) : 46 ≤ c.toNat ∧ c.toNat ≤ 122 := by
  rw [isIpChar, Bool.or_eq_true, Bool.or_eq_true, beq_iff_eq, beq_iff_eq] at h
  rcases h with (h | rfl) | rfl
  · unfold Text.toDigit at h
    split_ifs at h with hdigit hlower hupper
    · have hlow : 48 ≤ c.toNat := hdigit.1
      have hhigh : c.toNat ≤ 57 := hdigit.2
      omega
    · have hlow : 97 ≤ c.toNat := hlower.1
      have hhigh : c.toNat ≤ 122 := hlower.2
      omega
    · have hlow : 65 ≤ c.toNat := hupper.1
      have hhigh : c.toNat ≤ 90 := hupper.2
      omega
    · cases h
  · decide
  · decide

theorem isIpChar_of_isDigit {c : Char} (h : isDigit c) : isIpChar c := by
  have hdigit : '0' ≤ c ∧ c ≤ '9' := by
    rwa [isDigit, Bool.and_eq_true, decide_eq_true_iff, decide_eq_true_iff] at h
  have hlt : c.toNat - 48 < 16 := by
    have hle : c.toNat ≤ 57 := hdigit.2
    omega
  simp [isIpChar, Text.toDigit, hdigit, hlt]

theorem isIpChar_of_parseIpv4 {t : Text} {value : ℕ} (h : parseIpv4 t = some value) :
    ∀ c ∈ t, isIpChar c := by
  intro c hc
  by_cases hdot : c = '.'
  · subst hdot
    decide
  · exact isIpChar_of_isDigit (isDigit_of_parseIpv4 h hc hdot)

theorem isIpChar_of_tokens {tokens : List Text} {groups : List ℕ}
    (h : parseIpv6Tokens tokens = some groups) : ∀ token ∈ tokens, ∀ c ∈ token, isIpChar c := by
  induction tokens generalizing groups with
  | nil => exact fun token htoken => absurd htoken List.not_mem_nil
  | cons token tokens ih =>
    rw [parseIpv6Tokens] at h
    split at h
    · next ipv4 hipv4 =>
      split_ifs at h with htokens
      subst htokens
      exact List.forall_mem_singleton.2 (isIpChar_of_parseIpv4 hipv4)
    · split_ifs at h with hgroup
      obtain ⟨groups', hgroups', -⟩ := Option.map_eq_some_iff.1 h
      refine List.forall_mem_cons.2 ⟨fun c hc => ?_, ih hgroups'⟩
      rw [isHexGroup, Bool.and_eq_true, List.all_eq_true] at hgroup
      simp [isIpChar, hgroup.2 c hc]

theorem isIpChar_of_side {t : Text} {groups : List ℕ} (h : parseIpv6Side t = some groups) :
    ∀ c ∈ t, isIpChar c := by
  intro c hc
  rw [parseIpv6Side, if_neg (List.ne_nil_of_mem hc)] at h
  by_cases hcolon : c = ':'
  · subst hcolon
    decide
  · obtain ⟨token, htoken, hmem⟩ := mem_split_of_mem (p := (· == ':')) hc
      fun heq => hcolon (eq_of_beq heq)
    exact isIpChar_of_tokens h token htoken c hmem

theorem isIpChar_of_parseIpv6 {t : Text} {value : ℕ} (h : parseIpv6 t = some value) :
    ∀ c ∈ t, isIpChar c := by
  intro c hc
  by_cases hcolon : c = ':'
  · subst hcolon
    decide
  have hnot : c ∉ "::".toList := by simp [hcolon]
  obtain ⟨side, hside, hmem⟩ := mem_splitOn_of_mem hc hnot
  unfold parseIpv6 at h
  dsimp only at h
  split_ifs at h with hsides
  push Not at hsides
  obtain ⟨left, hleft, h⟩ := Option.bind_eq_some_iff.1 h
  obtain ⟨right, hright, -⟩ := Option.bind_eq_some_iff.1 h
  -- one side, or two
  generalize splitOn "::".toList t = sides at *
  obtain _ | ⟨a, _ | ⟨b, _ | ⟨_, sides⟩⟩⟩ := sides
  · cases hside
  · rw [List.mem_singleton] at hside
    subst hside
    exact isIpChar_of_side hleft c hmem
  · rcases List.mem_pair.1 hside with rfl | rfl
    · exact isIpChar_of_side hleft c hmem
    · exact isIpChar_of_side hright c hmem
  · have hlen := hsides.2.2
    simp only [List.length_cons] at hlen
    omega

/-- **An address has digits, colons and dots.** -/
theorem isIpChar_of_parseIp {t : Text} {ip : ParsedIp} (h : parseIp t = some ip) :
    ∀ c ∈ t, isIpChar c := by
  unfold parseIp at h
  split at h
  · next ipv4 hipv4 => exact isIpChar_of_parseIpv4 hipv4
  · obtain ⟨ipv6, hipv6, -⟩ := Option.map_eq_some_iff.1 h
    exact isIpChar_of_parseIpv6 hipv6

end DnsBlackhole.Form
