/-
  Which reverse names are local (`is_local_reverse_name` of
  `dns/local_reverse.rs`).

  A reverse name has the parts of an address, the last ones first; with fewer parts
  than an address it is the name of a block of addresses.

  * `networkIsLocal_iff`: a block is in one of the local networks if all of its
    addresses are in some of them;
  * `v4ReverseLabel_eq_some`: labels are taken with a plus sign in front, and with
    zeroes behind it;
  * **`isLocalReverseName_iff`**: but for such labels, the local names are the
    shortest names of blocks of local addresses.
-/
import DnsBlackhole.Decimal
import DnsBlackhole.Filter.LocalReverse
import DnsBlackhole.Lib.Fallible
import DnsBlackhole.Pieces

namespace DnsBlackhole.Filter
open Text

/-! ## Blocks and their names -/

/-- How reverse names of a family are written: `count` parts of `width` bits each make
    an address. -/
structure ReverseZone where
  suffix : Text
  width : ℕ
  count : ℕ
  write : ℕ → Text
  networks : List (ℕ × ℕ)

def v4Zone : ReverseZone where
  suffix := v4ReverseSuffix
  width := 8
  count := 4
  write := Nat.toDigits 10
  networks := localV4Networks

def v6Zone : ReverseZone where
  suffix := v6ReverseSuffix
  width := 4
  count := 32
  write n := [Nat.digitChar n]
  networks := localV6Networks

namespace ReverseZone
variable (zone : ReverseZone)

def bits : ℕ := zone.width * zone.count

/-- How many bits of an address are behind its first parts. -/
def hostBits (parts : List ℕ) : ℕ := zone.width * (zone.count - parts.length)

/-- The name of the block of addresses that begin with `parts`. -/
def name (parts : List ℕ) : Text :=
  Text.join (parts.reverse.map zone.write) ['.'] ++ zone.suffix

/-- An address begins with `parts`. -/
def InBlock (parts : List ℕ) (address : ℕ) : Prop :=
  address < 2 ^ zone.bits ∧
    address / 2 ^ zone.hostBits parts = ofBigEndian (2 ^ zone.width) parts

/-- An address is in one of the local networks. -/
def IsLocal (address : ℕ) : Prop :=
  ∃ network ∈ zone.networks, prefixNetwork address zone.bits network.2 = network.1

/-- From one part to a whole address. -/
structure IsBlock (parts : List ℕ) : Prop where
  ne_nil : parts ≠ []
  length_le : parts.length ≤ zone.count
  lt : ∀ part ∈ parts, part < 2 ^ zone.width

/-- The name of a block with local addresses only. -/
def IsLocalName (domain : Text) : Prop :=
  ∃ parts, zone.IsBlock parts ∧ domain = zone.name parts ∧
    ∀ address, zone.InBlock parts address → zone.IsLocal address

theorem hostBits_eq (parts : List ℕ) :
    zone.hostBits parts = zone.bits - zone.width * parts.length := Nat.mul_sub ..

variable {zone} {parts : List ℕ}

theorem mul_length_le (h : zone.IsBlock parts) : zone.width * parts.length ≤ zone.bits :=
  Nat.mul_le_mul_left _ h.length_le

theorem inBlock_add (h : zone.IsBlock parts) (probe : ℕ)
    (hprobe : probe < 2 ^ zone.hostBits parts) :
    zone.InBlock parts
      (ofBigEndian (2 ^ zone.width) parts * 2 ^ zone.hostBits parts + probe) := by
  have hlt : ofBigEndian (2 ^ zone.width) parts < 2 ^ (zone.width * parts.length) := by
    rw [Nat.pow_mul]
    exact ofBigEndian_lt h.lt
  constructor
  · have hbits : zone.bits = zone.width * parts.length + zone.hostBits parts := by
      have hle := mul_length_le h
      rw [hostBits_eq]
      omega
    rw [hbits, Nat.pow_add]
    calc ofBigEndian (2 ^ zone.width) parts * 2 ^ zone.hostBits parts + probe
        < ofBigEndian (2 ^ zone.width) parts * 2 ^ zone.hostBits parts +
            2 ^ zone.hostBits parts := Nat.add_lt_add_left hprobe _
      _ = (ofBigEndian (2 ^ zone.width) parts + 1) * 2 ^ zone.hostBits parts :=
          (Nat.succ_mul _ _).symm
      _ ≤ _ := Nat.mul_le_mul_right _ hlt
  · rw [Nat.mul_comm, Nat.mul_add_div (Nat.two_pow_pos _), Nat.div_eq_of_lt hprobe, Nat.add_zero]

/-- A block is in one of the local networks if one address of it is and none of the
    networks that has this address is smaller than the block. -/
theorem networkIsLocal_iff (h : zone.IsBlock parts) (probe : ℕ)
    (hprobe : probe < 2 ^ zone.hostBits parts)
    (hsmaller : ∀ network ∈ zone.networks, zone.width * parts.length < network.2 →
      prefixNetwork (ofBigEndian (2 ^ zone.width) parts * 2 ^ zone.hostBits parts + probe)
        zone.bits network.2 ≠ network.1) :
    networkIsLocal zone.bits zone.networks
        (ofBigEndian (2 ^ zone.width) parts <<< zone.hostBits parts)
        (zone.width * parts.length) = true ↔
      ∀ address, zone.InBlock parts address → zone.IsLocal address := by
  have hfirst : zone.InBlock parts
      (ofBigEndian (2 ^ zone.width) parts <<< zone.hostBits parts) := by
    rw [Nat.shiftLeft_eq]
    exact inBlock_add h _ (Nat.two_pow_pos _)
  rw [networkIsLocal, List.any_eq_true]
  constructor
  · rintro ⟨⟨network, len⟩, hmem, hlocal⟩ address haddress
    rw [Bool.and_eq_true, decide_eq_true_iff, beq_iff_eq] at hlocal
    refine ⟨(network, len), hmem, ?_⟩
    rw [← hlocal.2]
    refine prefixNetwork_congr haddress.1 hfirst.1 ?_ hlocal.1
    rw [← hostBits_eq, haddress.2, hfirst.2]
  · intro hall
    obtain ⟨⟨network, len⟩, hmem, hlocal⟩ := hall _ (inBlock_add h _ hprobe)
    dsimp only at hlocal
    refine ⟨(network, len), hmem, ?_⟩
    have hle : len ≤ zone.width * parts.length := by
      by_contra hlt
      exact hsmaller _ hmem (Nat.lt_of_not_le hlt) hlocal
    rw [Bool.and_eq_true, decide_eq_true_iff, beq_iff_eq]
    refine ⟨hle, ?_⟩
    rw [← hlocal]
    refine prefixNetwork_congr hfirst.1 (inBlock_add h _ hprobe).1 ?_ hle
    rw [← hostBits_eq, hfirst.2, (inBlock_add h _ hprobe).2]

end ReverseZone

theorem v4_smaller {parts : List ℕ} (h : v4Zone.IsBlock parts) :
    ∀ network ∈ v4Zone.networks, v4Zone.width * parts.length < network.2 →
      prefixNetwork (ofBigEndian (2 ^ v4Zone.width) parts * 2 ^ v4Zone.hostBits parts + 0)
        v4Zone.bits network.2 ≠ network.1 := by
  have hlt := (ReverseZone.inBlock_add h 0 (Nat.two_pow_pos _)).1
  intro network hmem hlen
  have hpos : 0 < parts.length := List.length_pos_iff.2 h.ne_nil
  rw [prefixNetwork_eq_div hlt]
  simp only [v4Zone, localV4Networks, List.mem_cons, List.not_mem_nil, or_false] at hmem hlen
  -- only the networks with more than eight bits are smaller than a block
  have hone : parts.length = 1 := by
    rcases hmem with rfl | rfl | rfl | rfl | rfl | rfl | rfl | rfl | rfl <;>
      · dsimp only at hlen
        omega
  simp only [ReverseZone.hostBits, ReverseZone.bits, v4Zone, hone]
  rcases hmem with rfl | rfl | rfl | rfl | rfl | rfl | rfl | rfl | rfl <;>
    · dsimp only at hlen ⊢
      omega

/-- The third address of a block of more than one is in no local network that is smaller. -/
theorem v6_smaller {parts : List ℕ} (h : v6Zone.IsBlock parts) (hshort : parts.length < 32) :
    ∀ network ∈ v6Zone.networks, v6Zone.width * parts.length < network.2 →
      prefixNetwork (ofBigEndian (2 ^ v6Zone.width) parts * 2 ^ v6Zone.hostBits parts + 2)
        v6Zone.bits network.2 ≠ network.1 := by
  have hprobe : 2 < 2 ^ v6Zone.hostBits parts := by
    have hbits : 2 ≤ v6Zone.hostBits parts := by
      change 2 ≤ 4 * (32 - parts.length)
      omega
    calc 2 < 2 ^ 2 := by decide
      _ ≤ 2 ^ v6Zone.hostBits parts := Nat.pow_le_pow_right (by decide) hbits
  have hlt := (ReverseZone.inBlock_add h _ hprobe).1
  intro network hmem hlen
  have hpos : 0 < parts.length := List.length_pos_iff.2 h.ne_nil
  rw [prefixNetwork_eq_div hlt]
  simp only [v6Zone, localV6Networks, List.mem_cons, List.not_mem_nil, or_false] at hmem hlen
  rcases hmem with rfl | rfl | hmem
  · simp only [ReverseZone.bits, v6Zone]
    omega
  · simp only [ReverseZone.bits, v6Zone]
    omega
  · have hone : parts.length = 1 ∨ parts.length = 2 := by
      rcases hmem with rfl | rfl | rfl <;>
        · dsimp only at hlen
          omega
    simp only [ReverseZone.hostBits, ReverseZone.bits, v6Zone]
    rcases hone with hone | hone <;> rw [hone] at hlen ⊢ <;>
      rcases hmem with rfl | rfl | rfl <;>
        · simp only [Nat.reduceShiftLeft] at hlen ⊢
          omega

theorem v4_networkIsLocal_iff {parts : List ℕ} (h : v4Zone.IsBlock parts) :
    networkIsLocal 32 localV4Networks (ofBigEndian (2 ^ 8) parts <<< (8 * (4 - parts.length)))
        (8 * parts.length) = true ↔
      ∀ address, v4Zone.InBlock parts address → v4Zone.IsLocal address :=
  ReverseZone.networkIsLocal_iff h _ (Nat.two_pow_pos _) (v4_smaller h)

theorem v6_networkIsLocal_iff {parts : List ℕ} (h : v6Zone.IsBlock parts) :
    networkIsLocal 128 localV6Networks (ofBigEndian (2 ^ 4) parts <<< (4 * (32 - parts.length)))
        (4 * parts.length) = true ↔
      ∀ address, v6Zone.InBlock parts address → v6Zone.IsLocal address := by
  by_cases hshort : parts.length < 32
  · have hbits : 2 ≤ v6Zone.hostBits parts := by
      change 2 ≤ 4 * (32 - parts.length)
      omega
    refine ReverseZone.networkIsLocal_iff h _ ?_ (v6_smaller h hshort)
    calc 2 < 2 ^ 2 := by decide
      _ ≤ 2 ^ v6Zone.hostBits parts := Nat.pow_le_pow_right (by decide) hbits
  · -- a whole address: no network is smaller
    refine ReverseZone.networkIsLocal_iff h 0 (Nat.two_pow_pos _) ?_
    intro network hmem hlen
    have hlength : parts.length = 32 := Nat.le_antisymm h.length_le (Nat.le_of_not_lt hshort)
    simp only [v6Zone, localV6Networks, List.mem_cons, List.not_mem_nil, or_false] at hmem hlen
    rcases hmem with rfl | rfl | rfl | rfl | rfl <;>
      · dsimp only at hlen
        omega

/-! ## Labels -/

/-- A decimal label without a plus sign and the zeroes behind it. -/
def withoutSign (label : Text) : Text :=
  match label.stripPrefix ['+'] with
  | some digits => shortest digits
  | none => label

theorem parseU8_eq_some {t : Text} {n : ℕ} : parseU8 t = some n ↔
    n < 256 ∧ (t.stripPrefix ['+']).getD t ≠ [] ∧
      (∀ c ∈ (t.stripPrefix ['+']).getD t, c.isDigit) ∧
      decimal ((t.stripPrefix ['+']).getD t) = n := by
  rw [parseU8, Option.bind_eq_some_iff]
  constructor
  · rintro ⟨value, hvalue, hn⟩
    obtain ⟨hlt, hn⟩ := Option.ite_none_right_eq_some.1 hn
    cases hn
    exact ⟨hlt, parseU16_eq_some.1 hvalue⟩
  · rintro ⟨hlt, hne, hdigits, rfl⟩
    have hnat : (UInt16.ofNat (decimal ((t.stripPrefix ['+']).getD t))).toNat =
        decimal ((t.stripPrefix ['+']).getD t) := UInt16.toNat_ofNat_of_lt (lt_trans hlt (by decide))
    exact ⟨.ofNat (decimal ((t.stripPrefix ['+']).getD t)),
      parseU16_eq_some.2 ⟨hne, hdigits, hnat.symm⟩, by rw [hnat, if_pos hlt]⟩

/-- What a decimal label is taken for: without its sign, it is the shortest way to
    write the number. -/
theorem v4ReverseLabel_eq_some {label : Text} {n : ℕ} :
    v4ReverseLabel label = some n ↔ n < 256 ∧ withoutSign label = Nat.toDigits 10 n := by
  rw [v4ReverseLabel, withoutSign]
  cases hsign : label.stripPrefix ['+'] with
  | some digits =>
    obtain rfl : label = '+' :: digits := stripPrefix_eq_some.1 hsign
    rw [if_neg (by rintro (h | ⟨-, h⟩) <;> cases h), parseU8_eq_some, hsign, Option.getD_some]
    exact and_congr_right fun _ => shortest_eq_toDigits_iff.symm
  | none =>
    dsimp only
    split_ifs with hrefused
    · refine iff_of_false (fun h => by cases h) fun ⟨_, hlabel⟩ => ?_
      rcases hrefused with hempty | ⟨hlen, hzero⟩
      · exact Nat.toDigits_ne_nil (hlabel.symm.trans (List.isEmpty_iff.1 hempty))
      · obtain ⟨t, rfl⟩ : ∃ t, label = '0' :: t := by
          cases label with
          | nil => cases hzero
          | cons c t => exact ⟨t, by rw [Option.some.inj (eq_of_beq hzero)]⟩
        have ht : t ≠ [] := by
          rintro rfl
          exact absurd hlen (by decide)
        have hshort : shortest ('0' :: t) = '0' :: t := by
          rw [hlabel]
          exact shortest_toDigits n
        have hlength := length_shortest_zero ht
        rw [hshort, List.length_cons] at hlength
        omega
    · obtain ⟨hne, hzero⟩ := not_or.1 hrefused
      have hshort : shortest label = label := by
        cases label with
        | nil => exact absurd rfl hne
        | cons c t =>
          by_cases hc : c = '0'
          · subst hc
            cases t with
            | nil => rfl
            | cons d t =>
              refine absurd ⟨?_, rfl⟩ hzero
              have hd := d.utf8Size_pos
              simp only [len, List.map_cons, List.sum_cons, show '0'.utf8Size = 1 from rfl]
              omega
          · exact shortest_of_ne_zero hc t
      rw [parseU8_eq_some, hsign, Option.getD_none, ← shortest_eq_toDigits_iff, hshort]

theorem toDigit_digitChar : ∀ n < 16, toDigit 16 (Nat.digitChar n) = some n := by decide

theorem toNat_digitChar : ∀ n < 16, 10 ≤ n → (Nat.digitChar n).toNat = n + 87 := by decide

theorem v6ReverseLabel_eq_some {label : Text} (hlower : ∀ c ∈ label, c.toLower = c) {n : ℕ} :
    v6ReverseLabel label = some n ↔ n < 2 ^ 4 ∧ label = [Nat.digitChar n] := by
  constructor
  · intro h
    obtain ⟨c, rfl⟩ : ∃ c, label = [c] := by
      match label, h with
      | [c], _ => exact ⟨c, rfl⟩
    change toDigit 16 c = some n at h
    rw [toDigit, Option.filter_eq_some_iff] at h
    obtain ⟨h, hlt⟩ := h
    have hlt : n < 16 := of_decide_eq_true hlt
    refine ⟨hlt, ?_⟩
    congr 1
    refine Char.toNat_inj.1 ?_
    split_ifs at h with hdigit hletter hupper
    · have hlow : 48 ≤ c.toNat := hdigit.1
      have hhigh : c.toNat ≤ 57 := hdigit.2
      cases h
      rw [Nat.toNat_digitChar_of_lt_ten (by omega)]
      omega
    · have hlow : 97 ≤ c.toNat := hletter.1
      cases h
      rw [toNat_digitChar _ hlt (by omega)]
      omega
    · -- upper case
      have hlow : 65 ≤ c.toNat := hupper.1
      have hhigh : c.toNat ≤ 90 := hupper.2
      have hlow' := toNat_toLower hlow hhigh
      rw [hlower c List.mem_cons_self] at hlow'
      omega
  · rintro ⟨hlt, rfl⟩
    exact toDigit_digitChar n hlt

/-! ## Names -/

namespace ReverseZone

/-- What a parser of labels takes, if its labels stand for what `norm` makes of them. -/
theorem parse_iff (zone : ReverseZone) (label : Text → Option ℕ) (norm : Text → Text)
    (start : Text)
    (hlabel : ∀ l ∈ start.split (· == '.'), ∀ n,
      label l = some n ↔ n < 2 ^ zone.width ∧ norm l = zone.write n)
    (hnorm : ∀ l, '.' ∉ l → '.' ∉ norm l)
    (hwrite : ∀ n < 2 ^ zone.width, '.' ∉ zone.write n)
    (hlocal : ∀ parts, zone.IsBlock parts →
      (networkIsLocal zone.bits zone.networks
          (ofBigEndian (2 ^ zone.width) parts <<< zone.hostBits parts)
          (zone.width * parts.length) = true ↔
        ∀ address, zone.InBlock parts address → zone.IsLocal address)) :
    ((parseReverseParts label zone.count zone.width start).any fun (network, prefixLen) =>
        networkIsLocal zone.bits zone.networks network prefixLen) = true ↔
      zone.IsLocalName
        (Text.join ((start.split (· == '.')).map norm) ['.'] ++ zone.suffix) := by
  have hne := split_ne_nil (· == '.') start
  have hdot : ∀ l ∈ start.split (· == '.'), '.' ∉ l := fun l hl hmem =>
    not_of_mem_split hl hmem (by decide)
  rw [parseReverseParts]
  generalize start.split (· == '.') = labels at hlabel hne hdot ⊢
  -- the labels, the lowest one first, and what they stand for
  have hforall : ∀ {digits : List ℕ},
      List.Forall₂ (fun l n => label l = some n) labels digits ↔
        (∀ digit ∈ digits, digit < 2 ^ zone.width) ∧ labels.map norm = digits.map zone.write := by
    clear hne hdot hlocal
    induction labels with
    | nil =>
      intro digits
      rw [List.forall₂_nil_left_iff, List.map_nil, eq_comm (a := []), List.map_eq_nil_iff]
      refine ⟨fun h => ⟨?_, h⟩, fun h => h.2⟩
      rw [h]
      exact fun digit hdigit => absurd hdigit List.not_mem_nil
    | cons l labels ih =>
      obtain ⟨hl, hlabels⟩ := List.forall_mem_cons.1 hlabel
      intro digits
      cases digits with
      | nil => exact iff_of_false (fun h => nomatch h) fun h => nomatch h.2
      | cons n digits =>
        rw [List.forall₂_cons, hl, ih hlabels, List.forall_mem_cons, List.map_cons,
          List.map_cons, List.cons.injEq]
        tauto
  constructor
  · intro h
    obtain ⟨⟨network, prefixLen⟩, hsome, hnetwork⟩ := (Option.any_eq_true ..).1 h
    split_ifs at hsome with hcount
    obtain ⟨digits, hdigits, heq⟩ := Option.map_eq_some_iff.1 hsome
    cases heq
    have hlabels := Lib.mapM_eq_some.1 hdigits
    obtain ⟨hlt, hmap⟩ := hforall.1 hlabels
    have hlength := hlabels.length_eq
    have hblock : zone.IsBlock digits.reverse := by
      refine ⟨?_, ?_, fun part hpart => hlt part (List.mem_reverse.1 hpart)⟩
      · rw [Ne, List.reverse_eq_nil_iff]
        rintro rfl
        exact hne (List.length_eq_zero_iff.1 hlength)
      · rw [List.length_reverse, ← hlength]
        exact Nat.le_of_not_lt hcount
    refine ⟨digits.reverse, hblock, ?_, (hlocal _ hblock).1 ?_⟩
    · rw [name, List.reverse_reverse, hmap]
    · rw [hostBits, List.length_reverse]
      exact hnetwork
  · rintro ⟨parts, hblock, hname, hall⟩
    have hjoin : labels.map norm = parts.reverse.map zone.write := by
      rw [name] at hname
      have hjoin := congrArg (split (· == '.')) (List.append_cancel_right hname)
      rw [split_join, split_join] at hjoin
      · exact hjoin
      · rw [Ne, List.map_eq_nil_iff, List.reverse_eq_nil_iff]
        exact hblock.ne_nil
      · intro part hpart
        obtain ⟨n, hn, rfl⟩ := List.mem_map.1 hpart
        exact hwrite n (hblock.lt n (List.mem_reverse.1 hn))
      · rwa [Ne, List.map_eq_nil_iff]
      · intro part hpart
        obtain ⟨l, hl, rfl⟩ := List.mem_map.1 hpart
        exact hnorm l (hdot l hl)
    have hlt : ∀ digit ∈ parts.reverse, digit < 2 ^ zone.width := fun digit hdigit =>
      hblock.lt digit (List.mem_reverse.1 hdigit)
    have hlabels := hforall.2 ⟨hlt, hjoin⟩
    have hlength := hlabels.length_eq
    rw [List.length_reverse] at hlength
    rw [Lib.mapM_eq_some.2 hlabels, if_neg (by have := hblock.length_le; omega), Option.map_some,
      Option.any_some, List.reverse_reverse, List.length_reverse]
    exact (hlocal _ hblock).2 hall

end ReverseZone

/-- A domain without the signs of the labels in front of `in-addr.arpa`. -/
def withoutSigns (domain : Text) : Text :=
  match domain.stripSuffix v4ReverseSuffix with
  | some start => Text.join ((start.split (· == '.')).map withoutSign) ['.'] ++ v4ReverseSuffix
  | none => domain

/-- A label in front of `in-addr.arpa` has a plus sign. -/
def HasSign (domain : Text) : Prop :=
  ∃ start, domain = start ++ v4ReverseSuffix ∧ ∃ l ∈ start.split (· == '.'), l.startsWith '+'

/-- The name of a block of local addresses of either family. -/
def IsLocalBlockName (domain : Text) : Prop :=
  v4Zone.IsLocalName domain ∨ v6Zone.IsLocalName domain

theorem not_mem_toDigits {n : ℕ} {c : Char} (hc : c.isDigit = false) : c ∉ Nat.toDigits 10 n := by
  intro hmem
  rw [isDigit_of_mem_toDigits hmem] at hc
  cases hc

theorem not_mem_shortest {digits : Text} {c : Char} (h : c ∉ digits) : c ∉ shortest digits := by
  intro hmem
  rw [shortest] at hmem
  split_ifs at hmem
  · exact h (List.mem_of_mem_take hmem)
  · exact h ((List.dropWhile_sublist _).mem hmem)

theorem not_mem_withoutSign {l : Text} (h : '.' ∉ l) : '.' ∉ withoutSign l := by
  rw [withoutSign]
  cases hsign : l.stripPrefix ['+'] with
  | none => exact h
  | some digits =>
    refine not_mem_shortest fun hmem => h ?_
    rw [stripPrefix_eq_some.1 hsign]
    exact List.mem_cons_of_mem _ hmem

theorem not_v6_of_v4 (start start' : Text) : start ++ v4ReverseSuffix ≠ start' ++ v6ReverseSuffix := by
  intro h
  have hsuffix : v6ReverseSuffix <:+ v4ReverseSuffix := List.suffix_of_suffix_length_le
    (List.suffix_append start' v6ReverseSuffix) (h ▸ List.suffix_append start v4ReverseSuffix)
    (by decide)
  exact absurd hsuffix (by decide)

theorem isLocalReverseName_eq {domain : Text} (hlower : domain.toAsciiLowercase = domain) :
    isLocalReverseName domain = true ↔ IsLocalBlockName (withoutSigns domain) := by
  have hchar : ∀ c ∈ domain, c.toLower = c := by
    have hmap : domain.map Char.toLower = domain.map id := by
      rw [List.map_id]
      exact hlower
    exact List.map_inj_left.1 hmap
  rw [isLocalReverseName, withoutSigns]
  cases hv4 : domain.stripSuffix v4ReverseSuffix with
  | some start =>
    have hparse := ReverseZone.parse_iff v4Zone v4ReverseLabel withoutSign start
      (fun l _ n => v4ReverseLabel_eq_some) (fun l => not_mem_withoutSign)
      (fun n _ => not_mem_toDigits (by decide)) (fun parts => v4_networkIsLocal_iff)
    refine hparse.trans ⟨.inl, ?_⟩
    rintro (h | ⟨parts, -, hname, -⟩)
    · exact h
    · exact absurd hname (not_v6_of_v4 _ _)
  | none =>
    have hnot : ¬ v4Zone.IsLocalName domain := by
      rintro ⟨parts, -, rfl, -⟩
      rw [ReverseZone.name, show v4Zone.suffix = v4ReverseSuffix from rfl,
        stripSuffix_eq_some.2 rfl] at hv4
      cases hv4
    dsimp only
    cases hv6 : domain.stripSuffix v6ReverseSuffix with
    | some start =>
      obtain rfl := stripSuffix_eq_some.1 hv6
      have hparse := ReverseZone.parse_iff v6Zone v6ReverseLabel id start
        (fun l hl n => v6ReverseLabel_eq_some fun c hc =>
          hchar c (List.mem_append_left _ (mem_of_mem_split hl c hc)))
        (fun l h => h) (fun n hn => ?_) (fun parts => v6_networkIsLocal_iff)
      · rw [List.map_id, join_split] at hparse
        exact hparse.trans ⟨.inr, fun h => h.resolve_left hnot⟩
      · have hdot : ∀ n < 16, '.' ∉ [Nat.digitChar n] := by decide
        exact hdot n hn
    | none =>
      refine iff_of_false (fun h => by cases h) ?_
      rintro (h | ⟨parts, -, rfl, -⟩)
      · exact hnot h
      · rw [ReverseZone.name, show v6Zone.suffix = v6ReverseSuffix from rfl,
          stripSuffix_eq_some.2 rfl] at hv6
        cases hv6

theorem withoutSigns_of_not_hasSign {domain : Text} (h : ¬ HasSign domain) :
    withoutSigns domain = domain := by
  rw [withoutSigns]
  cases hv4 : domain.stripSuffix v4ReverseSuffix with
  | none => rfl
  | some start =>
    obtain rfl := stripSuffix_eq_some.1 hv4
    have hlabels : (start.split (· == '.')).map withoutSign = start.split (· == '.') := by
      refine (List.map_congr_left fun l hl => ?_).trans (List.map_id _)
      rw [withoutSign]
      cases hsign : l.stripPrefix ['+'] with
      | none => rfl
      | some digits =>
        refine absurd ⟨start, rfl, l, hl, ?_⟩ h
        rw [stripPrefix_eq_some.1 hsign]
        rfl
    dsimp only
    rw [hlabels, join_split]

theorem not_hasSign_of_isLocalBlockName {domain : Text} (h : IsLocalBlockName domain) :
    ¬ HasSign domain := by
  rintro ⟨start, rfl, l, hl, hsign⟩
  rcases h with ⟨parts, hblock, hname, -⟩ | ⟨parts, -, hname, -⟩
  · have hstart : start = Text.join (parts.reverse.map (Nat.toDigits 10)) ['.'] :=
      List.append_cancel_right hname
    rw [hstart, split_join (by
        rw [Ne, List.map_eq_nil_iff, List.reverse_eq_nil_iff]
        exact hblock.ne_nil) (by
        intro part hpart
        obtain ⟨n, -, rfl⟩ := List.mem_map.1 hpart
        exact not_mem_toDigits (by decide))] at hl
    obtain ⟨n, -, rfl⟩ := List.mem_map.1 hl
    refine not_mem_toDigits (n := n) (c := '+') (by decide) ?_
    exact List.mem_of_mem_head? (eq_of_beq hsign)
  · exact not_v6_of_v4 _ _ hname

/-- **Which reverse names are local**: exactly the names of blocks of local addresses,
    unless a label has a sign and the name is one but for the signs. -/
theorem isLocalReverseName_iff (domain : Text) (hlower : domain.toAsciiLowercase = domain) :
    (isLocalReverseName domain = true ↔ IsLocalBlockName domain) ↔
      ¬ (HasSign domain ∧ IsLocalBlockName (withoutSigns domain)) := by
  rw [isLocalReverseName_eq hlower]
  by_cases hsign : HasSign domain
  · have hnot : ¬ IsLocalBlockName domain := fun h => not_hasSign_of_isLocalBlockName h hsign
    simp only [hnot, hsign, iff_false, true_and]
  · simp only [withoutSigns_of_not_hasSign hsign, hsign, false_and, not_false_eq_true]

theorem isLocalReverseName_iff_private :
    Text.toAsciiLowercase "168.192.in-addr.arpa".toList = "168.192.in-addr.arpa".toList ∧
      ((isLocalReverseName "168.192.in-addr.arpa".toList = true ↔
          IsLocalBlockName "168.192.in-addr.arpa".toList) ↔
        ¬ (HasSign "168.192.in-addr.arpa".toList ∧
          IsLocalBlockName (withoutSigns "168.192.in-addr.arpa".toList))) :=
  ⟨by decide, isLocalReverseName_iff _ (by decide)⟩

/-- A label with a plus sign is taken for the number behind it. -/
theorem signedLabel_isLocal :
    ¬ ∀ domain : Text, domain.toAsciiLowercase = domain →
      (isLocalReverseName domain = true ↔ IsLocalBlockName domain) := by
  intro h
  have hlocal : isLocalReverseName "+1.168.192.in-addr.arpa".toList = true := by decide +kernel
  refine not_hasSign_of_isLocalBlockName ((h _ (by decide)).1 hlocal) ?_
  exact ⟨"+1.168.192".toList, rfl, "+1".toList, by decide, rfl⟩

end DnsBlackhole.Filter
