/-
  `String::from_utf8_lossy` on the bytes of a text.

  The bytes of a character are read one by one: the first of them says how many
  follow (`utf8First_two`, `utf8First_three`, `utf8First_four`), and every other one
  adds six bits.  So a text is read back from its bytes (`fromUtf8Lossy_asBytes`).
-/
import DnsBlackhole.Protocol.Security

namespace DnsBlackhole

section
variable {p : Utf8Pending} {byte : UInt8} {bytes : List UInt8}

theorem fromUtf8LossyFrom_last (h : p.low ≤ byte ∧ byte ≤ p.high) (hp : p.remaining = 1) :
    fromUtf8LossyFrom (some p) (byte :: bytes) =
      Char.ofNat (p.value * 64 + (byte.toNat - 0x80)) :: fromUtf8LossyFrom none bytes := by
  simp only [fromUtf8LossyFrom, utf8Step, if_pos h, hp, Nat.le_refl, if_true,
    List.singleton_append]

theorem fromUtf8LossyFrom_more (h : p.low ≤ byte ∧ byte ≤ p.high) (hp : 1 < p.remaining) :
    fromUtf8LossyFrom (some p) (byte :: bytes) =
      fromUtf8LossyFrom (some ⟨p.value * 64 + (byte.toNat - 0x80), p.remaining - 1, 0x80, 0xBF⟩)
        bytes := by
  simp only [fromUtf8LossyFrom, utf8Step, if_pos h, if_neg (Nat.not_le_of_lt hp),
    List.nil_append]

end

/-! ## Bytes of a character -/

/-- The byte with the lowest six bits of `v`. -/
def tailByte (v : ℕ) : UInt8 := .ofNat (v % 0x40 + 0x80)

theorem toNat_tailByte (v : ℕ) : (tailByte v).toNat = v % 0x40 + 0x80 := by
  rw [tailByte, UInt8.toNat_ofNat']
  omega

theorem tailByte_mem (v : ℕ) : 0x80 ≤ tailByte v ∧ tailByte v ≤ 0xBF := by
  rw [UInt8.le_iff_toNat_le, UInt8.le_iff_toNat_le, toNat_tailByte]
  show 128 ≤ _ ∧ _ ≤ 191
  omega

section
variable {v : ℕ}

theorem utf8First_two (hlow : 0x7F < v) (hhigh : v ≤ 0x7FF) :
    utf8First (.ofNat (v / 64 % 0x20 + 0xC0)) = ([], some ⟨v / 64, 1, 0x80, 0xBF⟩) := by
  have hb : (UInt8.ofNat (v / 64 % 0x20 + 0xC0)).toNat = v / 64 + 0xC0 := by
    rw [UInt8.toNat_ofNat']
    omega
  unfold utf8First
  simp only [hb]
  rw [if_neg (by omega), if_pos (by omega), Nat.add_sub_cancel]

theorem utf8First_three (hlow : 0x7FF < v) (hhigh : v ≤ 0xFFFF)
    (hs : v < 0xD800 ∨ 0xDFFF < v) : ∃ low high,
      utf8First (.ofNat (v / 4096 % 0x10 + 0xE0)) = ([], some ⟨v / 4096, 2, low, high⟩) ∧
      low ≤ tailByte (v / 64) ∧ tailByte (v / 64) ≤ high := by
  have hb : (UInt8.ofNat (v / 4096 % 0x10 + 0xE0)).toNat = v / 4096 + 0xE0 := by
    rw [UInt8.toNat_ofNat']
    omega
  unfold utf8First
  simp only [hb]
  rw [if_neg (by omega), if_neg (by omega)]
  -- the first byte alone excludes neither a longer form nor a surrogate
  by_cases hzero : v / 4096 = 0
  · refine ⟨0xA0, 0xBF, by rw [if_pos (by omega), hzero], ?_, (tailByte_mem _).2⟩
    rw [UInt8.le_iff_toNat_le, toNat_tailByte]
    show 160 ≤ _
    omega
  · rw [if_neg (by omega)]
    by_cases hsurrogate : v / 4096 = 0xD
    · refine ⟨0x80, 0x9F, by rw [if_pos (by omega), hsurrogate], (tailByte_mem _).1, ?_⟩
      rw [UInt8.le_iff_toNat_le, toNat_tailByte]
      show _ ≤ 159
      omega
    · refine ⟨0x80, 0xBF, ?_, tailByte_mem _⟩
      rw [if_neg (by omega), if_pos (by omega), Nat.add_sub_cancel]

theorem utf8First_four (hlow : 0xFFFF < v) (hhigh : v < 0x110000) : ∃ low high,
    utf8First (.ofNat (v / 262144 % 0x08 + 0xF0)) = ([], some ⟨v / 262144, 3, low, high⟩) ∧
    low ≤ tailByte (v / 4096) ∧ tailByte (v / 4096) ≤ high := by
  have hb : (UInt8.ofNat (v / 262144 % 0x08 + 0xF0)).toNat = v / 262144 + 0xF0 := by
    rw [UInt8.toNat_ofNat']
    omega
  unfold utf8First
  simp only [hb]
  rw [if_neg (by omega), if_neg (by omega), if_neg (by omega), if_neg (by omega),
    if_neg (by omega)]
  by_cases hzero : v / 262144 = 0
  · refine ⟨0x90, 0xBF, by rw [if_pos (by omega), hzero], ?_, (tailByte_mem _).2⟩
    rw [UInt8.le_iff_toNat_le, toNat_tailByte]
    show 144 ≤ _
    omega
  · rw [if_neg (by omega)]
    by_cases hlast : v / 262144 = 4
    · refine ⟨0x80, 0x8F, by rw [if_neg (by omega), if_pos (by omega), hlast],
        (tailByte_mem _).1, ?_⟩
      rw [UInt8.le_iff_toNat_le, toNat_tailByte]
      show _ ≤ 143
      omega
    · refine ⟨0x80, 0xBF, ?_, tailByte_mem _⟩
      rw [if_pos (by omega), Nat.add_sub_cancel]

end

theorem fromUtf8LossyFrom_utf8EncodeChar (c : Char) (bytes : List UInt8) :
    fromUtf8LossyFrom none (String.utf8EncodeChar c ++ bytes) =
      c :: fromUtf8LossyFrom none bytes := by
  have hvalid : c.toNat < 0xD800 ∨ 0xDFFF < c.toNat ∧ c.toNat < 0x110000 := c.valid
  have hc : Char.ofNat c.toNat = c := Char.ofNat_toNat c
  simp only [String.utf8EncodeChar, show c.val.toNat = c.toNat from rfl]
  generalize c.toNat = v at hvalid hc ⊢
  split_ifs with h₁ h₂ h₃
  · have hb : (UInt8.ofNat v).toNat = v := by
      rw [UInt8.toNat_ofNat']
      omega
    have hfirst : utf8First (.ofNat v) = ([c], none) := by
      unfold utf8First
      simp only [hb]
      rw [if_pos (by omega), charOfByte, hb, hc]
    simp only [List.cons_append, List.nil_append, fromUtf8LossyFrom, utf8Step, hfirst]
  · have hfirst := utf8First_two (Nat.lt_of_not_le h₁) h₂
    simp only [List.cons_append, List.nil_append]
    rw [fromUtf8LossyFrom]
    simp only [utf8Step, hfirst, List.nil_append]
    rw [← tailByte, fromUtf8LossyFrom_last (tailByte_mem v) rfl, toNat_tailByte]
    simp only
    rw [show v / 64 * 64 + (v % 0x40 + 0x80 - 0x80) = v by omega, hc]
  · obtain ⟨low, high, hfirst, hsecond⟩ := utf8First_three (Nat.lt_of_not_le h₂) h₃ (by omega)
    simp only [List.cons_append, List.nil_append]
    rw [fromUtf8LossyFrom]
    simp only [utf8Step, hfirst, List.nil_append]
    rw [← tailByte, ← tailByte, fromUtf8LossyFrom_more hsecond Nat.one_lt_two, toNat_tailByte,
      fromUtf8LossyFrom_last (tailByte_mem v) rfl, toNat_tailByte]
    simp only
    rw [show (v / 4096 * 64 + (v / 64 % 0x40 + 0x80 - 0x80)) * 64 +
      (v % 0x40 + 0x80 - 0x80) = v by omega, hc]
  · obtain ⟨low, high, hfirst, hsecond⟩ := utf8First_four (Nat.lt_of_not_le h₃) (by omega)
    simp only [List.cons_append, List.nil_append]
    rw [fromUtf8LossyFrom]
    simp only [utf8Step, hfirst, List.nil_append]
    rw [← tailByte, ← tailByte, ← tailByte,
      fromUtf8LossyFrom_more hsecond (show 1 < 3 by decide), toNat_tailByte,
      fromUtf8LossyFrom_more (tailByte_mem _) Nat.one_lt_two, toNat_tailByte,
      fromUtf8LossyFrom_last (tailByte_mem v) rfl, toNat_tailByte]
    simp only
    rw [show ((v / 262144 * 64 + (v / 4096 % 0x40 + 0x80 - 0x80)) * 64 +
      (v / 64 % 0x40 + 0x80 - 0x80)) * 64 + (v % 0x40 + 0x80 - 0x80) = v by omega, hc]

/-- **A text is read back** from its bytes. -/
theorem fromUtf8Lossy_asBytes (t : Text) : fromUtf8Lossy t.asBytes = t := by
  unfold fromUtf8Lossy Text.asBytes
  induction t with
  | nil => rfl
  | cons c t ih => rw [List.flatMap_cons, fromUtf8LossyFrom_utf8EncodeChar, ih]

end DnsBlackhole
