/-
  The bytes of DNS packets (`dns/protocol.rs`): big-endian numbers read at an
  offset and written in place.

  What a reader returns only depends on the bytes it reads; `Agree a b p q`
  says that two packets have the same bytes at the offsets from `a` to `b`.
-/
import Mathlib.Data.List.Basic

namespace DnsBlackhole.Protocol

abbrev Packet := List UInt8

def dnsHeaderLen : ℕ := 12
def maxDnsPacketSize : ℕ := 65535

/-! ## Numbers -/

/-- `u16::from_be_bytes`. -/
def u16OfBytes (first second : UInt8) : UInt16 := .ofNat (first.toNat * 256 + second.toNat)

/-- `u16::to_be_bytes`. -/
def u16ToBytes (value : UInt16) : List UInt8 := [.ofNat (value.toNat / 256), .ofNat value.toNat]

/-- `u32::from_be_bytes`. -/
def u32OfBytes (first second third fourth : UInt8) : UInt32 :=
  .ofNat (((first.toNat * 256 + second.toNat) * 256 + third.toNat) * 256 + fourth.toNat)

/-- `u32::to_be_bytes`. -/
def u32ToBytes (value : UInt32) : List UInt8 :=
  [.ofNat (value.toNat / 16777216), .ofNat (value.toNat / 65536), .ofNat (value.toNat / 256),
    .ofNat value.toNat]

/-- `u16::saturating_add`, as a number of iterations. -/
def saturatingAdd (a b : ℕ) : ℕ := min (a + b) 65535

def readU16 (bytes : Packet) (offset : ℕ) : Option UInt16 := do
  let first ← bytes[offset]?
  let second ← bytes[offset + 1]?
  return u16OfBytes first second

def readU32 (bytes : Packet) (offset : ℕ) : Option UInt32 := do
  let first ← bytes[offset]?
  let second ← bytes[offset + 1]?
  let third ← bytes[offset + 2]?
  let fourth ← bytes[offset + 3]?
  return u32OfBytes first second third fourth

theorem u16OfBytes_toBytes (v : UInt16) :
    u16OfBytes (.ofNat (v.toNat / 256)) (.ofNat v.toNat) = v := by
  have := v.toNat_lt
  apply UInt16.toNat_inj.1
  simp only [u16OfBytes, UInt16.toNat_ofNat', UInt8.toNat_ofNat']
  omega

theorem u32OfBytes_toBytes (v : UInt32) :
    u32OfBytes (.ofNat (v.toNat / 16777216)) (.ofNat (v.toNat / 65536)) (.ofNat (v.toNat / 256))
      (.ofNat v.toNat) = v := by
  have := v.toNat_lt
  apply UInt32.toNat_inj.1
  simp only [u32OfBytes, UInt32.toNat_ofNat', UInt8.toNat_ofNat']
  omega

@[simp] theorem length_u16ToBytes (v : UInt16) : (u16ToBytes v).length = 2 := rfl
@[simp] theorem length_u32ToBytes (v : UInt32) : (u32ToBytes v).length = 4 := rfl

theorem readU16_eq_some {p : Packet} {o : ℕ} {v : UInt16} :
    readU16 p o = some v ↔
      ∃ a b, p[o]? = some a ∧ p[o + 1]? = some b ∧ u16OfBytes a b = v := by
  simp only [readU16, Option.bind_eq_bind, Option.bind_eq_some_iff, Option.pure_def,
    Option.some.injEq]
  exact ⟨fun ⟨a, ha, b, hb, h⟩ => ⟨a, b, ha, hb, h⟩, fun ⟨a, b, ha, hb, h⟩ => ⟨a, ha, b, hb, h⟩⟩

theorem isSome_readU16 {p : Packet} {o : ℕ} : (readU16 p o).isSome ↔ o + 1 < p.length := by
  constructor
  · intro h
    obtain ⟨v, hv⟩ := Option.isSome_iff_exists.1 h
    obtain ⟨_, _, -, hb, -⟩ := readU16_eq_some.1 hv
    exact (List.getElem?_eq_some_iff.1 hb).1
  · intro h
    have h₀ : o < p.length := by omega
    simp [readU16, List.getElem?_eq_getElem h₀, List.getElem?_eq_getElem h]

theorem isSome_readU32 {p : Packet} {o : ℕ} (h : o + 3 < p.length) : (readU32 p o).isSome := by
  simp [readU32, List.getElem?_eq_getElem (show o < p.length by omega),
    List.getElem?_eq_getElem (show o + 1 < p.length by omega),
    List.getElem?_eq_getElem (show o + 2 < p.length by omega), List.getElem?_eq_getElem h]

/-! ## Slices and writing in place -/

/-- `bytes.get(a..b)`. -/
def slice? (bytes : Packet) (a b : ℕ) : Option Packet :=
  if a ≤ b ∧ b ≤ bytes.length then some ((bytes.drop a).take (b - a)) else none

/-- `bytes[o..o + new.len()].copy_from_slice(&new)`. -/
def copyAt (bytes : Packet) (o : ℕ) (new : List UInt8) : Packet :=
  bytes.take o ++ new ++ bytes.drop (o + new.length)

def writeU32At (target : Packet) (offset : ℕ) (value : UInt32) : Option Packet :=
  if offset + 4 ≤ target.length then some (copyAt target offset (u32ToBytes value)) else none

section
variable {p : Packet} {o : ℕ} {new : List UInt8}

theorem length_copyAt (h : o + new.length ≤ p.length) : (copyAt p o new).length = p.length := by
  simp [copyAt]; omega

theorem getElem?_copyAt (h : o + new.length ≤ p.length) (i : ℕ) :
    (copyAt p o new)[i]? = if o ≤ i ∧ i < o + new.length then new[i - o]? else p[i]? := by
  have ho : (p.take o).length = o := by rw [List.length_take]; omega
  split_ifs with hi
  · rw [copyAt, List.append_assoc, List.getElem?_append_right (by omega), ho,
      List.getElem?_append_left (by omega)]
  · rw [copyAt]
    by_cases hlt : i < o
    · rw [List.append_assoc, List.getElem?_append_left (by omega), List.getElem?_take_of_lt hlt]
    · rw [List.getElem?_append_right (by rw [List.length_append]; omega), List.length_append, ho,
        List.getElem?_drop]
      congr 1; omega

end

/-! ## Packets with the same bytes -/

/-- The packets have the same bytes from `a` up to `b`. -/
def Agree (a b : ℕ) (p q : Packet) : Prop := ∀ i, a ≤ i → i < b → p[i]? = q[i]?

theorem Agree.mono {a b a' b' : ℕ} {p q : Packet} (h : Agree a b p q) (ha : a ≤ a')
    (hb : b' ≤ b) : Agree a' b' p q :=
  fun i h₁ h₂ => h i (by omega) (by omega)

theorem Agree.symm {a b : ℕ} {p q : Packet} (h : Agree a b p q) : Agree a b q p :=
  fun i h₁ h₂ => (h i h₁ h₂).symm

theorem Agree.trans {a b : ℕ} {p q r : Packet} (h : Agree a b p q) (h' : Agree a b q r) :
    Agree a b p r := fun i ha hb => (h i ha hb).trans (h' i ha hb)

theorem take_eq_of_agree {n : ℕ} {p q : Packet} (h : Agree 0 n p q) : p.take n = q.take n := by
  refine List.ext_getElem? fun i => ?_
  by_cases hi : i < n
  · rw [List.getElem?_take_of_lt hi, List.getElem?_take_of_lt hi, h i (Nat.zero_le _) hi]
  · rw [List.getElem?_take_eq_none (Nat.le_of_not_lt hi),
      List.getElem?_take_eq_none (Nat.le_of_not_lt hi)]

theorem Agree.readU16 {a b o : ℕ} {p q : Packet} (h : Agree a b p q) (ha : a ≤ o)
    (hb : o + 2 ≤ b) : readU16 p o = readU16 q o := by
  rw [Protocol.readU16, Protocol.readU16, h o (by omega) (by omega),
    h (o + 1) (by omega) (by omega)]

theorem Agree.readU32 {a b o : ℕ} {p q : Packet} (h : Agree a b p q) (ha : a ≤ o)
    (hb : o + 4 ≤ b) : readU32 p o = readU32 q o := by
  rw [Protocol.readU32, Protocol.readU32, h o (by omega) (by omega),
    h (o + 1) (by omega) (by omega), h (o + 2) (by omega) (by omega),
    h (o + 3) (by omega) (by omega)]

theorem agree_copyAt_before {p : Packet} {o : ℕ} {new : List UInt8} {a b : ℕ}
    (h : o + new.length ≤ p.length) (hb : b ≤ o) : Agree a b (copyAt p o new) p := fun i _ hi => by
  rw [getElem?_copyAt h, if_neg (by omega)]

theorem agree_copyAt_after {p : Packet} {o : ℕ} {new : List UInt8} {a b : ℕ}
    (h : o + new.length ≤ p.length) (ha : o + new.length ≤ a) : Agree a b (copyAt p o new) p :=
  fun i hi _ => by rw [getElem?_copyAt h, if_neg (by omega)]

theorem readU16_copyAt {p : Packet} {o : ℕ} (v : UInt16) (h : o + 2 ≤ p.length) :
    readU16 (copyAt p o (u16ToBytes v)) o = some v := by
  refine readU16_eq_some.2 ⟨_, _, ?_, ?_, u16OfBytes_toBytes v⟩ <;>
  · rw [getElem?_copyAt h, if_pos ⟨by omega, by simp⟩]
    simp [u16ToBytes]

theorem readU32_copyAt {p : Packet} {o : ℕ} (v : UInt32) (h : o + 4 ≤ p.length) :
    readU32 (copyAt p o (u32ToBytes v)) o = some v := by
  have hb : ∀ i < 4, (copyAt p o (u32ToBytes v))[o + i]? = (u32ToBytes v)[i]? := fun i hi => by
    rw [getElem?_copyAt h, if_pos ⟨by omega, by simpa using hi⟩, Nat.add_sub_cancel_left]
  have h₀ := hb 0 (by omega)
  rw [Nat.add_zero] at h₀
  rw [Protocol.readU32, h₀, hb 1 (by omega), hb 2 (by omega), hb 3 (by omega)]
  exact congrArg some (u32OfBytes_toBytes v)

end DnsBlackhole.Protocol
