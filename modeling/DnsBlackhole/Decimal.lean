/-
  Decimal numbers in texts (`str::parse` for numbers without a sign).

  * `parseU16_eq_some`: what is parsed is digits, perhaps behind a plus sign;
  * `shortest_eq_toDigits_iff`: the digits of a number are, but for zeroes in front
    of them, the ones it is written with.
-/
import DnsBlackhole.Text

namespace DnsBlackhole.Text

/-- The number that decimal digits stand for. -/
def decimal (t : Text) : ℕ := ofDigits 10 (t.map fun c => c.toNat - 48)

theorem isDigit_of_toDigit {c : Char} (h : (toDigit 10 c).isSome) : c.isDigit := by
  refine Char.isDigit_iff_toNat.2 ?_
  rw [toDigit] at h
  split_ifs at h with hdigit hlower hupper
  · exact hdigit
  all_goals
    obtain ⟨d, hd⟩ := Option.isSome_iff_exists.1 h
    obtain ⟨hd, hlt⟩ := Option.filter_eq_some_iff.1 hd
  · have hle : 97 ≤ c.toNat := hlower.1
    cases hd
    have hlt := of_decide_eq_true hlt
    omega
  · have hle : 65 ≤ c.toNat := hupper.1
    cases hd
    have hlt := of_decide_eq_true hlt
    omega
  · cases hd

theorem mapM_toDigit_eq_some {t : Text} {ds : List ℕ} :
    t.mapM (toDigit 10) = some ds ↔
      (∀ c ∈ t, c.isDigit) ∧ ds = t.map fun c => c.toNat - 48 := by
  constructor
  · intro h
    have hdigits : ∀ c ∈ t, c.isDigit := by
      induction t generalizing ds with
      | nil => exact fun c hc => absurd hc List.not_mem_nil
      | cons c t ih =>
        rw [List.mapM_cons] at h
        obtain ⟨d, hd, h⟩ := Option.bind_eq_some_iff.1 h
        obtain ⟨ds', hds, -⟩ := Option.bind_eq_some_iff.1 h
        refine List.forall_mem_cons.2 ⟨isDigit_of_toDigit ?_, ih hds⟩
        rw [hd]
        rfl
    rw [mapM_toDigit hdigits] at h
    cases h
    exact ⟨hdigits, rfl⟩
  · rintro ⟨hdigits, rfl⟩
    exact mapM_toDigit hdigits

theorem parseU16_eq_some {t : Text} {value : UInt16} :
    t.parseU16 = some value ↔
      (t.stripPrefix ['+']).getD t ≠ [] ∧ (∀ c ∈ (t.stripPrefix ['+']).getD t, c.isDigit) ∧
        decimal ((t.stripPrefix ['+']).getD t) = value.toNat := by
  rw [parseU16]
  generalize (t.stripPrefix ['+']).getD t = digits
  by_cases hempty : digits = []
  · rw [if_pos hempty]
    exact iff_of_false (fun h => by cases h) fun h => h.1 hempty
  · rw [if_neg hempty, Option.bind_eq_some_iff]
    constructor
    · rintro ⟨ds, hds, hvalue⟩
      obtain ⟨hdigits, rfl⟩ := mapM_toDigit_eq_some.1 hds
      obtain ⟨hlt, hvalue⟩ := Option.ite_none_right_eq_some.1 hvalue
      cases hvalue
      exact ⟨hempty, hdigits, (UInt16.toNat_ofNat_of_lt hlt).symm⟩
    · rintro ⟨-, hdigits, hvalue⟩
      refine ⟨_, mapM_toDigit hdigits, ?_⟩
      rw [decimal] at hvalue
      rw [hvalue, if_pos value.toNat_lt, UInt16.ofNat_toNat]

/-! ## The shortest way to write a number -/

/-- Digits without the zeroes in front of them. -/
def shortest (digits : Text) : Text :=
  if digits.all (· == '0') then digits.take 1 else digits.trimStartMatches '0'

theorem toDigits_append_digits {t : Text} (h : ∀ c ∈ t, c.isDigit) {n : ℕ} (hn : 0 < n) :
    Nat.toDigits 10 n ++ t =
      Nat.toDigits 10 ((t.map fun c => c.toNat - 48).foldl (fun n d => n * 10 + d) n) := by
  induction t generalizing n with
  | nil => rw [List.append_nil]; rfl
  | cons c t ih =>
    obtain ⟨hc, ht⟩ := List.forall_mem_cons.1 h
    obtain ⟨hlow, hhigh⟩ := Char.isDigit_iff_toNat.1 hc
    have hlt : c.toNat - 48 < 10 := by
      change c.toNat ≤ 57 at hhigh
      omega
    have hchar : Nat.digitChar (c.toNat - 48) = c := by
      refine Char.toNat_inj.1 ?_
      change 48 ≤ c.toNat at hlow
      rw [Nat.toNat_digitChar_of_lt_ten hlt]
      omega
    have hnext : Nat.toDigits 10 n ++ [c] = Nat.toDigits 10 (n * 10 + (c.toNat - 48)) := by
      rw [Nat.mul_comm, ← Nat.toDigits_append_toDigits (by decide) hn hlt,
        Nat.toDigits_of_lt_base hlt, hchar]
    calc Nat.toDigits 10 n ++ c :: t = Nat.toDigits 10 n ++ [c] ++ t := by
          rw [List.append_assoc]; rfl
      _ = _ := by rw [hnext, ih ht (by omega)]; rfl

theorem toDigits_decimal {c : Char} {t : Text} (h : ∀ d ∈ c :: t, d.isDigit) (hc : c ≠ '0') :
    Nat.toDigits 10 (decimal (c :: t)) = c :: t := by
  obtain ⟨hfirst, ht⟩ := List.forall_mem_cons.1 h
  obtain ⟨hlow, hhigh⟩ := Char.isDigit_iff_toNat.1 hfirst
  have hne : c.toNat ≠ 48 := fun h => hc (Char.toNat_inj.1 h)
  have hpos : 0 < c.toNat - 48 := by
    change 48 ≤ c.toNat at hlow
    omega
  have hlt : c.toNat - 48 < 10 := by
    change c.toNat ≤ 57 at hhigh
    omega
  have hchar : Nat.toDigits 10 (c.toNat - 48) = [c] := by
    rw [Nat.toDigits_of_lt_base hlt]
    congr 1
    refine Char.toNat_inj.1 ?_
    rw [Nat.toNat_digitChar_of_lt_ten hlt]
    omega
  have happend := toDigits_append_digits ht hpos
  rw [hchar] at happend
  rw [decimal, ofDigits, List.map_cons, List.foldl_cons, Nat.zero_mul, Nat.zero_add, ← happend]
  rfl

theorem decimal_cons_zero (t : Text) : decimal ('0' :: t) = decimal t := rfl

theorem decimal_trimStartMatches (digits : Text) :
    decimal (digits.trimStartMatches '0') = decimal digits := by
  induction digits with
  | nil => rfl
  | cons c t ih =>
    rw [trimStartMatches, List.dropWhile_cons]
    split_ifs with hc
    · rw [eq_of_beq hc, decimal_cons_zero]
      exact ih
    · rfl

theorem decimal_of_all_zero {digits : Text} (h : digits.all (· == '0')) : decimal digits = 0 := by
  rw [← decimal_trimStartMatches, trimStartMatches, List.dropWhile_eq_nil_iff.2
    (List.all_eq_true.1 h)]
  rfl

theorem decimal_toDigits (n : ℕ) : decimal (Nat.toDigits 10 n) = n := by
  obtain ⟨ds, hds, hvalue⟩ := mapM_toDigits n
  obtain ⟨-, rfl⟩ := mapM_toDigit_eq_some.1 hds
  exact hvalue

/-- **The digits of a number** are the ones it is written with, behind zeroes. -/
theorem shortest_eq_toDigits_iff {digits : Text} {n : ℕ} :
    shortest digits = Nat.toDigits 10 n ↔
      digits ≠ [] ∧ (∀ c ∈ digits, c.isDigit) ∧ decimal digits = n := by
  rw [shortest]
  split_ifs with hzero
  · rcases digits with _ | ⟨c, t⟩
    · exact iff_of_false (fun h => Nat.toDigits_ne_nil h.symm) fun h => h.1 rfl
    · have hall := List.all_eq_true.1 hzero
      have hc : c = '0' := eq_of_beq (hall c List.mem_cons_self)
      have hdigits : ∀ d ∈ c :: t, d.isDigit := fun d hd => by rw [eq_of_beq (hall d hd)]; rfl
      rw [decimal_of_all_zero hzero, hc, List.take_succ_cons, List.take_zero]
      constructor
      · intro h
        refine ⟨List.cons_ne_nil _ _, hc ▸ hdigits, ?_⟩
        rw [← decimal_toDigits n, ← h]
        rfl
      · rintro ⟨-, -, rfl⟩
        rfl
  · constructor
    · intro h
      have hvalue : decimal digits = n := by
        rw [← decimal_trimStartMatches, h, decimal_toDigits]
      refine ⟨?_, fun c hc => ?_, hvalue⟩
      · rintro rfl
        exact hzero rfl
      · rw [← List.takeWhile_append_dropWhile (p := (· == '0')) (l := digits),
          List.mem_append] at hc
        rcases hc with hc | hc
        · have hzero : (c == '0') = true := List.mem_takeWhile_imp (p := (· == '0')) hc
          rw [eq_of_beq hzero]
          rfl
        · exact isDigit_of_mem_toDigits (n := n) (h ▸ hc)
    · rintro ⟨-, hdigits, rfl⟩
      rw [← decimal_trimStartMatches]
      have hsuffix : ∀ c ∈ digits.trimStartMatches '0', c.isDigit := fun c hc =>
        hdigits c ((List.dropWhile_sublist _).mem hc)
      cases htrim : digits.trimStartMatches '0' with
      | nil => exact absurd (List.all_eq_true.2 (List.dropWhile_eq_nil_iff.1 htrim)) hzero
      | cons c t =>
        rw [htrim] at hsuffix
        refine (toDigits_decimal hsuffix ?_).symm
        rintro rfl
        have hhead := List.head?_dropWhile_not (· == '0') digits
        rw [show digits.dropWhile (· == '0') = '0' :: t from htrim] at hhead
        cases hhead

theorem shortest_of_ne_zero {c : Char} (hc : c ≠ '0') (t : Text) : shortest (c :: t) = c :: t := by
  have hbeq : (c == '0') = false := beq_false_of_ne hc
  rw [shortest, List.all_cons, hbeq, Bool.false_and, if_neg Bool.false_ne_true, trimStartMatches,
    List.dropWhile_cons, hbeq, if_neg Bool.false_ne_true]

theorem length_shortest_zero {t : Text} (ht : t ≠ []) : (shortest ('0' :: t)).length ≤ t.length := by
  rw [shortest]
  split_ifs
  · exact List.length_pos_iff.2 ht
  · rw [trimStartMatches, List.dropWhile_cons, if_pos (by decide)]
    exact (List.dropWhile_sublist _).length_le

theorem shortest_toDigits (n : ℕ) : shortest (Nat.toDigits 10 n) = Nat.toDigits 10 n :=
  shortest_eq_toDigits_iff.2
    ⟨Nat.toDigits_ne_nil, fun _ => isDigit_of_mem_toDigits, decimal_toDigits n⟩

end DnsBlackhole.Text
