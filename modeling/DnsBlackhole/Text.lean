/-
  Strings, as lists of characters, with the operations of the standard
  library that the program uses on them.
-/
import Mathlib.Algebra.GroupWithZero.Nat
import Mathlib.Data.List.DropRight

namespace DnsBlackhole

/-- A `String` or `&str`. -/
abbrev Text := List Char

namespace Text

/-- Every module decides in the same way whether a text is in a list. -/
instance (priority := high) decidableMem (t : Text) (ts : List Text) : Decidable (t ∈ ts) :=
  inferInstance

/-- `str::len`: the number of bytes in UTF-8. -/
def len (t : Text) : ℕ := (t.map Char.utf8Size).sum

/-- `str::as_bytes`. -/
def asBytes (t : Text) : List UInt8 := t.flatMap String.utf8EncodeChar

/-- `char::is_whitespace`: the characters with the property White_Space. -/
def isWhitespace (c : Char) : Bool :=
  (9 ≤ c.toNat && c.toNat ≤ 13) || c.toNat == 0x20 || c.toNat == 0x85 || c.toNat == 0xA0 ||
    c.toNat == 0x1680 || (0x2000 ≤ c.toNat && c.toNat ≤ 0x200A) || c.toNat == 0x2028 ||
    c.toNat == 0x2029 || c.toNat == 0x202F || c.toNat == 0x205F || c.toNat == 0x3000

/-- `str::trim`. -/
def trim (t : Text) : Text := (t.dropWhile isWhitespace).rdropWhile isWhitespace

/-- `str::trim_end_matches`. -/
def trimEndMatches (t : Text) (c : Char) : Text := t.rdropWhile (· == c)

/-- `str::trim_start_matches`. -/
def trimStartMatches (t : Text) (c : Char) : Text := t.dropWhile (· == c)

/-- `str::trim_matches`. -/
def trimMatches (t : Text) (c : Char) : Text := (t.trimStartMatches c).trimEndMatches c

/-- `str::strip_prefix`. -/
def stripPrefix (t p : Text) : Option Text := p.isPrefixOf? t

/-- `str::strip_suffix`. -/
def stripSuffix (t s : Text) : Option Text := s.isSuffixOf? t

theorem length_asBytes (t : Text) : t.asBytes.length = t.len := by
  rw [asBytes, len, List.length_flatMap]
  exact congrArg List.sum (List.map_congr_left fun c _ => String.length_utf8EncodeChar c)

theorem stripPrefix_eq_some {t p r : Text} : t.stripPrefix p = some r ↔ t = p ++ r := by
  unfold stripPrefix
  induction p generalizing t with
  | nil => cases t <;> simp [List.isPrefixOf?]
  | cons c p ih =>
    cases t with
    | nil => simp [List.isPrefixOf?]
    | cons d t =>
      rw [List.isPrefixOf?]
      split_ifs with hcd
      · rw [ih, eq_of_beq hcd, List.cons_append, List.cons_inj_right]
      · simp only [List.cons_append, List.cons.injEq, false_iff]
        exact fun h => hcd (beq_iff_eq.2 h.1.symm)

theorem stripSuffix_eq_some {t s r : Text} : t.stripSuffix s = some r ↔ t = r ++ s := by
  have hp : t.stripSuffix s = (stripPrefix t.reverse s.reverse).map List.reverse := rfl
  rw [hp, Option.map_eq_some_iff]
  constructor
  · rintro ⟨q, hq, rfl⟩
    have := congrArg List.reverse (stripPrefix_eq_some.1 hq)
    rwa [List.reverse_reverse, List.reverse_append, List.reverse_reverse] at this
  · rintro rfl
    exact ⟨r.reverse, stripPrefix_eq_some.2 List.reverse_append, List.reverse_reverse r⟩

/-- `str::starts_with`. -/
def startsWith (t : Text) (c : Char) : Bool := t.head? == some c

/-- `str::ends_with`. -/
def endsWith (t : Text) (c : Char) : Bool := t.getLast? == some c

/-- `str::split_once`. -/
def splitOnce (p : Char → Bool) : Text → Option (Text × Text)
  | [] => none
  | c :: t => if p c then some ([], t) else (splitOnce p t).map fun r => (c :: r.1, r.2)

/-- `str::split_once` at a string. -/
def splitOnceAt (t separator : Text) : Option (Text × Text) :=
  match stripPrefix t separator with
  | some rest => some ([], rest)
  | none =>
    match t with
    | [] => none
    | c :: t => (splitOnceAt t separator).map fun r => (c :: r.1, r.2)

/-- `str::rsplit_once`. -/
def rsplitOnce (p : Char → Bool) (t : Text) : Option (Text × Text) :=
  (splitOnce p t.reverse).map fun r => (r.2.reverse, r.1.reverse)

/-- `str::split`. -/
def split (p : Char → Bool) : Text → List Text
  | [] => [[]]
  | c :: t =>
    if p c then [] :: split p t
    else match split p t with
      | [] => [[c]]
      | part :: parts => (c :: part) :: parts

/-- `str::split_whitespace`. -/
def splitWhitespace (t : Text) : List Text := (t.split isWhitespace).filter (· ≠ [])

/-- A line without the carriage return at its end. -/
def stripReturn (line : Text) : Text := (line.stripSuffix ['\r']).getD line

/-- The lines that end with a newline, and what stands behind the last one. -/
def linesOf : List Text → List Text
  | [] => []
  | [rest] => if rest = [] then [] else [rest]
  | line :: lines => stripReturn line :: linesOf lines

/-- `str::lines`. -/
def lines (t : Text) : List Text := linesOf (t.split (· == '\n'))

theorem split_nil (p : Char → Bool) : split p [] = [[]] := rfl

theorem split_cons (p : Char → Bool) (c : Char) (t : Text) :
    split p (c :: t) = if p c then [] :: split p t
      else match split p t with
        | [] => [[c]]
        | part :: parts => (c :: part) :: parts := rfl

theorem split_ne_nil (p : Char → Bool) (t : Text) : t.split p ≠ [] := by
  cases t with
  | nil => exact List.cons_ne_nil _ _
  | cons c t =>
    rw [split_cons]
    split_ifs
    · simp
    · cases split p t <;> simp

theorem split_append {p : Char → Bool} {c : Char} (h : p c) (a b : Text) :
    split p (a ++ c :: b) = split p a ++ split p b := by
  induction a with
  | nil => rw [List.nil_append, split_cons, if_pos h, split_nil, List.cons_append, List.nil_append]
  | cons d a ih =>
    rw [List.cons_append, split_cons, split_cons, ih]
    split_ifs
    · rfl
    · cases hs : split p a with
      | nil => exact absurd hs (split_ne_nil p a)
      | cons part parts => rfl

theorem split_of_forall_not {p : Char → Bool} {t : Text} (h : ∀ c ∈ t, ¬ p c) : split p t = [t] := by
  induction t with
  | nil => rfl
  | cons c t ih =>
    rw [split_cons, if_neg (h c List.mem_cons_self), ih fun d hd => h d (List.mem_cons_of_mem _ hd)]

theorem mem_of_mem_split {p : Char → Bool} {t part : Text} (h : part ∈ split p t) :
    ∀ c ∈ part, c ∈ t := by
  induction t generalizing part with
  | nil =>
    cases List.mem_singleton.1 h
    exact fun c hc => hc
  | cons d t ih =>
    rw [split_cons] at h
    split_ifs at h with hd
    · rcases List.mem_cons.1 h with rfl | h
      · exact fun c hc => absurd hc List.not_mem_nil
      · exact fun c hc => List.mem_cons_of_mem _ (ih h c hc)
    · cases hs : split p t with
      | nil => exact absurd hs (split_ne_nil p t)
      | cons part' parts =>
        rw [hs] at h ih
        rcases List.mem_cons.1 h with rfl | h
        · intro c hc
          rcases List.mem_cons.1 hc with rfl | hc
          · exact List.mem_cons_self
          · exact List.mem_cons_of_mem _ (ih List.mem_cons_self c hc)
        · exact fun c hc => List.mem_cons_of_mem _ (ih (List.mem_cons_of_mem _ h) c hc)

theorem split_concat {p : Char → Bool} {c : Char} (h : ¬ p c) (a : Text) :
    ∃ parts part, split p (a ++ [c]) = parts ++ [part ++ [c]] := by
  induction a with
  | nil => exact ⟨[], [], if_neg h⟩
  | cons d a ih =>
    obtain ⟨parts, part, hsplit⟩ := ih
    rw [List.cons_append, split_cons, hsplit]
    split_ifs
    · exact ⟨[] :: parts, part, rfl⟩
    · cases parts with
      | nil => exact ⟨[], d :: part, rfl⟩
      | cons first parts => exact ⟨(d :: first) :: parts, part, rfl⟩

theorem getLast?_split (p : Char → Bool) (t : Text) :
    (split p t).getLast? = some [] ↔ t = [] ∨ t.getLast?.any p := by
  rcases List.eq_nil_or_concat' t with rfl | ⟨a, c, rfl⟩
  · simp [split_nil]
  · by_cases hc : p c
    · rw [split_append hc]
      simp [split_nil, hc]
    · obtain ⟨parts, part, hsplit⟩ := split_concat hc a
      rw [hsplit]
      simp [hc]

/-! ## Lines -/

theorem linesOf_append (ls : List Text) {ms : List Text} (h : ms ≠ []) :
    linesOf (ls ++ ms) = ls.map stripReturn ++ linesOf ms := by
  induction ls with
  | nil => rfl
  | cons l ls ih =>
    rw [List.map_cons, List.cons_append, List.cons_append, ← ih]
    cases hl : ls ++ ms with
    | nil => exact absurd (List.append_eq_nil_iff.1 hl).2 h
    | cons m ms => rfl

theorem lines_append (a b : Text) :
    lines (a ++ '\n' :: b) = (split (· == '\n') a).map stripReturn ++ lines b := by
  have hsplit := split_append (p := (· == '\n')) (c := '\n') rfl a b
  rw [lines, hsplit, linesOf_append _ (split_ne_nil _ b), lines]

theorem trim_concat_whitespace (t : Text) {c : Char} (h : isWhitespace c) :
    trim (t ++ [c]) = trim t := by
  have hdrop : (t ++ [c]).dropWhile isWhitespace =
      if t.dropWhile isWhitespace = [] then [] else t.dropWhile isWhitespace ++ [c] := by
    rw [List.dropWhile_append]
    simp [h]
  unfold trim
  rw [hdrop]
  split_ifs with hnil
  · rw [hnil]
  · exact List.rdropWhile_concat_pos _ _ _ h

theorem trim_stripReturn (t : Text) : trim (stripReturn t) = trim t := by
  unfold stripReturn
  cases h : t.stripSuffix ['\r'] with
  | none => rfl
  | some r =>
    rw [stripSuffix_eq_some.1 h]
    exact (trim_concat_whitespace r rfl).symm

theorem trim_eq_nil_iff (t : Text) : trim t = [] ↔ ∀ c ∈ t, isWhitespace c := by
  unfold trim
  rw [List.rdropWhile_eq_nil_iff]
  constructor
  · intro h c hc
    rw [← List.takeWhile_append_dropWhile (p := isWhitespace) (l := t)] at hc
    rcases List.mem_append.1 hc with hc | hc
    · exact List.mem_takeWhile_imp hc
    · exact h c hc
  · exact fun h c hc => h c ((List.dropWhile_sublist _).subset hc)

theorem trim_eq_self {t : Text} (hhead : ∀ c ∈ t.head?, ¬ isWhitespace c)
    (hlast : ∀ c ∈ t.getLast?, ¬ isWhitespace c) : trim t = t := by
  have hdrop : t.dropWhile isWhitespace = t := by
    cases t with
    | nil => rfl
    | cons c t => exact List.dropWhile_cons_of_neg (hhead c rfl)
  rw [trim, hdrop, List.rdropWhile_eq_self_iff]
  exact fun hne => hlast _ (List.getLast?_eq_some_getLast hne)

/-- The lines of a text, and one more blank line if it ends with a newline: all its
    lines once another line follows. -/
theorem map_trim_split (t : Text) :
    ((split (· == '\n') t).map stripReturn).map trim =
      (lines t ++ if t = [] ∨ t.getLast? = some '\n' then [[]] else []).map trim := by
  have hlast : (t = [] ∨ t.getLast? = some '\n') ↔
      (split (· == '\n') t).getLast? = some [] := by
    rw [getLast?_split]
    cases t.getLast? <;> simp
  simp only [hlast, lines]
  rcases List.eq_nil_or_concat' (split (· == '\n') t) with h | ⟨parts, rest, h⟩
  · exact absurd h (split_ne_nil _ t)
  · rw [h, linesOf_append _ (List.cons_ne_nil _ _), List.map_append, List.map_append,
      List.map_append, List.map_append, List.append_assoc]
    refine congrArg ((parts.map stripReturn).map trim ++ ·) ?_
    by_cases hrest : rest = []
    · simp [hrest, linesOf, stripReturn, stripSuffix]
      rfl
    · simp [hrest, linesOf, trim_stripReturn]

theorem mem_of_mem_stripReturn {line : Text} {c : Char} (h : c ∈ stripReturn line) : c ∈ line := by
  unfold stripReturn at h
  cases hs : line.stripSuffix ['\r'] with
  | none => rwa [hs] at h
  | some r =>
    rw [hs] at h
    rw [stripSuffix_eq_some.1 hs]
    exact List.mem_append_left _ h

theorem exists_part_of_mem_lines {t line : Text} (h : line ∈ lines t) :
    ∃ part ∈ split (· == '\n') t, ∀ c ∈ line, c ∈ part := by
  have hparts : ∀ ls : List Text, line ∈ linesOf ls → ∃ part ∈ ls, ∀ c ∈ line, c ∈ part := by
    intro ls hl
    induction ls with
    | nil => cases hl
    | cons l ls ih =>
      cases ls with
      | nil =>
        rw [linesOf] at hl
        split_ifs at hl
        · cases hl
        · exact ⟨l, List.mem_singleton_self _, fun c hc => List.mem_singleton.1 hl ▸ hc⟩
      | cons m ls =>
        rcases List.mem_cons.1 hl with rfl | hl
        · exact ⟨l, List.mem_cons_self, fun c hc => mem_of_mem_stripReturn hc⟩
        · obtain ⟨part, hpart, hsub⟩ := ih hl
          exact ⟨part, List.mem_cons_of_mem _ hpart, hsub⟩
  exact hparts _ h

theorem mem_of_mem_lines {t line : Text} (h : line ∈ lines t) : ∀ c ∈ line, c ∈ t := by
  obtain ⟨part, hpart, hsub⟩ := exists_part_of_mem_lines h
  exact fun c hc => mem_of_mem_split hpart c (hsub c hc)

/-- `str::to_ascii_lowercase`. -/
def toAsciiLowercase (t : Text) : Text := t.map Char.toLower

/-- `str::to_ascii_uppercase`. -/
def toAsciiUppercase (t : Text) : Text := t.map Char.toUpper

/-- `str::eq_ignore_ascii_case`. -/
def eqIgnoreAsciiCase (t u : Text) : Bool := t.toAsciiLowercase == u.toAsciiLowercase

/-- `join` on a slice of strings. -/
def join (ts : List Text) (sep : Text) : Text := List.intercalate sep ts

/-- `char::to_digit`. -/
def toDigit (radix : ℕ) (c : Char) : Option ℕ :=
  let digit := if '0' ≤ c ∧ c ≤ '9' then some (c.toNat - 48)
    else if 'a' ≤ c ∧ c ≤ 'z' then some (c.toNat - 87)
    else if 'A' ≤ c ∧ c ≤ 'Z' then some (c.toNat - 55)
    else none
  digit.filter (· < radix)

/-- The number with the digits `ds`. -/
def ofDigits (radix : ℕ) (ds : List ℕ) : ℕ := ds.foldl (fun n d => n * radix + d) 0

/-- `str::parse::<u16>`: decimal digits, perhaps behind a plus sign. -/
def parseU16 (t : Text) : Option UInt16 :=
  let digits := (t.stripPrefix ['+']).getD t
  if digits = [] then none
  else (digits.mapM (toDigit 10)).bind fun ds =>
    if ofDigits 10 ds < 65536 then some (.ofNat (ofDigits 10 ds)) else none

/-- `str::parse::<i64>`: decimal digits, perhaps behind a sign. -/
def parseI64 (t : Text) : Option ℤ :=
  let negative := t.stripPrefix ['-']
  let digits := negative.getD ((t.stripPrefix ['+']).getD t)
  if digits = [] then none
  else (digits.mapM (toDigit 10)).bind fun ds =>
    let value : ℤ := if negative.isSome then -ofDigits 10 ds else ofDigits 10 ds
    if -9223372036854775808 ≤ value ∧ value ≤ 9223372036854775807 then some value else none

/-! ## Decimal numbers -/

theorem toDigit_of_isDigit {c : Char} (h : c.isDigit) : toDigit 10 c = some (c.toNat - 48) := by
  obtain ⟨h0, h9⟩ := Char.isDigit_iff_toNat.1 h
  have hle : '0' ≤ c ∧ c ≤ '9' := ⟨h0, h9⟩
  have hlt : c.toNat - 48 < 10 := by
    change c.toNat ≤ 57 at h9
    omega
  rw [toDigit, if_pos hle, Option.filter_some, decide_eq_true hlt, if_pos rfl]

theorem mapM_toDigit {t : Text} (h : ∀ c ∈ t, c.isDigit) :
    t.mapM (toDigit 10) = some (t.map fun c => c.toNat - 48) := by
  induction t with
  | nil => rfl
  | cons c t ih =>
    rw [List.mapM_cons, toDigit_of_isDigit (h c List.mem_cons_self),
      ih fun d hd => h d (List.mem_cons_of_mem _ hd)]
    rfl

theorem isDigit_of_mem_toDigits {n : ℕ} {c : Char} (h : c ∈ Nat.toDigits 10 n) : c.isDigit :=
  Nat.isDigit_of_mem_toDigits (by decide) (by decide) h

theorem mapM_toDigits (n : ℕ) :
    ∃ ds, (Nat.toDigits 10 n).mapM (toDigit 10) = some ds ∧ ofDigits 10 ds = n := by
  refine ⟨_, mapM_toDigit fun c => isDigit_of_mem_toDigits, ?_⟩
  have hfold : ∀ (t : Text) (init : ℕ), (t.map fun c => c.toNat - 48).foldl
      (fun n d => n * 10 + d) init = Nat.ofDigitChars 10 t init := by
    intro t
    induction t with
    | nil => exact fun init => (Nat.ofDigitChars_nil).symm
    | cons c t ih =>
      intro init
      rw [List.map_cons, List.foldl_cons, ih, Nat.ofDigitChars_cons, Nat.mul_comm]
      rfl
  exact (hfold _ 0).trans Nat.ofDigitChars_ten_toDigits

theorem parseI64_toDigits {n : ℕ} (h : n ≤ 9223372036854775807) :
    parseI64 (Nat.toDigits 10 n) = some (n : ℤ) := by
  have hsign : ∀ c : Char, ¬ c.isDigit → stripPrefix (Nat.toDigits 10 n) [c] = none := by
    intro c hc
    refine Option.eq_none_iff_forall_not_mem.2 fun rest hrest => hc ?_
    refine isDigit_of_mem_toDigits (n := n) ?_
    rw [stripPrefix_eq_some.1 hrest]
    exact List.mem_cons_self
  obtain ⟨ds, hds, hvalue⟩ := mapM_toDigits n
  unfold parseI64
  simp only [hsign '-' (by decide), hsign '+' (by decide), Option.getD_none, Option.isSome_none,
    Bool.false_eq_true, if_false, Nat.toDigits_ne_nil, hds, Option.bind_some, hvalue]
  refine if_pos ⟨?_, ?_⟩ <;> omega

end Text

/-- `u8::to_ascii_lowercase`. -/
def toAsciiLowercase (byte : UInt8) : UInt8 :=
  if 65 ≤ byte ∧ byte ≤ 90 then byte + 32 else byte

/-- `char::from(u8)`. -/
def charOfByte (byte : UInt8) : Char := Char.ofNat byte.toNat

end DnsBlackhole
