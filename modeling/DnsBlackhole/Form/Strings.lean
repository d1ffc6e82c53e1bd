/-
  The strings of the interface, as far as its policy editor works on them.

  They trim other characters than those of the service: the next line (U+0085) is
  no white space to them, and the byte order mark is one.

  * `trim_eq`, `trimmedWords_eq`: on texts without either of the two they agree
    with the service;
  * `splitOnceAt_of_splitOn`: two parts are those of `split_once`.
-/
import DnsBlackhole.Config.Upstreams
import DnsBlackhole.Pieces

namespace DnsBlackhole.Form
open Text (dropWhile_congr exists_trim isWhitespace_toLower mem_of_mem_trim splitOnceAt_eq_some
  split_congr toLower_cases trim_append words)

/-! ## Operations -/

/-- `WhiteSpace` and `LineTerminator`, which `trim` and `\s` look for. -/
def isWhitespace (c : Char) : Bool :=
  (9 ≤ c.toNat && c.toNat ≤ 13) || c.toNat == 0x20 || c.toNat == 0xA0 || c.toNat == 0x1680 ||
    (0x2000 ≤ c.toNat && c.toNat ≤ 0x200A) || c.toNat == 0x2028 || c.toNat == 0x2029 ||
    c.toNat == 0x202F || c.toNat == 0x205F || c.toNat == 0x3000 || c.toNat == 0xFEFF

/-- `String.prototype.trim` -/
def trim (t : Text) : Text := (t.dropWhile isWhitespace).rdropWhile isWhitespace

/-- `toLowerCase`, for one character.  Of the characters beyond ASCII only two have an ASCII
    letter in lower case: the dotted capital I and the Kelvin sign.  The others stay as they
    are, for the editor compares the result with texts in ASCII. -/
def lowerChar (c : Char) : Text :=
  if c.toNat = 0x130 then ['i', Char.ofNat 0x307]
  else if c.toNat = 0x212A then ['k']
  else [c.toLower]

/-- `String.prototype.toLowerCase` -/
def toLowerCase (t : Text) : Text := t.flatMap lowerChar

/-- The parts between the separators, in at most `fuel` steps. -/
def splitSteps (separator : Text) : ℕ → Text → List Text
  | 0, t => [t]
  | fuel + 1, t =>
    match Text.splitOnceAt t separator with
    | some (part, rest) => part :: splitSteps separator fuel rest
    | none => [t]

/-- `String.prototype.split` at a text; every step takes a separator away. -/
def splitOn (separator t : Text) : List Text := splitSteps separator t.length t

/-- `trim().split(/\s+/)`: the words; an empty text is one word. -/
def trimmedWords (t : Text) : List Text :=
  if trim t = [] then [[]] else ((trim t).split isWhitespace).filter (· ≠ [])

def isDigit (c : Char) : Bool := '0' ≤ c && c ≤ '9'

/-- `/[a-z0-9_-]/i` -/
def isNameChar (c : Char) : Bool := c.isAlphanum || c == '_' || c == '-'

/-- `Number` and `Number.parseInt`, of digits. -/
def number (radix : ℕ) (t : Text) : ℕ := Text.ofDigits radix (t.filterMap (Text.toDigit radix))

/-! ## Splitting -/

section
variable {separator t a b : Text}

theorem splitSteps_succ (separator : Text) (fuel : ℕ) (t : Text) :
    splitSteps separator (fuel + 1) t = match Text.splitOnceAt t separator with
      | some (part, rest) => part :: splitSteps separator fuel rest
      | none => [t] := rfl

theorem splitSteps_of_none (h : Text.splitOnceAt t separator = none) (fuel : ℕ) :
    splitSteps separator fuel t = [t] := by
  cases fuel with
  | zero => rfl
  | succ fuel => rw [splitSteps_succ, h]

theorem splitOn_of_none (h : Text.splitOnceAt t separator = none) : splitOn separator t = [t] :=
  splitSteps_of_none h _

theorem splitOn_of_some (ht : t ≠ []) (h : Text.splitOnceAt t separator = some (a, b))
    (hb : Text.splitOnceAt b separator = none) : splitOn separator t = [a, b] := by
  obtain ⟨c, t, rfl⟩ := List.exists_cons_of_ne_nil ht
  rw [splitOn, List.length_cons, splitSteps_succ, h]
  exact congrArg (a :: ·) (splitSteps_of_none hb _)

theorem splitOnceAt_of_splitOn (h : splitOn separator t = [a, b]) :
    Text.splitOnceAt t separator = some (a, b) := by
  cases t with
  | nil => cases h
  | cons c t =>
    rw [splitOn, List.length_cons, splitSteps_succ] at h
    cases hsplit : Text.splitOnceAt (c :: t) separator with
    | none =>
      rw [hsplit] at h
      cases h
    | some parts =>
      rw [hsplit] at h
      injection h with hfirst hrest
      have hlen : ∀ fuel u, splitSteps separator fuel u = [b] → u = b := by
        intro fuel u hu
        cases fuel with
        | zero => exact List.singleton_inj.1 hu
        | succ fuel =>
          rw [splitSteps_succ] at hu
          split at hu
          · injection hu with _ hnil
            cases fuel with
            | zero => cases hnil
            | succ fuel =>
              rw [splitSteps_succ] at hnil
              split at hnil <;> cases hnil
          · exact List.singleton_inj.1 hu
      rw [← hfirst, ← hlen _ _ hrest]

end

/-! ### Characters -/

theorem mem_splitOn_of_mem {separator t : Text} {c : Char} (h : c ∈ t) (hne : c ∉ separator) :
    ∃ part ∈ splitOn separator t, c ∈ part := by
  have hsteps : ∀ fuel {t : Text}, c ∈ t → ∃ part ∈ splitSteps separator fuel t, c ∈ part := by
    intro fuel
    induction fuel with
    | zero => exact fun h => ⟨_, List.mem_singleton_self _, h⟩
    | succ fuel ih =>
      intro t h
      rw [splitSteps_succ]
      split
      · next part rest hsplit =>
        rw [splitOnceAt_eq_some hsplit, List.append_assoc, List.mem_append, List.mem_append] at h
        rcases h with h | h | h
        · exact ⟨part, List.mem_cons_self, h⟩
        · exact absurd h hne
        · obtain ⟨part', hpart', hmem⟩ := ih h
          exact ⟨part', List.mem_cons_of_mem _ hpart', hmem⟩
      · exact ⟨t, List.mem_singleton_self _, h⟩
  exact hsteps _ h

/-! ## Numbers -/

theorem isDigit_iff {c : Char} : (Text.toDigit 10 c).isSome ↔ isDigit c := by
  have hchar : isDigit c = (decide ('0' ≤ c ∧ c ≤ '9')) := by
    rw [isDigit, Bool.decide_and]
  rw [hchar, decide_eq_true_iff]
  unfold Text.toDigit
  split_ifs with hdigit hlower hupper
  · have hlt : c.toNat - 48 < 10 := by
      have hle : c.toNat ≤ 57 := hdigit.2
      omega
    simp [hdigit, hlt]
  · have hge : ¬ c.toNat - 87 < 10 := by
      have hle : 97 ≤ c.toNat := hlower.1
      omega
    simp [hdigit, hge]
  · have hge : ¬ c.toNat - 55 < 10 := by
      have hle : 65 ≤ c.toNat := hupper.1
      omega
    simp [hdigit, hge]
  · simp [hdigit]

theorem toNat_of_isDigit {c : Char} (h : isDigit c) :
    (48 ≤ c.toNat ∧ c.toNat ≤ 57) ∧ ¬ Text.isWhitespace c := by
  rw [isDigit, Bool.and_eq_true, decide_eq_true_iff, decide_eq_true_iff] at h
  have hbounds : 48 ≤ c.toNat ∧ c.toNat ≤ 57 := h
  refine ⟨hbounds, ?_⟩
  simp [Text.isWhitespace]
  omega

theorem filterMap_of_mapM {α β : Type} {f : α → Option β} {l : List α} {l' : List β}
    (h : l.mapM f = some l') : l.filterMap f = l' ∧ ∀ a ∈ l, (f a).isSome := by
  induction l generalizing l' with
  | nil =>
    cases h
    exact ⟨rfl, fun a ha => absurd ha List.not_mem_nil⟩
  | cons a l ih =>
    rw [List.mapM_cons] at h
    obtain ⟨b, hb, h⟩ := Option.bind_eq_some_iff.1 h
    obtain ⟨bs, hbs, h⟩ := Option.bind_eq_some_iff.1 h
    cases h
    obtain ⟨hrest, hall⟩ := ih hbs
    refine ⟨by rw [List.filterMap_cons, hb, hrest], List.forall_mem_cons.2 ⟨?_, hall⟩⟩
    rw [hb]
    rfl

theorem parseU16_eq_some {t : Text} {value : UInt16} (h : t.parseU16 = some value) :
    ∃ digits, (t = digits ∨ t = '+' :: digits) ∧ digits ≠ [] ∧ (∀ c ∈ digits, isDigit c) ∧
      number 10 digits = value.toNat := by
  unfold Text.parseU16 at h
  dsimp only at h
  split_ifs at h with hempty
  obtain ⟨ds, hds, h⟩ := Option.bind_eq_some_iff.1 h
  split_ifs at h with hbound
  cases h
  obtain ⟨hdigits, hall⟩ := filterMap_of_mapM hds
  refine ⟨_, ?_, hempty, fun c hc => isDigit_iff.1 (hall c hc), ?_⟩
  · cases hsign : t.stripPrefix ['+'] with
    | none => exact .inl rfl
    | some digits => exact .inr (Text.stripPrefix_eq_some.1 hsign)
  · rw [number, hdigits]
    exact (UInt16.toNat_ofNat_of_lt hbound).symm

theorem number_of_parseU16 {t : Text} {value : UInt16} (h : t.parseU16 = some value)
    (hdigits : ∀ c ∈ t, isDigit c) : number 10 t = value.toNat := by
  obtain ⟨digits, rfl | rfl, -, -, hnumber⟩ := parseU16_eq_some h
  · exact hnumber
  · cases hdigits '+' List.mem_cons_self

/-! ## White space -/

/-- U+0085, white space to the service only. -/
def nextLine : Char := Char.ofNat 0x85

/-- U+FEFF, white space to the interface only. -/
def byteOrderMark : Char := Char.ofNat 0xFEFF

/-- A text with the same white space to both. -/
def SameSpace (t : Text) : Prop := ∀ c ∈ t, isWhitespace c = Text.isWhitespace c

theorem sameSpace_of_not_mem {t : Text} (hnext : nextLine ∉ t) (hmark : byteOrderMark ∉ t) :
    SameSpace t := by
  intro c hc
  have h85 : (c.toNat == 0x85) = false := beq_eq_false_iff_ne.2 fun heq =>
    hnext (Char.toNat_inj.1 (show c.toNat = nextLine.toNat from heq) ▸ hc)
  have hFEFF : (c.toNat == 0xFEFF) = false := beq_eq_false_iff_ne.2 fun heq =>
    hmark (Char.toNat_inj.1 (show c.toNat = byteOrderMark.toNat from heq) ▸ hc)
  simp only [isWhitespace, Text.isWhitespace, h85, hFEFF, Bool.or_false]

theorem isWhitespace_of_form {c : Char} (hmark : c ≠ byteOrderMark) (h : isWhitespace c) :
    Text.isWhitespace c := by
  by_cases hnext : c = nextLine
  · rw [hnext]
    rfl
  · have hsame : SameSpace [c] := sameSpace_of_not_mem
      (fun hmem => hnext (List.mem_singleton.1 hmem).symm)
      fun hmem => hmark (List.mem_singleton.1 hmem).symm
    rwa [← hsame c (List.mem_singleton_self c)]

section
variable {p q : Char → Bool} {t : Text}

theorem trim_eq (h : SameSpace t) : trim t = Text.trim t := by
  have hdrop := dropWhile_congr h
  rw [trim, Text.trim, hdrop, List.rdropWhile, List.rdropWhile]
  refine congrArg List.reverse (dropWhile_congr fun c hc => h c ?_)
  exact (List.dropWhile_sublist _).subset (List.mem_reverse.1 hc)

theorem trimmedWords_eq (h : SameSpace t) :
    trimmedWords t = if Text.trim t = [] then [[]] else Text.splitWhitespace (Text.trim t) := by
  have hsplit : Text.split isWhitespace t.trim = Text.split Text.isWhitespace t.trim :=
    split_congr fun c hc => h c (mem_of_mem_trim hc)
  rw [trimmedWords, trim_eq h, hsplit]
  rfl

end

/-! ### Trimming -/

theorem trim_trim {t : Text} (h : byteOrderMark ∉ t) : Text.trim (trim t) = Text.trim t := by
  obtain ⟨a, b, ha, hb, ht⟩ := exists_trim isWhitespace t
  have hspace : ∀ c ∈ t, isWhitespace c → Text.isWhitespace c := fun c hc =>
    isWhitespace_of_form fun hmark => h (hmark ▸ hc)
  have hsub : ∀ c, c ∈ a ∨ c ∈ b → c ∈ t := by
    intro c hc
    rw [ht]
    rcases hc with hc | hc <;> simp [hc]
  conv_rhs => rw [ht]
  exact (trim_append (fun c hc => hspace c (hsub c (.inl hc)) (ha c hc))
    fun c hc => hspace c (hsub c (.inr hc)) (hb c hc)).symm

/-! ## Lower case -/

/-- ASCII, and white space, which has no case. -/
def IsCaseless (t : Text) : Prop := ∀ c ∈ t, c.toNat < 128 ∨ Text.isWhitespace c

theorem not_mem_of_isCaseless {t : Text} (h : IsCaseless t) : byteOrderMark ∉ t := by
  intro hmem
  rcases h _ hmem with hlt | hspace
  · exact absurd hlt (by decide)
  · cases hspace

theorem lowerChar_eq {c : Char} (h : c.toNat < 128 ∨ Text.isWhitespace c) :
    lowerChar c = [c.toLower] := by
  have hI : c.toNat ≠ 0x130 := by
    intro heq
    rcases h with h | h
    · omega
    · simp [Text.isWhitespace, heq] at h
  have hK : c.toNat ≠ 0x212A := by
    intro heq
    rcases h with h | h
    · omega
    · simp [Text.isWhitespace, heq] at h
  rw [lowerChar, if_neg hI, if_neg hK]

theorem toLowerCase_eq {t : Text} (h : IsCaseless t) : toLowerCase t = t.toAsciiLowercase := by
  induction t with
  | nil => rfl
  | cons c t ih =>
    rw [toLowerCase, List.flatMap_cons, lowerChar_eq (h c List.mem_cons_self)]
    exact congrArg (c.toLower :: ·) (ih fun d hd => h d (List.mem_cons_of_mem _ hd))

theorem isCaseless_lower {t : Text} (h : IsCaseless t) : IsCaseless t.toAsciiLowercase := by
  intro c hc
  obtain ⟨d, hd, rfl⟩ := List.mem_map.1 hc
  rw [isWhitespace_toLower]
  rcases toLower_cases d with heq | ⟨-, hhigh, heq⟩
  · rw [heq]
    exact h d hd
  · exact .inl (by omega)

/-! ## Names -/

theorem toNat_of_isNameChar {c : Char} (h : isNameChar c) :
    (48 ≤ c.toNat ∧ c.toNat ≤ 57) ∨ (65 ≤ c.toNat ∧ c.toNat ≤ 90) ∨
      (97 ≤ c.toNat ∧ c.toNat ≤ 122) ∨ c = '_' ∨ c = '-' := by
  unfold isNameChar Char.isAlphanum Char.isAlpha Char.isUpper Char.isLower Char.isDigit at h
  simp only [Bool.or_eq_true, Bool.and_eq_true, decide_eq_true_iff, beq_iff_eq] at h
  rcases h with (((⟨hlow, hhigh⟩ | ⟨hlow, hhigh⟩) | ⟨hlow, hhigh⟩) | rfl) | rfl
  · exact .inr (.inl ⟨hlow, hhigh⟩)
  · exact .inr (.inr (.inl ⟨hlow, hhigh⟩))
  · exact .inl ⟨hlow, hhigh⟩
  · exact .inr (.inr (.inr (.inl rfl)))
  · exact .inr (.inr (.inr (.inr rfl)))

theorem isNameChar_of_toLower {c : Char} (h : isNameChar c.toLower) : isNameChar c := by
  rcases toLower_cases c with heq | ⟨hlow, hhigh, -⟩
  · rwa [heq] at h
  · have hupper : c.isUpper := by
      unfold Char.isUpper
      exact decide_eq_true ⟨hlow, hhigh⟩
    unfold isNameChar Char.isAlphanum Char.isAlpha
    simp [hupper]

end DnsBlackhole.Form
