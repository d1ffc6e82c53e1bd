/-
  Pieces of texts: what stands between separators, what trimming leaves, and lower
  case.

  * `splitOnce_eq_some`, `splitOnceAt_eq_some`: the two parts around a separator;
  * `exists_trim`, `trim_append`: a text is what trimming leaves between what it
    takes away;
  * `words_flatMap`, `words_trim`: the words between separators;
  * `join_split`, `split_join`: splitting and joining undo each other.
-/
import DnsBlackhole.Lib.Joined
import DnsBlackhole.Text

namespace DnsBlackhole.Text

/-! ## Splitting -/

theorem split_of_not_mem {c : Char} {t : Text} (h : c ∉ t) : split (· == c) t = [t] :=
  split_of_forall_not fun d hd => by
    rintro hdc
    exact h (eq_of_beq hdc ▸ hd)

theorem split_cons_append {c : Char} {part : Text} (h : c ∉ part) (t : Text) :
    split (· == c) (part ++ c :: t) = part :: split (· == c) t := by
  have hc : (c == c) = true := beq_self_eq_true c
  rw [split_append (p := (· == c)) hc, split_of_not_mem h]
  rfl

theorem splitOnce_eq_some {c : Char} {t a b : Text}
    (h : splitOnce (· == c) t = some (a, b)) : t = a ++ c :: b ∧ c ∉ a := by
  induction t generalizing a with
  | nil => cases h
  | cons d t ih =>
    rw [splitOnce] at h
    split_ifs at h with hd
    · cases h
      exact ⟨congrArg (· :: b) (eq_of_beq hd), List.not_mem_nil⟩
    · obtain ⟨⟨a', b'⟩, hsplit, heq⟩ := Option.map_eq_some_iff.1 h
      cases heq
      obtain ⟨rfl, hc⟩ := ih hsplit
      refine ⟨rfl, fun hmem => ?_⟩
      rcases List.mem_cons.1 hmem with rfl | hmem
      · exact hd (beq_self_eq_true c)
      · exact hc hmem

theorem splitOnce_eq_none {c : Char} {t : Text} :
    splitOnce (· == c) t = none ↔ c ∉ t := by
  induction t with
  | nil => exact iff_of_true rfl List.not_mem_nil
  | cons d t ih =>
    rw [splitOnce, List.mem_cons, not_or]
    by_cases hd : d = c
    · rw [if_pos (beq_iff_eq.2 hd)]
      exact iff_of_false (fun h => by cases h) fun h => h.1 hd.symm
    · rw [if_neg fun heq => hd (eq_of_beq heq), Option.map_eq_none_iff, ih]
      exact ⟨fun h => ⟨fun heq => hd heq.symm, h⟩, fun h => h.2⟩

theorem splitOnce_append {c : Char} {a b : Text} (h : c ∉ a) :
    splitOnce (· == c) (a ++ c :: b) = some (a, b) := by
  induction a with
  | nil => exact if_pos (beq_self_eq_true c)
  | cons d a ih =>
    have hd : ¬ (d == c) = true := fun heq => h (eq_of_beq heq ▸ List.mem_cons_self)
    rw [List.cons_append, splitOnce, if_neg hd, ih fun hmem => h (List.mem_cons_of_mem _ hmem)]
    rfl

section
variable {separator t a b : Text}

theorem splitOnceAt_eq_some (h : splitOnceAt t separator = some (a, b)) :
    t = a ++ separator ++ b := by
  induction t generalizing a with
  | nil =>
    unfold splitOnceAt at h
    split at h
    · next rest hrest =>
      cases h
      exact stripPrefix_eq_some.1 hrest
    · cases h
  | cons c t ih =>
    unfold splitOnceAt at h
    split at h
    · next rest hrest =>
      cases h
      exact stripPrefix_eq_some.1 hrest
    · obtain ⟨⟨a', b'⟩, hsplit, heq⟩ := Option.map_eq_some_iff.1 h
      cases heq
      rw [ih hsplit]
      rfl

theorem splitOnceAt_eq_none {c : Char} (hfirst : separator.head? = some c) (h : c ∉ t) :
    splitOnceAt t separator = none := by
  obtain ⟨rest, rfl⟩ := List.head?_eq_some_iff.1 hfirst
  induction t with
  | nil => rfl
  | cons d t ih =>
    have hcd : c ≠ d := fun heq => h (heq ▸ List.mem_cons_self)
    have ht : c ∉ t := fun hmem => h (List.mem_cons_of_mem _ hmem)
    unfold splitOnceAt
    have hstrip : stripPrefix (d :: t) (c :: rest) = none := by
      refine Option.eq_none_iff_forall_not_mem.2 fun u hu => hcd ?_
      have heq := stripPrefix_eq_some.1 hu
      injection heq with hhead
      exact hhead.symm
    rw [hstrip]
    dsimp only
    rw [ih ht]
    rfl

theorem splitOnceAt_cons {c : Char} (h : stripPrefix (c :: t) separator = none) :
    splitOnceAt (c :: t) separator =
      (splitOnceAt t separator).map fun r => (c :: r.1, r.2) := by
  rw [splitOnceAt, h]

theorem splitOnceAt_append {c : Char} (hfirst : separator.head? = some c) (h : c ∉ a) :
    splitOnceAt (a ++ t) separator =
      (splitOnceAt t separator).map fun r => (a ++ r.1, r.2) := by
  obtain ⟨rest, rfl⟩ := List.head?_eq_some_iff.1 hfirst
  induction a with
  | nil => exact (congrFun Option.map_id _).symm
  | cons d a ih =>
    have hstrip : stripPrefix (d :: (a ++ t)) (c :: rest) = none := by
      refine Option.eq_none_iff_forall_not_mem.2 fun u hu => h ?_
      injection stripPrefix_eq_some.1 hu with hhead
      exact hhead ▸ List.mem_cons_self
    rw [List.cons_append, splitOnceAt_cons hstrip, ih fun hmem => h (List.mem_cons_of_mem _ hmem),
      Option.map_map]
    rfl

theorem splitOnceAt_append_right (h : splitOnceAt t separator = some (a, b)) (u : Text) :
    splitOnceAt (t ++ u) separator = some (a, b ++ u) := by
  have hstrip : ∀ {t r : Text}, stripPrefix (t ++ u) separator = some r →
      separator.length ≤ t.length → stripPrefix t separator ≠ none := by
    intro t r hr hlen hnone
    obtain ⟨t', rfl⟩ : separator <+: t := List.prefix_of_prefix_length_le
      ⟨r, (stripPrefix_eq_some.1 hr).symm⟩ (List.prefix_append t u) hlen
    rw [stripPrefix_eq_some.2 rfl] at hnone
    cases hnone
  induction t generalizing a with
  | nil =>
    unfold splitOnceAt at h
    split at h
    · next rest hrest =>
      cases h
      have hnil := stripPrefix_eq_some.1 hrest
      obtain ⟨rfl, rfl⟩ := List.append_eq_nil_iff.1 hnil.symm
      cases u <;> rfl
    · cases h
  | cons c t ih =>
    have hlen : separator.length ≤ (c :: t).length := by
      rw [splitOnceAt_eq_some h, List.length_append, List.length_append]
      omega
    unfold splitOnceAt at h
    split at h
    · next rest hrest =>
      cases h
      have hmore : stripPrefix (c :: (t ++ u)) separator = some (b ++ u) :=
        stripPrefix_eq_some.2 (by
          rw [← List.append_assoc, ← stripPrefix_eq_some.1 hrest]
          rfl)
      rw [List.cons_append, splitOnceAt, hmore]
    · next hnone =>
      obtain ⟨⟨a', b'⟩, hsplit, heq⟩ := Option.map_eq_some_iff.1 h
      cases heq
      have hmore : stripPrefix (c :: (t ++ u)) separator = none :=
        Option.eq_none_iff_forall_not_mem.2 fun r hr => hstrip hr hlen hnone
      rw [List.cons_append, splitOnceAt_cons hmore, ih hsplit]
      rfl

end

/-! ## Characters of the parts -/

theorem mem_split_of_mem {p : Char → Bool} {c : Char} {t : Text} (h : c ∈ t) (hp : ¬ p c) :
    ∃ part ∈ split p t, c ∈ part := by
  induction t with
  | nil => cases h
  | cons d t ih =>
    rw [split]
    split_ifs with hd
    · rcases List.mem_cons.1 h with rfl | h
      · exact absurd hd hp
      · obtain ⟨part, hpart, hmem⟩ := ih h
        exact ⟨part, List.mem_cons_of_mem _ hpart, hmem⟩
    · cases hsplit : split p t with
      | nil => exact absurd hsplit (split_ne_nil _ t)
      | cons first parts =>
        rcases List.mem_cons.1 h with rfl | h
        · exact ⟨_, List.mem_cons_self, List.mem_cons_self⟩
        · obtain ⟨part, hpart, hmem⟩ := ih h
          rw [hsplit] at hpart
          rcases List.mem_cons.1 hpart with rfl | hpart
          · exact ⟨_, List.mem_cons_self, List.mem_cons_of_mem _ hmem⟩
          · exact ⟨part, List.mem_cons_of_mem _ hpart, hmem⟩

theorem not_of_mem_split {p : Char → Bool} {c : Char} {t part : Text}
    (h : part ∈ split p t) (hc : c ∈ part) : ¬ p c := by
  induction t generalizing part with
  | nil =>
    cases List.mem_singleton.1 h
    cases hc
  | cons d t ih =>
    rw [split] at h
    split_ifs at h with hd
    · rcases List.mem_cons.1 h with rfl | h
      · cases hc
      · exact ih h hc
    · cases hsplit : split p t with
      | nil => exact absurd hsplit (split_ne_nil _ t)
      | cons first parts =>
        rw [hsplit] at h ih
        rcases List.mem_cons.1 h with rfl | h
        · rcases List.mem_cons.1 hc with rfl | hc
          · exact hd
          · exact ih List.mem_cons_self hc
        · exact ih (List.mem_cons_of_mem _ h) hc

/-! ## Trimming -/

section
variable {p q : Char → Bool} {t : Text}

theorem dropWhile_congr (h : ∀ c ∈ t, p c = q c) : t.dropWhile p = t.dropWhile q := by
  induction t with
  | nil => rfl
  | cons c t ih =>
    rw [List.dropWhile_cons, List.dropWhile_cons, h c List.mem_cons_self,
      ih fun d hd => h d (List.mem_cons_of_mem _ hd)]

theorem split_congr (h : ∀ c ∈ t, p c = q c) : split p t = split q t := by
  induction t with
  | nil => rfl
  | cons c t ih =>
    rw [split, split, h c List.mem_cons_self,
      ih fun d hd => h d (List.mem_cons_of_mem _ hd)]

theorem mem_or_of_mem {c : Char} (hc : c ∈ t) :
    p c ∨ c ∈ (t.dropWhile p).rdropWhile p := by
  by_cases hp : p c
  · exact .inl hp
  · right
    have hdrop : ∀ {u : Text}, c ∈ u → c ∈ u.dropWhile p := by
      intro u hu
      rw [← List.takeWhile_append_dropWhile (p := p) (l := u)] at hu
      rcases List.mem_append.1 hu with hu | hu
      · exact absurd (List.mem_takeWhile_imp hu) hp
      · exact hu
    rw [List.rdropWhile, List.mem_reverse]
    exact hdrop (List.mem_reverse.2 (hdrop hc))

theorem mem_of_mem_dropWhile {c : Char} (hc : c ∈ (t.dropWhile p).rdropWhile p) : c ∈ t := by
  rw [List.rdropWhile, List.mem_reverse] at hc
  exact (List.dropWhile_sublist _).subset
    (List.mem_reverse.1 ((List.dropWhile_sublist _).subset hc))

theorem mem_of_mem_trim {c : Char} (hc : c ∈ trim t) : c ∈ t := mem_of_mem_dropWhile hc

theorem trim_of_forall_not (h : ∀ c ∈ t, ¬ isWhitespace c) : trim t = t :=
  trim_eq_self (fun c hc => h c (List.mem_of_mem_head? hc))
    fun c hc => h c (List.mem_of_mem_getLast? hc)

end

theorem exists_trim (p : Char → Bool) (t : Text) :
    ∃ a b, (∀ c ∈ a, p c) ∧ (∀ c ∈ b, p c) ∧ t = a ++ ((t.dropWhile p).rdropWhile p ++ b) := by
  have hright : ∀ u : Text, ∃ b, (∀ c ∈ b, p c) ∧ u = u.rdropWhile p ++ b := by
    intro u
    refine ⟨u.rtakeWhile p, fun c hc => ?_, ?_⟩
    · rw [List.rtakeWhile, List.mem_reverse] at hc
      exact List.mem_takeWhile_imp hc
    · rw [List.rdropWhile, List.rtakeWhile, ← List.reverse_append,
        List.takeWhile_append_dropWhile, List.reverse_reverse]
  obtain ⟨b, hb, hu⟩ := hright (t.dropWhile p)
  exact ⟨t.takeWhile p, b, fun c hc => List.mem_takeWhile_imp hc, hb,
    by rw [← hu, List.takeWhile_append_dropWhile]⟩

theorem trim_append {a t b : Text} (ha : ∀ c ∈ a, isWhitespace c)
    (hb : ∀ c ∈ b, isWhitespace c) : trim (a ++ (t ++ b)) = trim t := by
  have hleft : ∀ u : Text, trim (a ++ u) = trim u := fun u => by
    rw [trim, List.dropWhile_append_of_pos ha, trim]
  have hright : ∀ u : Text, trim (u ++ b) = trim u := by
    induction b using List.reverseRecOn with
    | nil => exact fun u => by rw [List.append_nil]
    | append_singleton b c ih =>
      intro u
      rw [← List.append_assoc, trim_concat_whitespace _ (hb c (by simp)),
        ih fun d hd => hb d (List.mem_append_left _ hd)]
  rw [hleft, hright]

theorem trim_trim (t : Text) : trim (trim t) = trim t := by
  obtain ⟨a, b, ha, hb, ht⟩ := exists_trim isWhitespace t
  have htrim := congrArg trim ht
  rw [trim_append ha hb] at htrim
  exact htrim.symm

theorem getLast?_trim_ne {c : Char} (hc : isWhitespace c) (t : Text) : (trim t).getLast? ≠ some c := by
  intro hlast
  have hne : trim t ≠ [] := fun hnil => by
    rw [hnil] at hlast
    cases hlast
  rw [List.getLast?_eq_some_getLast hne] at hlast
  exact List.rdropWhile_last_not isWhitespace _ hne (Option.some.inj hlast ▸ hc)

/-! ## Words -/

/-- The words between separators. -/
def words (p : Char → Bool) (t : Text) : List Text := (t.split p).filter (· ≠ [])

section
variable {p q : Char → Bool}

theorem words_append {c : Char} (h : p c) (a b : Text) :
    words p (a ++ c :: b) = words p a ++ words p b := by
  rw [words, split_append h, List.filter_append]
  rfl

theorem words_of_forall_not {t : Text} (hne : t ≠ []) (h : ∀ c ∈ t, ¬ p c) : words p t = [t] := by
  rw [words, split_of_forall_not h, List.filter_singleton, decide_eq_true hne]
  rfl

theorem exists_separator (p : Char → Bool) (t : Text) :
    (∀ c ∈ t, ¬ p c) ∨ ∃ a c b, t = a ++ c :: b ∧ p c ∧ ∀ d ∈ a, ¬ p d := by
  induction t with
  | nil => exact .inl fun c hc => absurd hc List.not_mem_nil
  | cons d t ih =>
    by_cases hd : p d
    · exact .inr ⟨[], d, t, rfl, hd, fun c hc => absurd hc List.not_mem_nil⟩
    · rcases ih with ht | ⟨a, c, b, rfl, hc, ha⟩
      · exact .inl (List.forall_mem_cons.2 ⟨hd, ht⟩)
      · exact .inr ⟨d :: a, c, b, rfl, hc, List.forall_mem_cons.2 ⟨hd, ha⟩⟩

theorem exists_words_eq_cons {a b : Text} {c : Char} {word : Text} {rest : List Text} (hc : ¬ p c)
    (hword : c ∉ word) (h : words p (a ++ c :: b) = word :: rest) (b' : Text) :
    ∃ rest', words p (a ++ c :: b') = word :: rest' := by
  induction hlen : a.length using Nat.strong_induction_on generalizing a with
  | _ n ih =>
    rcases exists_separator p a with ha | ⟨u, s, v, rfl, hs, hu⟩
    · -- the first word would have the character
      have hfirst : ∀ d : Text, (∀ x ∈ d, ¬ p x) → words p (a ++ c :: d) = [a ++ c :: d] :=
        fun d hd => words_of_forall_not (by simp) fun x hx => by
          rcases List.mem_append.1 hx with hx | hx
          · exact ha x hx
          · rcases List.mem_cons.1 hx with rfl | hx
            · exact hc
            · exact hd x hx
      rcases exists_separator p b with hb | ⟨u, s, v, rfl, hs, hu⟩
      · rw [hfirst b hb] at h
        rw [← (List.cons.inj h).1] at hword
        exact absurd (by simp) hword
      · rw [← List.cons_append, ← List.append_assoc, words_append hs, hfirst u hu] at h
        rw [← (List.cons.inj h).1] at hword
        exact absurd (by simp) hword
    · rw [List.append_assoc, List.cons_append, words_append hs] at h ⊢
      by_cases hnil : u = []
      · subst hnil
        exact ih v.length (by rw [← hlen]; simp) h rfl
      · rw [words_of_forall_not hnil hu] at h ⊢
        exact ⟨_, congrArg (· :: _) (List.cons.inj h).1⟩

theorem words_flatMap {t : Text} (h : ∀ c ∈ t, p c → q c) :
    words q t = (words p t).flatMap (words q) := by
  induction hlen : t.length using Nat.strong_induction_on generalizing t with
  | _ n ih =>
    rcases exists_separator p t with ht | ⟨a, c, b, rfl, hc, ha⟩
    · by_cases hnil : t = []
      · rw [hnil]
        rfl
      · rw [words_of_forall_not hnil ht]
        exact (List.append_nil _).symm
    · have hb := ih b.length (by rw [← hlen, List.length_append, List.length_cons]; omega)
        (fun d hd => h d (by simp [hd])) rfl
      have hfirst : (words p a).flatMap (words q) = words q a := by
        by_cases hnil : a = []
        · rw [hnil]
          rfl
        · rw [words_of_forall_not hnil ha]
          exact List.append_nil _
      rw [words_append hc, words_append (h c (by simp) hc), List.flatMap_append, hfirst, hb]

theorem words_trim (t : Text) : words isWhitespace t.trim = words isWhitespace t := by
  have hspaces : ∀ {a : Text} (u : Text), (∀ c ∈ a, isWhitespace c) →
      words isWhitespace (a ++ u) = words isWhitespace u := by
    intro a u ha
    induction a with
    | nil => rfl
    | cons c a ih =>
      obtain ⟨hc, ha⟩ := List.forall_mem_cons.1 ha
      have hsplit := words_append hc [] (a ++ u)
      rw [ih ha] at hsplit
      exact hsplit
  obtain ⟨a, b, ha, hb, ht⟩ := exists_trim isWhitespace t
  conv_rhs => rw [ht, hspaces _ ha]
  cases b with
  | nil => rw [List.append_nil]; rfl
  | cons c b =>
    obtain ⟨hc, hb⟩ := List.forall_mem_cons.1 hb
    have hnil := hspaces [] hb
    rw [List.append_nil] at hnil
    rw [words_append hc, hnil]
    exact (List.append_nil _).symm

theorem flatten_split (p : Char → Bool) (t : Text) :
    (split p t).flatten = t.filter fun c => !p c := by
  induction t with
  | nil => rfl
  | cons c t ih =>
    rw [split, List.filter_cons]
    by_cases hc : p c
    · rw [if_pos hc, hc]
      exact ih
    · rw [if_neg hc, Bool.eq_false_iff.2 hc]
      cases hsplit : split p t with
      | nil => exact absurd hsplit (split_ne_nil p t)
      | cons part parts =>
        rw [hsplit] at ih
        exact congrArg (c :: ·) ih

theorem flatten_words (p : Char → Bool) (t : Text) :
    (words p t).flatten = t.filter fun c => !p c := by
  rw [← flatten_split, words]
  induction split p t with
  | nil => rfl
  | cons part parts ih =>
    rw [List.filter_cons]
    by_cases hnil : part = []
    · rw [decide_eq_false (not_not.2 hnil), hnil]
      exact ih
    · rw [decide_eq_true hnil]
      exact congrArg (part ++ ·) ih

theorem split_filter {r : Char → Bool} (h : ∀ c, p c → r c) (t : Text) :
    split p (t.filter r) = (split p t).map (List.filter r) := by
  induction t with
  | nil => rfl
  | cons c t ih =>
    rw [List.filter_cons]
    by_cases hp : p c
    · rw [if_pos (h c hp), split, if_pos hp, split, if_pos hp, ih]
      rfl
    · by_cases hr : r c
      · rw [if_pos hr, split, if_neg hp, split, if_neg hp, ih]
        cases split p t with
        | nil => simp [hr]
        | cons part parts => simp [hr]
      · rw [if_neg hr, ih, split, if_neg hp]
        cases hsplit : split p t with
        | nil => exact absurd hsplit (split_ne_nil p t)
        | cons part parts => simp [hr]

end

/-! ## Lower case -/

theorem toNat_toLower {c : Char} (hlow : 65 ≤ c.toNat) (hhigh : c.toNat ≤ 90) :
    c.toLower.toNat = c.toNat + 32 := by
  have hupper : c.val ≥ 'A'.val ∧ c.val ≤ 'Z'.val := ⟨hlow, hhigh⟩
  unfold Char.toLower
  rw [dif_pos hupper]
  change (c.val + ('a'.val - 'A'.val)).toNat = c.toNat + 32
  rw [UInt32.toNat_add]
  change (c.toNat + 32) % 2 ^ 32 = c.toNat + 32
  exact Nat.mod_eq_of_lt (by omega)

theorem toLower_cases (c : Char) :
    c.toLower = c ∨ (65 ≤ c.toNat ∧ c.toNat ≤ 90 ∧ c.toLower.toNat = c.toNat + 32) := by
  by_cases hupper : 65 ≤ c.toNat ∧ c.toNat ≤ 90
  · exact .inr ⟨hupper.1, hupper.2, toNat_toLower hupper.1 hupper.2⟩
  · have hsame : ¬ (c.val ≥ 'A'.val ∧ c.val ≤ 'Z'.val) := hupper
    left
    unfold Char.toLower
    rw [dif_neg hsame]

theorem toLower_toLower (c : Char) : c.toLower.toLower = c.toLower := by
  rcases toLower_cases c with h | ⟨hlow, hhigh, h⟩
  · rw [h, h]
  · rcases toLower_cases c.toLower with h' | ⟨hlow', hhigh', -⟩
    · exact h'
    · omega

theorem lower_lower (t : Text) : t.toAsciiLowercase.toAsciiLowercase = t.toAsciiLowercase :=
  (List.map_map ..).trans (List.map_congr_left fun c _ => toLower_toLower c)

theorem isWhitespace_toLower (c : Char) : isWhitespace c.toLower = isWhitespace c := by
  rcases toLower_cases c with h | ⟨hlow, hhigh, h⟩
  · rw [h]
  · have hnot : ∀ d : Char, 65 ≤ d.toNat → d.toNat ≤ 122 → isWhitespace d = false := by
      intro d hlow hhigh
      simp [isWhitespace]
      omega
    rw [hnot c hlow (by omega), hnot c.toLower (by omega) (by omega)]

/-! ## Lengths -/

theorem length_le_len (t : Text) : t.length ≤ t.len := by
  induction t with
  | nil => exact le_rfl
  | cons c t ih =>
    have hsize := Char.utf8Size_pos c
    rw [List.length_cons, len, List.map_cons, List.sum_cons]
    change t.length ≤ (t.map Char.utf8Size).sum at ih
    omega

/-! ## Joining -/

theorem join_split (c : Char) (t : Text) : join (t.split (· == c)) [c] = t := by
  induction t with
  | nil => exact Lib.joined_singleton c []
  | cons d t ih =>
    rw [split]
    cases hsplit : split (· == c) t with
    | nil => exact absurd hsplit (split_ne_nil _ t)
    | cons part parts =>
      rw [hsplit] at ih
      split_ifs with hd
      · have hjoin : join ([] :: part :: parts) [c] = c :: join (part :: parts) [c] :=
          Lib.joined_cons_cons c [] part parts
        rw [hjoin, ih, eq_of_beq hd]
      · cases parts with
        | nil =>
          have hpart : ∀ part : Text, join [part] [c] = part := Lib.joined_singleton c
          rw [hpart] at ih ⊢
          rw [ih]
        | cons next parts =>
          have hjoin : ∀ part : Text, join (part :: next :: parts) [c] =
              part ++ c :: join (next :: parts) [c] := fun part =>
            Lib.joined_cons_cons c part next parts
          rw [hjoin] at ih ⊢
          rw [List.cons_append, ih]

theorem split_join {c : Char} {parts : List Text} (hne : parts ≠ []) (h : ∀ part ∈ parts, c ∉ part) :
    (join parts [c]).split (· == c) = parts := by
  induction parts with
  | nil => exact absurd rfl hne
  | cons part parts ih =>
    obtain ⟨hfirst, hrest⟩ := List.forall_mem_cons.1 h
    cases parts with
    | nil =>
      have hjoin : join [part] [c] = part := Lib.joined_singleton c part
      rw [hjoin, split_of_not_mem hfirst]
    | cons next parts =>
      have hjoin : join (part :: next :: parts) [c] = part ++ c :: join (next :: parts) [c] :=
        Lib.joined_cons_cons c part next parts
      rw [hjoin, split_cons_append hfirst, ih (List.cons_ne_nil _ _) hrest]

/-! ## Lines -/

theorem not_mem_of_mem_lines {t line : Text} (h : line ∈ lines t) : '\n' ∉ line := fun hmem => by
  obtain ⟨part, hpart, hsub⟩ := exists_part_of_mem_lines h
  exact not_of_mem_split hpart (hsub _ hmem) (beq_self_eq_true '\n')

theorem lines_of_not_mem {t : Text} (h : '\n' ∉ t) (hne : t ≠ []) : lines t = [t] := by
  rw [lines, split_of_not_mem h, linesOf, if_neg hne]

theorem lines_cons_append {line : Text} (h : '\n' ∉ line) (hreturn : line.getLast? ≠ some '\r')
    (t : Text) : lines (line ++ '\n' :: t) = line :: lines t := by
  have hstrip : stripReturn line = line := by
    rw [stripReturn]
    cases hs : stripSuffix line ['\r'] with
    | none => rfl
    | some rest =>
      rw [stripSuffix_eq_some.1 hs, List.getLast?_append] at hreturn
      exact absurd rfl hreturn
  rw [lines_append, split_of_not_mem h, List.map_singleton, hstrip]
  rfl

end DnsBlackhole.Text
