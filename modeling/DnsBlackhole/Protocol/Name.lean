/-
  Names in DNS packets (`dns/protocol.rs`): `parse_question` and
  `skip_dns_name`.

  On the wire a name is a sequence of labels, each behind its length, and a
  zero byte (`wireName`).  `parseQuestion` reads the one question of a packet
  and returns the name as a text, its lowered labels joined with dots.  What it
  accepts is exactly a packet with one question whose name is `wireName ls` for
  labels `ls` of ASCII bytes (`parseQuestion_eq_ok`).
-/
import DnsBlackhole.Lib.Joined
import DnsBlackhole.Lib.Loop
import DnsBlackhole.Protocol.Bytes
import DnsBlackhole.Text

namespace DnsBlackhole.Protocol
open Lib

structure Question where
  domain : Text
  qtype : UInt16
  qclass : UInt16
  questionEnd : ℕ
  deriving DecidableEq

/-! ## The parser -/

def pushAsciiLowercase (target : Text) (bytes : List UInt8) : Except String Text :=
  if bytes.all (· < 128) then .ok (target ++ bytes.map fun byte => charOfByte (toAsciiLowercase byte))
  else .error "DNS label 必须使用 ASCII/Punycode 编码"

/-- The domain read so far, with a dot behind it unless it is empty. -/
def withDot (domain : Text) : Text := if domain.isEmpty then domain else domain ++ ['.']

/-- One iteration of the loop of `parse_question` over the labels. -/
def labelBody (packet : Packet) (s : ℕ × Text) : (ℕ × Text) ⊕ Except String (ℕ × Text) :=
  match packet[s.1]? with
  | none => .inr (.error "DNS 域名解析越界")
  | some labelLen =>
    let offset := s.1 + 1
    if labelLen = 0 then .inr (.ok (offset, s.2))
    -- the test for a compression pointer comes before the one for the length
    else if labelLen &&& 0xC0 = 0xC0 then .inr (.error "暂不支持压缩格式的 DNS question")
    else if labelLen.toNat > 63 then .inr (.error "DNS label 长度超过 63 字节")
    else if offset + labelLen.toNat > packet.length then .inr (.error "DNS label 长度越界")
    else
      match pushAsciiLowercase (withDot s.2) ((packet.drop offset).take labelLen.toNat) with
      | .error e => .inr (.error e)
      | .ok domain => .inl (offset + labelLen.toNat, domain)

theorem labelBody_eq_inl {packet : Packet} {s s' : ℕ × Text} :
    labelBody packet s = .inl s' ↔ ∃ labelLen, packet[s.1]? = some labelLen ∧
      labelLen ≠ 0 ∧ labelLen &&& 0xC0 ≠ 0xC0 ∧ labelLen.toNat ≤ 63 ∧
      s.1 + 1 + labelLen.toNat ≤ packet.length ∧
      ∃ domain, pushAsciiLowercase (withDot s.2)
        ((packet.drop (s.1 + 1)).take labelLen.toNat) = .ok domain ∧
      s' = (s.1 + 1 + labelLen.toNat, domain) := by
  unfold labelBody
  cases packet[s.1]? with
  | none => simp
  | some labelLen =>
    simp only [Option.some.injEq, exists_eq_left']
    split_ifs with h₀ h₁ h₂ h₃
    · simp [h₀]
    · simp [h₁]
    · simp only [false_iff]; omega
    · simp only [false_iff]; omega
    · cases pushAsciiLowercase _ ((packet.drop (s.1 + 1)).take labelLen.toNat) with
      | error e => simp
      | ok domain => simp [h₀, h₁, Nat.le_of_not_gt h₂, Nat.le_of_not_gt h₃, eq_comm]

theorem labelBody_eq_inr_ok {packet : Packet} {s r : ℕ × Text} :
    labelBody packet s = .inr (.ok r) ↔ packet[s.1]? = some 0 ∧ r = (s.1 + 1, s.2) := by
  unfold labelBody
  cases packet[s.1]? with
  | none => simp
  | some labelLen =>
    simp only [Option.some.injEq]
    split_ifs with h₀
    · simp [h₀, eq_comm]
    · simp [h₀]
    · simp [h₀]
    · simp [h₀]
    · cases pushAsciiLowercase _ ((packet.drop (s.1 + 1)).take labelLen.toNat) <;> simp [h₀]

/-- The loop of `parse_question` over the labels. -/
def labelLoop (packet : Packet) : Loop (ℕ × Text) (Except String (ℕ × Text)) where
  body := labelBody packet
  measure s := packet.length - s.1
  decreases s s' h := by
    obtain ⟨labelLen, hl, -, -, -, hle, domain, -, rfl⟩ := labelBody_eq_inl.1 h
    simp only; omega

def parseQuestion (packet : Packet) : Except String Question :=
  if packet.length < dnsHeaderLen then .error "DNS 请求长度不足"
  else if (readU16 packet 4).getD 0 ≠ 1 then .error "DNS 请求必须且只能包含 1 个 question"
  else
    match (labelLoop packet).run (dnsHeaderLen, []) with
    | .error e => .error e
    | .ok (offset, domain) =>
      if offset + 4 > packet.length then .error "DNS question 缺少类型或类别"
      else match readU16 packet offset, readU16 packet (offset + 2) with
        | none, _ => .error "DNS qtype 读取失败"
        | _, none => .error "DNS qclass 读取失败"
        | some qtype, some qclass => .ok ⟨domain, qtype, qclass, offset + 4⟩

/-! ## Names on the wire -/

/-- A label of a question: up to 63 bytes of ASCII. -/
@[ext] structure Label where
  bytes : List UInt8
  ne_nil : bytes ≠ []
  length_le : bytes.length ≤ 63
  ascii : bytes.all (· < 128)
  deriving DecidableEq

/-- The characters of a label, in lower case. -/
def Label.text (l : Label) : Text := l.bytes.map fun byte => charOfByte (toAsciiLowercase byte)

/-- The bytes of a name: every label behind its length, and a zero byte. -/
def wireName (ls : List Label) : List UInt8 :=
  ls.flatMap (fun l => .ofNat l.bytes.length :: l.bytes) ++ [0]

/-- The text of a name: its labels in lower case, joined with dots. -/
def domainText (ls : List Label) : Text := joined '.' (ls.map Label.text)

@[simp] theorem wireName_nil : wireName [] = [0] := rfl

theorem wireName_cons (l : Label) (ls : List Label) :
    wireName (l :: ls) = .ofNat l.bytes.length :: (l.bytes ++ wireName ls) := by
  simp [wireName]

theorem Label.text_ne_nil (l : Label) : l.text ≠ [] := by
  simpa [Label.text] using l.ne_nil

theorem Label.length_pos (l : Label) : 0 < l.bytes.length := List.length_pos_iff.2 l.ne_nil

@[simp] theorem Label.length_text (l : Label) : l.text.length = l.bytes.length := by
  simp [Label.text]

theorem Label.toNat_length (l : Label) :
    (UInt8.ofNat l.bytes.length).toNat = l.bytes.length := by
  have := l.length_le
  rw [UInt8.toNat_ofNat']; omega

theorem Label.ofNat_length_ne_zero (l : Label) : UInt8.ofNat l.bytes.length ≠ 0 := fun h => by
  have := congrArg UInt8.toNat h
  rw [l.toNat_length] at this
  exact Nat.pos_iff_ne_zero.1 l.length_pos this

theorem and_eq_zero_of_toNat_le {b : UInt8} (h : b.toNat ≤ 63) : b &&& 0xC0 = 0 := by
  have hall : ∀ n : Fin 64, UInt8.ofNat n.val &&& 0xC0 = 0 := by decide
  have := hall ⟨b.toNat, by omega⟩
  rwa [UInt8.ofNat_toNat] at this

theorem foldl_withDot (ls : List Label) {domain : Text} (h : domain ≠ []) :
    ls.foldl (fun d l => withDot d ++ l.text) domain = joined '.' (domain :: ls.map Label.text) := by
  induction ls generalizing domain with
  | nil => simp
  | cons l ls ih =>
    have hd : withDot domain = domain ++ ['.'] := by simp [withDot, h]
    rw [List.foldl_cons, hd, ih (by simp), List.map_cons, joined_cons_cons]
    cases ls <;> simp

theorem foldl_withDot_nil (ls : List Label) :
    ls.foldl (fun d l => withDot d ++ l.text) [] = domainText ls := by
  cases ls with
  | nil => rfl
  | cons l ls => exact foldl_withDot ls l.text_ne_nil

theorem wireName_isPrefix_unique {ls ls' : List Label} {bs : List UInt8}
    (h : wireName ls <+: bs) (h' : wireName ls' <+: bs) : ls = ls' := by
  induction ls generalizing ls' bs with
  | nil =>
    cases ls' with
    | nil => rfl
    | cons l' ls' =>
      obtain ⟨t, rfl⟩ := h
      rw [wireName_cons] at h'
      have := congrArg UInt8.toNat (List.cons_prefix_cons.1 h').1
      rw [l'.toNat_length] at this
      exact absurd this (Nat.pos_iff_ne_zero.1 l'.length_pos)
  | cons l ls ih =>
    obtain ⟨t, rfl⟩ := h
    cases ls' with
    | nil =>
      rw [wireName_cons] at h'
      have := congrArg UInt8.toNat (List.cons_prefix_cons.1 h').1
      rw [l.toNat_length] at this
      exact absurd this.symm (Nat.pos_iff_ne_zero.1 l.length_pos)
    | cons l' ls' =>
      rw [wireName_cons, wireName_cons, List.cons_append, List.append_assoc] at h'
      obtain ⟨hlen, h'⟩ := List.cons_prefix_cons.1 h'
      have hlen := congrArg UInt8.toNat hlen
      rw [l.toNat_length, l'.toNat_length] at hlen
      obtain ⟨t', ht⟩ := h'
      rw [List.append_assoc] at ht
      obtain ⟨hb, ht⟩ := List.append_inj ht hlen
      rw [ih (List.prefix_append _ t) ⟨t', ht⟩, Label.ext hb]

/-! ## What the parser accepts -/

theorem pushAsciiLowercase_eq_ok {target domain : Text} {bytes : List UInt8} :
    pushAsciiLowercase target bytes = .ok domain ↔ bytes.all (· < 128) ∧
      domain = target ++ bytes.map fun byte => charOfByte (toAsciiLowercase byte) := by
  unfold pushAsciiLowercase
  split_ifs with h <;> simp [h, eq_comm]

theorem prefix_drop_cons_iff {b : UInt8} {bs : List UInt8} {p : Packet} {o : ℕ} :
    b :: bs <+: p.drop o ↔ p[o]? = some b ∧ bs <+: p.drop (o + 1) := by
  constructor
  · rintro ⟨t, ht⟩
    have h₀ := congrArg (·[0]?) ht
    have h₁ := congrArg (List.drop 1) ht
    simp only [List.cons_append, List.getElem?_cons_zero, List.getElem?_drop, Nat.add_zero,
      List.drop_drop, List.drop_succ_cons, List.drop_zero] at h₀ h₁
    exact ⟨h₀.symm, ⟨t, h₁⟩⟩
  · rintro ⟨h, t, ht⟩
    obtain ⟨hlt, hb⟩ := List.getElem?_eq_some_iff.1 h
    exact ⟨t, by rw [List.drop_eq_getElem_cons hlt, hb, List.cons_append, ht]⟩

theorem append_prefix_drop_iff {bs cs : List UInt8} {p : Packet} {o : ℕ} :
    bs ++ cs <+: p.drop o ↔ (p.drop o).take bs.length = bs ∧ cs <+: p.drop (o + bs.length) := by
  rw [← List.drop_drop]
  constructor
  · rintro ⟨t, ht⟩
    rw [← ht, List.append_assoc, List.take_left' rfl, List.drop_left' rfl]
    exact ⟨rfl, ⟨t, rfl⟩⟩
  · rintro ⟨h, t, ht⟩
    exact ⟨t, by rw [List.append_assoc, ht]; nth_rewrite 1 [← h]; exact List.take_append_drop _ _⟩

/-- **The loop over the labels** reads a name. -/
theorem labelLoop_run_eq_ok {packet : Packet} {o e : ℕ} {d d' : Text} :
    (labelLoop packet).run (o, d) = .ok (e, d') ↔ ∃ ls, wireName ls <+: packet.drop o ∧
      e = o + (wireName ls).length ∧ d' = ls.foldl (fun d l => withDot d ++ l.text) d := by
  constructor
  · refine Loop.inv (labelLoop packet) (P := fun s r => r = .ok (e, d') →
      ∃ ls, wireName ls <+: packet.drop s.1 ∧ e = s.1 + (wireName ls).length ∧
        d' = ls.foldl (fun d l => withDot d ++ l.text) s.2) ?_ ?_ (o, d)
    · -- the last iteration reads the zero byte
      rintro ⟨o, d⟩ r h rfl
      obtain ⟨hget, hr⟩ := labelBody_eq_inr_ok.1 h
      cases hr
      exact ⟨[], prefix_drop_cons_iff.2 ⟨hget, List.nil_prefix⟩, rfl, rfl⟩
    · -- any other one reads a label
      rintro ⟨o, d⟩ s' r h ih hr
      obtain ⟨labelLen, hget, h₀, h₁, h₂, h₃, domain, hpush, rfl⟩ := labelBody_eq_inl.1 h
      obtain ⟨hascii, rfl⟩ := pushAsciiLowercase_eq_ok.1 hpush
      obtain ⟨ls, hls, rfl, rfl⟩ := ih hr
      dsimp only at hget h₃ hascii hls ⊢
      obtain ⟨l, hl, hlen⟩ : ∃ l : Label, l.bytes = (packet.drop (o + 1)).take labelLen.toNat ∧
          l.bytes.length = labelLen.toNat := by
        have hlen : ((packet.drop (o + 1)).take labelLen.toNat).length = labelLen.toNat := by
          rw [List.length_take, List.length_drop]; omega
        have hpos : 0 < labelLen.toNat := Nat.pos_iff_ne_zero.2 fun h => h₀ (UInt8.toNat_inj.1 h)
        exact ⟨⟨_, List.length_pos_iff.1 (by omega), by omega, hascii⟩, rfl, hlen⟩
      refine ⟨l :: ls, ?_, ?_, ?_⟩
      · rw [wireName_cons, prefix_drop_cons_iff, append_prefix_drop_iff, hlen]
        exact ⟨by rw [hget, UInt8.ofNat_toNat], hl.symm, hls⟩
      · simp only [wireName_cons, List.length_cons, List.length_append, hlen]; omega
      · rw [List.foldl_cons, Label.text, hl]
  · rintro ⟨ls, hls, rfl, rfl⟩
    induction ls generalizing o d with
    | nil =>
      have hget := (prefix_drop_cons_iff.1 hls).1
      rw [(labelLoop packet).run_inr (r := .ok (o + 1, d)) (by simp [labelLoop, labelBody, hget])]
      rfl
    | cons l ls ih =>
      rw [wireName_cons, prefix_drop_cons_iff, append_prefix_drop_iff] at hls
      obtain ⟨hget, htake, hls⟩ := hls
      have hle : o + 1 + l.bytes.length ≤ packet.length := by
        have := congrArg List.length htake
        rw [List.length_take, List.length_drop] at this
        have := l.length_pos; omega
      have hbody : labelBody packet (o, d) =
          .inl (o + 1 + l.bytes.length, withDot d ++ l.text) := by
        refine labelBody_eq_inl.2 ⟨_, hget, l.ofNat_length_ne_zero, ?_, ?_, ?_,
          withDot d ++ l.text, ?_, ?_⟩
        · rw [and_eq_zero_of_toNat_le (by rw [l.toNat_length]; exact l.length_le)]; decide
        · rw [l.toNat_length]; exact l.length_le
        · rwa [l.toNat_length]
        · rw [l.toNat_length, htake]
          exact pushAsciiLowercase_eq_ok.2 ⟨l.ascii, rfl⟩
        · rw [l.toNat_length]
      rw [(labelLoop packet).run_inl hbody, ih hls, wireName_cons]
      simp only [List.length_cons, List.length_append, List.foldl_cons]
      congr 2; omega

/-- **What `parse_question` accepts**: a packet with one question, whose name
    is a sequence of labels, with a type and a class behind it. -/
theorem parseQuestion_eq_ok {p : Packet} {q : Question} :
    parseQuestion p = .ok q ↔ dnsHeaderLen ≤ p.length ∧ readU16 p 4 = some 1 ∧
      ∃ ls, wireName ls <+: p.drop dnsHeaderLen ∧ q.domain = domainText ls ∧
        q.questionEnd = dnsHeaderLen + (wireName ls).length + 4 ∧
        readU16 p (dnsHeaderLen + (wireName ls).length) = some q.qtype ∧
        readU16 p (dnsHeaderLen + (wireName ls).length + 2) = some q.qclass := by
  have hcount : (readU16 p 4).getD 0 = 1 ↔ readU16 p 4 = some 1 := by
    cases readU16 p 4 <;> simp
  unfold parseQuestion
  rw [← Nat.not_lt, ← hcount]
  split_ifs with h₁ h₂
  · simp [h₁]
  · simp [h₂]
  · simp only [h₁, not_false_eq_true, true_and, not_not.1 h₂]
    constructor
    · intro h
      split at h
      · cases h
      · rename_i offset domain hrun
        obtain ⟨ls, hls, rfl, rfl⟩ := labelLoop_run_eq_ok.1 hrun
        split_ifs at h with h₃
        split at h
        · cases h
        · cases h
        · rename_i qtype qclass hq hc
          cases h
          exact ⟨ls, hls, foldl_withDot_nil ls, rfl, hq, hc⟩
    · rintro ⟨ls, hls, hd, he, hq, hc⟩
      have hlt := isSome_readU16.1 (Option.isSome_iff_exists.2 ⟨_, hc⟩)
      rw [labelLoop_run_eq_ok.2 ⟨ls, hls, rfl, rfl⟩, foldl_withDot_nil]
      simp only [hq, hc, ← hd]
      rw [if_neg (by omega), ← he]

/-- The name of the question is at its place in the packet. -/
def HasName (p : Packet) (ls : List Label) : Prop := wireName ls <+: p.drop dnsHeaderLen

theorem HasName.unique {p : Packet} {ls ls' : List Label} (h : HasName p ls)
    (h' : HasName p ls') : ls = ls' := wireName_isPrefix_unique h h'

/-! ## Skipping a name -/

/-- One iteration of the loop of `skip_dns_name`. -/
def skipBody (packet : Packet) (offset : ℕ) : ℕ ⊕ Option ℕ :=
  match packet[offset]? with
  | none => .inr none
  | some length =>
    if length = 0 then .inr (some (offset + 1))
    else if length &&& 0xC0 = 0xC0 then .inr (packet[offset + 1]?.map fun _ => offset + 2)
    else if length &&& 0xC0 ≠ 0 then .inr none
    else if offset + 1 + length.toNat > packet.length then .inr none
    else .inl (offset + 1 + length.toNat)

theorem skipBody_eq_inl {p : Packet} {o o' : ℕ} :
    skipBody p o = .inl o' ↔ ∃ length, p[o]? = some length ∧ length ≠ 0 ∧ length &&& 0xC0 = 0 ∧
      o + 1 + length.toNat ≤ p.length ∧ o' = o + 1 + length.toNat := by
  unfold skipBody
  cases p[o]? with
  | none => simp
  | some length =>
    simp only [Option.some.injEq, exists_eq_left']
    split_ifs with h₀ h₁ h₂ h₃
    · simp [h₀]
    · exact ⟨fun h => (nomatch h), fun h => absurd (h₁.symm.trans h.2.1) (by decide)⟩
    · simp [h₂]
    · simp only [false_iff]; omega
    · simp [h₀, not_not.1 h₂, Nat.le_of_not_gt h₃, eq_comm]

theorem skipBody_eq_inr_some {p : Packet} {o e : ℕ} :
    skipBody p o = .inr (some e) ↔ (p[o]? = some 0 ∧ e = o + 1) ∨
      ((∃ length, p[o]? = some length ∧ length ≠ 0 ∧ length &&& 0xC0 = 0xC0) ∧
        p[o + 1]?.isSome ∧ e = o + 2) := by
  unfold skipBody
  cases p[o]? with
  | none => simp
  | some length =>
    simp only [Option.some.injEq, exists_eq_left']
    split_ifs with h₀ h₁ h₂ h₃
    · simp [h₀, eq_comm (a := e)]
    · constructor
      · intro h
        obtain ⟨b, hb, rfl⟩ := Option.map_eq_some_iff.1 (Sum.inr.inj h)
        exact .inr ⟨⟨h₀, h₁⟩, Option.isSome_iff_exists.2 ⟨b, hb⟩, rfl⟩
      · rintro (⟨h, -⟩ | ⟨-, h, rfl⟩)
        · exact absurd h h₀
        · obtain ⟨b, hb⟩ := Option.isSome_iff_exists.1 h
          rw [hb]; rfl
    · simp [h₀, h₁]
    · simp [h₀, h₁]
    · simp [h₀, h₁]

def skipLoop (packet : Packet) : Loop ℕ (Option ℕ) where
  body := skipBody packet
  measure offset := packet.length - offset
  decreases o o' h := by
    obtain ⟨length, -, h₀, -, hle, rfl⟩ := skipBody_eq_inl.1 h
    omega

def skipDnsName (packet : Packet) (offset : ℕ) : Option ℕ := (skipLoop packet).run offset

theorem skipDnsName_eq_some {p : Packet} {o e : ℕ} (h : skipDnsName p o = some e) :
    o < e ∧ e ≤ p.length ∧ ∀ q, Agree o e p q → skipDnsName q o = some e := by
  revert h
  refine Loop.inv (skipLoop p) (P := fun o r => r = some e →
    o < e ∧ e ≤ p.length ∧ ∀ q, Agree o e p q → skipDnsName q o = some e) ?_ ?_ o
  · -- the last iteration reads a zero byte or the two bytes of a pointer
    rintro o r h rfl
    have hq : ∀ q, Agree o e p q → skipBody q o = .inr (some e) := fun q hq => by
      refine skipBody_eq_inr_some.2 ((skipBody_eq_inr_some.1 h).imp ?_ ?_)
      · rintro ⟨h₀, rfl⟩
        exact ⟨(hq o (by omega) (by omega)).symm.trans h₀, rfl⟩
      · rintro ⟨⟨length, hl⟩, h₁, rfl⟩
        rw [hq o (by omega) (by omega)] at hl
        rw [hq (o + 1) (by omega) (by omega)] at h₁
        exact ⟨⟨length, hl⟩, h₁, rfl⟩
    refine ⟨?_, ?_, fun q hqa => (skipLoop q).run_inr (hq q hqa)⟩
    · rcases skipBody_eq_inr_some.1 h with ⟨-, rfl⟩ | ⟨-, -, rfl⟩ <;> omega
    · rcases skipBody_eq_inr_some.1 h with ⟨h₀, rfl⟩ | ⟨-, h₁, rfl⟩
      · exact (List.getElem?_eq_some_iff.1 h₀).1
      · obtain ⟨b, hb⟩ := Option.isSome_iff_exists.1 h₁
        exact (List.getElem?_eq_some_iff.1 hb).1
  · -- any other one skips a label
    rintro o o' r h ih rfl
    obtain ⟨length, hget, h₀, h₁, h₂, rfl⟩ := skipBody_eq_inl.1 h
    obtain ⟨hlt, hle, hq⟩ := ih rfl
    refine ⟨by omega, hle, fun q hqa => ?_⟩
    have hlen : o + 1 + length.toNat ≤ q.length := by
      have hend := hqa (e - 1) (by omega) (by omega)
      rw [List.getElem?_eq_getElem (by omega)] at hend
      have := (List.getElem?_eq_some_iff.1 hend.symm).1
      omega
    rw [← hq q (hqa.mono (by omega) (Nat.le_refl _))]
    exact (skipLoop q).run_inl (skipBody_eq_inl.2
      ⟨length, (hqa o (by omega) (by omega)).symm.trans hget, h₀, h₁, hlen, rfl⟩)

theorem skipDnsName_wireName {p : Packet} {ls : List Label} {o : ℕ}
    (h : wireName ls <+: p.drop o) : skipDnsName p o = some (o + (wireName ls).length) := by
  induction ls generalizing o with
  | nil =>
    have hget := (prefix_drop_cons_iff.1 h).1
    exact (skipLoop p).run_inr (skipBody_eq_inr_some.2 (.inl ⟨hget, rfl⟩))
  | cons l ls ih =>
    rw [wireName_cons, prefix_drop_cons_iff, append_prefix_drop_iff] at h
    obtain ⟨hget, htake, hls⟩ := h
    have hle : o + 1 + l.bytes.length ≤ p.length := by
      have := congrArg List.length htake
      rw [List.length_take, List.length_drop] at this
      have := l.length_pos; omega
    have hbody : skipBody p o = .inl (o + 1 + l.bytes.length) := by
      refine skipBody_eq_inl.2 ⟨_, hget, l.ofNat_length_ne_zero, ?_, ?_, ?_⟩
      · exact and_eq_zero_of_toNat_le (by rw [l.toNat_length]; exact l.length_le)
      · rwa [l.toNat_length]
      · rw [l.toNat_length]
    rw [show skipDnsName p o = skipDnsName p _ from (skipLoop p).run_inl hbody, ih hls,
      wireName_cons]
    simp only [List.length_cons, List.length_append]
    congr 1; omega

end DnsBlackhole.Protocol
