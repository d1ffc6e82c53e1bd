/-
  A name that is encoded is read back (`encode_dns_name`, `decode_dns_name`,
  `skip_dns_name` and `parse_question` of `dns/protocol.rs`).

  * `encodeDnsName_eq_some`: what is encoded are the labels between the dots, those
    at the end of the name apart;
  * `nameWalk_labelBytes`: the walk over the bytes of labels has these labels, and
    its end is behind the bytes;
  * `exists_labels`: labels of ASCII characters are labels of a question.

  **Main result** `encodeDnsName_roundTrip`.  `parse_question` does not return the
  dots at the end of a name either (`parsedName_without_dot`).
-/
import DnsBlackhole.Pieces
import DnsBlackhole.Protocol.Fits
import DnsBlackhole.Protocol.Pointers
import DnsBlackhole.Protocol.Utf8

namespace DnsBlackhole.Protocol

/-! ## What is encoded -/

/-- The labels of a name. -/
def nameLabels (name : Text) : List Text :=
  if name.trimEndMatches '.' = [] then [] else (name.trimEndMatches '.').split (· == '.')

/-- The labels that `encode_dns_name` admits. -/
def EncodableLabel (label : Text) : Prop := label ≠ [] ∧ label.len ≤ 63

/-- The bytes of labels. -/
def labelBytes (labels : List Text) : List UInt8 :=
  (labels.flatMap fun label => .ofNat label.len :: label.asBytes) ++ [0]

theorem labelBytes_cons (label : Text) (labels : List Text) : labelBytes (label :: labels) =
    .ofNat label.len :: (label.asBytes ++ labelBytes labels) := by
  simp [labelBytes]

theorem encodeLabel_eq_some {label : Text} {bytes : List UInt8} :
    encodeLabel label = some bytes ↔
      EncodableLabel label ∧ bytes = .ofNat label.len :: label.asBytes := by
  unfold encodeLabel EncodableLabel
  split_ifs with h
  · simp only [false_iff, not_and]
    rintro ⟨hne, hle⟩
    rcases h with hnil | hlong
    · exact absurd hnil hne
    · omega
  · rw [not_or, Nat.not_lt] at h
    simp [h.1, h.2, eq_comm]

theorem mapM_encodeLabel {labels : List Text} {encoded : List (List UInt8)} :
    labels.mapM encodeLabel = some encoded ↔ (∀ label ∈ labels, EncodableLabel label) ∧
      encoded = labels.map fun label => .ofNat label.len :: label.asBytes := by
  induction labels generalizing encoded with
  | nil => simp [eq_comm]
  | cons label labels ih =>
    simp only [List.mapM_cons, Option.bind_eq_bind, Option.bind_eq_some_iff, Option.pure_def,
      Option.some.injEq, List.forall_mem_cons, List.map_cons]
    constructor
    · rintro ⟨bytes, hbytes, rest, hrest, rfl⟩
      obtain ⟨hlabel, rfl⟩ := encodeLabel_eq_some.1 hbytes
      obtain ⟨hlabels, rfl⟩ := ih.1 hrest
      exact ⟨⟨hlabel, hlabels⟩, rfl⟩
    · rintro ⟨⟨hlabel, hlabels⟩, rfl⟩
      exact ⟨_, encodeLabel_eq_some.2 ⟨hlabel, rfl⟩, _, ih.2 ⟨hlabels, rfl⟩, rfl⟩

/-- **What is encoded** are the labels of a name. -/
theorem encodeDnsName_eq_some {s : Text} {e : List UInt8} : encodeDnsName s = some e ↔
    (s = ['.'] ∨ s.trimEndMatches '.' ≠ [] ∧ (s.trimEndMatches '.').len ≤ 253) ∧
      (∀ label ∈ nameLabels s, EncodableLabel label) ∧ e = labelBytes (nameLabels s) := by
  unfold encodeDnsName
  dsimp only
  split_ifs with hroot hlong
  · have hnil : nameLabels s = [] := by
      rw [hroot]
      rfl
    rw [hnil]
    constructor
    · intro h
      cases h
      exact ⟨.inl hroot, fun _ hmem => absurd hmem List.not_mem_nil, rfl⟩
    · rintro ⟨-, -, rfl⟩
      rfl
  · simp only [false_iff]
    rintro ⟨hdot | ⟨hne, hle⟩, -⟩
    · exact hroot hdot
    · rcases hlong with hnil | hlong
      · exact hne hnil
      · omega
  · rw [not_or, Nat.not_lt] at hlong
    have hlabels : nameLabels s = (s.trimEndMatches '.').split (· == '.') := if_neg hlong.1
    rw [Option.map_eq_some_iff, hlabels]
    constructor
    · rintro ⟨encoded, hencoded, rfl⟩
      obtain ⟨hall, rfl⟩ := mapM_encodeLabel.1 hencoded
      exact ⟨.inr hlong, hall, by rw [labelBytes, List.flatMap_def]⟩
    · rintro ⟨-, hall, rfl⟩
      exact ⟨_, mapM_encodeLabel.2 ⟨hall, rfl⟩, by rw [labelBytes, List.flatMap_def]⟩

theorem join_nameLabels (s : Text) : Text.join (nameLabels s) ['.'] = s.trimEndMatches '.' := by
  unfold nameLabels
  split_ifs with h
  · rw [h]
    rfl
  · exact Text.join_split '.' _

/-! ## Reading it back -/

section
variable {p : Packet} {o : ℕ} {label : Text} {labels : List Text}

theorem toNat_ofNat_len (h : EncodableLabel label) : (UInt8.ofNat label.len).toNat = label.len := by
  have := h.2
  rw [UInt8.toNat_ofNat']
  omega

theorem len_pos (h : EncodableLabel label) : 0 < label.len := by
  have hpos := List.length_pos_iff.2 h.1
  exact Nat.lt_of_lt_of_le hpos label.length_le_len

theorem namePart_label (h : EncodableLabel label) (hlen : p[o]? = some (.ofNat label.len))
    (hbytes : (p.drop (o + 1)).take label.asBytes.length = label.asBytes) :
    namePart p o = some (.label label.asBytes) := by
  have hnat := toNat_ofNat_len h
  have hpos := len_pos h
  have hne : UInt8.ofNat label.len ≠ 0 := by
    intro hzero
    rw [hzero] at hnat
    exact absurd hnat hpos.ne
  have hbits : UInt8.ofNat label.len &&& 0xC0 = 0 :=
    and_eq_zero_of_toNat_le (by rw [hnat]; exact h.2)
  have hle : o + 1 + label.len ≤ p.length := by
    have hlength := congrArg List.length hbytes
    rw [List.length_take, List.length_drop, Text.length_asBytes] at hlength
    omega
  rw [namePart, hlen, Option.bind_some, if_neg hne, hbits, if_neg (by decide),
    if_neg (not_not.2 rfl), hnat, slice?, if_pos ⟨by omega, hle⟩, Nat.add_sub_cancel_left,
    ← Text.length_asBytes, hbytes]
  rfl

/-- **The walk over the bytes of labels**, and its end. -/
theorem nameWalk_labelBytes (h : labelBytes labels <+: p.drop o)
    (hl : ∀ label ∈ labels, EncodableLabel label) :
    NameWalk p o labels ∧ skipDnsName p o = some (o + (labelBytes labels).length) := by
  induction labels generalizing o with
  | nil =>
    have hroot := namePart_eq_root.2 (prefix_drop_cons_iff.1 h).1
    have hbody := skipBody_eq p o
    rw [hroot] at hbody
    exact ⟨.root hroot, (skipLoop p).run_inr hbody⟩
  | cons label labels ih =>
    obtain ⟨hlabel, hl⟩ := List.forall_mem_cons.1 hl
    rw [labelBytes_cons, prefix_drop_cons_iff, append_prefix_drop_iff] at h
    obtain ⟨hlen, hbytes, hrest⟩ := h
    have hpart := namePart_label hlabel hlen hbytes
    have hbody := skipBody_eq p o
    rw [hpart] at hbody
    obtain ⟨hwalk, hskip⟩ := ih hrest hl
    constructor
    · have hwalk := NameWalk.label hpart hwalk
      rwa [fromUtf8Lossy_asBytes] at hwalk
    · rw [skipDnsName, (skipLoop p).run_inl hbody]
      refine hskip.trans (congrArg some ?_)
      rw [labelBytes_cons, List.length_cons, List.length_append]
      omega

theorem decodeDnsName_labelBytes (h : labelBytes labels <+: p.drop o)
    (hl : ∀ label ∈ labels, EncodableLabel label) :
    decodeDnsName p o = some (Text.join labels ['.'], o + (labelBytes labels).length) := by
  obtain ⟨hwalk, hskip⟩ := nameWalk_labelBytes h hl
  obtain ⟨n, s, -, -, -, -, hdecode⟩ := hwalk.decode
  have hend := skipDnsName_of_decode hdecode
  rw [hskip, Option.some.injEq] at hend
  rw [hdecode, hend]

end

/-! ## Questions -/

theorem asBytes_ascii {t : Text} (h : ∀ c ∈ t, c.toNat < 128) : t.asBytes.all (· < 128) := by
  rw [List.all_eq_true]
  intro byte hbyte
  obtain ⟨c, hc, hbyte⟩ := List.mem_flatMap.1 hbyte
  have hlt := h c hc
  have hsingle : String.utf8EncodeChar c = [.ofNat c.toNat] :=
    if_pos (Nat.le_of_lt_succ hlt)
  rw [hsingle, List.mem_singleton] at hbyte
  rw [hbyte, decide_eq_true_iff, UInt8.lt_iff_toNat_lt, UInt8.toNat_ofNat']
  show c.toNat % 256 < 128
  omega

theorem exists_labels {labels : List Text} (hl : ∀ label ∈ labels, EncodableLabel label)
    (hascii : ∀ label ∈ labels, ∀ c ∈ label, c.toNat < 128) :
    ∃ ls : List Label, wireName ls = labelBytes labels ∧ ls.map Label.rawText = labels := by
  induction labels with
  | nil => exact ⟨[], rfl, rfl⟩
  | cons label labels ih =>
    obtain ⟨hlabel, hl⟩ := List.forall_mem_cons.1 hl
    obtain ⟨hchars, hascii⟩ := List.forall_mem_cons.1 hascii
    obtain ⟨ls, hwire, hraw⟩ := ih hl hascii
    have hlength := Text.length_asBytes label
    have hall := asBytes_ascii hchars
    have hne : label.asBytes ≠ [] := by
      rw [← List.length_pos_iff, hlength]
      exact len_pos hlabel
    refine ⟨⟨label.asBytes, hne, hlength.trans_le hlabel.2, hall⟩ :: ls, ?_, ?_⟩
    · rw [wireName_cons, labelBytes_cons, hwire]
      show .ofNat label.asBytes.length :: (label.asBytes ++ labelBytes labels) = _
      rw [hlength]
    · have hread := fromUtf8Lossy_ascii hall
      rw [fromUtf8Lossy_asBytes] at hread
      rw [List.map_cons, hraw, Label.rawText, ← hread]

/-- The bytes `e` are the name of the one question of `p`, and its type and class
    are there. -/
structure QuestionName (p : Packet) (e : List UInt8) : Prop where
  count : readU16 p 4 = some 1
  name : e <+: p.drop dnsHeaderLen
  complete : dnsHeaderLen + e.length + 4 ≤ p.length

theorem parseQuestion_labelBytes {p : Packet} {labels : List Text}
    (hp : QuestionName p (labelBytes labels)) (hl : ∀ label ∈ labels, EncodableLabel label)
    (hascii : ∀ label ∈ labels, ∀ c ∈ label, c.toNat < 128) :
    ∃ question, parseQuestion p = .ok question ∧
      question.domain = (Text.join labels ['.']).toAsciiLowercase ∧
      question.questionEnd = dnsHeaderLen + (labelBytes labels).length + 4 := by
  obtain ⟨ls, hwire, hraw⟩ := exists_labels hl hascii
  have hdomain := lower_rawDomain ls
  rw [rawDomain, hraw] at hdomain
  have hcomplete := hp.complete
  obtain ⟨qtype, hqtype⟩ := Option.isSome_iff_exists.1
    (isSome_readU16.2 (by omega : dnsHeaderLen + (labelBytes labels).length + 1 < p.length))
  obtain ⟨qclass, hqclass⟩ := Option.isSome_iff_exists.1
    (isSome_readU16.2 (by omega : dnsHeaderLen + (labelBytes labels).length + 2 + 1 < p.length))
  refine ⟨⟨domainText ls, qtype, qclass, dnsHeaderLen + (labelBytes labels).length + 4⟩,
    parseQuestion_eq_ok.2 ⟨by omega, hp.count, ls, ?_, rfl, ?_, ?_, ?_⟩, hdomain.symm, rfl⟩
  · rw [hwire]
    exact hp.name
  · rw [hwire]
  · rwa [hwire]
  · rwa [hwire]

/-! ## The names that are encoded -/

theorem trimEndMatches_of_labels {s : Text} (h : ∀ label ∈ s.split (· == '.'), label ≠ []) :
    s.trimEndMatches '.' = s := by
  rw [Text.trimEndMatches, List.rdropWhile_eq_self_iff]
  intro hne hdot
  rw [← List.dropLast_append_getLast hne, Text.split_append (p := (· == '.')) hdot] at h
  exact h [] (List.mem_append_right _ List.mem_cons_self) rfl

theorem isSome_encodeDnsName {s : Text} (hpos : 1 ≤ s.len) (hle : s.len ≤ 253)
    (h : ∀ label ∈ s.split (· == '.'), 1 ≤ label.len ∧ label.len ≤ 63) :
    (encodeDnsName s).isSome := by
  have hne : ∀ label ∈ s.split (· == '.'), label ≠ [] := by
    intro label hlabel hnil
    have := (h label hlabel).1
    rw [hnil] at this
    exact absurd this (by decide)
  have htrim := trimEndMatches_of_labels hne
  have hs : s ≠ [] := by
    rintro rfl
    exact absurd hpos (by decide)
  have hlabels : nameLabels s = s.split (· == '.') := by
    rw [nameLabels, htrim, if_neg hs]
  refine Option.isSome_iff_exists.2 ⟨_, encodeDnsName_eq_some.2 ⟨.inr ?_, ?_, rfl⟩⟩
  · rw [htrim]
    exact ⟨hs, hle⟩
  · rw [hlabels]
    exact fun label hlabel => ⟨hne label hlabel, (h label hlabel).2⟩

/-- **Names round-trip**: an encoded name has 255 bytes at most, wherever it stands
    it is decoded to the name without the dots at its end and skipped to its end,
    and as the name of a question it is read in lower case; and every name of 253
    bytes with labels of 63 bytes at most is encoded. -/
theorem encodeDnsName_roundTrip :
    (∀ s e, encodeDnsName s = some e → e.length ≤ 255 ∧
      (∀ p o, e <+: p.drop o →
        decodeDnsName p o = some (s.trimEndMatches '.', o + e.length) ∧
        skipDnsName p o = some (o + e.length)) ∧
      ((∀ c ∈ s, c.toNat < 128) → ∀ p, QuestionName p e →
        ∃ question, parseQuestion p = .ok question ∧
          question.domain = (s.trimEndMatches '.').toAsciiLowercase ∧
          question.questionEnd = dnsHeaderLen + e.length + 4)) ∧
    ∀ s : Text, 1 ≤ s.len → s.len ≤ 253 →
      (∀ label ∈ s.split (· == '.'), 1 ≤ label.len ∧ label.len ≤ 63) →
      (encodeDnsName s).isSome := by
  refine ⟨fun s e h => ⟨length_encodeDnsName_le h, fun p o hp => ?_, fun hascii p hp => ?_⟩,
    fun s => isSome_encodeDnsName⟩
  · obtain ⟨-, hl, rfl⟩ := encodeDnsName_eq_some.1 h
    have hdecode := decodeDnsName_labelBytes hp hl
    rw [join_nameLabels] at hdecode
    exact ⟨hdecode, (nameWalk_labelBytes hp hl).2⟩
  · obtain ⟨-, hl, rfl⟩ := encodeDnsName_eq_some.1 h
    have hchars : ∀ label ∈ nameLabels s, ∀ c ∈ label, c.toNat < 128 := by
      intro label hlabel c hc
      unfold nameLabels at hlabel
      split_ifs at hlabel
      · cases hlabel
      · have hmem := Text.mem_of_mem_split hlabel c hc
        exact hascii c ((List.rdropWhile_prefix _ _).subset hmem)
    have hparse := parseQuestion_labelBytes hp hl hchars
    rwa [join_nameLabels] at hparse

/-- A query for `a`, encoded with a dot behind it. -/
def dottedQuery : Packet := [0, 0, 1, 0, 0, 1, 0, 0, 0, 0, 0, 0, 1, 97, 0, 0, 1, 0, 1]

/-- The parser does not return the dot at the end of an encoded name. -/
theorem parsedName_without_dot : ¬ ∀ s e, encodeDnsName s = some e →
    (∀ c ∈ s, c.toNat < 128) → ∀ p, QuestionName p e →
    ∃ question, parseQuestion p = .ok question ∧ question.domain = s.toAsciiLowercase := by
  intro h
  obtain ⟨question, hparse, hdomain⟩ := h ['a', '.'] [1, 97, 0] (by decide) (by simp) dottedQuery
    ⟨by decide, ⟨[0, 1, 0, 1], rfl⟩, by decide⟩
  have hquestion : parseQuestion dottedQuery = .ok ⟨['a'], 1, 1, 19⟩ := by decide
  rw [hquestion] at hparse
  cases hparse
  exact absurd hdomain (by decide)

end DnsBlackhole.Protocol
