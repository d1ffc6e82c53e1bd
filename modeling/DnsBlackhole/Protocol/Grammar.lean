/-
  The grammar of packets: names that may end with a pointer (`NameBytes`) and
  resource records (`RecordSyntax`), as sequences of bytes.

  `skip_dns_name` skips a name and `read_dns_record` reads a record exactly where
  the bytes of one stand in the packet (`skipDnsName_eq_some_iff`,
  `readDnsRecord_eq_some_iff`), so the walks over records are the sequences of
  records whose bytes stand there (`records_iff`).
-/
import DnsBlackhole.Protocol.Record

namespace DnsBlackhole.Protocol
open Lib

/-! ## Bytes at a place of a packet -/

theorem append_prefix_iff {bs cs : List UInt8} {p : Packet} {o : ℕ} :
    bs ++ cs <+: p.drop o ↔ bs <+: p.drop o ∧ cs <+: p.drop (o + bs.length) := by
  rw [append_prefix_drop_iff]
  refine and_congr_left fun _ => ?_
  rw [List.prefix_iff_eq_take]
  exact eq_comm

theorem length_le_of_prefix_drop {bs : List UInt8} {p : Packet} {o : ℕ} (h : bs <+: p.drop o) :
    bs = [] ∨ o + bs.length ≤ p.length := by
  have := h.length_le
  rw [List.length_drop] at this
  by_cases hbs : bs = []
  · exact .inl hbs
  · have := List.length_pos_iff.2 hbs
    exact .inr (by omega)

theorem prefix_drop_of_agree {bs : List UInt8} {p q : Packet} {o : ℕ} (h : bs <+: p.drop o)
    (hq : Agree o (o + bs.length) p q) : bs <+: q.drop o := by
  rw [List.prefix_iff_getElem?] at h ⊢
  intro i hi
  rw [← h i hi, List.getElem?_drop, List.getElem?_drop, hq _ (by omega) (by omega)]

theorem eq_of_prefix_of_length {bs : List UInt8} {p : Packet} (h : bs <+: p.drop 0)
    (hlen : bs.length = p.length) : bs = p := by
  rw [List.drop_zero] at h
  exact h.eq_of_length hlen

theorem u16ToBytes_ofBytes (a b : UInt8) : u16ToBytes (u16OfBytes a b) = [a, b] := by
  have ha := a.toNat_lt
  have hb := b.toNat_lt
  simp only [u16ToBytes, u16OfBytes, UInt16.toNat_ofNat', List.cons.injEq, and_true]
  constructor <;> apply UInt8.toNat_inj.1 <;> rw [UInt8.toNat_ofNat'] <;> omega

theorem u32ToBytes_ofBytes (a b c d : UInt8) : u32ToBytes (u32OfBytes a b c d) = [a, b, c, d] := by
  have ha := a.toNat_lt
  have hb := b.toNat_lt
  have hc := c.toNat_lt
  have hd := d.toNat_lt
  simp only [u32ToBytes, u32OfBytes, UInt32.toNat_ofNat', List.cons.injEq, and_true]
  refine ⟨?_, ?_, ?_, ?_⟩ <;> apply UInt8.toNat_inj.1 <;> rw [UInt8.toNat_ofNat'] <;> omega

theorem pair_prefix_iff {a b : UInt8} {p : Packet} {o : ℕ} :
    [a, b] <+: p.drop o ↔ p[o]? = some a ∧ p[o + 1]? = some b := by
  rw [prefix_drop_cons_iff, prefix_drop_cons_iff]
  exact and_congr_right fun _ => and_iff_left List.nil_prefix

theorem readU16_eq_some_iff {p : Packet} {o : ℕ} {v : UInt16} :
    readU16 p o = some v ↔ u16ToBytes v <+: p.drop o := by
  rw [readU16_eq_some]
  constructor
  · rintro ⟨a, b, ha, hb, rfl⟩
    rw [u16ToBytes_ofBytes, pair_prefix_iff]
    exact ⟨ha, hb⟩
  · intro h
    obtain ⟨ha, hb⟩ := pair_prefix_iff.1 h
    exact ⟨_, _, ha, hb, u16OfBytes_toBytes v⟩

theorem readU32_eq_some_iff {p : Packet} {o : ℕ} {v : UInt32} :
    readU32 p o = some v ↔ u32ToBytes v <+: p.drop o := by
  constructor
  · intro h
    simp only [readU32, Option.bind_eq_bind, Option.bind_eq_some_iff, Option.pure_def,
      Option.some.injEq] at h
    obtain ⟨a, ha, b, hb, c, hc, d, hd, rfl⟩ := h
    rw [u32ToBytes_ofBytes, prefix_drop_cons_iff, prefix_drop_cons_iff, pair_prefix_iff]
    exact ⟨ha, hb, hc, hd⟩
  · intro h
    simp only [u32ToBytes, prefix_drop_cons_iff] at h
    obtain ⟨ha, hb, hc, hd, -⟩ := h
    rw [readU32, ha, hb, hc, hd]
    exact congrArg some (u32OfBytes_toBytes v)

/-! ## Names -/

/-- The bytes of a name: labels behind their lengths, then a zero byte or the two
    bytes of a pointer. -/
inductive NameBytes : List UInt8 → Prop
  | root : NameBytes [0]
  | pointer {first : UInt8} (second : UInt8) : first &&& 0xC0 = 0xC0 → NameBytes [first, second]
  | label {length : UInt8} {bytes rest : List UInt8} : length ≠ 0 → length &&& 0xC0 = 0 →
      bytes.length = length.toNat → NameBytes rest → NameBytes (length :: (bytes ++ rest))

theorem ne_zero_of_pointer {first : UInt8} (h : first &&& 0xC0 = 0xC0) : first ≠ 0 := by
  rintro rfl
  exact absurd h (by decide)

theorem NameBytes.ne_nil {name : List UInt8} (h : NameBytes name) : name ≠ [] := by
  cases h <;> simp

theorem NameBytes.eq_root_iff {name rest : List UInt8} (h : NameBytes name) :
    (name ++ rest)[0]? = some 0 ↔ name = [0] := by
  cases h with
  | root => simp
  | pointer second h =>
    simp [ne_zero_of_pointer h]
  | label h0 => simp [h0]

/-- **What `skip_dns_name` skips** is a name. -/
theorem skipDnsName_eq_some_iff {p : Packet} {o e : ℕ} : skipDnsName p o = some e ↔
    ∃ name, NameBytes name ∧ name <+: p.drop o ∧ e = o + name.length := by
  constructor
  · refine Loop.inv (skipLoop p) (P := fun o r => r = some e →
      ∃ name, NameBytes name ∧ name <+: p.drop o ∧ e = o + name.length) ?_ ?_ o
    · rintro o r h rfl
      rcases skipBody_eq_inr_some.1 h with ⟨h0, rfl⟩ | ⟨⟨length, hl, -, hptr⟩, hsome, rfl⟩
      · exact ⟨[0], .root, prefix_drop_cons_iff.2 ⟨h0, List.nil_prefix⟩, rfl⟩
      · obtain ⟨second, hsecond⟩ := Option.isSome_iff_exists.1 hsome
        exact ⟨_, .pointer second hptr, pair_prefix_iff.2 ⟨hl, hsecond⟩, rfl⟩
    · rintro o o' r h ih hr
      obtain ⟨length, hl, h0, hbits, hle, rfl⟩ := skipBody_eq_inl.1 h
      obtain ⟨name, hname, hbegin, rfl⟩ := ih hr
      have hlen : ((p.drop (o + 1)).take length.toNat).length = length.toNat := by
        rw [List.length_take, List.length_drop]; omega
      refine ⟨_, .label h0 hbits hlen hname, ?_, ?_⟩
      · rw [prefix_drop_cons_iff, append_prefix_iff, hlen]
        exact ⟨hl, List.take_prefix _ _, hbegin⟩
      · rw [List.length_cons, List.length_append, hlen]; omega
  · rintro ⟨name, hname, hbegin, rfl⟩
    induction hname generalizing o with
    | root =>
      exact (skipLoop p).run_inr (skipBody_eq_inr_some.2
        (.inl ⟨(prefix_drop_cons_iff.1 hbegin).1, rfl⟩))
    | pointer second h =>
      obtain ⟨hfirst, hsecond⟩ := pair_prefix_iff.1 hbegin
      exact (skipLoop p).run_inr (skipBody_eq_inr_some.2
        (.inr ⟨⟨_, hfirst, ne_zero_of_pointer h, h⟩, by rw [hsecond]; rfl, rfl⟩))
    | @label length bytes rest h0 hbits hlen _ ih =>
      rw [prefix_drop_cons_iff, append_prefix_iff] at hbegin
      obtain ⟨hl, hbytes, hrest⟩ := hbegin
      have hle : o + 1 + length.toNat ≤ p.length := by
        have hpos : 0 < length.toNat := Nat.pos_iff_ne_zero.2 fun h => h0 (UInt8.toNat_inj.1 h)
        rcases length_le_of_prefix_drop hbytes with hnil | hle
        · rw [hnil] at hlen
          simp only [List.length_nil] at hlen
          omega
        · omega
      have hskip : skipDnsName p o = skipDnsName p (o + 1 + length.toNat) :=
        (skipLoop p).run_inl (skipBody_eq_inl.2 ⟨length, hl, h0, hbits, hle, rfl⟩)
      rw [hskip, ← hlen, ih hrest, List.length_cons, List.length_append]
      congr 1; omega

/-! ## Records -/

/-- A resource record. -/
structure RecordSyntax where
  name : List UInt8
  isName : NameBytes name
  rtype : UInt16
  rclass : UInt16
  ttl : UInt32
  rdata : List UInt8
  length_rdata : rdata.length < 65536

namespace RecordSyntax

/-- The bytes of a record: its name, ten bytes, and its data. -/
def bytes (r : RecordSyntax) : List UInt8 :=
  r.name ++ (u16ToBytes r.rtype ++ (u16ToBytes r.rclass ++ (u32ToBytes r.ttl ++
    (u16ToBytes (.ofNat r.rdata.length) ++ r.rdata))))

/-- What `read_dns_record` returns for the record at the offset `o`. -/
def header (r : RecordSyntax) (o : ℕ) : DnsRecordHeader where
  recordType := r.rtype
  recordClass := r.rclass
  ttl := r.ttl
  dataOffset := o + r.name.length + 10
  dataLen := r.rdata.length
  nextOffset := o + r.bytes.length

theorem length_bytes (r : RecordSyntax) :
    r.bytes.length = r.name.length + 10 + r.rdata.length := by
  simp only [bytes, List.length_append, length_u16ToBytes, length_u32ToBytes]; omega

theorem toNat_length (r : RecordSyntax) :
    (UInt16.ofNat r.rdata.length).toNat = r.rdata.length := by
  rw [UInt16.toNat_ofNat']
  exact Nat.mod_eq_of_lt r.length_rdata

/-- The bytes of the records, one after the other. -/
def allBytes (rs : List RecordSyntax) : List UInt8 := rs.flatMap bytes

/-- What the records read one after the other from `o` are. -/
def headers : ℕ → List RecordSyntax → List DnsRecordHeader
  | _, [] => []
  | o, r :: rs => r.header o :: headers (o + r.bytes.length) rs

theorem allBytes_cons (r : RecordSyntax) (rs : List RecordSyntax) :
    allBytes (r :: rs) = r.bytes ++ allBytes rs := rfl

theorem allBytes_append (rs rs' : List RecordSyntax) :
    allBytes (rs ++ rs') = allBytes rs ++ allBytes rs' := List.flatMap_append

@[simp] theorem length_headers (o : ℕ) (rs : List RecordSyntax) :
    (headers o rs).length = rs.length := by
  induction rs generalizing o with
  | nil => rfl
  | cons r rs ih => rw [headers, List.length_cons, ih, List.length_cons]

end RecordSyntax

/-- **What `read_dns_record` reads** is a record. -/
theorem readDnsRecord_eq_some_iff {p : Packet} {o : ℕ} {h : DnsRecordHeader} :
    readDnsRecord p o = some h ↔
      ∃ r : RecordSyntax, r.bytes <+: p.drop o ∧ h = r.header o := by
  rw [readDnsRecord_eq_some]
  constructor
  · rintro ⟨ho, len, hskip, htype, hclass, httl, hlen, hd, hdl, hnext, hle⟩
    obtain ⟨name, hname, hbegin, rfl⟩ := skipDnsName_eq_some_iff.1 hskip
    have hdata : ((p.drop (o + name.length + 10)).take len.toNat).length = len.toNat := by
      rw [List.length_take, List.length_drop]; omega
    have hlt := len.toNat_lt
    refine ⟨⟨name, hname, h.recordType, h.recordClass, h.ttl,
      (p.drop (o + name.length + 10)).take len.toNat, by omega⟩, ?_, ?_⟩
    · simp only [RecordSyntax.bytes, append_prefix_iff, length_u16ToBytes, length_u32ToBytes,
        hdata, UInt16.ofNat_toNat, ← readU16_eq_some_iff, ← readU32_eq_some_iff]
      exact ⟨hbegin, htype, hclass, httl, hlen, List.take_prefix _ _⟩
    · obtain ⟨t, c, ttl, d, dl, n⟩ := h
      simp only at hd hdl hnext
      simp only [RecordSyntax.header, RecordSyntax.length_bytes, hdata, hd, hdl, hnext,
        DnsRecordHeader.mk.injEq, true_and]
      omega
  · rintro ⟨r, hbegin, rfl⟩
    have hlast := length_le_of_prefix_drop hbegin
    simp only [RecordSyntax.bytes, append_prefix_iff, length_u16ToBytes, length_u32ToBytes,
      ← readU16_eq_some_iff, ← readU32_eq_some_iff] at hbegin
    obtain ⟨hname, htype, hclass, httl, hlen, hdata⟩ := hbegin
    have hbytes := r.length_bytes
    refine ⟨o + r.name.length, _, skipDnsName_eq_some_iff.2 ⟨r.name, r.isName, hname, rfl⟩, htype,
      hclass, httl, hlen, rfl, r.toNat_length.symm, ?_, ?_⟩
    · simp only [RecordSyntax.header, hbytes, r.toNat_length]; omega
    · simp only [RecordSyntax.header]
      rcases hlast with hnil | hle
      · rw [hnil] at hbytes
        simp only [List.length_nil] at hbytes
        omega
      · exact hle

/-- **Walks over records** are the records whose bytes stand there. -/
theorem records_iff {p : Packet} {o e : ℕ} {hs : List DnsRecordHeader} :
    Records p o hs e ↔ ∃ rs : List RecordSyntax, RecordSyntax.allBytes rs <+: p.drop o ∧
      hs = RecordSyntax.headers o rs ∧ e = o + (RecordSyntax.allBytes rs).length := by
  induction hs generalizing o with
  | nil =>
    constructor
    · intro h
      obtain rfl : o = e := h
      exact ⟨[], List.nil_prefix, rfl, rfl⟩
    · rintro ⟨rs, -, hhs, rfl⟩
      have := congrArg List.length hhs
      rw [RecordSyntax.length_headers] at this
      obtain rfl := List.length_eq_zero_iff.1 this.symm
      rfl
  | cons h hs ih =>
    constructor
    · rintro ⟨hread, hw⟩
      obtain ⟨r, hr, rfl⟩ := readDnsRecord_eq_some_iff.1 hread
      obtain ⟨rs, hrs, rfl, rfl⟩ := ih.1 hw
      refine ⟨r :: rs, append_prefix_iff.2 ⟨hr, hrs⟩, rfl, ?_⟩
      simp only [RecordSyntax.header, RecordSyntax.allBytes_cons, List.length_append]; omega
    · rintro ⟨rs, hbegin, hhs, rfl⟩
      cases rs with
      | nil => cases hhs
      | cons r rs =>
        obtain ⟨hr, hrs⟩ := append_prefix_iff.1 hbegin
        obtain ⟨rfl, rfl⟩ := List.cons.inj hhs
        refine ⟨readDnsRecord_eq_some_iff.2 ⟨r, hr, rfl⟩, ih.2 ⟨rs, hrs, rfl, ?_⟩⟩
        simp only [RecordSyntax.header, RecordSyntax.allBytes_cons, List.length_append]; omega

end DnsBlackhole.Protocol
