/-
  Resource records (`read_dns_record`, `encode_dns_name` and `encode_rewrite_rdata` of
  `dns/protocol.rs`).

  A record is a name and ten bytes (type, class, time to live, length of the
  data), then its data.  Reading it only reads the bytes up to its end
  (`readDnsRecord_agree`).
-/
import DnsBlackhole.Lib.Cursor
import DnsBlackhole.Protocol.Name

namespace DnsBlackhole.Protocol
open Lib

def typeA : UInt16 := 1
def typeNs : UInt16 := 2
def typeCname : UInt16 := 5
def typeSoa : UInt16 := 6
def typeAaaa : UInt16 := 28
def typeOpt : UInt16 := 41
def typeSvcb : UInt16 := 64
def typeHttps : UInt16 := 65

structure DnsRecordHeader where
  recordType : UInt16
  recordClass : UInt16
  ttl : UInt32
  dataOffset : ℕ
  dataLen : ℕ
  nextOffset : ℕ
  deriving DecidableEq

def readDnsRecord (packet : Packet) (offset : ℕ) : Option DnsRecordHeader :=
  (skipDnsName packet offset).bind fun headerOffset =>
    if headerOffset + 10 > packet.length then none
    else do
      let recordType ← readU16 packet headerOffset
      let recordClass ← readU16 packet (headerOffset + 2)
      let ttl ← readU32 packet (headerOffset + 4)
      let dataLen ← readU16 packet (headerOffset + 8)
      let nextOffset := headerOffset + 10 + dataLen.toNat
      if nextOffset > packet.length then none
      else some ⟨recordType, recordClass, ttl, headerOffset + 10, dataLen.toNat, nextOffset⟩

theorem readDnsRecord_eq_some {p : Packet} {o : ℕ} {r : DnsRecordHeader} :
    readDnsRecord p o = some r ↔ ∃ h len, skipDnsName p o = some h ∧
      readU16 p h = some r.recordType ∧ readU16 p (h + 2) = some r.recordClass ∧
      readU32 p (h + 4) = some r.ttl ∧ readU16 p (h + 8) = some len ∧
      r.dataOffset = h + 10 ∧ r.dataLen = len.toNat ∧ r.nextOffset = h + 10 + len.toNat ∧
      r.nextOffset ≤ p.length := by
  constructor
  · intro h
    obtain ⟨ho, hskip, hr⟩ := Option.bind_eq_some_iff.1 h
    split_ifs at hr with h₁
    simp only [Option.bind_eq_bind, Option.bind_eq_some_iff] at hr
    obtain ⟨t, ht, c, hc, ttl, httl, len, hlen, hr⟩ := hr
    split_ifs at hr with h₂
    cases hr
    exact ⟨ho, len, hskip, ht, hc, httl, hlen, rfl, rfl, rfl, Nat.le_of_not_gt h₂⟩
  · rintro ⟨h, len, hskip, ht, hc, httl, hlen, hd, hdl, hn, hle⟩
    obtain ⟨t, c, ttl, d, dl, n⟩ := r
    dsimp only at *
    subst hd hdl hn
    simp only [readDnsRecord, Option.bind_eq_bind, hskip, ht, hc, httl, hlen, Option.bind_some]
    rw [if_neg (by omega), if_neg (by omega)]

theorem readDnsRecord_bounds {p : Packet} {o : ℕ} {r : DnsRecordHeader}
    (h : readDnsRecord p o = some r) : o + 10 < r.dataOffset ∧
      r.dataOffset + r.dataLen = r.nextOffset ∧ r.nextOffset ≤ p.length := by
  obtain ⟨h, len, hskip, -, -, -, -, hd, hdl, hn, hle⟩ := readDnsRecord_eq_some.1 h
  have := (skipDnsName_eq_some hskip).1
  omega

theorem readDnsRecord_agree {p q : Packet} {o : ℕ} {r : DnsRecordHeader}
    (h : readDnsRecord p o = some r) (hq : Agree o r.nextOffset p q)
    (hle : r.nextOffset ≤ q.length) : readDnsRecord q o = some r := by
  obtain ⟨h, len, hskip, ht, hc, httl, hlen, hd, hdl, hn, -⟩ := readDnsRecord_eq_some.1 h
  obtain ⟨hlt, -, hframe⟩ := skipDnsName_eq_some hskip
  refine readDnsRecord_eq_some.2 ⟨h, len, hframe q (hq.mono (Nat.le_refl _) (by omega)), ?_, ?_, ?_,
    ?_, hd, hdl, hn, hle⟩
  · rwa [← hq.readU16 (by omega) (by omega)]
  · rwa [← hq.readU16 (by omega) (by omega)]
  · rwa [← hq.readU32 (by omega) (by omega)]
  · rwa [← hq.readU16 (by omega) (by omega)]

/-- The records read one after the other. -/
abbrev Records (p : Packet) : ℕ → List DnsRecordHeader → ℕ → Prop :=
  Walk (readDnsRecord p) DnsRecordHeader.nextOffset

theorem Records.bounds {p : Packet} {rs : List DnsRecordHeader} {o e : ℕ}
    (h : Records p o rs e) : o + 11 * rs.length ≤ e ∧ (rs ≠ [] → e ≤ p.length) := by
  induction rs generalizing o with
  | nil => cases h; simp
  | cons r rs ih =>
    obtain ⟨hr, hw⟩ := h
    have hb := readDnsRecord_bounds hr
    have hi := ih hw
    rw [List.length_cons]
    refine ⟨by omega, fun _ => ?_⟩
    cases rs with
    | nil => cases hw; exact hb.2.2
    | cons r' rs => exact hi.2 (by simp)

theorem Records.agree {p q : Packet} {rs : List DnsRecordHeader} {o e : ℕ}
    (h : Records p o rs e) (hq : Agree o e p q) (hle : e ≤ q.length) : Records q o rs e := by
  induction rs generalizing o with
  | nil => exact h
  | cons r rs ih =>
    obtain ⟨hr, hw⟩ := h
    have hb := readDnsRecord_bounds hr
    have he := (Records.bounds hw).1
    exact ⟨readDnsRecord_agree hr (hq.mono (Nat.le_refl _) (by omega)) (by omega),
      ih hw (hq.mono (by omega) (Nat.le_refl _))⟩

/-! ## Loops over records -/

/-- A loop over `count` records that collects with `update`. -/
def collectRecords {α : Type} (packet : Packet) (update : α → DnsRecordHeader → α) (count : ℕ)
    (s : ℕ × α) : Option (ℕ × α) :=
  repeatN (recordStep (readDnsRecord packet) DnsRecordHeader.nextOffset
    fun a r => some (update a r)) count s

/-- A loop over `count` records that only moves behind them. -/
def skipRecords (packet : Packet) (count : ℕ) (offset : ℕ) : Option ℕ :=
  (collectRecords packet (fun _ _ => ()) count (offset, ())).map Prod.fst

theorem foldlM_some {α β : Type} (f : α → β → α) (a : α) (l : List β) :
    l.foldlM (fun a b => some (f a b)) a = some (l.foldl f a) := by
  induction l generalizing a with
  | nil => rfl
  | cons b l ih => rw [List.foldlM_cons]; exact ih (f a b)

theorem collectRecords_eq_some {α : Type} {p : Packet} {update : α → DnsRecordHeader → α}
    {n o e : ℕ} {a b : α} : collectRecords p update n (o, a) = some (e, b) ↔
      ∃ rs, rs.length = n ∧ Records p o rs e ∧ rs.foldl update a = b := by
  simp only [collectRecords, repeatN_recordStep, foldlM_some, Option.some.injEq]

theorem skipRecords_eq_some {p : Packet} {n o e : ℕ} :
    skipRecords p n o = some e ↔ ∃ rs, rs.length = n ∧ Records p o rs e := by
  simp [skipRecords, collectRecords_eq_some]

/-! ## Encoding names and record data -/

def typePtr : UInt16 := 12
def typeMx : UInt16 := 15
def typeTxt : UInt16 := 16
def typeSrv : UInt16 := 33
def typeAny : UInt16 := 255

/-- A label behind its length. -/
def encodeLabel (label : Text) : Option (List UInt8) :=
  if label = [] ∨ label.len > 63 then none else some (.ofNat label.len :: label.asBytes)

def encodeDnsName (name : Text) : Option (List UInt8) :=
  if name = ['.'] then some [0]
  else
    let name := name.trimEndMatches '.'
    if name = [] ∨ name.len > 253 then none
    else ((name.split (· == '.')).mapM encodeLabel).map fun labels => labels.flatten ++ [0]

/-- The data of a TXT record: strings of at most 255 bytes, each behind its
    length. -/
def encodeTxt (value : Text) : Option (List UInt8) :=
  let bytes := value.asBytes
  if bytes.length + (bytes.length + 254) / 255 > 65535 then none
  else some ((bytes.toChunks 255).flatMap fun chunk => .ofNat chunk.length :: chunk)

def encodeMx (value : Text) : Option (List UInt8) := do
  let (preference, exchange) ← value.splitOnce Text.isWhitespace
  let preference ← preference.trim.parseU16
  let exchange ← encodeDnsName exchange.trim
  some (u16ToBytes preference ++ exchange)

def encodeSrv (value : Text) : Option (List UInt8) :=
  match value.splitWhitespace with
  | [priority, weight, port, target] => do
    let priority ← priority.parseU16
    let weight ← weight.parseU16
    let port ← port.parseU16
    let target ← encodeDnsName target
    some (u16ToBytes priority ++ u16ToBytes weight ++ u16ToBytes port ++ target)
  | _ => none

def encodeRewriteRdata (rtype : UInt16) (value : Text) (qtype : UInt16) : Option (List UInt8) :=
  if qtype ≠ rtype ∧ qtype ≠ typeAny then none
  else if rtype = typeTxt then encodeTxt value
  else if rtype = typePtr then encodeDnsName value
  else if rtype = typeMx then encodeMx value
  else if rtype = typeSrv then encodeSrv value
  else none

end DnsBlackhole.Protocol
