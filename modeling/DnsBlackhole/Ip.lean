/-
  IP addresses (`std::net`): the parser, the texts of addresses, and the
  properties that the program asks for.
-/
import DnsBlackhole.Protocol.Bytes
import DnsBlackhole.Text

namespace DnsBlackhole
open Protocol Text

structure Ipv4Addr where
  first : UInt8
  second : UInt8
  third : UInt8
  fourth : UInt8
  deriving DecidableEq

structure Ipv6Addr where
  segments : List UInt16
  length_segments : segments.length = 8
  deriving DecidableEq

inductive IpAddr
  | v4 (address : Ipv4Addr)
  | v6 (address : Ipv6Addr)
  deriving DecidableEq

/-! ## Properties -/

namespace Ipv4Addr
variable (a : Ipv4Addr)

/-- The address with the four octets at the beginning of `octets`. -/
def ofOctets (octets : List UInt8) : Ipv4Addr :=
  ⟨octets.getD 0 0, octets.getD 1 0, octets.getD 2 0, octets.getD 3 0⟩

def isPrivate : Bool :=
  a.first == 10 || (a.first == 172 && 16 ≤ a.second && a.second ≤ 31) ||
    (a.first == 192 && a.second == 168)

def isLoopback : Bool := a.first == 127

def isLinkLocal : Bool := a.first == 169 && a.second == 254

def isUnspecified : Bool := a == ⟨0, 0, 0, 0⟩

def isBroadcast : Bool := a == ⟨255, 255, 255, 255⟩

def isMulticast : Bool := 224 ≤ a.first && a.first ≤ 239

end Ipv4Addr

namespace Ipv6Addr
variable (a : Ipv6Addr)

/-- The address with the sixteen octets at the beginning of `octets`. -/
def ofOctets (octets : List UInt8) : Ipv6Addr :=
  ⟨(List.range 8).map fun i => u16OfBytes (octets.getD (2 * i) 0) (octets.getD (2 * i + 1) 0),
    by simp⟩

def toIpv4Mapped : Option Ipv4Addr :=
  match a.segments with
  | [0, 0, 0, 0, 0, 0xffff, ab, cd] => some (.ofOctets (u16ToBytes ab ++ u16ToBytes cd))
  | _ => none

def isLoopback : Bool := a.segments == [0, 0, 0, 0, 0, 0, 0, 1]

def isUnspecified : Bool := a.segments == [0, 0, 0, 0, 0, 0, 0, 0]

def isUniqueLocal : Bool := a.segments.getD 0 0 &&& 0xfe00 == 0xfc00

def isUnicastLinkLocal : Bool := a.segments.getD 0 0 &&& 0xffc0 == 0xfe80

def isMulticast : Bool := a.segments.getD 0 0 &&& 0xff00 == 0xff00

end Ipv6Addr

/-! ## Texts -/

def Ipv4Addr.display (a : Ipv4Addr) : Text :=
  Text.join ([a.first, a.second, a.third, a.fourth].map fun octet => Nat.toDigits 10 octet.toNat)
    ['.']

/-- The longest run of zero segments, the first one of that length: where it
    starts and how long it is. -/
def longestZeroes (segments : List UInt16) : ℕ × ℕ :=
  (segments.zipIdx.foldl (fun s (segment, i) =>
    if segment = 0 then
      let current := if s.2.2 = 0 then (i, 1) else (s.2.1, s.2.2 + 1)
      (if s.1.2 < current.2 then current else s.1, current)
    else (s.1, (0, 0))) (((0, 0), (0, 0)) : (ℕ × ℕ) × ℕ × ℕ)).1

/-- Segments in hexadecimal digits. -/
def segmentsText (segments : List UInt16) : Text :=
  Text.join (segments.map fun segment => Nat.toDigits 16 segment.toNat) [':']

def Ipv6Addr.display (a : Ipv6Addr) : Text :=
  match a.toIpv4Mapped with
  | some v4 => "::ffff:".toList ++ v4.display
  | none =>
    let zeroes := longestZeroes a.segments
    if zeroes.2 > 1 then
      segmentsText (a.segments.take zeroes.1) ++ "::".toList ++
        segmentsText (a.segments.drop (zeroes.1 + zeroes.2))
    else segmentsText a.segments

def IpAddr.display : IpAddr → Text
  | v4 address => address.display
  | v6 address => address.display

/-! ## The parser -/

/-- A reader of the beginning of a text, with what it leaves. -/
abbrev Reader (α : Type) := Text → Option (α × Text)

/-- `read_number`, for a number below `bound` of at most `maxDigits` digits. -/
def readNumber (radix maxDigits : ℕ) (allowZeroPrefix : Bool) (bound : ℕ) : Reader ℕ := fun t =>
  let digits := t.takeWhile fun c => (toDigit radix c).isSome
  if digits = [] ∨ maxDigits < digits.length then none
  else if !allowZeroPrefix ∧ t.startsWith '0' ∧ 1 < digits.length then none
  else
    let number := ofDigits radix (digits.filterMap (toDigit radix))
    if number < bound then some (number, t.drop digits.length) else none

def readGivenChar (c : Char) : Reader Unit
  | [] => none
  | c' :: t => if c' = c then some ((), t) else none

/-- `read_separator`: the separator stands before all but the first part. -/
def readSeparator {α : Type} (separator : Char) (index : ℕ) (inner : Reader α) : Reader α :=
  fun t => if 0 < index then (readGivenChar separator t).bind fun r => inner r.2 else inner t

def readIpv4Addr : Reader Ipv4Addr := fun t => do
  let (first, t) ← readSeparator '.' 0 (readNumber 10 3 false 256) t
  let (second, t) ← readSeparator '.' 1 (readNumber 10 3 false 256) t
  let (third, t) ← readSeparator '.' 2 (readNumber 10 3 false 256) t
  let (fourth, t) ← readSeparator '.' 3 (readNumber 10 3 false 256) t
  some (⟨.ofNat first, .ofNat second, .ofNat third, .ofNat fourth⟩, t)

/-- `read_groups` into the last `slots` of `limit` slots: the groups read, and
    whether the last two are an IPv4 address. -/
def readGroups (limit : ℕ) : (slots : ℕ) → Text → (List UInt16 × Bool) × Text
  | 0, t => (([], false), t)
  | slots + 1, t =>
    let i := limit - (slots + 1)
    match if i < limit - 1 then readSeparator ':' i readIpv4Addr t else none with
    | some (a, t) => (([u16OfBytes a.first a.second, u16OfBytes a.third a.fourth], true), t)
    | none =>
      match readSeparator ':' i (readNumber 16 4 true 65536) t with
      | some (group, t) =>
        let r := readGroups limit slots t
        ((.ofNat group :: r.1.1, r.1.2), r.2)
      | none => (([], false), t)

def readIpv6Addr : Reader Ipv6Addr := fun t =>
  let ((head, headIpv4), t) := readGroups 8 8 t
  if h : head.length = 8 then some (⟨head, h⟩, t)
  else if headIpv4 then none
  else do
    let (_, t) ← readGivenChar ':' t
    let (_, t) ← readGivenChar ':' t
    -- the two colons stand for one group of zeroes at least
    let limit := 8 - (head.length + 1)
    let ((tail, _), t) := readGroups limit limit t
    let segments := head ++ List.replicate (8 - tail.length - head.length) 0 ++ tail
    if h : segments.length = 8 then some (⟨segments, h⟩, t) else none

/-- `parse_with`: the reader reads the whole text. -/
def parseWith {α : Type} (read : Reader α) (t : Text) : Option α :=
  (read t).bind fun r => if r.2 = [] then some r.1 else none

/-- `Ipv4Addr::from_str`. -/
def parseIpv4Addr (t : Text) : Option Ipv4Addr :=
  if t.len > 15 then none else parseWith readIpv4Addr t

/-- `Ipv6Addr::from_str`. -/
def parseIpv6Addr (t : Text) : Option Ipv6Addr := parseWith readIpv6Addr t

/-- `IpAddr::from_str`. -/
def parseIpAddr (t : Text) : Option IpAddr :=
  parseWith (fun t => match readIpv4Addr t with
    | some (a, t) => some (.v4 a, t)
    | none => (readIpv6Addr t).map fun r => (.v6 r.1, r.2)) t

/-! ## Many addresses -/

/-- The addresses of 10.0.0.0/16, by number. -/
def numberedAddr (i : ℕ) : IpAddr := .v4 ⟨10, 0, .ofNat (i / 256), .ofNat (i % 256)⟩

theorem numberedAddr_inj {i j : ℕ} (hi : i < 65536) (hj : j < 65536)
    (h : numberedAddr i = numberedAddr j) : i = j := by
  injection h with h
  injection h with _ _ hthird hfourth
  have hthird := congrArg UInt8.toNat hthird
  have hfourth := congrArg UInt8.toNat hfourth
  rw [UInt8.toNat_ofNat', UInt8.toNat_ofNat'] at hthird hfourth
  omega

theorem numberedAddr_ne {address : Ipv4Addr} (h : address.first ≠ 10) (i : ℕ) :
    numberedAddr i ≠ .v4 address := by
  rintro ⟨⟩
  exact h rfl

end DnsBlackhole
