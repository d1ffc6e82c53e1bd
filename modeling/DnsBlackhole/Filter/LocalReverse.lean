/-
  Reverse names of addresses that only mean something in the local network
  (`dns/local_reverse.rs`).
-/
import DnsBlackhole.Filter.Clients

namespace DnsBlackhole.Filter
open Text

/-- The IPv4 networks that are local: their address and the length of the
    network's part. -/
def localV4Networks : List (ℕ × ℕ) :=
  [(0x00000000, 8), (0x0A000000, 8), (0x64400000, 10), (0x7F000000, 8), (0xA9FE0000, 16),
    (0xAC100000, 12), (0xC0A80000, 16), (0xE0000000, 4), (0xF0000000, 4)]

/-- The IPv6 networks that are local. -/
def localV6Networks : List (ℕ × ℕ) :=
  [(0, 128), (1, 128), (0xfc00 <<< 112, 7), (0xfe80 <<< 112, 10), (0xff00 <<< 112, 8)]

/-- `str::parse::<u8>`. -/
def parseU8 (t : Text) : Option ℕ :=
  (parseU16 t).bind fun value => if value.toNat < 256 then some value.toNat else none

/-- A label of an IPv4 reverse name, in decimal digits without leading zeroes. -/
def v4ReverseLabel (label : Text) : Option ℕ :=
  if label.isEmpty ∨ (1 < label.len ∧ label.startsWith '0') then none else parseU8 label

/-- A label of an IPv6 reverse name, one hexadecimal digit. -/
def v6ReverseLabel (label : Text) : Option ℕ :=
  match label with
  | [digit] => toDigit 16 digit
  | _ => none

/-- The network of a reverse name: `count` parts of `width` bits each at most, the
    first label being the lowest one. -/
def parseReverseParts (label : Text → Option ℕ) (count width : ℕ) (start : Text) :
    Option (ℕ × ℕ) :=
  let labels := start.split (· == '.')
  if count < labels.length then none
  else (labels.mapM label).map fun parts =>
    (ofBigEndian (2 ^ width) parts.reverse <<< (width * (count - parts.length)),
      width * parts.length)

def parseV4ReversePrefix (start : Text) : Option (ℕ × ℕ) :=
  parseReverseParts v4ReverseLabel 4 8 start

def parseV6ReversePrefix (start : Text) : Option (ℕ × ℕ) :=
  parseReverseParts v6ReverseLabel 32 4 start

/-- Whether a network lies in one of the local ones. -/
def networkIsLocal (bits : ℕ) (networks : List (ℕ × ℕ)) (network prefixLen : ℕ) : Bool :=
  networks.any fun (localNetwork, localLen) =>
    localLen ≤ prefixLen && prefixNetwork network bits localLen == localNetwork

def v4ReverseSuffix : Text := ".in-addr.arpa".toList
def v6ReverseSuffix : Text := ".ip6.arpa".toList

def isLocalReverseName (domain : Text) : Bool :=
  match domain.stripSuffix v4ReverseSuffix with
  | some start => (parseV4ReversePrefix start).any fun (network, prefixLen) =>
    networkIsLocal 32 localV4Networks network prefixLen
  | none =>
    match domain.stripSuffix v6ReverseSuffix with
    | some start => (parseV6ReversePrefix start).any fun (network, prefixLen) =>
      networkIsLocal 128 localV6Networks network prefixLen
    | none => false

example : isLocalReverseName "17.1.168.192.in-addr.arpa".toList = true := by decide +kernel

example : isLocalReverseName "192.in-addr.arpa".toList = false := by decide +kernel

end DnsBlackhole.Filter
