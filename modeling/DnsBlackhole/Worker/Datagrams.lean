/-
  The datagram that answers a client over UDP (`send_dns_response` with
  `udp_payload_size` and `truncate_response_for_udp`).

  The size that a client can receive, the truncation and the echo of the question
  read the query separately.  A response that is too long is cut down to its
  header and the question, which always fits: a name has 255 bytes at most, so
  the question ends 271 bytes into the packet, and no client receives less than
  512 bytes.

  * `truncateResponseForUdp_eq`: what is left of a response that is too long, and
    that it is a response to the query (`Truncated`);
  * `sentBytes_fits`: every response to a query leaves as a datagram that the
    client can receive, unchanged or truncated.
-/
import DnsBlackhole.Protocol.Synthesized
import DnsBlackhole.Worker.Handlers

namespace DnsBlackhole

namespace Protocol

/-! ## The size of a datagram -/

/-- The number of bytes of the name of a question. -/
def Question.nameLen (question : Question) : ℕ := question.questionEnd - dnsHeaderLen - 4

theorem udpPayloadSize_eq {query : Packet} {parsed : ParsedQuery}
    (h : parseQuery query = .ok parsed) : udpPayloadSize query =
      min (max ((parsed.ednsUdpSize.map UInt16.toNat).getD 512) 512) maxUdpDnsPayload := by
  rw [udpPayloadSize, h]

theorem le_udpPayloadSize (query : Packet) : 512 ≤ udpPayloadSize query := by
  have hmax : 512 ≤ maxUdpDnsPayload := by decide
  unfold udpPayloadSize
  split
  · exact le_min (le_max_right _ _) hmax
  · exact le_rfl

/-! ## Truncated responses -/

/-- The packet is what is left of the response: the bits of its header with the
    truncation flag, and the question of the query. -/
structure Truncated (query : Packet) (question : Question) (response packet : Packet) :
    Prop where
  validated : validateResponseForQuery query packet = .ok ()
  flagged : packet[2]?.getD 0 &&& 0x02 ≠ 0
  opcode : packet[2]?.getD 0 &&& 0x78 = response[2]?.getD 0 &&& 0x78
  authoritative : packet[2]?.getD 0 &&& 0x04 = response[2]?.getD 0 &&& 0x04
  rcode : packet[3]?.getD 0 &&& 0x0f = response[3]?.getD 0 &&& 0x0f
  answers : readU16 packet 6 = some 0
  authorities : readU16 packet 8 = some 0
  additionals : readU16 packet 10 = some 0
  parsed : parseQuestion packet = .ok question
  ends : packet.length = question.questionEnd

theorem truncationBits (byte : UInt8) : (byte ||| 0x02) &&& 0x02 ≠ 0 ∧
    (byte ||| 0x02) &&& 0x78 = byte &&& 0x78 ∧ (byte ||| 0x02) &&& 0x04 = byte &&& 0x04 ∧
    (byte ||| 0x02) &&& 0x80 = byte &&& 0x80 := by
  have hall : ∀ n : Fin 256, (UInt8.ofNat n.val ||| 0x02) &&& 0x02 ≠ 0 ∧
      (UInt8.ofNat n.val ||| 0x02) &&& 0x78 = UInt8.ofNat n.val &&& 0x78 ∧
      (UInt8.ofNat n.val ||| 0x02) &&& 0x04 = UInt8.ofNat n.val &&& 0x04 ∧
      (UInt8.ofNat n.val ||| 0x02) &&& 0x80 = UInt8.ofNat n.val &&& 0x80 := by
    decide +kernel
  have := hall ⟨byte.toNat, byte.toNat_lt⟩
  rwa [UInt8.ofNat_toNat] at this

section
variable {query response : Packet} {question : Question} {ls : List Label}

/-- The bytes of a truncated response. -/
def truncatedBytes (query response : Packet) (question : Question) : Packet :=
  query.take 2 ++ [response[2]?.getD 0 ||| 0x02, response[3]?.getD 0] ++ u16ToBytes 1 ++
    u16ToBytes 0 ++ u16ToBytes 0 ++ u16ToBytes 0 ++
    (query.drop dnsHeaderLen).take (question.questionEnd - dnsHeaderLen)

variable (response) in
theorem length_truncatedBytes (hq : HasQuestion query question ls) :
    (truncatedBytes query response question).length = question.questionEnd := by
  have hend := hq.questionEnd
  have hle := hq.le_length
  simp only [dnsHeaderLen] at hend
  simp only [truncatedBytes, dnsHeaderLen, List.length_append, List.length_take, List.length_drop,
    length_u16ToBytes, List.length_cons, List.length_nil]
  omega

theorem truncateResponseForUdp_eq (hq : HasQuestion query question ls) {maxSize : ℕ}
    (hlen : dnsHeaderLen ≤ response.length) (hlong : maxSize < response.length)
    (hfits : question.questionEnd ≤ maxSize) :
    truncateResponseForUdp query response maxSize =
      some (truncatedBytes query response question) := by
  have hend := hq.questionEnd
  have hle := hq.le_length
  have hid : slice? query 0 2 = some (query.take 2) := by
    rw [slice?, if_pos ⟨by omega, by omega⟩, List.drop_zero]
  have hquestion : slice? query dnsHeaderLen question.questionEnd =
      some ((query.drop dnsHeaderLen).take (question.questionEnd - dnsHeaderLen)) := by
    rw [slice?, if_pos ⟨by omega, hle⟩]
  have hshort : (truncatedBytes query response question).length ≤ maxSize := by
    rwa [length_truncatedBytes response hq]
  rw [truncateResponseForUdp, if_neg (by omega), if_neg (by omega), hq.parsed]
  simp only [hid, hquestion]
  exact if_pos hshort

/-- **What is left of a response** is a response to the same query. -/
theorem truncatedBytes_truncated (hq : HasQuestion query question ls)
    (hqr : response[2]?.getD 0 &&& 0x80 ≠ 0) :
    Truncated query question response (truncatedBytes query response question) := by
  have hend := hq.questionEnd
  have hle := hq.le_length
  simp only [dnsHeaderLen] at hend
  have hlen := length_truncatedBytes response hq
  obtain ⟨a, b, hab⟩ : ∃ a b, query.take 2 = [a, b] :=
    List.length_eq_two.1 (by rw [List.length_take]; omega)
  obtain ⟨hflag, hopcode, haa, hresponse⟩ := truncationBits (response[2]?.getD 0)
  have hbytes : truncatedBytes query response question =
      [a, b, response[2]?.getD 0 ||| 0x02, response[3]?.getD 0, 0, 1, 0, 0, 0, 0, 0, 0] ++
        (query.drop 12).take (question.questionEnd - 12) := by
    rw [truncatedBytes, hab]
    rfl
  have hagree : Agree 12 question.questionEnd query (truncatedBytes query response question) := by
    intro i hi hib
    obtain ⟨k, rfl⟩ : ∃ k, i = 12 + k := ⟨i - 12, by omega⟩
    rw [hbytes, List.getElem?_append_right (by simp), List.getElem?_take_of_lt (by simp; omega),
      List.getElem?_drop]
    simp
  have hcount : readU16 (truncatedBytes query response question) 4 = some 1 := by rw [hbytes]; rfl
  have htwo : (truncatedBytes query response question)[2]?.getD 0 =
      response[2]?.getD 0 ||| 0x02 := by rw [hbytes]; rfl
  have hthree : (truncatedBytes query response question)[3]?.getD 0 = response[3]?.getD 0 := by
    rw [hbytes]; rfl
  have hparsed := hq.parse_echo hlen.ge hcount hagree
  refine ⟨hq.validate_echo hlen.ge ?_ ?_ hparsed, ?_, ?_, ?_, ?_, ?_, ?_, ?_, hparsed, hlen⟩
  · rw [hbytes, hab]; rfl
  · rwa [htwo, hresponse]
  · rwa [htwo]
  · rw [htwo, hopcode]
  · rw [htwo, haa]
  · rw [hthree]
  · rw [hbytes]; rfl
  · rw [hbytes]; rfl
  · rw [hbytes]; rfl

end

end Protocol

namespace Worker
open Filter Protocol

/-! ## What leaves for a client -/

section
variable (work : WorkItem) (io : Surroundings) {response : Packet}

/-- **Every response to a query** leaves for a client over UDP as a datagram that
    the client can receive, which is the response or what is left of it. -/
theorem sentBytes_fits (htarget : work.responseTarget = .udp)
    (hname : work.question.nameLen ≤ 255)
    (hvalid : validateResponseForQuery work.query response = .ok ()) :
    ∃ datagram, sentBytes work io response = io.sendError.elim (.ok datagram) .error ∧
      datagram.length ≤ udpPayloadSize work.query ∧
      udpPayloadSize work.query =
        min (max ((work.parsed.ednsUdpSize.map UInt16.toNat).getD 512) 512) maxUdpDnsPayload ∧
      (response.length ≤ udpPayloadSize work.query → datagram = response) ∧
      (udpPayloadSize work.query < response.length →
        Truncated work.query work.question response datagram) := by
  obtain ⟨ls, hq⟩ := exists_hasQuestion (parseQuery_question work.parses)
  obtain ⟨hlen, hqr, -⟩ := of_validateResponseForQuery hvalid
  have hsize := udpPayloadSize_eq work.parses
  have hend : work.question.questionEnd ≤ udpPayloadSize work.query := by
    have h512 := le_udpPayloadSize work.query
    simp only [Question.nameLen, dnsHeaderLen] at hname
    omega
  have hsent : ∀ datagram, (if response.length ≤ udpPayloadSize work.query then some response
      else truncateResponseForUdp work.query response (udpPayloadSize work.query)) =
        some datagram → sentBytes work io response = io.sendError.elim (.ok datagram) .error := by
    intro datagram h
    simp only [sentBytes, htarget, h]
    cases io.sendError <;> rfl
  by_cases hfits : response.length ≤ udpPayloadSize work.query
  · exact ⟨response, hsent response (if_pos hfits), hfits, hsize, fun _ => rfl,
      fun hlong => absurd hfits (Nat.not_le.2 hlong)⟩
  · have hcut := truncateResponseForUdp_eq hq hlen (Nat.not_le.1 hfits) hend
    have hlength := length_truncatedBytes response hq
    exact ⟨_, hsent _ (by rw [if_neg hfits, hcut]), hlength.trans_le hend, hsize,
      fun h => absurd h hfits, fun _ => truncatedBytes_truncated hq hqr⟩

end

/-- A query for the addresses of `a` without an OPT record. -/
def noOptWork : WorkItem where
  query := [0, 7, 1, 0, 0, 1, 0, 0, 0, 0, 0, 0, 1, 97, 0, 0, 1, 0, 1]
  client := .v4 ⟨127, 0, 0, 1⟩
  responseTarget := .udp
  parsed := ⟨⟨['a'], 1, 1, 19⟩, true, false, false, false, none, true⟩
  parses := by decide +kernel

/-- A response that is too long for it, authoritative and with the code 3. -/
def wideResponse : Packet :=
  [0, 7, 133, 131, 0, 1, 0, 0, 0, 0, 0, 0, 1, 97, 0, 0, 1, 0, 1] ++ List.replicate 600 0

theorem sentBytes_fits_noOptWork : ∃ datagram,
    sentBytes noOptWork {} wideResponse = .ok datagram ∧
      Truncated noOptWork.query noOptWork.question wideResponse datagram := by
  have hlong : udpPayloadSize noOptWork.query < wideResponse.length := by decide +kernel
  obtain ⟨datagram, hsent, -, -, -, hcut⟩ := @sentBytes_fits noOptWork {} wideResponse
    rfl (by decide +kernel) (by decide +kernel)
  exact ⟨datagram, hsent, hcut hlong⟩

end Worker
end DnsBlackhole
