/-
  Stray datagrams on the socket of a plain server.

  `udp_exchange` takes the first datagram with the identifier of the query for the
  answer, and only then is this datagram checked against the query; one that does
  not pass ends the forwarding, and puts the server into backoff.

  * `forwardToUpstream_of_find`: what becomes of that first datagram;
  * `undisturbed_iff`: when the first datagram that answers the query decides the
    forwarding, whatever else arrives;
  * `strayNetwork_disturbed`: a late answer to another question in front of it.
-/
import DnsBlackhole.Upstream.Transports

namespace DnsBlackhole.Upstream
open Config Protocol

/-! ## The answer to a query -/

/-- The datagram is accepted by `validate_response_for_query`. -/
def isAccepted (query datagram : Packet) : Bool := (validateResponseForQuery query datagram).isOk

/-- The forwarding arrives at the address at `index` of a plain server, in time; the buffers
    of the sockets hold the query and the datagrams. -/
structure AsksAddress (query : Packet) (upstream : RuntimeUpstream) (network : Network)
    (index : ℕ) : Prop where
  noLibrary : usesLibrary upstream = false
  plain : libraryCarrier upstream.server = .udp
  onTime : network.late = false
  order : ∃ addresses before address after, network.addresses = .ok addresses ∧
    addressOrder addresses network.nextAddress = before ++ (address, index) :: after ∧
    ∀ entry ∈ before, (network.exchange entry.2).late = false ∧
      ∃ error, forwardUdp query (network.exchange entry.2) = .error error
  asked : (network.exchange index).late = false
  opened : (network.exchange index).opened = .ok ()
  sent : (network.exchange index).sent = .ok ()
  query_le : query.length ≤ maxDnsPacketSize
  datagram_le : ∀ datagram ∈ (network.exchange index).datagrams,
    datagram.length ≤ maxDnsPacketSize

/-- The network with another TCP stream at an address. -/
def Network.withStream (network : Network) (index : ℕ) (stream : Except Text (List UInt8)) :
    Network :=
  { network with
    exchange := Function.update network.exchange index
      { network.exchange index with stream } }

@[simp] theorem Network.exchange_withStream (network : Network) (index : ℕ)
    (stream : Except Text (List UInt8)) : (network.withStream index stream).exchange index =
      { network.exchange index with stream } := Function.update_self ..

/-- The forwarding returns the datagram or, when it is truncated, what the server
    sends over TCP. -/
def AnswersWith (query : Packet) (upstream : RuntimeUpstream) (network : Network) (index : ℕ)
    (datagram : Packet) : Prop :=
  (responseIsTruncated datagram = false →
    forwardToUpstream query upstream network = ⟨.ok ⟨.udp, datagram⟩, .available⟩) ∧
  (responseIsTruncated datagram = true →
    ∀ response, forwardTcp query (network.exchange index) = .ok response →
      forwardToUpstream query upstream network = judge query upstream (.ok ⟨.tcp, response⟩))

/-- Whatever the server sends over TCP, the forwarding is decided by the first datagram
    that answers the query. -/
def Undisturbed (query : Packet) (upstream : RuntimeUpstream) (network : Network) (index : ℕ) :
    Prop :=
  ∀ answer, (network.exchange index).datagrams.find? (isAccepted query) = some answer →
    ∀ stream, AnswersWith query upstream (network.withStream index stream) index answer

section
variable {query : Packet} {upstream : RuntimeUpstream} {network : Network} {index : ℕ}
  {datagram answer : Packet}

theorem isAnswerTo_of_isAccepted (h : isAccepted query datagram = true) :
    isAnswerTo query datagram = true := by
  unfold isAccepted validateResponseForQuery at h
  split_ifs at h with hlen hid
  · cases h
  · cases h
  · cases h
  · rw [not_or, Nat.not_lt, Nat.not_lt, dnsHeaderLen] at hlen
    rw [not_not] at hid
    exact decide_eq_true ⟨by omega, hid.symm⟩

theorem exists_find_isAnswerTo {datagrams : List Packet}
    (h : datagrams.find? (isAccepted query) = some answer) :
    ∃ first, datagrams.find? (isAnswerTo query) = some first := by
  rw [← Option.isSome_iff_exists, List.find?_isSome]
  exact ⟨answer, List.mem_of_find?_eq_some h,
    isAnswerTo_of_isAccepted (List.find?_some h)⟩

theorem find_eq_of_isAccepted {datagrams : List Packet} {first : Packet}
    (hfirst : datagrams.find? (isAnswerTo query) = some first)
    (haccepted : isAccepted query first = true) :
    datagrams.find? (isAccepted query) = some first := by
  rw [List.find?_eq_some_iff_append] at hfirst ⊢
  obtain ⟨-, before, after, heq, hnone⟩ := hfirst
  refine ⟨haccepted, before, after, heq, fun datagram hmem => ?_⟩
  have hother := hnone datagram hmem
  rw [Bool.not_eq_true'] at hother ⊢
  by_contra haccepted'
  rw [Bool.not_eq_false] at haccepted'
  rw [isAnswerTo_of_isAccepted haccepted'] at hother
  cases hother

theorem judge_of_isAccepted (hplain : usesLibrary upstream = false) {carrier : Carrier}
    (h : isAccepted query datagram = true) :
    judge query upstream (.ok ⟨carrier, datagram⟩) = ⟨.ok ⟨carrier, datagram⟩, .available⟩ := by
  have hdnssec : upstream.dnssecEnabled = false := by
    rw [usesLibrary, Bool.or_eq_false_iff] at hplain
    exact hplain.1
  unfold isAccepted at h
  cases hvalid : validateResponseForQuery query datagram with
  | error error =>
    rw [hvalid] at h
    cases h
  | ok valid => simp [judge, hvalid, hdnssec]

theorem judge_of_not_isAccepted {carrier : Carrier} (h : isAccepted query datagram = false) :
    (judge query upstream (.ok ⟨carrier, datagram⟩)).health = .unhealthy := by
  unfold isAccepted at h
  cases hvalid : validateResponseForQuery query datagram with
  | error error => simp [judge, hvalid]
  | ok valid =>
    rw [hvalid] at h
    cases h

/-! ## The first datagram -/

namespace AsksAddress

theorem withStream (h : AsksAddress query upstream network index)
    (stream : Except Text (List UInt8)) :
    AsksAddress query upstream (network.withStream index stream) index := by
  obtain ⟨addresses, before, address, after, haddresses, horder, hbefore⟩ := h.order
  refine ⟨h.noLibrary, h.plain, h.onTime,
    ⟨addresses, before, address, after, haddresses, horder, fun entry hmem => ?_⟩,
    by simpa using h.asked, by simpa using h.opened, by simpa using h.sent, h.query_le,
    by simpa using h.datagram_le⟩
  -- the addresses before it are others
  have hnodup := addressOrder_nodup addresses network.nextAddress
  rw [horder, List.map_append, List.map_cons, List.nodup_append] at hnodup
  have hne : entry.2 ≠ index := hnodup.2.2 _ (List.mem_map_of_mem hmem) _ List.mem_cons_self
  have hother : (network.withStream index stream).exchange entry.2 = network.exchange entry.2 :=
    Function.update_of_ne hne ..
  rw [hother]
  exact hbefore entry hmem

theorem forward_eq (h : AsksAddress query upstream network index) {reply : Reply}
    (hreply : forwardUdp query (network.exchange index) = .ok reply) :
    forwardToUpstream query upstream network = judge query upstream (.ok reply) := by
  obtain ⟨addresses, before, address, after, haddresses, horder, hbefore⟩ := h.order
  obtain ⟨lastError, hskip⟩ : ∃ lastError,
      tryAddresses query network.exchange (before ++ (address, index) :: after)
        "上游 DNS 没有可用地址".toList =
      tryAddresses query network.exchange ((address, index) :: after) lastError :=
    tryAddresses_append hbefore
  have hexchange : exchangeWith query upstream network = .ok reply := by
    have hforward : forwardUdpAddresses query addresses network = .ok reply := by
      rw [forwardUdpAddresses, horder, hskip, tryAddresses, h.asked, hreply]
      rfl
    have hplain := h.plain
    rw [exchangeWith, h.noLibrary, if_neg Bool.false_ne_true]
    cases hserver : upstream.server with
    | udp address => simp only [haddresses, hforward]
    | udpHostname hostname port => simp only [haddresses, hforward]
    | _ =>
      rw [hserver] at hplain
      cases hplain
  rw [forwardToUpstream, h.onTime, hexchange]
  rfl

/-- **The first datagram** with the identifier of the query is the reply, or is followed
    by what the server sends over TCP. -/
theorem forwardToUpstream_of_find (h : AsksAddress query upstream network index)
    {first : Packet}
    (hfirst : (network.exchange index).datagrams.find? (isAnswerTo query) = some first) :
    (responseIsTruncated first = false → forwardToUpstream query upstream network =
      judge query upstream (.ok ⟨.udp, first⟩)) ∧
    (responseIsTruncated first = true →
      ∀ response, forwardTcp query (network.exchange index) = .ok response →
        forwardToUpstream query upstream network =
          judge query upstream (.ok ⟨.tcp, response⟩)) := by
  have hexchange : udpExchange query (network.exchange index) = .ok first := by
    rw [udpExchange, h.sent]
    simp only [hfirst]
  constructor
  · intro hwhole
    refine h.forward_eq ?_
    rw [forwardUdp, h.opened]
    simp only [hexchange, hwhole, Bool.false_eq_true, if_false]
  · intro htruncated response htcp
    refine h.forward_eq ?_
    rw [forwardUdp, h.opened]
    simp only [hexchange, htruncated, htcp, if_true]
    rfl

theorem exists_stream (h : AsksAddress query upstream network index) {response : Packet}
    (hpos : 0 < response.length) (hle : response.length ≤ maxDnsPacketSize) :
    ∃ stream, forwardTcp query ((network.withStream index stream).exchange index) =
      .ok response := by
  obtain ⟨count, hcount⟩ : ∃ count : UInt16, count.toNat = response.length := by
    refine ⟨.ofNat response.length, ?_⟩
    rw [UInt16.toNat_ofNat']
    exact Nat.mod_eq_of_lt (Nat.lt_succ_of_le hle)
  have hquery : ¬ 65535 < query.length := Nat.not_lt.2 h.query_le
  refine ⟨.ok (u16ToBytes count ++ response), ?_⟩
  rw [Network.exchange_withStream, forwardTcp, if_neg hquery]
  simp only [u16ToBytes, List.cons_append, List.nil_append, u16OfBytes_toBytes]
  rw [hcount, if_neg hpos.ne', if_neg (Nat.lt_irrefl _), List.take_length]

end AsksAddress

/-! ## Stray datagrams -/

/-- **When stray datagrams do no harm**: the first answer to a query decides its
    forwarding exactly if the first datagram with the identifier of the query is that
    answer, or both send the forwarding to TCP. -/
theorem undisturbed_iff (h : AsksAddress query upstream network index) :
    Undisturbed query upstream network index ↔
      ∀ answer first, (network.exchange index).datagrams.find? (isAccepted query) = some answer →
        (network.exchange index).datagrams.find? (isAnswerTo query) = some first →
        isAccepted query first = true ∨
          responseIsTruncated first = true ∧ responseIsTruncated answer = true := by
  have hdatagrams : ∀ stream, ((network.withStream index stream).exchange index).datagrams =
      (network.exchange index).datagrams := fun stream => by
    rw [Network.exchange_withStream]
  constructor
  · intro hundisturbed answer first hanswer hfirst
    by_contra hnot
    rw [not_or, Bool.not_eq_true] at hnot
    obtain ⟨hrefused, htruncated⟩ := hnot
    have hlen := h.datagram_le answer (List.mem_of_find?_eq_some hanswer)
    have haccepted : isAccepted query answer = true := List.find?_some hanswer
    have hpos : 0 < answer.length := by
      have hanswerTo := of_decide_eq_true (isAnswerTo_of_isAccepted haccepted)
      omega
    -- the server sends the same answer over TCP
    obtain ⟨stream, hstream⟩ := h.exists_stream hpos hlen
    have hask := h.withStream stream
    obtain ⟨hwhole, hcut⟩ := hask.forwardToUpstream_of_find ((hdatagrams stream).symm ▸ hfirst)
    obtain ⟨hexpected, hexpectedTcp⟩ := hundisturbed answer hanswer stream
    cases hf : responseIsTruncated first with
    | false =>
      have hbad : (judge query upstream (.ok ⟨.udp, first⟩)).health = .unhealthy :=
        judge_of_not_isAccepted hrefused
      rw [← hwhole hf] at hbad
      cases ha : responseIsTruncated answer with
      | false =>
        rw [hexpected ha] at hbad
        cases hbad
      | true =>
        rw [hexpectedTcp ha answer hstream, judge_of_isAccepted h.noLibrary haccepted] at hbad
        cases hbad
    | true =>
      cases ha : responseIsTruncated answer with
      | false =>
        have heq := (hexpected ha).symm.trans (hcut hf answer hstream)
        rw [judge_of_isAccepted h.noLibrary haccepted] at heq
        cases heq
      | true => exact htruncated ⟨hf, ha⟩
  · intro hcondition answer hanswer stream
    obtain ⟨first, hfirst⟩ := exists_find_isAnswerTo hanswer
    have hask := h.withStream stream
    obtain ⟨hwhole, hcut⟩ := hask.forwardToUpstream_of_find ((hdatagrams stream).symm ▸ hfirst)
    rcases hcondition answer first hanswer hfirst with haccepted | ⟨hf, ha⟩
    · -- the first one is the answer
      have heq := find_eq_of_isAccepted hfirst haccepted
      rw [hanswer] at heq
      cases heq
      refine ⟨fun hf => ?_, hcut⟩
      rw [hwhole hf, judge_of_isAccepted h.noLibrary haccepted]
    · refine ⟨fun hwholeAnswer => ?_, fun _ => hcut hf⟩
      rw [ha] at hwholeAnswer
      cases hwholeAnswer

end

/-! ## Small networks -/

/-- A plain server. -/
def plainUpstream : RuntimeUpstream := ⟨.udp ⟨.v4 ⟨192, 0, 2, 53⟩, 53, 0⟩, [], false⟩

/-- A query for the addresses of `a`, and a response to it. -/
def strayQuery : Packet := [0, 7, 1, 0, 0, 1, 0, 0, 0, 0, 0, 0, 1, 97, 0, 0, 1, 0, 1]

def strayAnswer : Packet := [0, 7, 129, 128, 0, 1, 0, 0, 0, 0, 0, 0, 1, 97, 0, 0, 1, 0, 1]

/-- A response to an earlier query for `b`, with the same identifier. -/
def lateAnswer : Packet := [0, 7, 129, 128, 0, 1, 0, 0, 0, 0, 0, 0, 1, 98, 0, 0, 1, 0, 1]

/-- The network in which a reused socket receives these datagrams. -/
def datagramNetwork (datagrams : List Packet) : Network where
  addresses := .ok [⟨.v4 ⟨192, 0, 2, 53⟩, 53, 0⟩]
  exchange := fun _ => { datagrams }

theorem datagramNetwork_asks {datagrams : List Packet}
    (h : ∀ datagram ∈ datagrams, datagram.length ≤ maxDnsPacketSize) :
    AsksAddress strayQuery plainUpstream (datagramNetwork datagrams) 0 :=
  ⟨rfl, rfl, rfl, ⟨_, [], _, [], rfl, rfl, by simp⟩, rfl, rfl, rfl, by decide, h⟩

/-- A datagram with another identifier in front does no harm. -/
theorem undisturbed_otherIdentifier : Undisturbed strayQuery plainUpstream
    (datagramNetwork [1 :: lateAnswer.tail, strayAnswer]) 0 := by
  refine (undisturbed_iff (datagramNetwork_asks (by decide))).2 fun answer first _ hfirst => ?_
  have heq : [1 :: lateAnswer.tail, strayAnswer].find? (isAnswerTo strayQuery) =
      some strayAnswer := by decide
  rw [show ((datagramNetwork [1 :: lateAnswer.tail, strayAnswer]).exchange 0).datagrams =
    [1 :: lateAnswer.tail, strayAnswer] from rfl, heq] at hfirst
  cases hfirst
  exact .inl (by decide +kernel)

/-- **A late answer takes the server out**: the answer to the query arrives behind it, and
    the forwarding fails and puts the server into backoff. -/
theorem strayNetwork_disturbed :
    AsksAddress strayQuery plainUpstream (datagramNetwork [lateAnswer, strayAnswer]) 0 ∧
    [lateAnswer, strayAnswer].find? (isAccepted strayQuery) = some strayAnswer ∧
    responseIsTruncated strayAnswer = false ∧
    (forwardToUpstream strayQuery plainUpstream
      (datagramNetwork [lateAnswer, strayAnswer])).health = .unhealthy ∧
    ¬ Undisturbed strayQuery plainUpstream (datagramNetwork [lateAnswer, strayAnswer]) 0 := by
  have hanswer : [lateAnswer, strayAnswer].find? (isAccepted strayQuery) = some strayAnswer := by
    decide +kernel
  have hhealth : (forwardToUpstream strayQuery plainUpstream
      (datagramNetwork [lateAnswer, strayAnswer])).health = .unhealthy := by decide +kernel
  have hwhole : responseIsTruncated strayAnswer = false := by decide
  refine ⟨datagramNetwork_asks (by decide), hanswer, hwhole, hhealth, fun hundisturbed => ?_⟩
  have hself : (datagramNetwork [lateAnswer, strayAnswer]).withStream 0 (.error []) =
      datagramNetwork [lateAnswer, strayAnswer] := by
    simp [Network.withStream, datagramNetwork]
  have hexpected := (hundisturbed strayAnswer hanswer (.error [])).1 hwhole
  rw [hself] at hexpected
  rw [hexpected] at hhealth
  cases hhealth

end DnsBlackhole.Upstream
