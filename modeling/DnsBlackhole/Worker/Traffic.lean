/-
  The bytes that are counted for a query, and those on the wire (`record_sent` and
  `record_received` of `forward_to_upstream`).

  `forward_to_upstream` counts the query once, when its time check has passed, and the
  reply that the transport hands over.  Below it, a plain server may be asked at several
  addresses, again over TCP, or not at all.

  * `exchangeWire`: the messages of one forwarding;
  * `sent_plain`, `received_plain`: those of a plain server, beside the query and the reply;
  * `auditMachine`: a call with fallback servers, with its counters and its attempts;
  * `recorded_exact_iff`: when the counters of a call are what has crossed the wire.
-/
import DnsBlackhole.Worker.FallbackReached
import DnsBlackhole.Worker.Handlers

namespace DnsBlackhole

namespace Upstream
open Config Protocol

/-! ## The wire -/

/-- The DNS messages that go to a server and come from it. -/
structure Wire where
  sent : List Packet := []
  received : List Packet := []
  deriving DecidableEq

def Wire.append (w w' : Wire) : Wire := ⟨w.sent ++ w'.sent, w.received ++ w'.received⟩

def bytes (packets : List Packet) : ℕ := (packets.map List.length).sum

/-- The second try of `forward_udp`. -/
def tcpWire (query : Packet) (exchange : AddressExchange) : Wire :=
  match exchange.stream with
  | .error _ => {}
  | .ok _ =>
    if 65535 < query.length then {}
    else ⟨[query], (forwardTcp query exchange).toOption.toList⟩

/-- `forward_udp`; datagrams with another identifier are not for the query. -/
def udpWire (query : Packet) (exchange : AddressExchange) : Wire :=
  match exchange.opened, exchange.sent with
  | .ok (), .ok () =>
    match exchange.datagrams.find? (isAnswerTo query) with
    | none => ⟨[query], []⟩
    | some response =>
      Wire.append ⟨[query], [response]⟩
        (if responseIsTruncated response then tcpWire query exchange else {})
  | _, _ => {}

/-- The loop of `forward_udp_addresses`. -/
def addressesWire (query : Packet) (exchange : ℕ → AddressExchange) :
    List (SocketAddr × ℕ) → Wire
  | [] => {}
  | (_, index) :: rest =>
    if (exchange index).late then {}
    else (udpWire query (exchange index)).append
      (match forwardUdp query (exchange index) with
      | .ok _ => {}
      | .error _ => addressesWire query exchange rest)

/-- The server is asked over the sockets of the program. -/
def isPlain (upstream : RuntimeUpstream) : Bool :=
  !usesLibrary upstream && match upstream.server with
    | .udp _ | .udpHostname _ _ => true
    | _ => false

/-- The messages of one forwarding that has found time; `client` has those of the HTTP client
    or of the client library. -/
def exchangeWire (query : Packet) (upstream : RuntimeUpstream) (network : Network)
    (client : Wire) : Wire :=
  if isPlain upstream then
    match network.addresses with
    | .error _ => {}
    | .ok addresses =>
      addressesWire query network.exchange (addressOrder addresses network.nextAddress)
  else client

/-! ## Truncated datagrams -/

def cutDatagram (query : Packet) (exchange : AddressExchange) : List Packet :=
  match exchange.opened, exchange.sent with
  | .ok (), .ok () =>
    ((exchange.datagrams.find? (isAnswerTo query)).filter responseIsTruncated).toList
  | _, _ => []

/-- The truncated datagrams of the addresses that are asked. -/
def cutDatagrams (query : Packet) (exchange : ℕ → AddressExchange) :
    List (SocketAddr × ℕ) → List Packet
  | [] => []
  | (_, index) :: rest =>
    if (exchange index).late then []
    else cutDatagram query (exchange index) ++
      (match forwardUdp query (exchange index) with
      | .ok _ => []
      | .error _ => cutDatagrams query exchange rest)

/-- The packet of a reply. -/
def replyPacket (result : Except Text Reply) : List Packet :=
  (result.toOption.map Reply.packet).toList

section
variable {query : Packet} {exchange : AddressExchange}

theorem bytes_append (ps qs : List Packet) : bytes (ps ++ qs) = bytes ps + bytes qs := by
  rw [bytes, List.map_append, List.sum_append]
  rfl

theorem bytes_of_forall_eq {packets : List Packet} (h : ∀ p ∈ packets, p = query) :
    bytes packets = packets.length * query.length := by
  rw [List.eq_replicate_of_mem h, bytes, List.map_replicate, List.sum_replicate_nat,
    List.length_replicate]

theorem received_tcpWire (query : Packet) (exchange : AddressExchange) :
    (tcpWire query exchange).received = (forwardTcp query exchange).toOption.toList := by
  unfold tcpWire forwardTcp
  cases exchange.stream with
  | error error => split_ifs <;> rfl
  | ok bytes => split_ifs <;> rfl

theorem received_udpWire (query : Packet) (exchange : AddressExchange) :
    (udpWire query exchange).received =
      cutDatagram query exchange ++ replyPacket (forwardUdp query exchange) := by
  unfold udpWire cutDatagram forwardUdp udpExchange
  cases exchange.opened with
  | error error => rfl
  | ok opened =>
    cases exchange.sent with
    | error error => rfl
    | ok sent =>
      cases hfind : exchange.datagrams.find? (isAnswerTo query) with
      | none => rfl
      | some response =>
        dsimp only
        by_cases htruncated : responseIsTruncated response = true
        · have hreceived := received_tcpWire query exchange
          rw [if_pos htruncated, if_pos htruncated, Wire.append, hreceived]
          rw [Option.filter_some, if_pos htruncated]
          cases forwardTcp query exchange <;> rfl
        · rw [if_neg htruncated, if_neg htruncated, Option.filter_some, if_neg htruncated]
          rfl

theorem sent_tcpWire (query : Packet) (exchange : AddressExchange) :
    ∀ p ∈ (tcpWire query exchange).sent, p = query := by
  intro p hp
  unfold tcpWire at hp
  split at hp
  · cases hp
  · split_ifs at hp
    · cases hp
    · exact List.mem_singleton.1 hp

theorem sent_udpWire (query : Packet) (exchange : AddressExchange) :
    ∀ p ∈ (udpWire query exchange).sent, p = query := by
  intro p hp
  unfold udpWire at hp
  split at hp
  · split at hp
    · exact List.mem_singleton.1 hp
    · rcases List.mem_append.1 hp with hp | hp
      · exact List.mem_singleton.1 hp
      · split_ifs at hp
        · exact sent_tcpWire query exchange p hp
        · cases hp
  · cases hp

end

/-- **A plain server** is sent the query only, however often. -/
theorem sent_addressesWire (query : Packet) (exchange : ℕ → AddressExchange) :
    ∀ order : List (SocketAddr × ℕ), ∀ p ∈ (addressesWire query exchange order).sent, p = query
  | [], p, hp => absurd hp List.not_mem_nil
  | (address, index) :: rest, p, hp => by
    unfold addressesWire at hp
    split_ifs at hp
    · cases hp
    · rcases List.mem_append.1 hp with hp | hp
      · exact sent_udpWire query _ p hp
      · split at hp
        · cases hp
        · exact sent_addressesWire query exchange rest p hp

/-- **It is heard** with truncated datagrams, and with the reply. -/
theorem received_addressesWire (query : Packet) (exchange : ℕ → AddressExchange) :
    ∀ (order : List (SocketAddr × ℕ)) (lastError : Text),
      (addressesWire query exchange order).received = cutDatagrams query exchange order ++
        replyPacket (tryAddresses query exchange order lastError)
  | [], _ => rfl
  | (address, index) :: rest, lastError => by
    have hreceived := received_udpWire query (exchange index)
    unfold addressesWire cutDatagrams tryAddresses
    split_ifs with hlate
    · rfl
    · rw [Wire.append]
      dsimp only
      rw [hreceived]
      cases hforward : forwardUdp query (exchange index) with
      | ok reply => rw [List.append_nil, List.append_nil]
      | error error =>
        dsimp only
        rw [received_addressesWire query exchange rest (address.display ++ "：".toList ++ error),
          show replyPacket (.error error) = [] from rfl, List.append_nil, ← List.append_assoc]

/-- The truncated datagrams of a forwarding. -/
def cutReplies (query : Packet) (network : Network) : List Packet :=
  match network.addresses with
  | .error _ => []
  | .ok addresses =>
    cutDatagrams query network.exchange (addressOrder addresses network.nextAddress)

section
variable {query : Packet} {upstream : RuntimeUpstream} {network : Network} {client : Wire}

theorem exchangeWith_plain (h : isPlain upstream = true) :
    exchangeWith query upstream network =
      match network.addresses with
      | .error error => .error error
      | .ok addresses => forwardUdpAddresses query addresses network := by
  rw [isPlain, Bool.and_eq_true, Bool.not_eq_true'] at h
  rw [exchangeWith, h.1, if_neg Bool.false_ne_true]
  cases hserver : upstream.server with
  | udp addr => rfl
  | udpHostname hostname port => rfl
  | doh url => rw [hserver] at h; cases h.2
  | tls hostname port => rw [hserver] at h; cases h.2
  | quic hostname port => rw [hserver] at h; cases h.2

theorem sent_plain (h : isPlain upstream = true) :
    bytes (exchangeWire query upstream network client).sent =
      (exchangeWire query upstream network client).sent.length * query.length := by
  refine bytes_of_forall_eq ?_
  rw [exchangeWire, if_pos h]
  split
  · exact fun p hp => absurd hp List.not_mem_nil
  · exact sent_addressesWire query _ _

theorem received_plain (h : isPlain upstream = true) :
    bytes (exchangeWire query upstream network client).received =
      bytes (cutReplies query network) +
        bytes (replyPacket (exchangeWith query upstream network)) := by
  rw [← bytes_append, exchangeWire, if_pos h, exchangeWith_plain h, cutReplies]
  cases network.addresses with
  | error error => rfl
  | ok addresses => exact congrArg bytes (received_addressesWire query _ _ _)

end

/-! ## Attempts -/

/-- A forwarding that has found time. -/
structure Attempt where
  upstream : RuntimeUpstream
  network : Network
  client : Wire

namespace Attempt
variable (query : Packet) (a : Attempt)

def wire : Wire := exchangeWire query a.upstream a.network a.client

def plain : Bool := isPlain a.upstream

/-- The bytes of the reply that the transport hands over. -/
def replyBytes : ℕ := bytes (replyPacket (exchangeWith query a.upstream a.network))

/-- The times that the query has gone to a plain server, beside the first. -/
def further : ℕ := if a.plain then (a.wire query).sent.length - 1 else 0

/-- Nothing has gone to a plain server. -/
def silent : ℕ := if a.plain ∧ (a.wire query).sent = [] then 1 else 0

/-- The truncated datagrams of a plain server. -/
def cutBytes : ℕ := if a.plain then bytes (cutReplies query a.network) else 0

def byClient : ℕ := if a.plain then 0 else 1

def clientSent : ℕ := if a.plain then 0 else bytes a.client.sent

def clientReceived : ℕ := if a.plain then 0 else bytes a.client.received

def clientReply : ℕ := if a.plain then 0 else a.replyBytes query

end Attempt

/-- The sum over attempts. -/
def total (f : Attempt → ℕ) (attempts : List Attempt) : ℕ := (attempts.map f).sum

/-- What makes the counters exact.  Of the plain servers, as many are asked once more, at
    another address or over TCP, as cannot be sent anything, and none answers with a
    truncated datagram; where a client asks, its messages make up for the query and the
    reply. -/
structure Balanced (query : Packet) (attempts : List Attempt) : Prop where
  sent : total (Attempt.further query) attempts * query.length +
      total Attempt.clientSent attempts =
    total (Attempt.silent query) attempts * query.length +
      total Attempt.byClient attempts * query.length
  received : total (Attempt.cutBytes query) attempts + total Attempt.clientReceived attempts =
    total (Attempt.clientReply query) attempts

theorem sent_attempt (query : Packet) (a : Attempt) :
    bytes (a.wire query).sent +
        (a.silent query * query.length + Attempt.byClient a * query.length) =
      query.length + (a.further query * query.length + a.clientSent) := by
  unfold Attempt.silent Attempt.byClient Attempt.further Attempt.clientSent
  cases hplain : a.plain with
  | false => simp [Attempt.wire, exchangeWire, show isPlain a.upstream = false from hplain]; omega
  | true =>
    have hsent : bytes (a.wire query).sent = (a.wire query).sent.length * query.length :=
      sent_plain hplain
    rw [hsent]
    cases (a.wire query).sent with
    | nil => simp
    | cons first rest => simp [Nat.add_mul]; omega

theorem received_attempt (query : Packet) (a : Attempt) :
    bytes (a.wire query).received + a.clientReply query =
      a.replyBytes query + (a.cutBytes query + a.clientReceived) := by
  unfold Attempt.clientReply Attempt.cutBytes Attempt.clientReceived
  cases hplain : a.plain with
  | false => simp [Attempt.wire, exchangeWire, show isPlain a.upstream = false from hplain]; omega
  | true =>
    have hreceived : bytes (a.wire query).received =
        bytes (cutReplies query a.network) + a.replyBytes query := received_plain hplain
    simp [hreceived]
    omega

theorem sent_attempts (query : Packet) (attempts : List Attempt) :
    total (fun a => bytes (a.wire query).sent) attempts +
      (total (Attempt.silent query) attempts * query.length +
        total Attempt.byClient attempts * query.length) =
    attempts.length * query.length + (total (Attempt.further query) attempts * query.length +
      total Attempt.clientSent attempts) := by
  induction attempts with
  | nil => simp [total]
  | cons a attempts ih =>
    have ha := sent_attempt query a
    simp only [total, List.map_cons, List.sum_cons, List.length_cons, Nat.add_mul,
      Nat.one_mul] at ih ⊢
    omega

theorem received_attempts (query : Packet) (attempts : List Attempt) :
    total (fun a => bytes (a.wire query).received) attempts +
      total (Attempt.clientReply query) attempts =
    total (Attempt.replyBytes query) attempts +
      (total (Attempt.cutBytes query) attempts + total Attempt.clientReceived attempts) := by
  induction attempts with
  | nil => rfl
  | cons a attempts ih =>
    have ha := received_attempt query a
    simp only [total, List.map_cons, List.sum_cons] at ih ⊢
    omega

/-- **One query for each attempt and its reply** are what crosses the wire exactly if the
    attempts are balanced. -/
theorem balanced_iff (query : Packet) (attempts : List Attempt) :
    (attempts.length * query.length = total (fun a => bytes (a.wire query).sent) attempts ∧
      total (Attempt.replyBytes query) attempts =
        total (fun a => bytes (a.wire query).received) attempts) ↔ Balanced query attempts := by
  have hsent := sent_attempts query attempts
  have hreceived := received_attempts query attempts
  constructor
  · rintro ⟨hout, hin⟩
    constructor
    case sent => omega
    case received => omega
  · rintro ⟨hout, hin⟩
    constructor
    · omega
    · omega

end Upstream

namespace Worker
open Lib Protocol Upstream
open Admin (UpstreamMode)

/-! ## The counters of a call -/

/-- A call with the counters of its query and the attempts so far. -/
structure AuditState where
  call : CallState
  upstreamTraffic : UpstreamTraffic := {}
  attempts : List Attempt := []

/-- `forward_to_upstream` counts the query behind its time check, and a reply before it is
    judged; what a client exchanges in an attempt comes with the event. -/
def audit (call : FallbackCall) (s : AuditState) (next : CallState) :
    CallEvent × Wire → AuditState
  | (.readTimeout, _) =>
    match s.call.stage with
    | .entering _ _ _ =>
      if s.call.clock < call.deadline then { s with
        call := next
        upstreamTraffic :=
          { s.upstreamTraffic with bytesOut := s.upstreamTraffic.bytesOut + call.query.length } }
      else { s with call := next }
    | _ => { s with call := next }
  | (.forward network, client) =>
    match s.call.stage with
    | .asking _ upstream _ =>
      let attempt : Attempt := ⟨upstream, network, client⟩
      { call := next
        upstreamTraffic :=
          { s.upstreamTraffic with
            bytesIn := s.upstreamTraffic.bytesIn + attempt.replyBytes call.query }
        attempts := s.attempts ++ [attempt] }
    | _ => { s with call := next }
  | _ => { s with call := next }

def auditMachine (call : FallbackCall) : Machine AuditState (CallEvent × Wire) where
  init := { call := call.init }
  step s e := (call.step s.call e.1).map fun next => audit call s next e

/-- An attempt has been counted, and has not ended. -/
def underWay : CallStage → ℕ
  | .asking _ _ _ => 1
  | _ => 0

/-- The counters are the query once for each attempt, and the replies. -/
structure Audited (call : FallbackCall) (s : AuditState) : Prop where
  serial : ∀ pool batch t checked, s.call.stage ≠ .inBatch pool batch t checked
  sent : s.upstreamTraffic.bytesOut =
    (s.attempts.length + underWay s.call.stage) * call.query.length
  received : s.upstreamTraffic.bytesIn = total (Attempt.replyBytes call.query) s.attempts

section
variable {call : FallbackCall} {s s' : AuditState} {e : CallEvent × Wire}

theorem underWay_fail (pool : Pool) (error : Text) : underWay (call.fail pool error) = 0 := by
  unfold FallbackCall.fail
  split
  · split_ifs <;> rfl
  · rfl

theorem underWay_afterAttempt (pool : Pool) (left : List RuntimeUpstream)
    (result : Except Text Reply) : underWay (FallbackCall.afterAttempt pool left result) = 0 := by
  cases result <;> rfl

theorem Audited.same (h : Audited call s) {next : CallState}
    (hserial : ∀ pool batch t checked, next.stage ≠ .inBatch pool batch t checked)
    (hstage : underWay next.stage = underWay s.call.stage) :
    Audited call { s with call := next } :=
  ⟨hserial, by rw [hstage]; exact h.sent, h.received⟩

theorem enter_serial (hmode : call.upstreamMode = .loadBalance) (pool : Pool) (clock next : ℕ)
    (unhealthy : ℕ → Bool) (probe : Option ℕ) :
    underWay (call.enter pool clock next unhealthy probe) = 0 ∧
      ∀ pool' batch t checked,
        call.enter pool clock next unhealthy probe ≠ .inBatch pool' batch t checked := by
  unfold FallbackCall.enter
  rw [hmode]
  dsimp only
  split_ifs
  · exact ⟨underWay_fail pool _, fun _ _ _ _ => FallbackCall.fail_ne_inBatch⟩
  · exact ⟨rfl, fun _ _ _ _ heq => by cases heq⟩

theorem afterAttempt_serial (pool : Pool) (left : List RuntimeUpstream)
    (result : Except Text Reply) : ∀ pool' batch t checked,
      FallbackCall.afterAttempt pool left result ≠ .inBatch pool' batch t checked := by
  intro pool' batch t checked heq
  cases result <;> cases heq

/-- **A step counts what it sends and what it hears.** -/
theorem Audited.step (hmode : call.upstreamMode = .loadBalance) (h : Audited call s)
    (hstep : (auditMachine call).step s e = some s') : Audited call s' := by
  obtain ⟨event, client⟩ := e
  obtain ⟨next, hnext, rfl⟩ := Option.map_eq_some_iff.1 hstep
  have hsame {t : CallState} (hstage : underWay t.stage = underWay s.call.stage)
      (hserial : ∀ pool batch b checked, t.stage ≠ .inBatch pool batch b checked) :
      Audited call { s with call := t } := h.same hserial hstage
  cases FallbackCall.step_move hnext with
  | ticked _ => exact hsame rfl h.serial
  | @selected pool clock unhealthy probe hs =>
    obtain ⟨hzero, hserial⟩ := enter_serial hmode pool s.call.clock clock unhealthy probe
    refine hsame ?_ hserial
    rw [hs]
    exact hzero
  | @ended pool lastError hs =>
    refine hsame ?_ fun _ _ _ _ => FallbackCall.fail_ne_inBatch
    rw [hs]
    exact underWay_fail pool _
  | @late pool upstream left lastError hs hlate =>
    refine hsame ?_ fun _ _ _ _ => FallbackCall.fail_ne_inBatch
    rw [hs]
    exact underWay_fail pool _
  | turned hs =>
    refine hsame ?_ fun _ _ _ _ heq => by cases heq
    rw [hs]
    rfl
  | @entered pool upstream left hs hlt =>
    unfold audit
    dsimp only
    rw [hs]
    dsimp only
    rw [if_pos hlt]
    refine ⟨(fun _ _ _ _ heq => by cases heq), ?_, h.received⟩
    have hbefore : underWay s.call.stage = 0 := by
      rw [hs]
      rfl
    change s.upstreamTraffic.bytesOut + call.query.length =
      (s.attempts.length + 1) * call.query.length
    rw [h.sent, hbefore, Nat.add_zero, Nat.add_mul, Nat.one_mul]
  | @enteredLate pool upstream left error hs hlate =>
    unfold audit
    dsimp only
    rw [hs]
    dsimp only
    rw [if_neg (Nat.not_lt.2 hlate)]
    refine hsame ?_ fun _ _ _ _ heq => by cases heq
    rw [hs]
    rfl
  | @forwarded pool upstream left network result hs =>
    unfold audit
    dsimp only
    rw [hs]
    dsimp only
    refine ⟨afterAttempt_serial pool left result, ?_, ?_⟩
    · dsimp only
      rw [h.sent, hs, underWay_afterAttempt, List.length_append, List.length_singleton]
      rfl
    · dsimp only
      rw [h.received, total, total, List.map_append, List.sum_append]
      rfl
  | batched hs _ _ => exact absurd hs (h.serial _ _ _ _)
  | checked hs => exact absurd hs (h.serial _ _ _ _)
  | answered hs _ => exact absurd hs (h.serial _ _ _ _)
  | collected hs _ => exact absurd hs (h.serial _ _ _ _)
  | stopped hs =>
    refine hsame ?_ fun _ _ _ _ heq => by cases heq
    rw [hs]
    rfl
  | retried hs _ =>
    refine hsame ?_ fun _ _ _ _ heq => by cases heq
    rw [hs]
    rfl
  | woken hs =>
    refine hsame ?_ fun _ _ _ _ heq => by cases heq
    rw [hs]
    rfl

end

/-! ## Calls that have returned -/

/-- A call in the load-balancing mode that has returned. -/
structure ForwardRun where
  call : FallbackCall
  serial : call.upstreamMode = .loadBalance
  events : List (CallEvent × Wire)
  last : AuditState
  runs : (auditMachine call).run (auditMachine call).init events = some last
  result : Except Text Reply
  returned : last.call.stage = .returned result

namespace ForwardRun
variable (run : ForwardRun)

/-- The messages that the call has sent, and those it has received, in bytes. -/
def wireBytes : UpstreamTraffic where
  bytesOut := total (fun a => bytes (a.wire run.call.query).sent) run.last.attempts
  bytesIn := total (fun a => bytes (a.wire run.call.query).received) run.last.attempts

theorem audited : Audited run.call run.last := by
  refine Machine.run_inv (fun _ _ _ h hstep => h.step run.serial hstep) run.events ?_ run.runs
  exact ⟨fun _ _ _ _ heq => (by cases heq), (Nat.zero_mul _).symm, rfl⟩

/-- **When the counters of a call are exact.** -/
theorem recorded_exact_iff : run.last.upstreamTraffic = run.wireBytes ↔
    Balanced run.call.query run.last.attempts := by
  have h := run.audited
  have hsent : run.last.upstreamTraffic.bytesOut =
      run.last.attempts.length * run.call.query.length := by
    rw [h.sent, run.returned]
    rfl
  rw [← balanced_iff, ← hsent, ← h.received, wireBytes]
  constructor
  · intro heq
    rw [heq]
    exact ⟨rfl, rfl⟩
  · rintro ⟨hout, hin⟩
    rw [← hout, ← hin]

end ForwardRun

end Worker

end DnsBlackhole
