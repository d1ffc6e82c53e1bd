/-
  Forwarding a query to one upstream (`forward_to_upstream` of `dns/upstream.rs`).

  A plain server is asked over UDP, and over TCP when its answer is truncated; a
  server over HTTPS is asked with an HTTP client.  Servers over TLS and QUIC, and
  every server if DNSSEC is switched on, are asked with a client library, which
  has transports of its own.

  What comes from outside in one forwarding is a `Network`: the datagrams that a
  socket receives before its deadline (those in the buffer of a reused socket
  first), the bytes of a TCP stream, what the HTTP client and the library hand
  over, and where a deadline has passed.  A reply keeps what it has come over.
-/
import DnsBlackhole.Config.Upstreams
import DnsBlackhole.Protocol.Query
import DnsBlackhole.Upstream.Backoff

namespace DnsBlackhole

namespace Protocol

def responseIsTruncated (packet : Packet) : Bool := packet[2]?.any fun flags => flags &&& 0x02 ≠ 0

end Protocol

namespace Upstream
open Config Protocol

structure RuntimeUpstream where
  server : UpstreamServer
  label : Text
  dnssecEnabled : Bool
  deriving DecidableEq

/-! ## Replies and the network -/

/-- What a message has come over. -/
inductive Carrier
  | udp
  | tcp
  | https
  | tls
  | quic
  deriving DecidableEq

structure Reply where
  carrier : Carrier
  packet : Packet
  deriving DecidableEq

/-- What happens at one address of a plain server. -/
structure AddressExchange where
  /-- The deadline has passed before the address is asked. -/
  late : Bool := false
  opened : Except Text Unit := .ok ()
  sent : Except Text Unit := .ok ()
  /-- The datagrams that `recv` returns before its deadline. -/
  datagrams : List Packet := []
  /-- The error behind them. -/
  ending : Text := []
  /-- The bytes of the TCP stream, or the error of its connection. -/
  stream : Except Text (List UInt8) := .error []

/-- What the outside does in one forwarding. -/
structure Network where
  /-- The deadline has passed before anything is sent. -/
  late : Bool := false
  /-- The addresses of a plain server, `current_udp_state`. -/
  addresses : Except Text (List SocketAddr) := .ok []
  nextAddress : ℕ := 0
  exchange : ℕ → AddressExchange := fun _ => {}
  /-- What the HTTP client hands over for the body of a request. -/
  doh : Packet → Except Text Packet := fun _ => .error []
  /-- The message of the library for a query, as it is sent: with DNSSEC, or as it is. -/
  message : Bool → Packet → Except Text Packet := fun _ query => .ok query
  /-- What the client of the library hands over for a message. -/
  library : Packet → Except Text Packet := fun _ => .error []

/-! ## UDP and TCP -/

/-- The datagram that `udp_exchange` takes for the answer: the first one with the
    identifier of the query. -/
def isAnswerTo (query datagram : Packet) : Bool :=
  2 ≤ datagram.length ∧ datagram.take 2 = query.take 2

def udpExchange (query : Packet) (exchange : AddressExchange) : Except Text Packet :=
  match exchange.sent with
  | .error error => .error ("请求上游 DNS 失败：".toList ++ error)
  | .ok () =>
    match exchange.datagrams.find? (isAnswerTo query) with
    | some datagram => .ok datagram
    | none => .error exchange.ending

def forwardTcp (query : Packet) (exchange : AddressExchange) : Except Text Packet :=
  if 65535 < query.length then .error "DNS TCP 请求长度超过 65535 字节".toList
  else match exchange.stream with
    | .error error => .error error
    | .ok (first :: second :: bytes) =>
      let responseLen := (u16OfBytes first second).toNat
      if responseLen = 0 then .error "上游 DNS TCP 返回空响应".toList
      else if bytes.length < responseLen then .error "读取上游 DNS TCP 响应失败：".toList
      else .ok (bytes.take responseLen)
    | .ok _ => .error "读取上游 DNS TCP 响应长度失败：".toList

def forwardUdp (query : Packet) (exchange : AddressExchange) : Except Text Reply :=
  match exchange.opened with
  | .error error => .error error
  | .ok () =>
    match udpExchange query exchange with
    | .error error => .error error
    | .ok response =>
      if responseIsTruncated response then
        (forwardTcp query exchange).map fun response => ⟨.tcp, response⟩
      else .ok ⟨.udp, response⟩

/-- The loop of `forward_udp_addresses` over the addresses that are left, with the
    error of the last one. -/
def tryAddresses (query : Packet) (exchange : ℕ → AddressExchange) :
    List (SocketAddr × ℕ) → Text → Except Text Reply
  | [], lastError => .error lastError
  | (address, index) :: rest, _ =>
    if (exchange index).late then .error "上游 DNS 查询超过总超时".toList
    else match forwardUdp query (exchange index) with
      | .ok response => .ok response
      | .error error => tryAddresses query exchange rest (address.display ++ "：".toList ++ error)

/-- The addresses in the order in which they are asked, with their places. -/
def addressOrder (addresses : List SocketAddr) (nextAddress : ℕ) : List (SocketAddr × ℕ) :=
  rotation addresses.zipIdx nextAddress

def forwardUdpAddresses (query : Packet) (addresses : List SocketAddr) (network : Network) :
    Except Text Reply :=
  tryAddresses query network.exchange (addressOrder addresses network.nextAddress)
    "上游 DNS 没有可用地址".toList

/-! ## Other transports -/

def forwardDoh (query : Packet) (network : Network) : Except Text Packet :=
  let requestBody := if 2 ≤ query.length then copyAt query 0 [0, 0] else query
  (network.doh requestBody).map fun response =>
    if 2 ≤ response.length ∧ 2 ≤ query.length then copyAt response 0 (query.take 2) else response

/-- The transport of the library for a server. -/
def libraryCarrier : UpstreamServer → Carrier
  | .udp _ | .udpHostname _ _ => .udp
  | .doh _ => .https
  | .tls _ _ => .tls
  | .quic _ _ => .quic

def forwardHickory (query : Packet) (upstream : RuntimeUpstream) (network : Network) :
    Except Text Reply :=
  if query.length < 2 then .error "DNS 查询报文过短".toList
  else match network.message upstream.dnssecEnabled query with
    | .error error => .error error
    | .ok message => (network.library message).map fun response =>
      ⟨libraryCarrier upstream.server,
        if 2 ≤ response.length then copyAt response 0 (query.take 2) else response⟩

/-! ## One forwarding -/

/-- What the forwarding does to the backoff of the upstream. -/
inductive Health
  | unchanged
  | available
  | unhealthy
  deriving DecidableEq

structure Forwarding where
  result : Except Text Reply
  health : Health

/-- The client library is used. -/
def usesLibrary (upstream : RuntimeUpstream) : Bool :=
  upstream.dnssecEnabled || match upstream.server with
    | .tls _ _ | .quic _ _ => true
    | _ => false

/-- What the transport of the upstream hands over. -/
def exchangeWith (query : Packet) (upstream : RuntimeUpstream) (network : Network) :
    Except Text Reply :=
  if usesLibrary upstream then forwardHickory query upstream network
  else match upstream.server with
    | .udp _ | .udpHostname _ _ =>
      match network.addresses with
      | .error error => .error error
      | .ok addresses => forwardUdpAddresses query addresses network
    | _ => (forwardDoh query network).map fun response => ⟨.https, response⟩

/-- The check of a reply. -/
def judge (query : Packet) (upstream : RuntimeUpstream) : Except Text Reply → Forwarding
  | .error error => ⟨.error error, .unhealthy⟩
  | .ok reply =>
    match validateResponseForQuery query reply.packet with
    | .error error => ⟨.error ("上游 ".toList ++ upstream.label ++ " 响应无效：".toList ++
        error.toList), .unhealthy⟩
    | .ok () =>
      if upstream.dnssecEnabled ∧ reply.packet[3]?.any fun flags => flags &&& 0x0f = 2 then
        ⟨.error ("上游 ".toList ++ upstream.label ++ " 的 DNSSEC 验证失败（SERVFAIL）".toList),
          .unhealthy⟩
      else ⟨.ok reply, .available⟩

def forwardToUpstream (query : Packet) (upstream : RuntimeUpstream) (network : Network) :
    Forwarding :=
  if network.late then ⟨.error "上游 DNS 查询超过总超时".toList, .unchanged⟩
  else judge query upstream (exchangeWith query upstream network)

/-! ## Replies -/

section
variable {query : Packet} {upstream : RuntimeUpstream} {network : Network}

theorem judge_eq_ok {reply : Reply} {result : Except Text Reply}
    (h : (judge query upstream result).result = .ok reply) : result = .ok reply ∧
      validateResponseForQuery query reply.packet = .ok () ∧
      ¬ (upstream.dnssecEnabled ∧ reply.packet[3]?.any fun flags => flags &&& 0x0f = 2) := by
  cases result with
  | error error => cases h
  | ok reply' =>
    unfold judge at h
    dsimp only at h
    cases hvalid : validateResponseForQuery query reply'.packet with
    | error error =>
      rw [hvalid] at h
      cases h
    | ok valid =>
      rw [hvalid] at h
      dsimp only at h
      split_ifs at h with hservfail
      cases h
      exact ⟨rfl, hvalid, hservfail⟩

theorem forwardToUpstream_eq_ok {reply : Reply}
    (h : (forwardToUpstream query upstream network).result = .ok reply) :
    network.late = false ∧ exchangeWith query upstream network = .ok reply ∧
      validateResponseForQuery query reply.packet = .ok () ∧
      ¬ (upstream.dnssecEnabled ∧ reply.packet[3]?.any fun flags => flags &&& 0x0f = 2) := by
  unfold forwardToUpstream at h
  split_ifs at h with hlate
  exact ⟨Bool.eq_false_iff.2 hlate, judge_eq_ok h⟩

/-- **A plain server never answers with a truncated datagram**: it is asked again
    over TCP. -/
theorem forwardUdp_not_truncated {exchange : AddressExchange} {reply : Reply}
    (h : forwardUdp query exchange = .ok reply) : reply.carrier = .tcp ∨
      reply.carrier = .udp ∧ responseIsTruncated reply.packet = false := by
  unfold forwardUdp at h
  split at h
  · cases h
  · split at h
    · cases h
    · split_ifs at h with htruncated
      · cases htcp : forwardTcp query exchange with
        | error error =>
          rw [htcp] at h
          cases h
        | ok response =>
          rw [htcp] at h
          cases h
          exact .inl rfl
      · cases h
        exact .inr ⟨rfl, Bool.eq_false_iff.2 htruncated⟩

theorem tryAddresses_eq_ok {exchange : ℕ → AddressExchange} {reply : Reply} :
    ∀ {order : List (SocketAddr × ℕ)} {lastError : Text},
      tryAddresses query exchange order lastError = .ok reply →
      ∃ entry ∈ order, forwardUdp query (exchange entry.2) = .ok reply
  | [], _, h => by cases h
  | (address, index) :: rest, _, h => by
    unfold tryAddresses at h
    split_ifs at h
    split at h
    · rename_i response hforward
      cases h
      exact ⟨_, List.mem_cons_self, hforward⟩
    · obtain ⟨entry, hmem, hentry⟩ := tryAddresses_eq_ok h
      exact ⟨entry, List.mem_cons_of_mem _ hmem, hentry⟩

theorem addressOrder_nodup (addresses : List SocketAddr) (nextAddress : ℕ) :
    ((addressOrder addresses nextAddress).map Prod.snd).Nodup := by
  rw [addressOrder, rotation_eq, List.map_rotate, List.nodup_rotate, List.zipIdx_map_snd]
  exact List.nodup_range'

theorem tryAddresses_append {exchange : ℕ → AddressExchange} {before after : List (SocketAddr × ℕ)}
    {lastError : Text} (h : ∀ entry ∈ before, (exchange entry.2).late = false ∧
      ∃ error, forwardUdp query (exchange entry.2) = .error error) :
    ∃ lastError', tryAddresses query exchange (before ++ after) lastError =
      tryAddresses query exchange after lastError' := by
  induction before generalizing lastError with
  | nil => exact ⟨lastError, rfl⟩
  | cons entry before ih =>
    obtain ⟨⟨hlate, error, herror⟩, hrest⟩ := List.forall_mem_cons.1 h
    obtain ⟨lastError', ih⟩ := @ih (entry.1.display ++ "：".toList ++ error) hrest
    refine ⟨lastError', ?_⟩
    rw [List.cons_append, tryAddresses, hlate, herror]
    exact ih

end

end Upstream
end DnsBlackhole
