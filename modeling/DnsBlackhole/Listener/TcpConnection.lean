/-
  A connection of a client over TCP (`handle_tcp_connection` of `dns/server.rs`).

  The connection reads the length and the bytes of a query, in as many reads as it
  takes, hands the query to a worker with a channel of its own, waits for one message
  on this channel, and writes the response behind its length.  The events say what
  the stop flag, the clock, the socket and the queues of the workers answer; the
  workers send to the channels at any time, also when nobody waits there any more.
-/
import DnsBlackhole.Lib.Framed
import DnsBlackhole.Lib.Machine
import DnsBlackhole.Protocol.Bytes
import DnsBlackhole.Text

namespace DnsBlackhole.Listener
open Lib Protocol

/-! ## The queues of the workers -/

/-- What `try_send` finds at a queue. -/
inductive QueueState
  | free
  | full
  | disconnected
  deriving DecidableEq

inductive DispatchDnsWorkError
  | full
  | disconnected
  deriving DecidableEq

/-- The next worker behind the one that has taken the item. -/
def dispatchDnsWork (queues : List QueueState) (nextWorker : ℕ) :
    Except DispatchDnsWorkError ℕ :=
  if queues.isEmpty then .error .disconnected
  else
    let start := nextWorker % queues.length
    let order := (List.range queues.length).map fun offset => (start + offset) % queues.length
    match order.find? fun index => queues[index]? == some .free with
    | some index => .ok ((index + 1) % 2 ^ 64)
    | none => .error (if queues.contains .full then .full else .disconnected)

/-! ## The connection -/

/-- Why a connection is closed. -/
inductive Closing
  /-- The stop flag. -/
  | stopped
  /-- The client has closed the connection between two queries. -/
  | clientClosed
  /-- It has closed the connection within a query. -/
  | cutOff
  | zeroLength
  /-- Nothing has come until the deadline. -/
  | idle
  /-- Only a part of a query has come until then. -/
  | timedOut
  | clientDisconnected
  | readFailed (error : Text)
  | queueFull
  | workersGone
  /-- The worker does not respond. -/
  | noResponse
  | responseTimeout
  | senderDropped
  | responseTooLong
  | writeDisconnected
  | writeFailed (error : Text)
  deriving DecidableEq

/-- What `handle_tcp_connection` records about it. -/
def Closing.error : Closing → Option Text
  | cutOff => some "读取 TCP DNS 请求失败：TCP DNS 请求在完整读取前关闭".toList
  | timedOut => some "读取 TCP DNS 请求失败：读取 TCP DNS 请求总超时".toList
  | readFailed error => some ("读取 TCP DNS 请求失败：".toList ++ error)
  | queueFull => some "DNS 请求队列已满，已丢弃 TCP 请求".toList
  | responseTimeout => some "等待 TCP DNS 响应超时".toList
  | responseTooLong => some "写入 TCP DNS 响应失败：TCP DNS 响应长度超过 65535 字节".toList
  | writeFailed error => some ("写入 TCP DNS 响应失败：".toList ++ error)
  | _ => none

inductive TcpPhase
  /-- In front of the loop. -/
  | accepting
  /-- In `read_tcp_bytes_until`, with the bytes so far. -/
  | readingLength (got : List UInt8)
  | readingQuery (size : ℕ) (got : List UInt8)
  | dispatching (query : Packet)
  /-- In `recv_timeout`, on the channel of the last item. -/
  | waiting
  | writing (response : Packet)
  | closed (reason : Closing)
  deriving DecidableEq

/-- An item of a worker, with the channel that it answers on. -/
structure TcpItem where
  query : Packet
  /-- The messages that the workers have sent, whether they arrive or not: a response,
      or that there is none. -/
  sent : List (Option Packet) := []
  /-- The message in the channel. -/
  buffer : Option (Option Packet) := none
  senderAlive : Bool := true
  deriving DecidableEq

structure TcpConnection where
  /-- The bytes of the client that are not read yet. -/
  incoming : List UInt8
  phase : TcpPhase := .accepting
  nextWorker : ℕ := 0
  /-- The items that were handed over, the last one last. -/
  items : List TcpItem := []
  /-- The bytes that were written. -/
  written : List UInt8 := []
  /-- The responses that were written completely. -/
  answers : List Packet := []
  deriving DecidableEq

/-- A length in two bytes. -/
def tcpFraming : Framing UInt8 where
  headerLen := 2
  limit := 65535
  encode n := u16ToBytes (.ofNat n)
  decode
    | [first, second] => (u16OfBytes first second).toNat
    | _ => 0
  headerLen_pos := Nat.two_pos
  length_encode n := length_u16ToBytes _
  decode_encode n hn := by
    show (u16OfBytes _ _).toNat = n
    rw [u16OfBytes_toBytes, UInt16.toNat_ofNat']
    exact Nat.mod_eq_of_lt (Nat.lt_succ_of_le hn)

/-! ## Events -/

/-- What `read` returns. -/
inductive ReadResult
  | read (n : ℕ)
  | eof
  | wouldBlock
  | disconnected
  | failed (error : Text)
  deriving DecidableEq

/-- What an iteration of `read_tcp_bytes_until` finds. -/
structure ReadEvent where
  stop : Bool := false
  /-- The deadline has not come. -/
  timeLeft : Bool := true
  result : ReadResult
  deriving DecidableEq

/-- What `write_all` comes to; an error comes behind the first `n` bytes. -/
inductive WriteResult
  | ok
  | disconnected (n : ℕ)
  | failed (n : ℕ) (error : Text)
  deriving DecidableEq

inductive TcpEvent
  | loop (stop : Bool)
  | read (event : ReadEvent)
  | dispatch (queues : List QueueState)
  /-- A worker sends a message for the item `index`. -/
  | send (index : ℕ) (message : Option Packet)
  /-- No worker has the item `index` any more. -/
  | dropSender (index : ℕ)
  | receive
  | receiveTimeout
  | receiveDisconnected
  | write (result : WriteResult)
  deriving DecidableEq

/-- One iteration of `read_tcp_bytes_until` for `size` bytes: the connection is closed,
    or there are these bytes, and those that are left. -/
def readIteration (cleanEofIfEmpty : Bool) (size : ℕ) (got incoming : List UInt8)
    (event : ReadEvent) : Option (Closing ⊕ List UInt8 × List UInt8) :=
  let clean := cleanEofIfEmpty && got.isEmpty
  if event.stop then some (.inl .stopped)
  else if !event.timeLeft then some (.inl (if clean then .idle else .timedOut))
  else match event.result with
    | .read n =>
      if 0 < n ∧ n ≤ size - got.length ∧ n ≤ incoming.length then
        some (.inr (got ++ incoming.take n, incoming.drop n))
      else none
    | .eof =>
      if incoming = [] then some (.inl (if clean then .clientClosed else .cutOff)) else none
    | .wouldBlock => some (.inr (got, incoming))
    | .disconnected => some (.inl .clientDisconnected)
    | .failed error => some (.inl (.readFailed error))

/-- `read_tcp_dns_query_with_timeout`, behind an iteration for the length. -/
def TcpPhase.afterLength (got : List UInt8) : TcpPhase :=
  if got.length < 2 then readingLength got
  else if tcpFraming.decode got = 0 then closed .zeroLength
  else readingQuery (tcpFraming.decode got) []

/-- Behind an iteration for the query. -/
def TcpPhase.afterQuery (size : ℕ) (got : List UInt8) : TcpPhase :=
  if got.length < size then readingQuery size got else dispatching got

/-- `try_send` to the channel of an item. -/
def TcpItem.send (item : TcpItem) (receiverAlive : Bool) (message : Option Packet) : TcpItem :=
  { item with
    sent := item.sent ++ [message]
    buffer := if receiverAlive then item.buffer.or (some message) else item.buffer }

namespace TcpConnection

/-- The connection holds the receiver of the item `index`. -/
def holdsReceiver (s : TcpConnection) (index : ℕ) : Bool :=
  index + 1 == s.items.length && match s.phase with
    | .waiting => true
    | .writing _ => true
    | _ => false

def afterRead (s : TcpConnection) (next : List UInt8 → TcpPhase) :
    Closing ⊕ List UInt8 × List UInt8 → TcpConnection
  | .inl reason => { s with phase := .closed reason }
  | .inr (got, incoming) => { s with incoming, phase := next got }

/-- `write_tcp_dns_response`. -/
def writeResponse (s : TcpConnection) (response : Packet) : WriteResult → Option TcpConnection
  | .ok => some { s with
      written := s.written ++ tcpFraming.frame response
      answers := s.answers ++ [response]
      phase := .accepting }
  | .disconnected n =>
    if n < (tcpFraming.frame response).length then some { s with
      written := s.written ++ (tcpFraming.frame response).take n
      phase := .closed .writeDisconnected }
    else none
  | .failed n error =>
    if n < (tcpFraming.frame response).length then some { s with
      written := s.written ++ (tcpFraming.frame response).take n
      phase := .closed (.writeFailed error) }
    else none

def step (s : TcpConnection) : TcpEvent → Option TcpConnection
  | .loop stop =>
    match s.phase with
    | .accepting =>
      some { s with phase := if stop then .closed .stopped else .readingLength [] }
    | _ => none
  | .read event =>
    match s.phase with
    | .readingLength got =>
      (readIteration true 2 got s.incoming event).map (s.afterRead .afterLength)
    | .readingQuery size got =>
      (readIteration false size got s.incoming event).map (s.afterRead (.afterQuery size))
    | _ => none
  | .dispatch queues =>
    match s.phase with
    | .dispatching query =>
      match dispatchDnsWork queues s.nextWorker with
      | .ok nextWorker =>
        some { s with nextWorker, items := s.items ++ [{ query }], phase := .waiting }
      | .error .full => some { s with phase := .closed .queueFull }
      | .error .disconnected => some { s with phase := .closed .workersGone }
    | _ => none
  | .send index message =>
    match s.items[index]? with
    | some item =>
      if item.senderAlive then
        some { s with items := s.items.set index (item.send (s.holdsReceiver index) message) }
      else none
    | none => none
  | .dropSender index =>
    match s.items[index]? with
    | some item => some { s with items := s.items.set index { item with senderAlive := false } }
    | none => none
  | .receive =>
    match s.phase, s.items.getLast? with
    | .waiting, some item =>
      match item.buffer with
      | some (some response) => some { s with
          items := s.items.set (s.items.length - 1) { item with buffer := none }
          phase := .writing response }
      | some none => some { s with phase := .closed .noResponse }
      | none => none
    | _, _ => none
  | .receiveTimeout =>
    match s.phase, s.items.getLast? with
    | .waiting, some item =>
      if item.buffer = none then some { s with phase := .closed .responseTimeout } else none
    | _, _ => none
  | .receiveDisconnected =>
    match s.phase, s.items.getLast? with
    | .waiting, some item =>
      if item.buffer = none ∧ item.senderAlive = false then
        some { s with phase := .closed .senderDropped }
      else none
    | _, _ => none
  | .write result =>
    match s.phase with
    | .writing response =>
      if response.length > 65535 then some { s with phase := .closed .responseTooLong }
      else s.writeResponse response result
    | _ => none

/-- The queries that were handed over. -/
def queries (s : TcpConnection) : List Packet := s.items.map TcpItem.query

end TcpConnection

/-- A connection on which the client sends `stream`. -/
def tcpConnection (stream : List UInt8) : Machine TcpConnection TcpEvent where
  init := { incoming := stream }
  step := TcpConnection.step

end DnsBlackhole.Listener
