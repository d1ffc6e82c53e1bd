/-
  What a connection of a client over TCP hands over and writes.

  The stream of the client is taken apart by `clientQueries`: the messages of its
  frames, up to the first one without bytes and to the first frame that is not
  complete.  The invariant `Exchanging` says that what was handed over is the
  beginning of it, and where in the stream the connection stands (`TcpPhase.At`).

  * `Exchanging.read`: however the stream is cut into reads, the connection keeps its
    place in it;
  * `Exchanging.dispatch`, `Exchanging.write`: a query is handed over, and the first
    message on its channel is written;
  * `exchanging_of_reachable`: so the invariant holds along every run.
-/
import DnsBlackhole.Listener.TcpConnection
import DnsBlackhole.Protocol.Grammar

namespace DnsBlackhole.Listener
open Lib Protocol

/-! ## The queries of a stream -/

/-- The queries of a stream, up to the first zero length or incomplete frame. -/
def clientQueries (stream : List UInt8) : List Packet :=
  (tcpFraming.messages stream).takeWhile fun message => !message.isEmpty

/-- A query that has a frame. -/
def IsQuery (query : Packet) : Prop := query ≠ [] ∧ query.length ≤ 65535

section
variable {rest got incoming : List UInt8} {size : ℕ}

theorem clientQueries_frames_append {queries : List Packet} (h : ∀ query ∈ queries, IsQuery query)
    (rest : List UInt8) :
    clientQueries (queries.flatMap tcpFraming.frame ++ rest) = queries ++ clientQueries rest := by
  rw [clientQueries, Framing.messages_frames_append fun query hquery => (h query hquery).2,
    List.takeWhile_append_of_pos]
  · rfl
  · intro query hquery
    simp [(h query hquery).1]

theorem clientQueries_of_nil (h : tcpFraming.messages rest = []) : clientQueries rest = [] := by
  rw [clientQueries, h]
  rfl

theorem encode_decode (h : got.length = 2) : tcpFraming.encode (tcpFraming.decode got) = got ∧
    tcpFraming.decode got ≤ 65535 := by
  obtain ⟨a, b, rfl⟩ := List.length_eq_two.1 h
  have hlt := (u16OfBytes a b).toNat_lt
  refine ⟨?_, Nat.le_of_lt_succ hlt⟩
  show u16ToBytes (.ofNat (u16OfBytes a b).toNat) = [a, b]
  rw [UInt16.ofNat_toNat, u16ToBytes_ofBytes]

theorem clientQueries_zero (h : got.length = 2) (hzero : tcpFraming.decode got = 0) :
    clientQueries (got ++ incoming) = [] := by
  have hframe : tcpFraming.frame [] = got := by
    have hencode := (encode_decode h).1
    rw [hzero] at hencode
    rw [Framing.frame, List.append_nil]
    exact hencode
  rw [clientQueries, ← hframe, Framing.messages_frame_append (Nat.zero_le _)]
  rfl

end

/-! ## The stream -/

/-- The client has sent no more queries. -/
def Closing.exhausted : Closing → Bool
  | clientClosed => true
  | cutOff => true
  | zeroLength => true
  | _ => false

/-- The last query was handed over, and no response to it has been written. -/
def Closing.unanswered : Closing → Bool
  | noResponse => true
  | responseTimeout => true
  | senderDropped => true
  | responseTooLong => true
  | writeDisconnected => true
  | writeFailed _ => true
  | _ => false

/-- A response was cut off. -/
def Closing.cutsResponse : Closing → Bool
  | writeDisconnected => true
  | writeFailed _ => true
  | _ => false

namespace TcpPhase

/-- The stream behind the queries that were handed over, with the bytes that are not
    read yet. -/
def At (incoming rest : List UInt8) : TcpPhase → Prop
  | accepting => rest = incoming
  | readingLength got => rest = got ++ incoming ∧ got.length < 2
  | readingQuery size got => rest = tcpFraming.encode size ++ got ++ incoming ∧
      got.length < size ∧ size ≤ 65535
  | dispatching query => rest = tcpFraming.frame query ++ incoming ∧ IsQuery query
  | waiting => rest = incoming
  | writing _ => rest = incoming
  | closed reason => reason.exhausted → clientQueries rest = []

/-- The number of queries that were handed over and not answered. -/
def pending : TcpPhase → ℕ
  | waiting => 1
  | writing _ => 1
  | closed reason => if reason.unanswered then 1 else 0
  | _ => 0

theorem pending_closed {reason : Closing} (h : reason.unanswered = false) :
    (closed reason).pending = 0 := by simp [pending, h]

end TcpPhase

section
variable {clean : Bool} {size : ℕ} {got incoming rest : List UInt8} {event : ReadEvent}

theorem readIteration_bytes {got' incoming' : List UInt8}
    (h : readIteration clean size got incoming event = some (.inr (got', incoming')))
    (hgot : got.length < size) :
    got' ++ incoming' = got ++ incoming ∧ got'.length ≤ size := by
  obtain ⟨stop, timeLeft, result⟩ := event
  cases stop with
  | true => simp [readIteration] at h
  | false =>
    cases timeLeft with
    | false => simp [readIteration] at h
    | true =>
      cases result with
      | read n =>
        simp only [readIteration, Bool.false_eq_true, Bool.not_true, if_false] at h
        split_ifs at h with hn
        cases h
        rw [List.append_assoc, List.take_append_drop, List.length_append, List.length_take]
        exact ⟨rfl, by omega⟩
      | eof => simp [readIteration] at h
      | wouldBlock =>
        simp only [readIteration, Bool.false_eq_true, Bool.not_true, if_false] at h
        cases h
        exact ⟨rfl, hgot.le⟩
      | disconnected => simp [readIteration] at h
      | failed error => simp [readIteration] at h

theorem readIteration_closes {reason : Closing}
    (h : readIteration clean size got incoming event = some (.inl reason)) :
    reason.unanswered = false ∧ reason.cutsResponse = false ∧
      (reason.exhausted → incoming = []) := by
  obtain ⟨stop, timeLeft, result⟩ := event
  have hopen : reason.exhausted = false → reason.exhausted → incoming = [] := by
    intro hfalse hreason
    rw [hfalse] at hreason
    cases hreason
  cases stop with
  | true =>
    obtain rfl : Closing.stopped = reason := by simpa [readIteration] using h
    exact ⟨rfl, rfl, hopen rfl⟩
  | false =>
    cases timeLeft with
    | false =>
      simp only [readIteration, Bool.false_eq_true, Bool.not_false, if_false, if_true,
        Option.some.injEq, Sum.inl.injEq] at h
      split_ifs at h
      all_goals
        obtain rfl := h
        exact ⟨rfl, rfl, hopen rfl⟩
    | true =>
      simp only [readIteration, Bool.false_eq_true, Bool.not_true, if_false] at h
      cases result with
      | read n =>
        dsimp only at h
        split_ifs at h
        simp at h
      | eof =>
        dsimp only at h
        by_cases hnil : incoming = []
        · rw [if_pos hnil, Option.some.injEq, Sum.inl.injEq] at h
          split_ifs at h
          all_goals
            obtain rfl := h
            exact ⟨rfl, rfl, fun _ => hnil⟩
        · rw [if_neg hnil] at h
          cases h
      | wouldBlock => simp at h
      | disconnected =>
        cases h
        exact ⟨rfl, rfl, hopen rfl⟩
      | failed error =>
        cases h
        exact ⟨rfl, rfl, hopen rfl⟩

theorem at_afterLength (h : got.length ≤ 2) :
    (TcpPhase.afterLength got).At incoming (got ++ incoming) := by
  unfold TcpPhase.afterLength
  split_ifs with hlt hzero
  · exact ⟨rfl, hlt⟩
  · exact fun _ => clientQueries_zero (by omega) hzero
  · obtain ⟨hencode, hle⟩ := encode_decode (by omega : got.length = 2)
    refine ⟨by rw [hencode, List.append_nil], ?_, hle⟩
    rw [List.length_nil]
    omega

theorem at_afterQuery (h : got.length ≤ size) (hpos : 0 < size) (hsize : size ≤ 65535) :
    (TcpPhase.afterQuery size got).At incoming (tcpFraming.encode size ++ got ++ incoming) := by
  unfold TcpPhase.afterQuery
  split_ifs with hlt
  · exact ⟨rfl, hlt, hsize⟩
  · obtain rfl : got.length = size := by omega
    exact ⟨by rw [Framing.frame], List.length_pos_iff.1 hpos, hsize⟩

theorem pending_afterLength (got : List UInt8) : (TcpPhase.afterLength got).pending = 0 := by
  unfold TcpPhase.afterLength
  split_ifs <;> rfl

theorem pending_afterQuery (size : ℕ) (got : List UInt8) :
    (TcpPhase.afterQuery size got).pending = 0 := by
  unfold TcpPhase.afterQuery
  split_ifs <;> rfl

end

/-! ## The channels -/

/-- The first message on the channel of an item is this response. -/
def TcpItem.Answers (item : TcpItem) (response : Packet) : Prop :=
  item.sent.head? = some (some response)

theorem TcpItem.Answers.send {item : TcpItem} {response : Packet} (h : item.Answers response)
    (receiverAlive : Bool) (message : Option Packet) :
    (item.send receiverAlive message).Answers response := by
  unfold TcpItem.Answers TcpItem.send
  rw [List.head?_append, h]
  rfl

theorem TcpItem.buffer_send {item : TcpItem} (h : item.buffer = item.sent.head?)
    (message : Option Packet) :
    (item.send true message).buffer = (item.send true message).sent.head? := by
  unfold TcpItem.send
  dsimp only
  rw [if_pos rfl, h, List.head?_append]
  rfl

namespace TcpConnection

/-- What the connection knows of the query that it serves. -/
def Serves (s : TcpConnection) : Prop :=
  match s.phase with
  | .waiting => ∃ item, s.items[s.answers.length]? = some item ∧ item.buffer = item.sent.head?
  | .writing response => ∃ item, s.items[s.answers.length]? = some item ∧ item.Answers response
  | _ => True

/-- What was written: the responses, and the beginning of one that was cut off. -/
def Wrote (s : TcpConnection) : Prop :=
  ∃ rest, s.written = s.answers.flatMap tcpFraming.frame ++ rest ∧
    (rest = [] ∨ (∃ reason, s.phase = .closed reason ∧ reason.cutsResponse) ∧
      tcpFraming.messages rest = [])

/-- **The invariant** of a connection on which the client sends `stream`. -/
structure Exchanging (stream : List UInt8) (s : TcpConnection) : Prop where
  queries : ∀ query ∈ s.queries, IsQuery query
  stream : ∃ rest, stream = s.queries.flatMap tcpFraming.frame ++ rest ∧
    s.phase.At s.incoming rest
  count : s.answers.length + s.phase.pending = s.items.length
  answered : ∀ (i : ℕ) (response : Packet), s.answers[i]? = some response →
    ∃ item : TcpItem, s.items[i]? = some item ∧ item.Answers response
  serves : s.Serves
  wrote : s.Wrote
  short : ∀ response ∈ s.answers, response.length ≤ tcpFraming.limit

section
variable {stream incoming : List UInt8} {s s' : TcpConnection} {phase : TcpPhase}

theorem Wrote.of_open {s : TcpConnection} (h : s.Wrote)
    (hopen : ∀ reason, s.phase = .closed reason → reason.cutsResponse = false) :
    s.written = s.answers.flatMap tcpFraming.frame := by
  obtain ⟨rest, hwritten, hrest⟩ := h
  rcases hrest with rfl | ⟨⟨reason, hphase, hcuts⟩, -⟩
  · rw [hwritten, List.append_nil]
  · rw [hopen reason hphase] at hcuts
    cases hcuts

theorem Exchanging.move (h : s.Exchanging stream) (hopen : ∀ reason, s.phase ≠ .closed reason)
    (hat : ∀ rest, s.phase.At s.incoming rest → phase.At incoming rest)
    (hpending : phase.pending = s.phase.pending)
    (hserves : ({ s with incoming, phase } : TcpConnection).Serves) :
    ({ s with incoming, phase } : TcpConnection).Exchanging stream where
  queries := h.queries
  stream := by
    obtain ⟨rest, hstream, hrest⟩ := h.stream
    exact ⟨rest, hstream, hat rest hrest⟩
  count := by
    show s.answers.length + phase.pending = s.items.length
    rw [hpending]
    exact h.count
  answered := h.answered
  serves := hserves
  wrote := by
    have hwritten := h.wrote.of_open fun reason hreason => absurd hreason (hopen reason)
    exact ⟨[], by rw [List.append_nil]; exact hwritten, .inl rfl⟩
  short := h.short

theorem serves_of_pending (h : phase.pending = 0) :
    ({ s with incoming, phase } : TcpConnection).Serves := by
  cases phase with
  | waiting => cases h
  | writing response => cases h
  | accepting => trivial
  | readingLength got => trivial
  | readingQuery size got => trivial
  | dispatching query => trivial
  | closed reason => trivial

/-- **A step of reading**. -/
theorem Exchanging.read (h : s.Exchanging stream) {event : ReadEvent}
    (hstep : s.step (.read event) = some s') : s'.Exchanging stream := by
  simp only [step] at hstep
  split at hstep
  · rename_i got hphase
    obtain ⟨r, hr, rfl⟩ := Option.map_eq_some_iff.1 hstep
    cases r with
    | inl reason =>
      obtain ⟨hunanswered, -, hexhausted⟩ := readIteration_closes hr
      have hpending := TcpPhase.pending_closed hunanswered
      refine h.move (by simp [hphase]) (fun rest hat hreason => ?_) (by rw [hpending, hphase]; rfl)
        (serves_of_pending hpending)
      rw [hphase] at hat
      obtain ⟨rfl, hgot⟩ := hat
      rw [hexhausted hreason, List.append_nil]
      exact clientQueries_of_nil (Framing.messages_of_lt hgot)
    | inr r =>
      refine h.move (by simp [hphase]) (fun rest hat => ?_)
        (by rw [pending_afterLength, hphase]; rfl) (serves_of_pending (pending_afterLength _))
      rw [hphase] at hat
      obtain ⟨rfl, hgot⟩ := hat
      obtain ⟨hbytes, hle⟩ := readIteration_bytes hr hgot
      rw [← hbytes]
      exact at_afterLength hle
  · rename_i size got hphase
    obtain ⟨r, hr, rfl⟩ := Option.map_eq_some_iff.1 hstep
    cases r with
    | inl reason =>
      obtain ⟨hunanswered, -, hexhausted⟩ := readIteration_closes hr
      have hpending := TcpPhase.pending_closed hunanswered
      refine h.move (by simp [hphase]) (fun rest hat hreason => ?_) (by rw [hpending, hphase]; rfl)
        (serves_of_pending hpending)
      rw [hphase] at hat
      obtain ⟨rfl, hgot, hsize⟩ := hat
      rw [hexhausted hreason, List.append_nil]
      exact clientQueries_of_nil (Framing.messages_encode_append hsize hgot)
    | inr r =>
      refine h.move (by simp [hphase]) (fun rest hat => ?_)
        (by rw [pending_afterQuery, hphase]; rfl) (serves_of_pending (pending_afterQuery _ _))
      rw [hphase] at hat
      obtain ⟨rfl, hgot, hsize⟩ := hat
      obtain ⟨hbytes, hle⟩ := readIteration_bytes hr hgot
      rw [List.append_assoc, ← hbytes, ← List.append_assoc]
      exact at_afterQuery hle (by omega) hsize
  · cases hstep

theorem Exchanging.loop (h : s.Exchanging stream) {stop : Bool}
    (hstep : s.step (.loop stop) = some s') : s'.Exchanging stream := by
  simp only [step] at hstep
  split at hstep
  · rename_i hphase
    cases hstep
    have hpending : (if stop then TcpPhase.closed .stopped else .readingLength []).pending = 0 := by
      cases stop <;> rfl
    refine h.move (by simp [hphase]) (fun rest hat => ?_) (by rw [hpending, hphase]; rfl)
      (serves_of_pending hpending)
    rw [hphase] at hat
    cases stop with
    | true =>
      intro hreason
      cases hreason
    | false => exact ⟨hat, Nat.two_pos⟩
  · cases hstep

/-- **A query is handed over**, or the connection is closed. -/
theorem Exchanging.dispatch (h : s.Exchanging stream) {queues : List QueueState}
    (hstep : s.step (.dispatch queues) = some s') : s'.Exchanging stream := by
  simp only [step] at hstep
  split at hstep
  · rename_i query hphase
    have hclose : ∀ reason : Closing, reason.exhausted = false → reason.unanswered = false →
        ({ s with phase := .closed reason } : TcpConnection).Exchanging stream := by
      intro reason hexhausted hunanswered
      have hpending := TcpPhase.pending_closed hunanswered
      refine h.move (by simp [hphase]) (fun rest _ hreason => ?_) (by rw [hpending, hphase]; rfl)
        (serves_of_pending hpending)
      rw [hexhausted] at hreason
      cases hreason
    obtain ⟨rest, hstream, hat⟩ := h.stream
    have hcount := h.count
    rw [hphase] at hat hcount
    obtain ⟨rfl, hquery⟩ := hat
    split at hstep
    · cases hstep
      refine ⟨?_, ⟨s.incoming, ?_, rfl⟩, ?_, ?_, ?_, ?_, h.short⟩
      · intro q hq
        simp only [TcpConnection.queries, List.map_append, List.map_cons, List.map_nil,
          List.mem_append, List.mem_singleton] at hq
        rcases hq with hq | rfl
        · exact h.queries q hq
        · exact hquery
      · rw [hstream]
        simp only [TcpConnection.queries, List.map_append, List.map_cons, List.map_nil,
          List.flatMap_append, List.flatMap_cons, List.flatMap_nil, List.append_nil,
          List.append_assoc]
      · simp only [TcpPhase.pending, List.length_append, List.length_singleton] at hcount ⊢
        omega
      · intro i response hi
        obtain ⟨item, hitem, hanswers⟩ := h.answered i response hi
        exact ⟨item, List.getElem?_append_left (List.getElem?_eq_some_iff.1 hitem).1 ▸ hitem,
          hanswers⟩
      · have hlen : s.answers.length = s.items.length := hcount
        refine ⟨{ query }, ?_, rfl⟩
        show (s.items ++ [_])[s.answers.length]? = _
        rw [hlen, List.getElem?_concat_length]
      · have hwritten := h.wrote.of_open (by simp [hphase])
        exact ⟨[], by rw [List.append_nil]; exact hwritten, .inl rfl⟩
    · cases hstep
      exact hclose _ rfl rfl
    · cases hstep
      exact hclose _ rfl rfl
  · cases hstep

theorem Serves.set {index : ℕ} {item item' : TcpItem} (h : s.Serves)
    (hget : s.items[index]? = some item)
    (hbuffer : s.phase = .waiting → index = s.answers.length →
      item.buffer = item.sent.head? → item'.buffer = item'.sent.head?)
    (hanswers : ∀ response, item.Answers response → item'.Answers response) :
    ({ s with items := s.items.set index item' } : TcpConnection).Serves := by
  have hlt := (List.getElem?_eq_some_iff.1 hget).1
  have hset : ∀ it : TcpItem, s.items[s.answers.length]? = some it →
      (index = s.answers.length ∧ it = item ∧
        (s.items.set index item')[s.answers.length]? = some item') ∨
      (s.items.set index item')[s.answers.length]? = some it := by
    intro it hit
    rw [List.getElem?_set]
    by_cases heq : index = s.answers.length
    · rw [if_pos heq, if_pos hlt]
      rw [heq, hit] at hget
      cases hget
      exact .inl ⟨heq, rfl, rfl⟩
    · rw [if_neg heq]
      exact .inr hit
  unfold Serves at h ⊢
  dsimp only
  split at h
  · rename_i hphase
    obtain ⟨it, hit, hbuf⟩ := h
    rcases hset it hit with ⟨heq, rfl, hit'⟩ | hit'
    · exact ⟨item', hit', hbuffer hphase heq hbuf⟩
    · exact ⟨it, hit', hbuf⟩
  · obtain ⟨it, hit, hanswer⟩ := h
    rcases hset it hit with ⟨-, rfl, hit'⟩ | hit'
    · exact ⟨item', hit', hanswers _ hanswer⟩
    · exact ⟨it, hit', hanswer⟩
  · trivial

theorem Exchanging.update (h : s.Exchanging stream) {index : ℕ} {item item' : TcpItem}
    (hget : s.items[index]? = some item) (hquery : item'.query = item.query)
    (hbuffer : s.phase = .waiting → index = s.answers.length →
      item.buffer = item.sent.head? → item'.buffer = item'.sent.head?)
    (hanswers : ∀ response, item.Answers response → item'.Answers response) :
    ({ s with items := s.items.set index item' } : TcpConnection).Exchanging stream := by
  have hserves' := h.serves.set hget hbuffer hanswers
  obtain ⟨hlt, hget⟩ := List.getElem?_eq_some_iff.1 hget
  have hqueries : (s.items.set index item').map TcpItem.query = s.queries := by
    refine List.ext_getElem? fun i => ?_
    rw [TcpConnection.queries, List.getElem?_map, List.getElem?_map, List.getElem?_set]
    by_cases heq : index = i
    · rw [if_pos heq, if_pos hlt, ← heq, List.getElem?_eq_getElem hlt, hget]
      exact congrArg some hquery
    · rw [if_neg heq]
  refine ⟨?_, ?_, ?_, ?_, hserves', h.wrote, h.short⟩
  · show ∀ query ∈ (s.items.set index item').map TcpItem.query, IsQuery query
    rw [hqueries]
    exact h.queries
  · show ∃ rest, stream = ((s.items.set index item').map TcpItem.query).flatMap _ ++ rest ∧ _
    rw [hqueries]
    exact h.stream
  · show _ = (s.items.set index item').length
    rw [List.length_set]
    exact h.count
  · intro i response hi
    obtain ⟨it, hit, hanswer⟩ := h.answered i response hi
    show ∃ it : TcpItem, (s.items.set index item')[i]? = some it ∧ it.Answers response
    rw [List.getElem?_set]
    by_cases heq : index = i
    · rw [if_pos heq, if_pos hlt]
      rw [← heq, List.getElem?_eq_getElem hlt, hget] at hit
      cases hit
      exact ⟨item', rfl, hanswers response hanswer⟩
    · rw [if_neg heq]
      exact ⟨it, hit, hanswer⟩

theorem Exchanging.length_items (h : s.Exchanging stream) (hpending : s.phase.pending = 1) :
    s.items.length = s.answers.length + 1 := by
  rw [← h.count, hpending]

theorem Exchanging.getLast? (h : s.Exchanging stream) (hpending : s.phase.pending = 1) :
    s.items.getLast? = s.items[s.answers.length]? := by
  rw [List.getLast?_eq_getElem?, h.length_items hpending, Nat.add_sub_cancel]

/-- **A worker sends a message**: only the first one reaches the connection. -/
theorem Exchanging.send (h : s.Exchanging stream) {index : ℕ} {message : Option Packet}
    (hstep : s.step (.send index message) = some s') : s'.Exchanging stream := by
  simp only [step] at hstep
  split at hstep
  · rename_i item hget
    split_ifs at hstep
    cases hstep
    refine h.update hget rfl (fun hphase heq hbuffer => ?_) fun _ hanswers => hanswers.send _ _
    have hlength := h.length_items (by rw [hphase]; rfl)
    have hholds : s.holdsReceiver index = true := by
      simp [holdsReceiver, hphase, heq, hlength]
    rw [hholds]
    exact TcpItem.buffer_send hbuffer message
  · cases hstep

theorem Exchanging.dropSender (h : s.Exchanging stream) {index : ℕ}
    (hstep : s.step (.dropSender index) = some s') : s'.Exchanging stream := by
  simp only [step] at hstep
  split at hstep
  · rename_i item hget
    cases hstep
    exact h.update hget rfl (fun _ _ hbuffer => hbuffer) fun _ hanswers => hanswers
  · cases hstep

theorem Exchanging.giveUp (h : s.Exchanging stream) (hphase : s.phase = .waiting)
    {reason : Closing} (hexhausted : reason.exhausted = false)
    (hunanswered : reason.unanswered = true) :
    ({ s with phase := .closed reason } : TcpConnection).Exchanging stream := by
  refine h.move (by simp [hphase]) (fun rest _ hreason => ?_) ?_ trivial
  · rw [hexhausted] at hreason
    cases hreason
  · simp [TcpPhase.pending, hphase, hunanswered]

/-- **The connection receives** the first message of the query that it serves. -/
theorem Exchanging.receive (h : s.Exchanging stream) (hstep : s.step .receive = some s') :
    s'.Exchanging stream := by
  simp only [step] at hstep
  split at hstep
  · rename_i item hphase hlast
    have hpending : s.phase.pending = 1 := by
      rw [hphase]
      rfl
    have hlength := h.length_items hpending
    rw [h.getLast? hpending] at hlast
    have hserves := h.serves
    simp only [Serves, hphase] at hserves
    obtain ⟨it, hit, hbuffer⟩ := hserves
    rw [hlast] at hit
    cases hit
    split at hstep
    · rename_i response hmessage
      cases hstep
      rw [show s.items.length - 1 = s.answers.length by omega]
      have hanswers : item.Answers response := by
        rw [hmessage] at hbuffer
        exact hbuffer.symm
      -- nobody waits for the channel any more before its message is taken
      have hwriting :
          ({ s with phase := .writing response } : TcpConnection).Exchanging stream := by
        refine h.move (by simp [hphase]) (fun rest hat => ?_) (by rw [hphase]; rfl)
          ⟨item, hlast, hanswers⟩
        rw [hphase] at hat
        exact hat
      exact hwriting.update hlast rfl (fun hwaiting => by cases hwaiting)
        fun _ hanswers => hanswers
    · cases hstep
      exact h.giveUp hphase rfl rfl
    · cases hstep
  · cases hstep

theorem Exchanging.receiveTimeout (h : s.Exchanging stream)
    (hstep : s.step .receiveTimeout = some s') : s'.Exchanging stream := by
  simp only [step] at hstep
  split at hstep
  · rename_i hphase _
    split_ifs at hstep
    cases hstep
    exact h.giveUp hphase rfl rfl
  · cases hstep

theorem Exchanging.receiveDisconnected (h : s.Exchanging stream)
    (hstep : s.step .receiveDisconnected = some s') : s'.Exchanging stream := by
  simp only [step] at hstep
  split at hstep
  · rename_i hphase _
    split_ifs at hstep
    cases hstep
    exact h.giveUp hphase rfl rfl
  · cases hstep

theorem Exchanging.cut (h : s.Exchanging stream) {response : Packet}
    (hphase : s.phase = .writing response) (hshort : response.length ≤ tcpFraming.limit)
    {reason : Closing} (hexhausted : reason.exhausted = false)
    (hunanswered : reason.unanswered = true) (hcuts : reason.cutsResponse = true) {n : ℕ}
    (hn : n < (tcpFraming.frame response).length) :
    ({ s with
        written := s.written ++ (tcpFraming.frame response).take n
        phase := .closed reason } : TcpConnection).Exchanging stream := by
  have hwritten := h.wrote.of_open (by simp [hphase])
  have hcount := h.count
  obtain ⟨rest, hstream, -⟩ := h.stream
  refine ⟨h.queries, ⟨rest, hstream, fun hreason => ?_⟩, ?_, h.answered, trivial,
    ⟨_, congrArg (· ++ _) hwritten, .inr ⟨⟨reason, rfl, hcuts⟩,
      Framing.messages_take_frame hshort hn⟩⟩, h.short⟩
  · rw [hexhausted] at hreason
    cases hreason
  · rw [hphase] at hcount
    simpa [TcpPhase.pending, hunanswered] using hcount

/-- **A response is written**: the first message of the query that was handed over
    last. -/
theorem Exchanging.write (h : s.Exchanging stream) {result : WriteResult}
    (hstep : s.step (.write result) = some s') : s'.Exchanging stream := by
  simp only [step] at hstep
  split at hstep
  · rename_i response hphase
    have hserves := h.serves
    simp only [Serves, hphase] at hserves
    obtain ⟨item, hitem, hanswers⟩ := hserves
    obtain ⟨rest, hstream, hat⟩ := h.stream
    have hcount := h.count
    rw [hphase] at hat hcount
    split_ifs at hstep with hlong
    · cases hstep
      refine h.move (by simp [hphase]) (fun rest _ hreason => ?_) (by rw [hphase]; rfl) trivial
      cases hreason
    · have hshort : response.length ≤ tcpFraming.limit := Nat.le_of_not_lt hlong
      unfold writeResponse at hstep
      split at hstep
      · cases hstep
        refine ⟨h.queries, ⟨rest, hstream, hat⟩, ?_, ?_, trivial, ⟨[], ?_, .inl rfl⟩, ?_⟩
        · rw [List.length_append]
          exact hcount
        · intro i a ha
          rw [List.getElem?_append] at ha
          split_ifs at ha with hlt
          · exact h.answered i a ha
          · obtain ⟨hlt', ha⟩ := List.getElem?_eq_some_iff.1 ha
            rw [List.length_singleton] at hlt'
            obtain rfl : i = s.answers.length := by omega
            simp only [Nat.sub_self, List.getElem_cons_zero] at ha
            exact ⟨item, hitem, ha ▸ hanswers⟩
        · have hwritten := h.wrote.of_open (by simp [hphase])
          dsimp only
          rw [hwritten, List.flatMap_append, List.append_nil, List.flatMap_cons,
            List.flatMap_nil, List.append_nil]
        · intro a ha
          rcases List.mem_append.1 ha with ha | ha
          · exact h.short a ha
          · rw [List.mem_singleton.1 ha]
            exact hshort
      · split_ifs at hstep with hn
        cases hstep
        exact h.cut hphase hshort rfl rfl rfl hn
      · split_ifs at hstep with hn
        cases hstep
        exact h.cut hphase hshort rfl rfl rfl hn
  · cases hstep

end

/-! ## Every run -/

variable {stream : List UInt8} {s : TcpConnection}

theorem exchanging_init (stream : List UInt8) :
    (tcpConnection stream).init.Exchanging stream where
  queries _ h := by cases h
  stream := ⟨stream, rfl, rfl⟩
  count := rfl
  answered _ _ h := by cases h
  serves := trivial
  wrote := ⟨[], rfl, .inl rfl⟩
  short _ h := by cases h

theorem exchanging_of_reachable (h : (tcpConnection stream).Reachable s) :
    s.Exchanging stream := by
  refine h.inv (exchanging_init stream) fun s event s' hs hstep => ?_
  cases event with
  | loop stop => exact hs.loop hstep
  | read event => exact hs.read hstep
  | dispatch queues => exact hs.dispatch hstep
  | send index message => exact hs.send hstep
  | dropSender index => exact hs.dropSender hstep
  | receive => exact hs.receive hstep
  | receiveTimeout => exact hs.receiveTimeout hstep
  | receiveDisconnected => exact hs.receiveDisconnected hstep
  | write result => exact hs.write hstep

end TcpConnection

end DnsBlackhole.Listener
