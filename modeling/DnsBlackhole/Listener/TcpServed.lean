/-
  Every query of a client over TCP is served.

  `undisturbed cut reply s` is the next event of a connection that nothing disturbs:
  the socket has bytes until the stream ends, and returns as many of them as `cut`
  says; the query that was handed over is answered with `reply`.  Every such event
  can happen and brings the connection nearer to its end (`undisturbed_step`).

  **Main result** `tcpConnection_exchanges`: however the stream is cut into reads and
  whatever happens, the queries are handed over in turn, each response that is
  written is the first message on the channel of its query, and what was written can
  be taken apart into the responses; if nothing disturbs the connection, all queries
  of the stream are answered.
-/
import DnsBlackhole.Listener.TcpExchanges

namespace DnsBlackhole.Listener
open Lib Protocol

namespace TcpConnection

/-! ## A connection that nothing disturbs -/

/-- The next read, of at least one byte. -/
def nextRead (cut : ℕ → ℕ) (s : TcpConnection) (missing : ℕ) : ReadEvent :=
  { result := if s.incoming = [] then .eof
      else .read (min (cut s.incoming.length + 1) (min missing s.incoming.length)) }

def undisturbed (cut : ℕ → ℕ) (reply : Packet → Packet) (s : TcpConnection) : TcpEvent :=
  match s.phase with
  | .accepting => .loop false
  | .readingLength got => .read (s.nextRead cut (2 - got.length))
  | .readingQuery size got => .read (s.nextRead cut (size - got.length))
  | .dispatching _ => .dispatch [.free]
  | .waiting =>
    match s.items.getLast? with
    | some item =>
      if item.sent = [] then .send (s.items.length - 1) (some (reply item.query)) else .receive
    | none => .receive
  | .writing _ => .write .ok
  | .closed _ => .loop false

/-- The items are answered with `reply`, and the connection is only closed at the end of
    the stream. -/
structure Undisturbed (reply : Packet → Packet) (s : TcpConnection) : Prop where
  items : ∀ item ∈ s.items, item.senderAlive = true ∧
    (item.sent = [] ∨ item.sent = [some (reply item.query)])
  closed : ∀ reason, s.phase = .closed reason → reason.exhausted = true

/-- How far the connection is from its end, between two reads. -/
def rank (s : TcpConnection) : ℕ :=
  match s.phase with
  | .dispatching _ => 6
  | .waiting => if s.items.getLast?.all fun item => item.sent.isEmpty then 5 else 4
  | .writing _ => 3
  | .accepting => 2
  | .readingLength _ => 1
  | .readingQuery _ _ => 1
  | .closed _ => 0

def distance (s : TcpConnection) : ℕ := 8 * s.incoming.length + s.rank

theorem rank_le (s : TcpConnection) : s.rank ≤ 6 := by
  unfold rank
  split
  · exact Nat.le_refl _
  · split_ifs <;> omega
  all_goals omega

section
variable {stream : List UInt8} {s : TcpConnection} {cut : ℕ → ℕ} {reply : Packet → Packet}

theorem readIteration_nextRead (clean : Bool) {size : ℕ} {got : List UInt8} (cut : ℕ → ℕ)
    (s : TcpConnection) (hgot : got.length < size) :
    (∃ reason, reason.exhausted = true ∧
      readIteration clean size got s.incoming (s.nextRead cut (size - got.length)) =
        some (.inl reason)) ∨
    ∃ got' incoming', incoming'.length < s.incoming.length ∧
      readIteration clean size got s.incoming (s.nextRead cut (size - got.length)) =
        some (.inr (got', incoming')) := by
  by_cases hnil : s.incoming = []
  · left
    refine ⟨if clean && got.isEmpty then .clientClosed else .cutOff, ?_, ?_⟩
    · split_ifs <;> rfl
    · simp [readIteration, nextRead, hnil]
  · right
    have hpos := List.length_pos_iff.2 hnil
    rw [nextRead, if_neg hnil]
    generalize hn : min (cut s.incoming.length + 1)
      (min (size - got.length) s.incoming.length) = n
    refine ⟨got ++ s.incoming.take n, s.incoming.drop n, ?_, ?_⟩
    · rw [List.length_drop]
      omega
    · simp only [readIteration, Bool.false_eq_true, Bool.not_true, if_false]
      rw [if_pos (by omega)]

theorem Undisturbed.move (h : s.Undisturbed reply) {incoming : List UInt8} {phase : TcpPhase}
    (hclosed : ∀ reason, phase = .closed reason → reason.exhausted = true) :
    ({ s with incoming, phase } : TcpConnection).Undisturbed reply :=
  ⟨h.items, hclosed⟩

theorem closed_afterLength {got : List UInt8} : ∀ reason,
    TcpPhase.afterLength got = .closed reason → reason.exhausted = true := by
  intro reason h
  unfold TcpPhase.afterLength at h
  split_ifs at h
  cases h
  rfl

theorem not_closed_afterQuery (size : ℕ) (got : List UInt8) : ∀ reason,
    TcpPhase.afterQuery size got = .closed reason → reason.exhausted = true := by
  intro reason h
  unfold TcpPhase.afterQuery at h
  split_ifs at h

theorem undisturbed_read (cut : ℕ → ℕ) (clean : Bool) (hu : s.Undisturbed reply) {size : ℕ}
    {got : List UInt8} (hgot : got.length < size) (hrank : s.rank = 1)
    {next : List UInt8 → TcpPhase}
    (hnext : ∀ got reason, next got = .closed reason → reason.exhausted = true) :
    ∃ s', (readIteration clean size got s.incoming
        (s.nextRead cut (size - got.length))).map (s.afterRead next) = some s' ∧
      s'.Undisturbed reply ∧ s'.distance < s.distance := by
  rcases readIteration_nextRead clean cut s hgot with
    ⟨reason, hreason, hread⟩ | ⟨got', incoming', hlt, hread⟩
  · rw [hread]
    refine ⟨_, rfl, hu.move fun r hr => ?_, ?_⟩
    · cases hr
      exact hreason
    · show 8 * s.incoming.length + 0 < 8 * s.incoming.length + s.rank
      omega
  · rw [hread]
    refine ⟨_, rfl, hu.move (hnext got'), ?_⟩
    have hle := rank_le (s.afterRead next (.inr (got', incoming')))
    show 8 * incoming'.length + (s.afterRead next (.inr (got', incoming'))).rank <
      8 * s.incoming.length + s.rank
    omega

/-- **The next event** of a connection that nothing disturbs can happen, and brings it
    nearer to its end. -/
theorem undisturbed_step (cut : ℕ → ℕ) (h : s.Exchanging stream) (hu : s.Undisturbed reply)
    (hreply : ∀ query, (reply query).length ≤ 65535)
    (hopen : ∀ reason, s.phase ≠ .closed reason) :
    ∃ s', s.step (s.undisturbed cut reply) = some s' ∧ s'.Undisturbed reply ∧
      s'.distance < s.distance := by
  have hserves := h.serves
  obtain ⟨rest, -, hat⟩ := h.stream
  cases hphase : s.phase with
  | accepting =>
    refine ⟨{ s with phase := .readingLength [] }, ?_, hu.move (fun _ hr => by cases hr), ?_⟩
    · simp [undisturbed, step, hphase]
    · simp [distance, rank, hphase]
  | readingLength got =>
    rw [hphase] at hat
    obtain ⟨s', hs', hs⟩ := undisturbed_read cut true hu hat.2
      (by rw [rank, hphase]) fun got => closed_afterLength
    exact ⟨s', by simpa [undisturbed, step, hphase] using hs', hs⟩
  | readingQuery size got =>
    rw [hphase] at hat
    obtain ⟨s', hs', hs⟩ := undisturbed_read cut false hu hat.2.1
      (by rw [rank, hphase]) fun got => not_closed_afterQuery size got
    exact ⟨s', by simpa [undisturbed, step, hphase] using hs', hs⟩
  | dispatching query =>
    have hdispatch : dispatchDnsWork [.free] s.nextWorker = .ok 1 := by
      simp [dispatchDnsWork, Nat.mod_one]
    refine ⟨{ s with nextWorker := 1, items := s.items ++ [{ query }], phase := .waiting },
      ?_, ⟨?_, fun _ hr => by cases hr⟩, ?_⟩
    · simp [undisturbed, step, hphase, hdispatch]
    · intro item hitem
      rcases List.mem_append.1 hitem with hitem | hitem
      · exact hu.items item hitem
      · rw [List.mem_singleton.1 hitem]
        exact ⟨rfl, .inl rfl⟩
    · simp [distance, rank, hphase]
  | waiting =>
    simp only [Serves, hphase] at hserves
    obtain ⟨item, hitem, hbuffer⟩ := hserves
    have hpending : s.phase.pending = 1 := by
      rw [hphase]
      rfl
    have hlast := (h.getLast? hpending).trans hitem
    have hindex : s.items.length - 1 = s.answers.length := by
      rw [h.length_items hpending, Nat.add_sub_cancel]
    have hlt := (List.getElem?_eq_some_iff.1 hitem).1
    obtain ⟨halive, hsent⟩ := hu.items item (List.mem_of_getElem? hitem)
    have hset : ∀ {item' : TcpItem}, item'.senderAlive = true →
        (item'.sent = [] ∨ item'.sent = [some (reply item'.query)]) →
        ∀ it ∈ s.items.set s.answers.length item', it.senderAlive = true ∧
          (it.sent = [] ∨ it.sent = [some (reply it.query)]) := by
      intro item' halive' hsent' it hit
      rcases List.mem_or_eq_of_mem_set hit with hit | rfl
      · exact hu.items it hit
      · exact ⟨halive', hsent'⟩
    rcases hsent with hsent | hsent
    · -- the worker sends its response
      obtain ⟨item', hitem'⟩ : ∃ item', item' = item.send (s.holdsReceiver s.answers.length)
        (some (reply item.query)) := ⟨_, rfl⟩
      have hsent' : item'.sent = [some (reply item.query)] := by
        rw [hitem', TcpItem.send, hsent]
        rfl
      have hquery' : item'.query = item.query := by rw [hitem', TcpItem.send]
      have halive' : item'.senderAlive = true := by rw [hitem', TcpItem.send, halive]
      have hlast' : (s.items.set s.answers.length item').getLast? = some item' := by
        rw [List.getLast?_eq_getElem?, List.length_set, hindex, List.getElem?_set_self hlt]
      refine ⟨{ s with items := s.items.set s.answers.length item' }, ?_,
        ⟨hset halive' (.inr (by rw [hsent', hquery'])), ?_⟩, ?_⟩
      · simp [undisturbed, step, hphase, hlast, hsent, hindex, hitem, halive, hitem']
      · intro reason hr
        rw [hphase] at hr
        cases hr
      · simp [distance, rank, hphase, hlast, hlast', hsent, hsent']
    · -- the connection receives it
      have hmessage : item.buffer = some (some (reply item.query)) := by
        rw [hbuffer, hsent]
        rfl
      refine ⟨{ s with
          items := s.items.set s.answers.length { item with buffer := none }
          phase := .writing (reply item.query) },
        ?_, ⟨hset halive (.inr hsent), fun _ hr => by cases hr⟩, ?_⟩
      · simp [undisturbed, step, hphase, hlast, hsent, hindex, hmessage]
      · simp [distance, rank, hphase, hlast, hsent]
  | writing response =>
    simp only [Serves, hphase] at hserves
    obtain ⟨item, hitem, hanswers⟩ := hserves
    have hshort : ¬ response.length > 65535 := by
      obtain ⟨-, hnil | hsent⟩ := hu.items item (List.mem_of_getElem? hitem)
      · rw [TcpItem.Answers, hnil] at hanswers
        cases hanswers
      · rw [TcpItem.Answers, hsent] at hanswers
        cases hanswers
        exact Nat.not_lt_of_le (hreply _)
    refine ⟨{ s with
        written := s.written ++ tcpFraming.frame response
        answers := s.answers ++ [response]
        phase := .accepting }, ?_, ⟨hu.items, fun _ hr => by cases hr⟩, ?_⟩
    · simp only [undisturbed, step, hphase, if_neg hshort, writeResponse]
    · simp [distance, rank, hphase]
  | closed reason => exact absurd hphase (hopen reason)

theorem exists_undisturbed_run (h : (tcpConnection stream).Reachable s)
    (hu : s.Undisturbed reply) (cut : ℕ → ℕ) (hreply : ∀ query, (reply query).length ≤ 65535) :
    ∃ es t reason, (tcpConnection stream).run s es = some t ∧
      (tcpConnection stream).Guarded (fun s event => event = s.undisturbed cut reply) s es ∧
      t.Undisturbed reply ∧ t.phase = .closed reason := by
  induction hn : s.distance using Nat.strongRecOn generalizing s with
  | ind n ih =>
    by_cases hclosed : ∃ reason, s.phase = .closed reason
    · obtain ⟨reason, hreason⟩ := hclosed
      exact ⟨[], s, reason, rfl, trivial, hu, hreason⟩
    · rw [not_exists] at hclosed
      obtain ⟨s', hstep, hu', hlt⟩ :=
        undisturbed_step cut (exchanging_of_reachable h) hu hreply hclosed
      obtain ⟨es, t, reason, hrun, hguarded, ht⟩ := ih _ (hn ▸ hlt) (h.step hstep) hu' rfl
      exact ⟨_ :: es, t, reason, Machine.run_cons_eq_some _ |>.2 ⟨s', hstep, hrun⟩,
        ⟨rfl, s', hstep, hguarded⟩, ht⟩

theorem Exchanging.of_exhausted (h : s.Exchanging stream) {reason : Closing}
    (hphase : s.phase = .closed reason) (hreason : reason.exhausted = true) :
    s.queries = clientQueries stream ∧ s.answers.length = s.queries.length := by
  obtain ⟨rest, hstream, hat⟩ := h.stream
  have hcount := h.count
  rw [hphase] at hat hcount
  have hpending : (TcpPhase.closed reason).pending = 0 := by
    cases reason <;> first | rfl | cases hreason
  rw [hpending] at hcount
  constructor
  · rw [hstream, clientQueries_frames_append h.queries, hat hreason, List.append_nil]
  · rw [TcpConnection.queries, List.length_map]
    exact hcount

theorem Undisturbed.answers_eq (hu : s.Undisturbed reply) (h : s.Exchanging stream)
    (hlength : s.answers.length = s.queries.length) : s.answers = s.queries.map reply := by
  refine List.ext_getElem? fun i => ?_
  cases hi : s.answers[i]? with
  | none =>
    rw [List.getElem?_eq_none_iff] at hi
    rw [eq_comm, List.getElem?_eq_none_iff, List.length_map, ← hlength]
    exact hi
  | some response =>
    obtain ⟨item, hitem, hanswers⟩ := h.answered i response hi
    have hreply : response = reply item.query := by
      obtain ⟨-, hnil | hsent⟩ := hu.items item (List.mem_of_getElem? hitem)
      · rw [TcpItem.Answers, hnil] at hanswers
        cases hanswers
      · rw [TcpItem.Answers, hsent] at hanswers
        cases hanswers
        rfl
    rw [TcpConnection.queries, List.getElem?_map, List.getElem?_map, hitem, hreply]
    rfl

end

end TcpConnection

open TcpConnection

/-- **A connection over TCP**: whatever happens and however the stream is cut into reads,
    the queries of the stream are handed over in turn, every response that is written is
    the first message on the channel of its query, and the bytes that are written can be
    taken apart into the responses; at the end of the stream all its queries were handed
    over and answered, at most the last one was not otherwise.  A connection that nothing
    disturbs comes to the end of the stream. -/
theorem tcpConnection_exchanges (stream : List UInt8) :
    (∀ s, (tcpConnection stream).Reachable s →
      s.queries <+: clientQueries stream ∧
      tcpFraming.messages s.written = s.answers ∧
      s.answers.flatMap tcpFraming.frame <+: s.written ∧
      (∀ (i : ℕ) (response : Packet), s.answers[i]? = some response →
        ∃ item : TcpItem, s.items[i]? = some item ∧ item.Answers response) ∧
      s.answers.length ≤ s.queries.length ∧ s.queries.length ≤ s.answers.length + 1 ∧
      ∀ reason, s.phase = .closed reason →
        (reason.exhausted → s.queries = clientQueries stream ∧
          s.answers.length = s.queries.length) ∧
        (reason.unanswered → s.queries.length = s.answers.length + 1)) ∧
    ∀ (cut : ℕ → ℕ) (reply : Packet → Packet), (∀ query, (reply query).length ≤ 65535) →
      ∃ es t reason, (tcpConnection stream).run (tcpConnection stream).init es = some t ∧
        (tcpConnection stream).Guarded (fun s event => event = s.undisturbed cut reply)
          (tcpConnection stream).init es ∧
        t.phase = .closed reason ∧ reason.exhausted ∧ t.queries = clientQueries stream ∧
        t.answers = t.queries.map reply := by
  constructor
  · intro s hreachable
    have h := exchanging_of_reachable hreachable
    obtain ⟨rest, hstream, -⟩ := h.stream
    obtain ⟨part, hwritten, hpart⟩ := h.wrote
    have hlength : s.queries.length = s.items.length := List.length_map _
    have hcount := h.count
    have hnone : tcpFraming.messages part = [] := by
      rcases hpart with rfl | ⟨-, hnone⟩
      · rfl
      · exact hnone
    refine ⟨?_, ?_, ⟨part, hwritten.symm⟩, h.answered, by omega, ?_, fun reason hphase =>
      ⟨h.of_exhausted hphase, fun hreason => ?_⟩⟩
    · rw [hstream, clientQueries_frames_append h.queries]
      exact List.prefix_append _ _
    · rw [hwritten, Framing.messages_frames_append h.short, hnone, List.append_nil]
    · have hpending : s.phase.pending ≤ 1 := by
        unfold TcpPhase.pending
        split
        · exact Nat.le_refl _
        · exact Nat.le_refl _
        · split_ifs <;> omega
        · exact Nat.zero_le _
      omega
    · rw [hphase, TcpPhase.pending, if_pos hreason] at hcount
      omega
  · intro cut reply hreply
    have hu : (tcpConnection stream).init.Undisturbed reply :=
      ⟨fun _ h => absurd h List.not_mem_nil, fun _ h => by cases h⟩
    obtain ⟨es, t, reason, hrun, hguarded, ht, hphase⟩ :=
      exists_undisturbed_run .init hu cut hreply
    have h := exchanging_of_reachable ⟨es, hrun⟩
    have hreason := ht.closed reason hphase
    obtain ⟨hqueries, hlength⟩ := h.of_exhausted hphase hreason
    exact ⟨es, t, reason, hrun, hguarded, hphase, hreason, hqueries, ht.answers_eq h hlength⟩

/-- Two queries in five reads, and the response to the first one sent twice. -/
example : ((tcpConnection [0, 1, 7, 0, 2, 8, 9]).run (tcpConnection [0, 1, 7, 0, 2, 8, 9]).init
    [.loop false, .read { result := .read 1 }, .read { result := .wouldBlock },
      .read { result := .read 1 }, .read { result := .read 1 }, .dispatch [.full, .free],
      .send 0 (some [1, 1]), .receive, .send 0 (some [2]), .write .ok, .loop false,
      .read { result := .read 2 }, .send 0 none, .read { result := .read 2 },
      .dispatch [.free, .free], .receiveTimeout, .send 1 (some [3])]).map
    (fun s => (s.queries, s.answers, s.phase)) =
      some ([[7], [8, 9]], [[1, 1]], .closed .responseTimeout) := by decide

end DnsBlackhole.Listener
