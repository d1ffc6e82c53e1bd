/-
  Messages in a stream, each behind its length.

  A `Framing` writes a length into a header of a fixed size.  `messages` takes a
  stream apart: the messages of the complete frames it begins with.

  * `messages_frames_append`: the messages of frames, and those of what follows;
  * `messages_take_frame`: a frame that is cut off has none.
-/
import Mathlib.Data.List.Basic

namespace DnsBlackhole.Lib

universe u

/-- A header of a fixed size, for lengths up to a limit. -/
structure Framing (β : Type u) where
  headerLen : ℕ
  limit : ℕ
  encode : ℕ → List β
  decode : List β → ℕ
  headerLen_pos : 0 < headerLen
  length_encode : ∀ n, (encode n).length = headerLen
  decode_encode : ∀ n ≤ limit, decode (encode n) = n

namespace Framing
variable {β : Type u} (F : Framing β)

/-- A message behind its length. -/
def frame (message : List β) : List β := F.encode message.length ++ message

/-- The message of the frame that a stream begins with, and what follows it. -/
def next (stream : List β) : Option (List β × List β) :=
  let size := F.decode (stream.take F.headerLen)
  if F.headerLen + size ≤ stream.length then
    some ((stream.drop F.headerLen).take size, stream.drop (F.headerLen + size))
  else none

def messagesFrom : ℕ → List β → List (List β)
  | 0, _ => []
  | n + 1, stream =>
    match F.next stream with
    | none => []
    | some (message, rest) => message :: messagesFrom n rest

/-- The messages of a stream, up to a frame that is not complete. -/
def messages (stream : List β) : List (List β) := F.messagesFrom stream.length stream

variable {F} {stream rest message : List β} {n m : ℕ}

theorem length_frame (message : List β) :
    (F.frame message).length = F.headerLen + message.length := by
  rw [frame, List.length_append, F.length_encode]

theorem take_header (n : ℕ) (rest : List β) : (F.encode n ++ rest).take F.headerLen = F.encode n :=
  List.take_left' (F.length_encode n)

theorem next_frame_append (h : message.length ≤ F.limit) (rest : List β) :
    F.next (F.frame message ++ rest) = some (message, rest) := by
  have hsize : F.decode ((F.frame message ++ rest).take F.headerLen) = message.length := by
    rw [frame, List.append_assoc, take_header, F.decode_encode _ h]
  rw [next, hsize, if_pos (by rw [List.length_append, length_frame]; omega)]
  congr 2
  · rw [frame, List.append_assoc, List.drop_left' (F.length_encode _), List.take_left' rfl]
  · exact List.drop_left' (length_frame message)

theorem length_lt_of_next (h : F.next stream = some (message, rest)) :
    rest.length < stream.length := by
  unfold next at h
  dsimp only at h
  split_ifs at h with hle
  cases h
  have := F.headerLen_pos
  rw [List.length_drop]
  omega

theorem next_of_lt (h : stream.length < F.headerLen) : F.next stream = none :=
  if_neg (by omega)

theorem messagesFrom_congr : ∀ {n m : ℕ} {stream : List β}, stream.length ≤ n →
    stream.length ≤ m → F.messagesFrom n stream = F.messagesFrom m stream
  | 0, 0, _, _, _ => rfl
  | 0, m + 1, stream, hn, _ => by
    rw [messagesFrom, messagesFrom, next_of_lt (by have := F.headerLen_pos; omega)]
  | n + 1, 0, stream, _, hm => by
    rw [messagesFrom, messagesFrom, next_of_lt (by have := F.headerLen_pos; omega)]
  | n + 1, m + 1, stream, hn, hm => by
    rw [messagesFrom, messagesFrom]
    cases hnext : F.next stream with
    | none => rfl
    | some r =>
      have := length_lt_of_next hnext
      exact congrArg (r.1 :: ·) (messagesFrom_congr (by omega) (by omega))

theorem messages_of_none (h : F.next stream = none) : F.messages stream = [] := by
  unfold messages
  cases hlen : stream.length with
  | zero => rfl
  | succ n => rw [messagesFrom, h]

theorem messages_frame_append (h : message.length ≤ F.limit) (rest : List β) :
    F.messages (F.frame message ++ rest) = message :: F.messages rest := by
  have hnext := next_frame_append h rest
  have hlt := length_lt_of_next hnext
  obtain ⟨k, hk⟩ := Nat.exists_eq_add_of_lt hlt
  rw [messages, hk, messagesFrom, hnext]
  exact congrArg (message :: ·) (messagesFrom_congr (Nat.le_add_right _ _) (Nat.le_refl _))

/-- **The messages of frames**, and those of what follows. -/
theorem messages_frames_append {ms : List (List β)} (h : ∀ m ∈ ms, m.length ≤ F.limit)
    (rest : List β) : F.messages (ms.flatMap F.frame ++ rest) = ms ++ F.messages rest := by
  induction ms with
  | nil => rfl
  | cons m ms ih =>
    obtain ⟨hm, hms⟩ := List.forall_mem_cons.1 h
    rw [List.flatMap_cons, List.append_assoc, messages_frame_append hm, ih hms, List.cons_append]

theorem messages_of_lt (h : stream.length < F.headerLen) : F.messages stream = [] :=
  messages_of_none (next_of_lt h)

theorem messages_encode_append (hn : n ≤ F.limit) (h : rest.length < n) :
    F.messages (F.encode n ++ rest) = [] := by
  refine messages_of_none (if_neg ?_)
  rw [take_header, F.decode_encode n hn, List.length_append, F.length_encode]
  omega

theorem messages_take_frame (h : message.length ≤ F.limit) {k : ℕ}
    (hk : k < (F.frame message).length) : F.messages ((F.frame message).take k) = [] := by
  rw [length_frame] at hk
  by_cases hheader : k < F.headerLen
  · exact messages_of_lt (by rw [List.length_take]; omega)
  · obtain ⟨j, rfl⟩ := Nat.exists_eq_add_of_le (Nat.le_of_not_lt hheader)
    rw [frame, List.take_append, F.length_encode, Nat.add_sub_cancel_left,
      List.take_of_length_le (by rw [F.length_encode]; omega)]
    exact messages_encode_append h (by rw [List.length_take]; omega)

end Framing

end DnsBlackhole.Lib
