/-
  Compression pointers (`decode_dns_name` and `skip_dns_name` of
  `dns/protocol.rs`).

  What stands at an offset of a name is the root, a label or a pointer
  (`namePart`), and only the offset decides where the name goes on
  (`nextPart`).  `NameWalk p o ls` is the walk from `o` without a limit: it ends
  at a zero byte, and its labels are `ls`.  `decode_dns_name` makes at most
  `len + 1` iterations of it.

  **Main result** `decodeDnsName_budget`: that is enough.

  * `capReached_iff`: the limit is reached exactly by the walks that are cyclic;
  * `NameWalk.decode`: a walk that ends is decoded, with its labels, in at most
    `len` iterations;
  * `skipDnsName_of_decode`: a name that is decoded is skipped to the same offset.
-/
import DnsBlackhole.Lib.Orbit
import DnsBlackhole.Protocol.Security

namespace DnsBlackhole.Protocol
open Lib

/-! ## Labels and pointers -/

/-- What stands at an offset of a name. -/
inductive NamePart where
  | root
  | label (bytes : List UInt8)
  | pointer (target : ℕ)

def namePart (p : Packet) (o : ℕ) : Option NamePart :=
  p[o]?.bind fun length =>
    if length = 0 then some .root
    else if length &&& 0xC0 = 0xC0 then
      p[o + 1]?.map fun next => .pointer ((length.toNat &&& 0x3F) <<< 8 ||| next.toNat)
    else if length &&& 0xC0 ≠ 0 then none
    else (slice? p (o + 1) (o + 1 + length.toNat)).map .label

/-- Where a name goes on behind its part at `o`. -/
def NamePart.next (o : ℕ) : NamePart → Option ℕ
  | root => none
  | label bytes => some (o + 1 + bytes.length)
  | pointer target => some target

def nextPart (p : Packet) (o : ℕ) : Option ℕ := (namePart p o).bind (NamePart.next o)

/-- The walk over labels and pointers from an offset, with the labels on its way:
    it ends at a zero byte. -/
inductive NameWalk (p : Packet) : ℕ → List Text → Prop where
  | root {o : ℕ} : namePart p o = some .root → NameWalk p o []
  | label {o : ℕ} {bytes : List UInt8} {ls : List Text} : namePart p o = some (.label bytes) →
      NameWalk p (o + 1 + bytes.length) ls → NameWalk p o (fromUtf8Lossy bytes :: ls)
  | pointer {o target : ℕ} {ls : List Text} : namePart p o = some (.pointer target) →
      NameWalk p target ls → NameWalk p o ls

section
variable {p : Packet} {o : ℕ}

theorem namePart_eq_root : namePart p o = some .root ↔ p[o]? = some 0 := by
  unfold namePart
  cases p[o]? with
  | none => simp
  | some length =>
    simp only [Option.bind_some, Option.some.injEq]
    split_ifs with h₀ h₁ h₂
    · simp [h₀]
    · simp [h₀]
    · simp [h₀]
    · simp [h₀]

theorem lt_length_of_namePart {part : NamePart} (h : namePart p o = some part) :
    o < p.length := by
  obtain ⟨length, hget, -⟩ := Option.bind_eq_some_iff.1 h
  exact (List.getElem?_eq_some_iff.1 hget).1

theorem length_of_slice {a b : ℕ} {bytes : List UInt8} (h : slice? p a b = some bytes) :
    bytes.length = b - a := by
  unfold slice? at h
  split_ifs at h with hle
  cases h
  rw [List.length_take, List.length_drop]
  omega

theorem decodeBody_eq (p : Packet) (s : NameState) :
    decodeBody p s = match namePart p s.cursor with
      | none => .inr none
      | some .root => .inr (some (Text.join s.labels ['.'], s.nextOffset.getD (s.cursor + 1)))
      | some (.label bytes) => .inl { s with
          cursor := s.cursor + 1 + bytes.length
          labels := s.labels ++ [fromUtf8Lossy bytes] }
      | some (.pointer target) => .inl { s with
          cursor := target
          nextOffset := s.nextOffset.or (some (s.cursor + 2)) } := by
  unfold decodeBody namePart
  cases p[s.cursor]? with
  | none => rfl
  | some length =>
    simp only [Option.bind_some]
    split_ifs with h₀ h₁ h₂
    · rfl
    · cases p[s.cursor + 1]? <;> rfl
    · rfl
    · cases hslice : slice? p (s.cursor + 1) (s.cursor + 1 + length.toNat) with
      | none => rfl
      | some bytes =>
        have hlen := length_of_slice hslice
        rw [Nat.add_sub_cancel_left] at hlen
        simp only [Option.map_some, hlen]

theorem skipBody_eq (p : Packet) (o : ℕ) :
    skipBody p o = match namePart p o with
      | none => .inr none
      | some .root => .inr (some (o + 1))
      | some (.label bytes) => .inl (o + 1 + bytes.length)
      | some (.pointer _) => .inr (some (o + 2)) := by
  unfold skipBody namePart
  cases p[o]? with
  | none => rfl
  | some length =>
    simp only [Option.bind_some]
    split_ifs with h₀ h₁ h₂ h₃
    · rfl
    · cases p[o + 1]? <;> rfl
    · rfl
    · rw [slice?, if_neg (by omega)]
      rfl
    · rw [slice?, if_pos ⟨by omega, by omega⟩]
      simp only [Option.map_some, List.length_take, List.length_drop]
      congr 1
      omega

end

/-! ## The iterations of `decode_dns_name` -/

/-- The state behind an iteration that does not return. -/
def decodeStep (p : Packet) (s : NameState) : Option NameState := (decodeBody p s).getLeft?

def startState (o : ℕ) : NameState := ⟨o, none, []⟩

/-- None of the `len + 1` iterations returns. -/
def CapReached (p : Packet) (o : ℕ) : Prop :=
  (after (decodeStep p) (p.length + 1) (startState o)).isSome

section
variable {p : Packet} {s : NameState} {o n : ℕ}

theorem decodeStep_cursor (p : Packet) (s : NameState) :
    (decodeStep p s).map NameState.cursor = nextPart p s.cursor := by
  rw [decodeStep, decodeBody_eq, nextPart]
  cases namePart p s.cursor with
  | none => rfl
  | some part => cases part <;> rfl

theorem after_decodeStep_cursor (p : Packet) (n : ℕ) (s : NameState) :
    (after (decodeStep p) n s).map NameState.cursor = after (nextPart p) n s.cursor :=
  after_map (decodeStep_cursor p) n s

theorem mem_range_of_nextPart {b c : ℕ} (h : nextPart p b = some c) :
    b ∈ Finset.range p.length := by
  obtain ⟨part, hpart, -⟩ := Option.bind_eq_some_iff.1 h
  exact Finset.mem_range.2 (lt_length_of_namePart hpart)

/-- **The limit is reached** exactly by the walks that are cyclic. -/
theorem capReached_iff (p : Packet) (o : ℕ) : CapReached p o ↔ Cyclic (nextPart p) o := by
  have h := cyclic_iff (a := o) (Finset.range p.length) fun b c => mem_range_of_nextPart
  rw [Finset.card_range] at h
  rw [h, CapReached, ← Option.isSome_map (f := NameState.cursor), after_decodeStep_cursor]
  rfl

theorem decodeIterations_eq {s' : NameState} (hn : after (decodeStep p) n s = some s')
    {r : Option (Text × ℕ)} (hr : decodeBody p s' = .inr r) (m : ℕ) :
    decodeIterations p (n + m + 1) s = r := by
  induction n generalizing s with
  | zero =>
    cases hn
    rw [decodeIterations, hr]
  | succ n ih =>
    rw [after_succ, Option.bind_eq_some_iff] at hn
    obtain ⟨s₁, hs₁, hn⟩ := hn
    rw [decodeStep, Sum.getLeft?_eq_some_iff] at hs₁
    rw [show n + 1 + m + 1 = n + m + 1 + 1 by omega, decodeIterations, hs₁]
    exact ih hn

theorem decodeIterations_of_isSome (h : (after (decodeStep p) n s).isSome) :
    decodeIterations p n s = none := by
  induction n generalizing s with
  | zero => rfl
  | succ n ih =>
    rw [after_succ] at h
    cases hs : decodeStep p s with
    | none =>
      rw [hs] at h
      cases h
    | some s₁ =>
      rw [hs, Option.bind_some] at h
      rw [decodeStep, Sum.getLeft?_eq_some_iff] at hs
      rw [decodeIterations, hs]
      exact ih h

/-! ## Walks that end -/

theorem NameWalk.after {ls : List Text} (h : NameWalk p o ls) (next : Option ℕ)
    (labels : List Text) : ∃ n s, Lib.after (decodeStep p) n ⟨o, next, labels⟩ = some s ∧
      namePart p s.cursor = some .root ∧ s.labels = labels ++ ls := by
  induction h generalizing next labels with
  | @root o hpart => exact ⟨0, _, rfl, hpart, by rw [List.append_nil]⟩
  | @label o bytes ls hpart _ ih =>
    obtain ⟨n, s, hs, hroot, hlabels⟩ := ih next (labels ++ [fromUtf8Lossy bytes])
    refine ⟨n + 1, s, ?_, hroot, by rw [hlabels, List.append_assoc]; rfl⟩
    rw [after_succ, decodeStep, decodeBody_eq, hpart]
    exact hs
  | @pointer o target ls hpart _ ih =>
    obtain ⟨n, s, hs, hroot, hlabels⟩ := ih (next.or (some (o + 2))) labels
    refine ⟨n + 1, s, ?_, hroot, hlabels⟩
    rw [after_succ, decodeStep, decodeBody_eq, hpart]
    exact hs

theorem lt_length_of_root {s₀ : NameState} (hs : Lib.after (decodeStep p) n s₀ = some s)
    (hroot : namePart p s.cursor = some .root) : n < p.length := by
  have hcursor := after_decodeStep_cursor p n s₀
  rw [hs, Option.map_some] at hcursor
  have hend : nextPart p s.cursor = none := by
    rw [nextPart, hroot]
    rfl
  have := lt_card_of_end (Finset.range p.length) (fun b c => mem_range_of_nextPart)
    (Finset.mem_range.2 (lt_length_of_namePart hroot)) hcursor.symm hend
  rwa [Finset.card_range] at this

/-- **A walk that ends** is decoded, with its labels. -/
theorem NameWalk.decode {ls : List Text} (h : NameWalk p o ls) : ∃ n s, n < p.length ∧
    Lib.after (decodeStep p) n (startState o) = some s ∧ p[s.cursor]? = some 0 ∧ s.labels = ls ∧
    decodeDnsName p o = some (Text.join ls ['.'], s.nextOffset.getD (s.cursor + 1)) := by
  obtain ⟨n, s, hs, hroot, hlabels⟩ := h.after none []
  have hn := lt_length_of_root hs hroot
  refine ⟨n, s, hn, hs, namePart_eq_root.1 hroot, hlabels, ?_⟩
  have hbody : decodeBody p s = .inr (some (Text.join ls ['.'],
      s.nextOffset.getD (s.cursor + 1))) := by
    rw [decodeBody_eq, hroot, hlabels]
    rfl
  rw [decodeDnsName, show p.length + 1 = n + (p.length - n) + 1 by omega]
  exact decodeIterations_eq hs hbody _

/-! ## The offset behind a name -/

theorem nextOffset_of_decode {e e' : ℕ} {name : Text} (hs : s.nextOffset = some e')
    (h : decodeIterations p n s = some (name, e)) : e = e' := by
  induction n generalizing s with
  | zero => cases h
  | succ n ih =>
    rw [decodeIterations, decodeBody_eq] at h
    cases hpart : namePart p s.cursor with
    | none =>
      rw [hpart] at h
      cases h
    | some part =>
      rw [hpart] at h
      cases part with
      | root =>
        cases h
        rw [hs, Option.getD_some]
      | label bytes =>
        exact ih (s := ⟨_, s.nextOffset, s.labels ++ [fromUtf8Lossy bytes]⟩) hs h
      | pointer target => exact ih (by simp only [hs, Option.some_or]) h

/-- **A name that is decoded** is skipped to the same offset. -/
theorem skipDnsName_of_decode {e : ℕ} {name : Text} {labels : List Text}
    (h : decodeIterations p n ⟨o, none, labels⟩ = some (name, e)) :
    skipDnsName p o = some e := by
  induction n generalizing o labels with
  | zero => cases h
  | succ n ih =>
    have hbody := skipBody_eq p o
    rw [decodeIterations, decodeBody_eq] at h
    cases hpart : namePart p o with
    | none =>
      rw [hpart] at h
      cases h
    | some part =>
      rw [hpart] at h hbody
      cases part with
      | root =>
        cases h
        exact (skipLoop p).run_inr hbody
      | label bytes =>
        rw [skipDnsName, (skipLoop p).run_inl hbody]
        exact ih h
      | pointer target =>
        rw [nextOffset_of_decode rfl h]
        exact (skipLoop p).run_inr hbody

end

/-- **The iterations of `decode_dns_name` are enough**: only for a cyclic walk it
    runs out of them, a walk that ends is decoded with its labels, and a name that
    is decoded is skipped to the same offset. -/
theorem decodeDnsName_budget (p : Packet) (o : ℕ) :
    (CapReached p o ↔ Cyclic (nextPart p) o) ∧ (CapReached p o → decodeDnsName p o = none) ∧
    (∀ ls, NameWalk p o ls → ∃ n s, n < p.length ∧
      after (decodeStep p) n (startState o) = some s ∧ p[s.cursor]? = some 0 ∧ s.labels = ls ∧
      decodeDnsName p o = some (Text.join ls ['.'], s.nextOffset.getD (s.cursor + 1))) ∧
    ∀ name e, decodeDnsName p o = some (name, e) → skipDnsName p o = some e :=
  ⟨capReached_iff p o, decodeIterations_of_isSome, fun _ h => h.decode,
    fun _ _ h => skipDnsName_of_decode h⟩

/-- A name behind a pointer that leads forwards, and a pointer to itself. -/
example : decodeDnsName [0xC0, 0x03, 0, 1, 97, 0] 0 = some (['a'], 2) ∧
    decodeDnsName [0xC0, 0x00] 0 = none ∧ skipDnsName [0xC0, 0x00] 0 = some 2 := by decide

end DnsBlackhole.Protocol
