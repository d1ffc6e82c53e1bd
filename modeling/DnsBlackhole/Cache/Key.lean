/-
  The key of a query in the cache and in the table of pending queries
  (`QueryCacheKey` of `dns/cache.rs`).

  The key holds the text of the name, which forgets where its labels end: a
  label may itself contain a dot.  Two packets with the same text ask about the
  same labels unless a label of the one begins at a byte that is a dot inside a
  label of the other (`DotOnBoundary`), and this is the only way in which
  packets with equal keys differ (`sameQuery_iff_of_cacheKey_eq`).
-/
import DnsBlackhole.Protocol.Query

namespace DnsBlackhole.Cache
open Lib Protocol

structure QueryCacheKey where
  domain : Text
  qtype : UInt16
  qclass : UInt16
  recursionDesired : Bool
  authenticData : Bool
  checkingDisabled : Bool
  dnssecOk : Bool
  edns : Bool
  route : Option Text
  deriving DecidableEq

namespace QueryCacheKey

def fromQuery (query : ParsedQuery) : Option QueryCacheKey :=
  if query.cacheSafe then
    some
      { domain := query.question.domain
        qtype := query.question.qtype
        qclass := query.question.qclass
        recursionDesired := query.recursionDesired
        authenticData := query.authenticData
        checkingDisabled := query.checkingDisabled
        dnssecOk := query.dnssecOk
        edns := query.ednsUdpSize.isSome
        route := none }
  else none

def withRoute (key : QueryCacheKey) (route : Option Text) : QueryCacheKey := { key with route }

end QueryCacheKey

/-- The key of the packet `p` for the route `route`. -/
def cacheKey (p : Packet) (route : Option Text) : Option QueryCacheKey :=
  match parseQuery p with
  | .ok query => (QueryCacheKey.fromQuery query).map (·.withRoute route)
  | .error _ => none

/-! ## Dots on label boundaries -/

/-- The offsets of the length bytes of the labels in `wireName ls`. -/
def labelStarts : List Label → List ℕ
  | [] => []
  | l :: ls => 0 :: (labelStarts ls).map (· + (l.bytes.length + 1))

/-- Somewhere a label of `ls` begins at a dot inside a label of `ls'`. -/
def DotAt (ls ls' : List Label) : Prop :=
  ∃ i ∈ labelStarts ls, i ∉ labelStarts ls' ∧ (wireName ls')[i]? = some 46

/-- A label of the name of the one packet begins at a byte that is a dot inside
    a label of the other. -/
def DotOnBoundary (p p' : Packet) : Prop :=
  ∃ ls ls', HasName p ls ∧ HasName p' ls' ∧ (DotAt ls ls' ∨ DotAt ls' ls)

/-- The packets ask about the same name: the same labels up to ASCII case. -/
def SameName (p p' : Packet) : Prop :=
  ∃ ls ls', HasName p ls ∧ HasName p' ls' ∧ ls.map Label.text = ls'.map Label.text

/-- The separators of the text stand for the length bytes of the labels behind
    the first. -/
theorem mem_labelStarts_succ {ls : List Label} {i : ℕ} :
    i + 1 ∈ labelStarts ls ↔ i ∈ seps (ls.map Label.text) := by
  induction ls generalizing i with
  | nil => simp [labelStarts, seps]
  | cons l ls ih =>
    cases ls with
    | nil => simp [labelStarts, seps]
    | cons m ls =>
      simp only [List.map_cons] at ih ⊢
      simp only [labelStarts, seps, List.mem_cons, List.mem_map, l.length_text] at ih ⊢
      constructor
      · rintro (h | ⟨j, rfl | ⟨k, hk, rfl⟩, hj⟩)
        · omega
        · left; omega
        · right
          refine ⟨k + m.bytes.length, ?_, by omega⟩
          exact ih.1 (.inr ⟨k, hk, by omega⟩)
      · rintro (rfl | ⟨j, hj, rfl⟩)
        · exact .inr ⟨0, .inl rfl, by omega⟩
        · rcases ih.2 hj with h | ⟨k, hk, hkj⟩
          · omega
          · exact .inr ⟨j + 1, .inr ⟨k, hk, hkj⟩, by omega⟩

theorem getElem?_domainText {ls : List Label} {i : ℕ} (h : i ∉ seps (ls.map Label.text))
    (hlt : i < (domainText ls).length) : (domainText ls)[i]? =
      (wireName ls)[i + 1]?.map fun byte => charOfByte (toAsciiLowercase byte) := by
  induction ls generalizing i with
  | nil => simp [domainText] at hlt
  | cons l ls ih =>
    rw [wireName_cons, List.getElem?_cons_succ]
    by_cases hi : i < l.bytes.length
    · rw [List.getElem?_append_left hi]
      have : (domainText (l :: ls))[i]? = l.text[i]? := by
        cases ls with
        | nil => simp [domainText]
        | cons m ls =>
          rw [domainText, List.map_cons, List.map_cons, joined_cons_cons,
            List.getElem?_append_left (by rwa [l.length_text])]
      rw [this, Label.text, List.getElem?_map]
    · cases ls with
      | nil => simp [domainText] at hlt; omega
      | cons m ls =>
        have hne : i ≠ l.bytes.length := by
          rintro rfl
          exact h (by simp [seps])
        obtain ⟨j, rfl⟩ : ∃ j, i = j + (l.text.length + 1) :=
          ⟨i - (l.bytes.length + 1), by rw [l.length_text]; omega⟩
        have hj : j < (domainText (m :: ls)).length := by
          simp only [domainText, List.map_cons, joined_cons_cons, List.length_append,
            List.length_cons] at hlt ⊢
          omega
        have hrest := ih (fun hs => h (mem_seps_cons_cons.2 hs)) hj
        rw [List.getElem?_append_right (by omega)]
        simp only [l.length_text] at hne ⊢
        rw [show j + (l.bytes.length + 1) - l.bytes.length = j + 1 by omega, ← hrest]
        simp only [domainText, List.map_cons, joined_cons_cons]
        rw [List.getElem?_append_right (by rw [l.length_text]; omega), l.length_text,
          show j + (l.bytes.length + 1) - l.bytes.length = j + 1 by omega,
          List.getElem?_cons_succ]

theorem length_wireName (l : Label) (ls : List Label) :
    (wireName (l :: ls)).length = (domainText (l :: ls)).length + 2 := by
  induction ls generalizing l with
  | nil => simp [wireName, domainText]
  | cons m ls ih =>
    rw [wireName_cons, List.length_cons, List.length_append, ih m]
    simp only [domainText, List.map_cons, joined_cons_cons, List.length_append, List.length_cons,
      l.length_text]
    omega

theorem charOfByte_eq_dot {byte : UInt8} :
    charOfByte (toAsciiLowercase byte) = '.' ↔ byte = 46 := by
  have hall : ∀ n : Fin 256, charOfByte (toAsciiLowercase (.ofNat n.val)) = '.' ↔
      UInt8.ofNat n.val = 46 := by decide +kernel
  have := hall ⟨byte.toNat, byte.toNat_lt⟩
  rwa [UInt8.ofNat_toNat] at this

theorem dotAt_iff_hiddenSep {ls ls' : List Label} :
    DotAt ls ls' ↔ HiddenSep '.' (ls.map Label.text) (ls'.map Label.text) := by
  constructor
  · rintro ⟨j, hj, hj', hdot⟩
    cases ls' with
    | nil =>
      rw [wireName_nil, List.getElem?_singleton] at hdot
      split_ifs at hdot
      cases hdot
    | cons l' ls' =>
      cases j with
      | zero => exact absurd List.mem_cons_self hj'
      | succ i =>
        have hi' := fun h => hj' (mem_labelStarts_succ.2 h)
        -- the dot is not the zero byte at the end
        have hlt : i < (domainText (l' :: ls')).length := by
          have hlen := length_wireName l' ls'
          have hlt := (List.getElem?_eq_some_iff.1 hdot).1
          have hlast : i + 1 ≠ (wireName (l' :: ls')).length - 1 := by
            intro he
            rw [he] at hdot
            rw [wireName, List.length_append, List.length_singleton, Nat.add_sub_cancel,
              List.getElem?_concat_length] at hdot
            cases hdot
          omega
        refine ⟨i, mem_labelStarts_succ.1 hj, hi', ?_⟩
        have := getElem?_domainText hi' hlt
        rw [hdot, Option.map_some, charOfByte_eq_dot.2 rfl] at this
        exact this
  · rintro ⟨i, hi, hi', hdot⟩
    have hlt := (List.getElem?_eq_some_iff.1 hdot).1
    refine ⟨i + 1, mem_labelStarts_succ.2 hi, fun h => hi' (mem_labelStarts_succ.1 h), ?_⟩
    have := getElem?_domainText hi' hlt
    rw [domainText, hdot] at this
    obtain ⟨byte, hbyte, hc⟩ := Option.map_eq_some_iff.1 this.symm
    rw [hbyte, charOfByte_eq_dot.1 hc]

/-- **Names with the same text** are the same up to case unless a dot hides a
    boundary. -/
theorem map_text_eq_iff {ls ls' : List Label} (h : domainText ls = domainText ls') :
    ls.map Label.text = ls'.map Label.text ↔ ¬ (DotAt ls ls' ∨ DotAt ls' ls) := by
  have hne : ∀ ls : List Label, ∀ t ∈ ls.map Label.text, t ≠ [] := fun ls t ht => by
    obtain ⟨l, -, rfl⟩ := List.mem_map.1 ht
    exact l.text_ne_nil
  rw [dotAt_iff_hiddenSep, dotAt_iff_hiddenSep]
  exact eq_iff_of_joined_eq (hne ls) (hne ls') h

theorem sameName_iff {p p' : Packet} {q q' : Question} (h : parseQuestion p = .ok q)
    (h' : parseQuestion p' = .ok q') (hd : q.domain = q'.domain) :
    SameName p p' ↔ ¬ DotOnBoundary p p' := by
  obtain ⟨-, -, ls, hls, hdom, -⟩ := parseQuestion_eq_ok.1 h
  obtain ⟨-, -, ls', hls', hdom', -⟩ := parseQuestion_eq_ok.1 h'
  have key := map_text_eq_iff (hdom.symm.trans (hd.trans hdom'))
  constructor
  · rintro ⟨ms, ms', hms, hms', heq⟩ ⟨ns, ns', hns, hns', hdot⟩
    cases HasName.unique hls hms; cases HasName.unique hls' hms'
    cases HasName.unique hls hns; cases HasName.unique hls' hns'
    exact key.1 heq hdot
  · exact fun hn => ⟨ls, ls', hls, hls', key.2 fun hdot => hn ⟨ls, ls', hls, hls', hdot⟩⟩

/-! ## Packets with equal keys -/

/-- The packets ask the same question, with the same flags: the same labels up
    to ASCII case, type, class, RD, AD, CD and DO. -/
structure SameQuery (p p' : Packet) (q q' : ParsedQuery) : Prop where
  name : SameName p p'
  qtype : q.question.qtype = q'.question.qtype
  qclass : q.question.qclass = q'.question.qclass
  recursionDesired : q.recursionDesired = q'.recursionDesired
  authenticData : q.authenticData = q'.authenticData
  checkingDisabled : q.checkingDisabled = q'.checkingDisabled
  dnssecOk : q.dnssecOk = q'.dnssecOk

theorem fromQuery_withRoute_eq_some {q : ParsedQuery} {route : Option Text} {k : QueryCacheKey} :
    (QueryCacheKey.fromQuery q).map (·.withRoute route) = some k ↔ q.cacheSafe ∧ k =
      ⟨q.question.domain, q.question.qtype, q.question.qclass, q.recursionDesired,
        q.authenticData, q.checkingDisabled, q.dnssecOk, q.ednsUdpSize.isSome, route⟩ := by
  unfold QueryCacheKey.fromQuery QueryCacheKey.withRoute
  split_ifs with h <;> simp [h, eq_comm]

theorem domain_eq_of_validate {query response : Packet}
    (h : validateResponseForQuery query response = .ok ()) : ∃ q r, parseQuestion query = .ok q ∧
      parseQuestion response = .ok r ∧ q.domain = r.domain := by
  unfold validateResponseForQuery at h
  split_ifs at h
  cases hq : parseQuestion query with
  | error e => rw [hq] at h; cases h
  | ok q =>
    cases hr : parseQuestion response with
    | error e => rw [hq, hr] at h; cases h
    | ok r =>
      rw [hq, hr] at h
      refine ⟨q, r, rfl, rfl, ?_⟩
      by_contra hne
      simp only [bind, Except.bind, ne_eq, hne, not_false_eq_true, true_or, if_true] at h
      cases h

theorem domain_eq_of_prepare {query response prepared : Packet}
    (h : prepareResponseForQuery response query = some prepared) : ∃ q r,
      parseQuestion query = .ok q ∧ parseQuestion response = .ok r ∧ q.domain = r.domain := by
  unfold prepareResponseForQuery at h
  split at h
  · rename_i r q hr hq
    split_ifs at h with hne
    exact ⟨q, r, hq, hr, by_contra fun hd => hne (.inl fun he => hd he.symm)⟩
  · cases h

/-- **Equal keys**: packets with equal keys ask the same question, and a
    response matched with a query has the name of the query, exactly when no
    label of the one name begins at a dot inside a label of the other. -/
theorem sameQuery_iff_not_dotOnBoundary (p p' : Packet) :
    (∀ q q' route k, parseQuery p = .ok q → parseQuery p' = .ok q' →
      cacheKey p route = some k → cacheKey p' route = some k →
      (SameQuery p p' q q' ↔ ¬ DotOnBoundary p p')) ∧
    (validateResponseForQuery p p' = .ok () → (SameName p p' ↔ ¬ DotOnBoundary p p')) ∧
    ∀ prepared, prepareResponseForQuery p' p = some prepared →
      (SameName p p' ↔ ¬ DotOnBoundary p p') := by
  refine ⟨fun q q' route k h h' hk hk' => ?_, fun h => ?_, fun prepared h => ?_⟩
  · simp only [cacheKey, h] at hk
    simp only [cacheKey, h'] at hk'
    obtain ⟨-, rfl⟩ := fromQuery_withRoute_eq_some.1 hk
    obtain ⟨-, he⟩ := fromQuery_withRoute_eq_some.1 hk'
    injection he with hd ht hc hrd had hcd hdo
    rw [← sameName_iff (parseQuery_question h) (parseQuery_question h') hd]
    exact ⟨SameQuery.name, fun hn => ⟨hn, ht, hc, hrd, had, hcd, hdo⟩⟩
  · obtain ⟨q, r, hq, hr, hd⟩ := domain_eq_of_validate h
    exact sameName_iff hq hr hd
  · obtain ⟨q, r, hq, hr, hd⟩ := domain_eq_of_prepare h
    exact sameName_iff hq hr hd

/-- A query for the one label `a.b`. -/
def dottedQuery : Packet :=
  [0, 0, 1, 0, 0, 1, 0, 0, 0, 0, 0, 0, 3, 97, 46, 98, 0, 0, 1, 0, 1]

/-- A query for the two labels `a` and `b`. -/
def plainQuery : Packet :=
  [0, 0, 1, 0, 0, 1, 0, 0, 0, 0, 0, 0, 1, 97, 1, 98, 0, 0, 1, 0, 1]

/-- A response to the query for the two labels. -/
def plainResponse : Packet :=
  [0, 0, 129, 128, 0, 1, 0, 0, 0, 0, 0, 0, 1, 97, 1, 98, 0, 0, 1, 0, 1]

/-- The label of `dottedQuery`. -/
def dottedLabel : Label := ⟨[97, 46, 98], by decide, by decide, by decide⟩

/-- The labels of `plainQuery`. -/
def plainLabels : List Label :=
  [⟨[97], by decide, by decide, by decide⟩, ⟨[98], by decide, by decide, by decide⟩]

theorem not_sameName_of_dotted {p : Packet} (h : HasName p plainLabels) :
    ¬ SameName dottedQuery p := by
  rintro ⟨ls, ls', hls, hls', heq⟩
  have hd : HasName dottedQuery [dottedLabel] := by unfold HasName; decide
  cases hd.unique hls
  cases h.unique hls'
  exact absurd heq (by decide)

/-- The two queries have one key, and the response to the one is accepted for
    the other, although they ask about different names. -/
theorem dottedQuery_collides :
    (∃ k, cacheKey dottedQuery none = some k ∧ cacheKey plainQuery none = some k) ∧
    validateResponseForQuery dottedQuery plainResponse = .ok () ∧
    (prepareResponseForQuery plainResponse dottedQuery).isSome ∧
    ¬ SameName dottedQuery plainQuery ∧ ¬ SameName dottedQuery plainResponse :=
  ⟨⟨_, rfl, by decide⟩, by decide, by decide,
    not_sameName_of_dotted (by unfold HasName; decide),
    not_sameName_of_dotted (by unfold HasName; decide)⟩

/-- The equivalences at the query for two labels. -/
theorem plainQuery_sameQuery_iff :
    (∃ q, SameQuery plainQuery plainQuery q q ↔ ¬ DotOnBoundary plainQuery plainQuery) ∧
    (SameName plainQuery plainResponse ↔ ¬ DotOnBoundary plainQuery plainResponse) ∧
    (SameName dottedQuery plainResponse ↔ ¬ DotOnBoundary dottedQuery plainResponse) :=
  ⟨⟨_, (sameQuery_iff_not_dotOnBoundary plainQuery plainQuery).1 _ _ none _ rfl rfl rfl rfl⟩,
    (sameQuery_iff_not_dotOnBoundary plainQuery plainResponse).2.1 (by decide),
    (sameQuery_iff_not_dotOnBoundary dottedQuery plainResponse).2.2 _ rfl⟩

end DnsBlackhole.Cache
