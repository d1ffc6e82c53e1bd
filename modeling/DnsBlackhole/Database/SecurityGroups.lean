/-
  Security events in memory and in the table.

  The queue puts an event into one of its newest entries, the table into the row with the
  time at which that entry was first seen.

  * `SecurityLog.step_cases`: what a step does to the queue and to what is written;
  * `SecurityLog.tally`: what is counted under a key, in the table and on the way to it;
  * `Agrees.step`: every entry of the queue stays the tally of its key, unless an entry that
    the lookback no longer reaches was opened in the same second;
  * **`securityEvents_agree`**: behind a flush, every entry can be read back from the table.
-/
import DnsBlackhole.Database.SecurityEvents

namespace DnsBlackhole.Database
open Admin (DnsTransport SecurityEvent SecurityEventType)
open Cache (saturatingAdd64)
open Lib (Machine Table bind_eq_ok toOption_eq_some foldlM_cons_eq_ok foldlM_inv)

/-! ## Tallies -/

/-- How often an event was recorded, and when it was last. -/
@[ext]
structure Tally where
  count : ℕ
  lastSeenAt : ℕ
  deriving DecidableEq

namespace Tally

instance : Zero Tally := ⟨⟨0, 0⟩⟩

instance : Add Tally := ⟨fun a b => ⟨a.count + b.count, max a.lastSeenAt b.lastSeenAt⟩⟩

instance : AddCommMonoid Tally where
  add_assoc a b c := Tally.ext (Nat.add_assoc ..) (Nat.max_assoc ..)
  zero_add a := Tally.ext (Nat.zero_add _) (Nat.zero_max _)
  add_zero a := Tally.ext (Nat.add_zero _) (Nat.max_zero _)
  add_comm a b := Tally.ext (Nat.add_comm ..) (Nat.max_comm ..)
  nsmul := nsmulRec

end Tally

def columnsTally (columns : SecurityEventColumns) : Tally := ⟨columns.count, columns.lastSeenAt⟩

def eventTally (event : SecurityEvent) : Tally := ⟨event.count, event.lastSeenAt.toNat⟩

/-- The key of the row that an event is written into. -/
def keyOf (event : SecurityEvent) : SecurityEventKey where
  eventType := securityEventTypeToDb event.eventType
  protocol := dnsTransportToDb event.protocol
  clientIp := event.clientIp
  reason := event.reason
  firstSeenAt := event.firstSeenAt.toNat

/-- What the events count under a key. -/
def tallyOver (key : SecurityEventKey) (events : List SecurityEvent) : Tally :=
  ((events.filter fun event => keyOf event = key).map eventTally).sum

section
variable {key : SecurityEventKey} {events events' : List SecurityEvent}

theorem tallyOver_cons (event : SecurityEvent) :
    tallyOver key (event :: events) =
      (if keyOf event = key then eventTally event else 0) + tallyOver key events := by
  rw [tallyOver, List.filter_cons]
  by_cases h : keyOf event = key
  · rw [if_pos (decide_eq_true h), if_pos h, List.map_cons, List.sum_cons]
    rfl
  · rw [if_neg (by simpa using h), if_neg h, zero_add]
    rfl

theorem tallyOver_append : tallyOver key (events ++ events') =
    tallyOver key events + tallyOver key events' := by
  rw [tallyOver, List.filter_append, List.map_append, List.sum_append]
  rfl

theorem tallyOver_perm (h : events.Perm events') : tallyOver key events = tallyOver key events' :=
  ((h.filter _).map _).sum_eq

variable {stored stored' : StoredSecurityEvents}

theorem tally_executeSecurityEventUpsert {event : SecurityEvent}
    (h : executeSecurityEventUpsert stored event = .ok stored') :
    stored'.rows.amount columnsTally key = stored.rows.amount columnsTally key +
      if keyOf event = key then eventTally event else 0 := by
  unfold executeSecurityEventUpsert at h
  obtain ⟨first, hfirst, h⟩ := bind_eq_ok.1 h
  obtain ⟨last, hlast, h⟩ := bind_eq_ok.1 h
  obtain ⟨count, hcount, h⟩ := bind_eq_ok.1 h
  cases h
  cases eq_of_u64ToDbI64 hfirst
  cases eq_of_u64ToDbI64 hlast
  cases eq_of_u64ToDbI64 hcount
  have hmerge : ∀ a b, columnsTally (SecurityEventColumns.merge a b) =
      columnsTally a + columnsTally b := fun a b => rfl
  rw [Table.amount_upsert hmerge]
  exact congrArg _ (if_congr eq_comm rfl rfl)

theorem tally_appendSecurityEvents (h : appendSecurityEvents stored events = .ok stored') :
    stored'.rows.amount columnsTally key =
      stored.rows.amount columnsTally key + tallyOver key events := by
  induction events generalizing stored with
  | nil =>
    cases h
    exact (add_zero _).symm
  | cons event events ih =>
    obtain ⟨next, hnext, hrest⟩ := foldlM_cons_eq_ok.1 h
    rw [ih hrest, tally_executeSecurityEventUpsert hnext, tallyOver_cons, add_assoc]

/-- Every number of the row can be read back. -/
def StoredSecurityEvents.Readable (stored : StoredSecurityEvents) : Prop :=
  ∀ key columns, stored.rows.lookup key = some columns →
    key.firstSeenAt ≤ i64Max ∧ columns.lastSeenAt ≤ i64Max

theorem le_of_u64ToDbI64 {value value' : ℕ} {field : Text}
    (h : u64ToDbI64 value field = .ok value') : value' ≤ i64Max := by
  unfold u64ToDbI64 at h
  split_ifs at h with hle
  exact Except.ok.inj h ▸ hle

theorem readable_executeSecurityEventUpsert {event : SecurityEvent} (hs : stored.Readable)
    (h : executeSecurityEventUpsert stored event = .ok stored') : stored'.Readable := by
  unfold executeSecurityEventUpsert at h
  obtain ⟨first, hfirst, h⟩ := bind_eq_ok.1 h
  obtain ⟨last, hlast, h⟩ := bind_eq_ok.1 h
  obtain ⟨count, hcount, h⟩ := bind_eq_ok.1 h
  cases h
  intro key columns hlookup
  rw [Table.lookup_upsert] at hlookup
  split_ifs at hlookup with hkey
  · rw [hkey]
    refine ⟨le_of_u64ToDbI64 hfirst, ?_⟩
    split at hlookup
    · rename_i old hold
      cases hlookup
      exact max_le (hs _ old hold).2 (le_of_u64ToDbI64 hlast)
    · cases hlookup
      exact le_of_u64ToDbI64 hlast
  · exact hs key columns hlookup

theorem readable_appendSecurityEvents (hs : stored.Readable)
    (h : appendSecurityEvents stored events = .ok stored') : stored'.Readable :=
  foldlM_inv (fun _ _ _ _ hs' => readable_executeSecurityEventUpsert hs') hs h

end

/-! ## Keys -/

@[simp] theorem securityEventTypeFromDb_toDb (eventType : SecurityEventType) :
    securityEventTypeFromDb (securityEventTypeToDb eventType) = eventType := by
  cases eventType <;> decide

@[simp] theorem dnsTransportFromDb_toDb (protocol : DnsTransport) :
    dnsTransportFromDb (dnsTransportToDb protocol) = protocol := by
  cases protocol <;> decide

theorem readSecurityEvent_eq_ok {event : SecurityEvent} {columns : SecurityEventColumns}
    (htally : columnsTally columns = eventTally event) (hcount : event.count ≤ i64Max)
    (hfirst : event.firstSeenAt.toNat ≤ i64Max) (hlast : columns.lastSeenAt ≤ i64Max) :
    readSecurityEvent ⟨keyOf event, columns⟩ = .ok event := by
  have hcolumns : columns.count = event.count := congrArg Tally.count htally
  have hseen : columns.lastSeenAt = event.lastSeenAt.toNat := congrArg Tally.lastSeenAt htally
  have hread : ∀ {value : ℕ}, value ≤ i64Max → readU64 value = .ok value := fun h => if_pos h
  rw [readSecurityEvent, hread (show (keyOf event).firstSeenAt ≤ i64Max from hfirst), hread hlast,
    hread (hcolumns ▸ hcount), hcolumns, hseen]
  simp [keyOf, bind, Except.bind, pure, Except.pure]

/-! ## Steps -/

namespace SecurityLog
variable {s s' : SecurityLog}

/-- What is counted under a key: in the table, and on the way to it. -/
def tally (s : SecurityLog) (key : SecurityEventKey) : Tally :=
  s.stored.rows.amount columnsTally key + tallyOver key s.pending

/-- A thread records an event. -/
structure Records (now : UInt64) (identity : SecurityEventIdentity) (s s' : SecurityLog) : Prop where
  clock_le : s.clock.toNat ≤ now.toNat
  queue_eq : s'.queue = (appendSecurityEvent now identity s.queue).1
  clock_eq : s'.clock = now
  recorded_eq : s'.recorded = s.recorded + 1
  stored_eq : s'.stored = s.stored
  pending_perm : s'.pending.Perm ((s.record now identity).2 :: s.pending)

/-- Events are moved on, and the first of them written. -/
structure Writes (s s' : SecurityLog) : Prop where
  queue_eq : s'.queue = s.queue
  clock_eq : s'.clock = s.clock
  recorded_eq : s'.recorded = s.recorded
  written : ∃ written : List SecurityEvent, s.pending.Perm (written ++ s'.pending) ∧
    appendSecurityEvents s.stored written = .ok s'.stored

theorem Writes.of_moved (hqueue : s'.queue = s.queue) (hclock : s'.clock = s.clock)
    (hrecorded : s'.recorded = s.recorded) (hpending : s'.pending = s.pending)
    (hstored : s'.stored = s.stored) : s.Writes s' where
  queue_eq := hqueue
  clock_eq := hclock
  recorded_eq := hrecorded
  written := ⟨[], List.Perm.of_eq hpending.symm, congrArg Except.ok hstored.symm⟩

theorem Writes.writeBatch {t : SecurityLog} (ht : s.Writes t) (hstored : t.stored = s.stored)
    (hpending : t.pending = s.pending) (h : t.writeBatch = some s') : s.Writes s' := by
  obtain ⟨stored, happend, rfl⟩ := Option.map_eq_some_iff.1 h
  refine ⟨ht.queue_eq, ht.clock_eq, ht.recorded_eq, t.batch, ?_, ?_⟩
  · rw [← hpending, pending, pending, List.append_assoc]
    exact .refl _
  · rw [← hstored]
    exact toOption_eq_some.1 happend

theorem writes_receive (h : s.step .receive = some s') : s.Writes s' := by
  rw [step] at h
  split at h
  · rename_i event channel hrunning hchannel
    have hpending : ({ s with channel, batch := s.batch ++ [event] } : SecurityLog).pending =
        s.pending := by
      simp only [pending, hchannel, List.filterMap_cons, SecurityEventMessage.event?,
        List.append_assoc, List.singleton_append]
    have hmoved : s.Writes { s with channel, batch := s.batch ++ [event] } :=
      .of_moved rfl rfl rfl hpending rfl
    dsimp only at h
    split_ifs at h
    · cases h
      exact hmoved
    · exact hmoved.writeBatch rfl hpending h
  · rename_i channel hrunning hchannel
    have hpending : ({ s with channel, flushing := false } : SecurityLog).pending = s.pending := by
      simp only [pending, hchannel, List.filterMap_cons, SecurityEventMessage.event?]
    have hmoved : s.Writes { s with channel, flushing := false } :=
      .of_moved rfl rfl rfl hpending rfl
    exact hmoved.writeBatch rfl hpending h
  · rename_i channel hrunning hchannel
    have hpending : ({ s with channel, running := false } : SecurityLog).pending = s.pending := by
      simp only [pending, hchannel, List.filterMap_cons, SecurityEventMessage.event?]
    have hmoved : s.Writes { s with channel, running := false } :=
      .of_moved rfl rfl rfl hpending rfl
    exact hmoved.writeBatch rfl hpending h
  · cases h

/-- **What a step does** to the queue, to what is written and to what waits for it. -/
theorem step_cases {event : SecurityLogEvent} (h : s.step event = some s') :
    (∃ now identity, (event = .record now identity ∨ event = .recordWeb now identity) ∧
      s.Records now identity s') ∨
    s.Writes s' ∨ (∃ hours now, event = .restore hours now) ∨ event = .resetStats := by
  cases event with
  | record now identity =>
    rw [step_record] at h
    split_ifs at h with hok
    cases Option.some.inj h
    refine .inl ⟨now, identity, .inl rfl, hok.2, rfl, rfl, rfl, rfl, ?_⟩
    rw [pending_send]
    exact List.perm_middle
  | recordWeb now identity =>
    rw [step] at h
    split_ifs at h with hfree
    cases h
    refine .inl ⟨now, identity, .inr rfl, hfree.2, rfl, rfl, rfl, rfl, ?_⟩
    simp only [pending]
    rw [← List.append_assoc]
    exact List.perm_append_singleton _ _
  | writeDirect index =>
    obtain ⟨event, hget, h⟩ := Option.bind_eq_some_iff.1 h
    obtain ⟨stored, hstored, rfl⟩ := Option.map_eq_some_iff.1 h
    refine .inr (.inl ⟨rfl, rfl, rfl, [event], ?_, toOption_eq_some.1 hstored⟩)
    obtain ⟨hlt, rfl⟩ := List.getElem?_eq_some_iff.1 hget
    have hperm := (List.getElem_cons_eraseIdx_perm hlt).symm
    exact (hperm.append_left _).trans List.perm_middle
  | receive => exact .inr (.inl (writes_receive h))
  | timeout =>
    rw [step] at h
    split_ifs at h
    exact .inr (.inl ((Writes.of_moved rfl rfl rfl rfl rfl).writeBatch rfl rfl h))
  | flush =>
    rw [step] at h
    split_ifs at h
    cases h
    exact .inr (.inl (.of_moved rfl rfl rfl (pending_send s .flush) rfl))
  | restore hours now => exact .inr (.inr (.inl ⟨hours, now, rfl⟩))
  | resetStats => exact .inr (.inr (.inr rfl))
  | startWriter =>
    rw [step] at h
    split_ifs at h
    cases h
    exact .inr (.inl (.of_moved rfl rfl rfl rfl rfl))
  | stopWriter =>
    rw [step] at h
    split_ifs at h
    cases h
    exact .inr (.inl (.of_moved rfl rfl rfl (pending_send s .stop) rfl))

variable {now : UInt64} {identity : SecurityEventIdentity}

theorem Writes.tally_eq (h : s.Writes s') (key : SecurityEventKey) : s'.tally key = s.tally key := by
  obtain ⟨written, hpending, hstored⟩ := h.written
  rw [tally, tally, tally_appendSecurityEvents hstored, tallyOver_perm hpending, tallyOver_append,
    add_assoc]

theorem Records.tally_eq (h : s.Records now identity s') (key : SecurityEventKey) :
    s'.tally key = s.tally key + if keyOf (s.record now identity).2 = key
      then ⟨1, now.toNat⟩ else 0 := by
  have hevent : eventTally (s.record now identity).2 = ⟨1, now.toNat⟩ :=
    Tally.ext rfl (congrArg UInt64.toNat snd_appendSecurityEvent.1)
  rw [tally, tally, h.stored_eq, tallyOver_perm h.pending_perm, tallyOver_cons, hevent,
    add_comm (ite _ _ _), add_assoc]

/-! ## Entries -/

/-- Every entry of the queue is the tally of its key. -/
structure Agrees (s : SecurityLog) : Prop where
  inv : s.Inv
  readable : s.stored.Readable
  nodup : (s.queue.map keyOf).Nodup
  tally_eq : ∀ event ∈ s.queue, s.tally (keyOf event) = eventTally event
  count_pos : ∀ event ∈ s.queue, 1 ≤ event.count
  count_le : ∀ event ∈ s.queue, event.count ≤ s.recorded
  recorded_le : s.recorded ≤ i64Max

/-- An event is put into an entry that the lookback finds, or it is the first of its kind in
    this second; neither restores nor resets are among the steps. -/
def Grouped (s : SecurityLog) : SecurityLogEvent → Prop
  | .record now identity | .recordWeb now identity => s.recorded < i64Max ∧
      ((∃ event ∈ lookback s.queue, identityOf event = identity ∧ ¬ Expired now event) ∨
        s.tally (keyOf (newEvent now identity)) = 0)
  | .restore .. | .resetStats => False
  | _ => True

instance (s : SecurityLog) : DecidablePred s.Grouped
  | .record .. | .recordWeb .. => inferInstanceAs (Decidable (_ ∧ _))
  | .restore .. | .resetStats => inferInstanceAs (Decidable False)
  | .writeDirect _ | .receive | .timeout | .flush | .startWriter | .stopWriter =>
    inferInstanceAs (Decidable True)

theorem Agrees.writes (h : s.Agrees) (hw : s.Writes s') (hinv : s'.Inv) : s'.Agrees where
  inv := hinv
  readable := by
    obtain ⟨written, -, hstored⟩ := hw.written
    exact readable_appendSecurityEvents h.readable hstored
  nodup := hw.queue_eq ▸ h.nodup
  tally_eq := fun event hevent => (hw.tally_eq _).trans (h.tally_eq event (hw.queue_eq ▸ hevent))
  count_pos := hw.queue_eq ▸ h.count_pos
  count_le := hw.queue_eq ▸ hw.recorded_eq ▸ h.count_le
  recorded_le := hw.recorded_eq ▸ h.recorded_le

/-- The queue after an event: some entries that were there, and the one of the event. -/
theorem Agrees.records (h : s.Agrees) (hr : s.Records now identity s') (hinv : s'.Inv)
    (hrecorded : s.recorded < i64Max) {kept : List SecurityEvent} {last : SecurityEvent}
    (hqueue : s'.queue = kept ++ [last]) (hkept : kept.Sublist s.queue)
    (hkey : keyOf (appendSecurityEvent now identity s.queue).2 = keyOf last)
    (hnew : ∀ event ∈ kept, keyOf event ≠ keyOf last)
    (hlast : s.tally (keyOf last) + ⟨1, now.toNat⟩ = eventTally last)
    (hcount : last.count ≤ s.recorded + 1) : s'.Agrees := by
  have hmem : ∀ event ∈ s'.queue, event ∈ kept ∨ event = last := fun event hevent => by
    rw [hqueue] at hevent
    exact (List.mem_append.1 hevent).imp_right List.mem_singleton.1
  constructor
  case inv => exact hinv
  case readable => exact hr.stored_eq ▸ h.readable
  case nodup =>
    rw [hqueue, List.map_append, List.map_singleton]
    refine List.nodup_append.2 ⟨h.nodup.sublist (hkept.map _), List.nodup_singleton _, ?_⟩
    rintro key hkey' key' hkey'' rfl
    obtain ⟨event, hevent, rfl⟩ := List.mem_map.1 hkey'
    exact hnew event hevent (List.mem_singleton.1 hkey'')
  case tally_eq =>
    intro event hevent
    rw [hr.tally_eq, show keyOf (s.record now identity).2 = keyOf last from hkey]
    rcases hmem event hevent with hold | rfl
    · rw [if_neg (hnew event hold).symm, add_zero]
      exact h.tally_eq event (hkept.subset hold)
    · rw [if_pos rfl, hlast]
  case count_pos =>
    intro event hevent
    rcases hmem event hevent with hold | rfl
    · exact h.count_pos event (hkept.subset hold)
    · exact (Nat.le_add_left 1 _).trans (congrArg Tally.count hlast).le
  case count_le =>
    intro event hevent
    rw [hr.recorded_eq]
    rcases hmem event hevent with hold | rfl
    · exact (h.count_le event (hkept.subset hold)).trans (Nat.le_succ _)
    · exact hcount
  case recorded_le => exact hr.recorded_eq ▸ hrecorded

theorem Agrees.merged (h : s.Agrees) (hr : s.Records now identity s') (hinv : s'.Inv)
    (hrecorded : s.recorded < i64Max) {index : ℕ} {event : SecurityEvent}
    (hget : s.queue[index]? = some event)
    (heq : appendSecurityEvent now identity s.queue = (s.queue.eraseIdx index ++
        [{ event with lastSeenAt := now, count := saturatingAdd64 event.count 1 }],
      { event with lastSeenAt := now, count := saturatingAdd64 event.count 1 })) : s'.Agrees := by
  obtain ⟨hlt, rfl⟩ := List.getElem?_eq_some_iff.1 hget
  have hmem : s.queue[index] ∈ s.queue := List.getElem_mem hlt
  have hseen := (h.inv.queue_le _ hmem).trans hr.clock_le
  have hcount : saturatingAdd64 s.queue[index].count 1 = s.queue[index].count + 1 := by
    refine Nat.min_eq_left ?_
    have hle := (h.count_le _ hmem).trans hrecorded.le
    exact (Nat.succ_le_succ hle).trans (by decide)
  refine h.records hr hinv hrecorded (hr.queue_eq.trans (congrArg Prod.fst heq))
    (List.eraseIdx_sublist _ _) (congrArg (keyOf ·.2) heq) ?_ ?_ ?_
  · -- the key of the entry is no other entry's
    have hperm := (List.getElem_cons_eraseIdx_perm hlt).map keyOf
    have hnodup := (List.nodup_cons.1 (hperm.nodup_iff.2 h.nodup)).1
    intro other hother hsame
    exact hnodup (List.mem_map.2 ⟨other, hother, hsame⟩)
  · rw [hcount]
    refine (congrArg (· + _) (h.tally_eq _ hmem)).trans ?_
    exact Tally.ext rfl (max_eq_right hseen)
  · rw [hcount]
    exact Nat.succ_le_succ (h.count_le _ hmem)

theorem Agrees.opened (h : s.Agrees) (hr : s.Records now identity s') (hinv : s'.Inv)
    (hrecorded : s.recorded < i64Max)
    (hfirst : s.tally (keyOf (newEvent now identity)) = 0)
    (heq : appendSecurityEvent now identity s.queue =
      ((if securityEventCapacity ≤ s.queue.length then s.queue.tail else s.queue) ++
        [newEvent now identity], newEvent now identity)) : s'.Agrees := by
  have hkept : (if securityEventCapacity ≤ s.queue.length then s.queue.tail
      else s.queue).Sublist s.queue := by
    split_ifs
    · exact List.tail_sublist _
    · exact List.Sublist.refl _
  refine h.records hr hinv hrecorded (hr.queue_eq.trans (congrArg Prod.fst heq)) hkept
    (congrArg (keyOf ·.2) heq) ?_ ?_ (Nat.le_add_left 1 _)
  · intro event hevent hsame
    have htally := h.tally_eq event (hkept.subset hevent)
    rw [hsame, hfirst] at htally
    have hzero : 0 = event.count := congrArg Tally.count htally
    exact absurd (h.count_pos event (hkept.subset hevent)) (hzero ▸ Nat.not_succ_le_zero 0)
  · rw [hfirst, zero_add]
    rfl

theorem Agrees.step (h : s.Agrees) {event : SecurityLogEvent} (hgrouped : s.Grouped event)
    (hs : s.step event = some s') : s'.Agrees := by
  have hinv := h.inv.step hs
  rcases step_cases hs with ⟨now, identity, hevent, hr⟩ | hw | ⟨hours, now, rfl⟩ | rfl
  · obtain ⟨hrecorded, hfound⟩ : s.recorded < i64Max ∧
        ((∃ event ∈ lookback s.queue, identityOf event = identity ∧ ¬ Expired now event) ∨
          s.tally (keyOf (newEvent now identity)) = 0) := by
      rcases hevent with rfl | rfl <;> exact hgrouped
    rcases appendSecurityEvent_cases now identity s.queue with
      ⟨index, entry, -, hget, -, heq⟩ | ⟨hindex, heq⟩
    · exact h.merged hr hinv hrecorded hget heq
    · refine h.opened hr hinv hrecorded (hfound.resolve_left fun hexists => ?_) heq
      have hfind := (findAggregatableEvent_isSome_iff h.inv.sorted).2 hexists
      rw [hindex] at hfind
      exact Bool.false_ne_true hfind
  · exact h.writes hw hinv
  · exact hgrouped.elim
  · exact hgrouped.elim

theorem Agrees.receive (h : s.Agrees) (hs : s.step .receive = some s') : s'.Agrees :=
  have hgrouped : s.Grouped .receive := trivial
  h.step hgrouped hs

theorem agrees_init : securityMachine.init.Agrees where
  inv := inv_of_reachable .init
  readable := nofun
  nodup := .nil
  tally_eq := nofun
  count_pos := nofun
  count_le := nofun
  recorded_le := Nat.zero_le _

theorem Agrees.lookup_keyOf (h : s.Agrees) (hpending : s.pending = []) {event : SecurityEvent}
    (hevent : event ∈ s.queue) : ∃ columns, s.stored.rows.lookup (keyOf event) = some columns ∧
      columnsTally columns = eventTally event ∧
      readSecurityEvent ⟨keyOf event, columns⟩ = .ok event := by
  have htally : s.stored.rows.amount columnsTally (keyOf event) = eventTally event := by
    rw [← h.tally_eq event hevent, tally, hpending]
    exact (add_zero _).symm
  cases hlookup : s.stored.rows.lookup (keyOf event) with
  | none =>
    rw [Table.amount, hlookup] at htally
    have hzero : 0 = event.count := congrArg Tally.count htally
    exact absurd (h.count_pos event hevent) (hzero ▸ Nat.not_succ_le_zero 0)
  | some columns =>
    rw [Table.amount_of_lookup hlookup] at htally
    obtain ⟨hfirst, hlast⟩ := h.readable _ _ hlookup
    exact ⟨columns, rfl, htally, readSecurityEvent_eq_ok htally
      ((h.count_le event hevent).trans h.recorded_le) hfirst hlast⟩

end SecurityLog

/-- **The queue and the table agree**: along every run in which events are only opened as the
    first of their kind in a second, when the writer has answered a flush and no thread of the
    administration is about to write, every entry of the queue has a row with its type,
    protocol, client, reason and first time, and with its count and last time; and the row is
    read back as the entry. -/
theorem securityEvents_agree {events : List SecurityLogEvent} {s s' : SecurityLog}
    {channel : List SecurityEventMessage}
    (hgrouped : securityMachine.Guarded SecurityLog.Grouped securityMachine.init events)
    (hrun : securityMachine.run securityMachine.init events = some s)
    (hflush : s.channel = .flush :: channel) (hreceive : s.step .receive = some s')
    (hdirect : s'.direct = []) {event : SecurityEvent} (hevent : event ∈ s'.queue) :
    ∃ columns, s'.stored.rows.lookup (keyOf event) = some columns ∧
      columns.count = event.count ∧ columns.lastSeenAt = event.lastSeenAt.toNat ∧
      readSecurityEvent ⟨keyOf event, columns⟩ = .ok event := by
  have hagrees : s.Agrees := Machine.Guarded.inv
    (fun s event s' (h : s.Agrees) hok hs => h.step hok hs) events SecurityLog.agrees_init
    hgrouped hrun
  have hpending : s'.pending = [] := by
    obtain ⟨rfl, -⟩ := hagrees.inv.control.last hflush rfl
    rw [SecurityLog.step, hflush] at hreceive
    cases hrunning : s.running
    · rw [hrunning] at hreceive
      cases hreceive
    · rw [hrunning] at hreceive
      obtain ⟨stored, -, rfl⟩ := Option.map_eq_some_iff.1 hreceive
      exact hdirect
  have hagrees' : s'.Agrees := hagrees.receive hreceive
  obtain ⟨columns, hlookup, htally, hread⟩ := hagrees'.lookup_keyOf hpending hevent
  exact ⟨columns, hlookup, congrArg Tally.count htally, congrArg Tally.lastSeenAt htally, hread⟩

/-- Denied clients. -/
def deniedClient (n : ℕ) : SecurityEventIdentity :=
  ⟨.accessDenied, .udp, "192.0.2.".toList ++ Nat.toDigits 10 n, "denied".toList⟩

/-- Two clients, of which one comes back after three seconds. -/
def groupedRun : List SecurityLogEvent :=
  [.startWriter, .record 5 (deniedClient 1), .record 5 (deniedClient 2),
    .record 8 (deniedClient 1), .flush, .receive, .receive, .receive]

theorem securityEvents_agree_sample : ∃ s s',
    securityMachine.run securityMachine.init groupedRun = some s ∧
    s.step .receive = some s' ∧
    (s'.queue.map fun event => (event.firstSeenAt, event.count)) = [(5, 1), (5, 2)] ∧
    ∀ event ∈ s'.queue, ∃ columns, s'.stored.rows.lookup (keyOf event) = some columns ∧
      columns.count = event.count ∧ columns.lastSeenAt = event.lastSeenAt.toNat ∧
      readSecurityEvent ⟨keyOf event, columns⟩ = .ok event := by
  obtain ⟨s, hs⟩ : ∃ s, securityMachine.run securityMachine.init groupedRun = some s := ⟨_, rfl⟩
  have hflush : s.channel = [.flush] := by
    cases hs
    rfl
  obtain ⟨s', hs', hdirect, hqueue⟩ : ∃ s', s.step .receive = some s' ∧ s'.direct = [] ∧
      (s'.queue.map fun event => (event.firstSeenAt, event.count)) = [(5, 1), (5, 2)] := by
    cases hs
    exact ⟨_, rfl, rfl, rfl⟩
  exact ⟨s, s', hs, hs', hqueue, fun event hevent =>
    securityEvents_agree (by decide +kernel) hs hflush hs' hdirect hevent⟩

/-- In one second 33 clients are denied, and then the first again. -/
def crowdedSecond : List SecurityLogEvent :=
  .startWriter :: (List.range 33).map (fun n => .record 5 (deniedClient n)) ++
    .record 5 (deniedClient 0) :: .flush :: List.replicate 35 .receive

/-- The first client then has two entries, and one row that counts both of them. -/
theorem crowdedSecond_split : ∃ s,
    securityMachine.run securityMachine.init crowdedSecond = some s ∧
    s.channel = [] ∧ s.pending = [] ∧
    ¬ ∀ event ∈ s.queue, ∃ columns, s.stored.rows.lookup (keyOf event) = some columns ∧
      columns.count = event.count ∧ columns.lastSeenAt = event.lastSeenAt.toNat := by
  let counts (s : SecurityLog) (event : SecurityEvent) :=
    (event.count, (s.stored.rows.lookup (keyOf event)).map (·.count))
  have hrun : ((securityMachine.run securityMachine.init crowdedSecond).map fun s =>
      (s.channel.length, s.pending.length, s.queue.head?.map (counts s))) =
        some (0, 0, some (1, some 2)) := by
    decide +kernel
  obtain ⟨s, hs, hend⟩ := Option.map_eq_some_iff.1 hrun
  simp only [Prod.mk.injEq, List.length_eq_zero_iff] at hend
  obtain ⟨hchannel, hpending, hhead⟩ := hend
  refine ⟨s, hs, hchannel, hpending, fun h => ?_⟩
  obtain ⟨event, hevent, hcounts⟩ := Option.map_eq_some_iff.1 hhead
  obtain ⟨columns, hlookup, hcount, -⟩ := h event (List.mem_of_head? hevent)
  obtain ⟨hone, htwo⟩ := Prod.mk.injEq .. ▸ hcounts
  rw [hlookup] at htwo
  cases (Option.some.inj htwo).symm.trans (hcount.trans hone)

end DnsBlackhole.Database
