/-
  The selection of upstreams and their backoff (`dns/upstream.rs`).

  A step is one access of one thread to what the threads share: the flag of an
  upstream, the time of the next half-open probe, and the cursor of the probes.
  Every call of `select_available_upstreams` works with the clock value it has
  read; nothing is assumed about how these values follow each other.

  * `Backoff.step`: a call of `select_available_upstreams` with the loop of
    `try_claim_half_open_probe`, and the stores of `mark_upstream_available` and
    `mark_upstream_unhealthy`;
  * `Selecting.Sound`, `sound_of_reachable`: what a call has selected, from what it
    has read;
  * `Spaced`, `spaced_of_reachable`: the granted probes keep their distance;
  * `probed_of_reachable`: the upstream that the `k`-th probe goes to.
-/
import Mathlib.Algebra.GroupWithZero.Nat
import Mathlib.Data.List.Rotate
import DnsBlackhole.Lib.Machine
import DnsBlackhole.Lib.Threads

namespace DnsBlackhole.Upstream
open Lib (Machine)

def upstreamFailureBackoffSeconds : ℕ := 30
def upstreamHalfOpenProbeIntervalSeconds : ℕ := 5
def maxParallelUpstreamsPerQuery : ℕ := 8

theorem maxParallelUpstreamsPerQuery_pos : 0 < maxParallelUpstreamsPerQuery := by decide

/-- `saturating_add` of a `u64`. -/
def saturatingAdd (a b : ℕ) : ℕ := min (a + b) (2 ^ 64 - 1)

section
variable {υ : Type*}

/-- The upstreams of a pool in the order in which they are tried from `start`. -/
def rotation (pool : List υ) (start : ℕ) : List υ :=
  (List.range pool.length).filterMap fun offset => pool[(start + offset) % pool.length]?

/-! ## A call -/

/-- The arguments of `select_available_upstreams` and the clock value it reads.
    Every `RuntimeUpstream` of a pool has a flag of its own, the callers ask for at
    least one upstream, and `SystemTime` counts its seconds in an `i64`. -/
structure Request (υ : Type*) where
  pool : List υ
  start : ℕ
  limit : ℕ
  now : ℕ
  nodup : pool.Nodup
  limit_pos : 0 < limit
  now_lt : now < 2 ^ 63

inductive SelectPhase (υ : Type*)
  /-- Goes through the flags. -/
  | reading
  /-- In `try_claim_half_open_probe`. -/
  | claiming
  | loaded (probeAfter : ℕ)
  /-- The probe is granted, and the cursor not moved yet. -/
  | granted
  | returned (selected : List υ)
  deriving DecidableEq

/-- A call, with the flags it has read so far. -/
structure Selecting (υ : Type*) where
  request : Request υ
  reads : List (υ × ℕ) := []
  phase : SelectPhase υ := .reading

/-- `is_upstream_temporarily_unhealthy` of a flag. -/
def isTemporarilyUnhealthy (unhealthyUntil now : ℕ) : Bool := decide (now < unhealthyUntil)

namespace Selecting
variable (call : Selecting υ)

def order : List υ := rotation call.request.pool call.request.start

/-- The upstreams that the call has read as healthy. -/
def healthy : List υ :=
  (call.reads.filter fun read => !isTemporarilyUnhealthy read.2 call.request.now).map Prod.fst

/-- The flag that is read next: `take` stops when it has enough. -/
def next? : Option υ :=
  if call.healthy.length < call.request.limit then call.order[call.reads.length]? else none

end Selecting

/-! ## The steps -/

/-- What happens to the time of the next probe. -/
inductive ProbeEvent (υ : Type*)
  | granted (request : Request υ)
  /-- `reset_half_open_probe`. -/
  | reset

structure Backoff (υ : Type*) where
  unhealthyUntil : υ → ℕ
  /-- `HALF_OPEN_PROBE_AFTER`. -/
  probeAfter : ℕ
  /-- `HALF_OPEN_PROBE_CURSOR`. -/
  probeCursor : ℕ
  calls : List (Selecting υ)
  /-- The calls of `mark_upstream_available` between their two stores. -/
  resets : ℕ
  /-- The latest is the first. -/
  log : List (ProbeEvent υ)
  /-- The probes in the order of the cursor, each with its pool. -/
  probes : List (List υ × υ)

inductive BackoffEvent (υ : Type*)
  | select (request : Request υ)
  /-- The call goes on; an exchange may fail without reason. -/
  | goOn (call : ℕ) (spurious : Bool)
  /-- `mark_upstream_available` stores the flag, -/
  | available (upstream : υ)
  /-- and then resets the probe. -/
  | reset
  | unhealthy (upstream : υ) (now : ℕ)

namespace Backoff
variable [DecidableEq υ] (s : Backoff υ)

def setCall (index : ℕ) (call : Selecting υ) : Backoff υ :=
  { s with calls := s.calls.set index call }

def setFlag (upstream : υ) (value : ℕ) : Backoff υ :=
  { s with unhealthyUntil := Function.update s.unhealthyUntil upstream value }

/-- `select_available_upstreams` behind the test for an empty pool, one access at a time. -/
def goOn (index : ℕ) (spurious : Bool) : Option (Backoff υ) :=
  (s.calls[index]?).bind fun call =>
    let goTo (phase : SelectPhase υ) := s.setCall index { call with phase }
    match call.phase with
    | .reading =>
      match call.next? with
      | some upstream =>
        some (s.setCall index
          { call with reads := call.reads ++ [(upstream, s.unhealthyUntil upstream)] })
      | none => some (goTo (if call.healthy = [] then .claiming else .returned call.healthy))
    | .claiming => some (goTo (.loaded s.probeAfter))
    | .loaded probeAfter =>
      if call.request.now < probeAfter then some (goTo (.returned []))
      else if spurious ∨ s.probeAfter ≠ probeAfter then some (goTo (.loaded s.probeAfter))
      else some { goTo .granted with
        probeAfter := saturatingAdd call.request.now upstreamHalfOpenProbeIntervalSeconds
        log := .granted call.request :: s.log }
    | .granted =>
      (call.request.pool[s.probeCursor % call.request.pool.length]?).map fun upstream =>
        { goTo (.returned [upstream]) with
          probeCursor := (s.probeCursor + 1) % 2 ^ 64
          probes := s.probes ++ [(call.request.pool, upstream)] }
    | .returned _ => none

def step : BackoffEvent υ → Option (Backoff υ)
  | .select request =>
    let phase : SelectPhase υ := if request.pool = [] then .returned [] else .reading
    some { s with calls := s.calls ++ [{ request, phase }] }
  | .goOn index spurious => s.goOn index spurious
  | .available upstream => some { s.setFlag upstream 0 with resets := s.resets + 1 }
  | .reset =>
    if s.resets = 0 then none
    else some { s with resets := s.resets - 1, probeAfter := 0, log := .reset :: s.log }
  | .unhealthy upstream now =>
    some (s.setFlag upstream (saturatingAdd now upstreamFailureBackoffSeconds))

end Backoff

/-- The process at its start. -/
def backoffMachine (υ : Type*) [DecidableEq υ] : Machine (Backoff υ) (BackoffEvent υ) where
  init :=
    { unhealthyUntil := fun _ => 0, probeAfter := 0, probeCursor := 0, calls := [],
      resets := 0, log := [], probes := [] }
  step := Backoff.step

/-! ## What a call selects -/

theorem filterMap_getElem? : ∀ pool : List υ,
    ((List.range pool.length).filterMap fun index => pool[index]?) = pool
  | [] => rfl
  | upstream :: pool => by
    rw [List.length_cons, List.range_succ_eq_map, List.filterMap_cons, List.filterMap_map]
    exact congrArg (upstream :: ·) (filterMap_getElem? pool)

theorem rotation_eq (pool : List υ) (start : ℕ) : rotation pool start = pool.rotate start := by
  have hself := filterMap_getElem? (pool.rotate start)
  rw [List.length_rotate] at hself
  rw [← hself]
  refine List.filterMap_congr fun offset hmem => ?_
  rw [List.getElem?_rotate (List.mem_range.1 hmem), Nat.add_comm]

namespace Selecting
variable {call : Selecting υ} {log : List (ProbeEvent υ)}

theorem order_nodup : call.order.Nodup := by
  rw [order, rotation_eq, List.nodup_rotate]
  exact call.request.nodup

theorem mem_order {upstream : υ} : upstream ∈ call.order ↔ upstream ∈ call.request.pool := by
  rw [order, rotation_eq, List.mem_rotate]

/-- The call has read the flag of every upstream, and none was healthy. -/
def FoundNone (call : Selecting υ) : Prop :=
  call.healthy = [] ∧ call.reads.map Prod.fst = call.order

/-- What the phase of a call says about what it has read. -/
def PhaseSound (call : Selecting υ) (log : List (ProbeEvent υ)) : Prop :=
  match call.phase with
  | .reading => True
  | .claiming | .loaded _ => call.FoundNone
  | .granted => call.FoundNone ∧ .granted call.request ∈ log
  | .returned selected =>
    (selected = call.healthy ∧ selected ≠ []) ∨ call.FoundNone ∧ (selected = [] ∨
      ∃ upstream ∈ call.request.pool, selected = [upstream] ∧ .granted call.request ∈ log)

/-- Holds of every call in every state of a run. -/
structure Sound (call : Selecting υ) (log : List (ProbeEvent υ)) : Prop where
  reads_prefix : call.reads.map Prod.fst <+: call.order
  healthy_le : call.healthy.length ≤ call.request.limit
  phase_sound : call.PhaseSound log

theorem Sound.mono (h : call.Sound log) (event : ProbeEvent υ) : call.Sound (event :: log) where
  reads_prefix := h.reads_prefix
  healthy_le := h.healthy_le
  phase_sound := by
    have hphase := h.phase_sound
    unfold PhaseSound at hphase ⊢
    cases hp : call.phase with
    | reading => trivial
    | claiming => rwa [hp] at hphase
    | loaded probeAfter => rwa [hp] at hphase
    | granted =>
      rw [hp] at hphase
      exact ⟨hphase.1, List.mem_cons_of_mem _ hphase.2⟩
    | returned selected =>
      rw [hp] at hphase
      refine hphase.imp_right (And.imp_right (Or.imp_right ?_))
      rintro ⟨upstream, hmem, hselected, hgranted⟩
      exact ⟨upstream, hmem, hselected, List.mem_cons_of_mem _ hgranted⟩

theorem Sound.goTo (h : call.Sound log) {phase : SelectPhase υ}
    (hphase : ({ call with phase } : Selecting υ).PhaseSound log) :
    ({ call with phase } : Selecting υ).Sound log :=
  ⟨h.reads_prefix, h.healthy_le, hphase⟩

theorem next?_eq_some {upstream : υ} (h : call.next? = some upstream) :
    call.healthy.length < call.request.limit ∧ call.order[call.reads.length]? = some upstream := by
  unfold next? at h
  split_ifs at h with hlt
  exact ⟨hlt, h⟩

theorem Sound.foundNone (h : call.Sound log) (hnext : call.next? = none)
    (hnone : call.healthy = []) : call.FoundNone := by
  refine ⟨hnone, h.reads_prefix.eq_of_length_le ?_⟩
  have hlt : call.healthy.length < call.request.limit := hnone ▸ call.request.limit_pos
  rw [next?, if_pos hlt] at hnext
  rw [List.length_map]
  exact List.getElem?_eq_none_iff.1 hnext

theorem Sound.read (h : call.Sound log) {upstream : υ} (hnext : call.next? = some upstream)
    (value : ℕ) : ({ call with
      reads := call.reads ++ [(upstream, value)], phase := .reading } : Selecting υ).Sound log where
  reads_prefix := by
    obtain ⟨rest, hrest⟩ := h.reads_prefix
    have hget := (next?_eq_some hnext).2
    rw [← hrest, List.getElem?_append_right (by rw [List.length_map]), List.length_map,
      Nat.sub_self] at hget
    cases rest with
    | nil => cases hget
    | cons first rest =>
      cases hget
      refine ⟨rest, ?_⟩
      rw [List.map_append, List.append_assoc]
      exact hrest
  healthy_le := by
    have hlt := (next?_eq_some hnext).1
    unfold healthy at hlt ⊢
    rw [List.filter_append, List.map_append, List.length_append]
    refine (Nat.add_le_add_left (?_ : _ ≤ 1) _).trans (Nat.succ_le_of_lt hlt)
    rw [List.length_map]
    exact List.length_filter_le _ _
  phase_sound := trivial

theorem Sound.healthy_sublist (h : call.Sound log) : call.healthy.Sublist call.order :=
  (List.filter_sublist.map _).trans h.reads_prefix.sublist

theorem isTemporarilyUnhealthy_of_healthy_eq_nil (h : call.healthy = []) :
    ∀ read ∈ call.reads, isTemporarilyUnhealthy read.2 call.request.now := by
  intro read hread
  by_contra hhealthy
  have hmem : read.1 ∈ call.healthy :=
    List.mem_map_of_mem (List.mem_filter.2 ⟨hread, by simpa using hhealthy⟩)
  rw [h] at hmem
  cases hmem

theorem Sound.not_unhealthy_of_mem_healthy (h : call.Sound log) {upstream : υ} {value : ℕ}
    (hmem : upstream ∈ call.healthy) (hread : (upstream, value) ∈ call.reads) :
    ¬ isTemporarilyUnhealthy value call.request.now := by
  obtain ⟨read, hfilter, rfl⟩ := List.mem_map.1 hmem
  obtain ⟨hread', hhealthy⟩ := List.mem_filter.1 hfilter
  have hnodup : (call.reads.map Prod.fst).Nodup := order_nodup.sublist h.reads_prefix.sublist
  have heq := List.inj_on_of_nodup_map hnodup hread hread' rfl
  rw [show value = read.2 from congrArg Prod.snd heq]
  simpa using hhealthy

end Selecting

/-! ## The distance of the probes -/

/-- The probes granted since the last reset. -/
def grantedSinceReset : List (ProbeEvent υ) → List (Request υ)
  | .granted request :: log => request :: grantedSinceReset log
  | .reset :: _ => []
  | [] => []

/-- Every probe keeps its distance to those granted since the reset before it. -/
def Spaced : List (ProbeEvent υ) → Prop
  | .granted request :: log =>
    (∀ earlier ∈ grantedSinceReset log,
      earlier.now + upstreamHalfOpenProbeIntervalSeconds ≤ request.now) ∧ Spaced log
  | .reset :: log => Spaced log
  | [] => True

theorem Spaced.of_append {later log : List (ProbeEvent υ)} (h : Spaced (later ++ log)) :
    Spaced log := by
  induction later with
  | nil => exact h
  | cons event later ih =>
    cases event with
    | granted request => exact ih h.2
    | reset => exact ih h

theorem mem_grantedSinceReset {between earlier : List (ProbeEvent υ)} {first : Request υ}
    (h : .reset ∉ between) : first ∈ grantedSinceReset (between ++ .granted first :: earlier) := by
  induction between with
  | nil => exact List.mem_cons_self
  | cons event between ih =>
    rw [List.mem_cons, not_or] at h
    cases event with
    | granted request => exact List.mem_cons_of_mem _ (ih h.2)
    | reset => exact absurd rfl h.1

theorem saturatingAdd_of_lt {now interval : ℕ} (h : now < 2 ^ 63) (hi : interval < 2 ^ 63) :
    saturatingAdd now interval = now + interval := by
  unfold saturatingAdd
  omega

/-! ## What holds in every run -/

namespace Backoff
variable {s : Backoff υ}

/-- Holds in every state of a run. -/
structure Inv (s : Backoff υ) : Prop where
  sound : ∀ call ∈ s.calls, call.Sound s.log
  spaced : Spaced s.log
  waits : ∀ request ∈ grantedSinceReset s.log,
    request.now + upstreamHalfOpenProbeIntervalSeconds ≤ s.probeAfter
  cursor_eq : s.probeCursor = s.probes.length % 2 ^ 64
  pools : ∀ probe ∈ s.probes, probe.1.Nodup
  probed : ∀ index pool upstream, s.probes[index]? = some (pool, upstream) →
    pool[index % 2 ^ 64 % pool.length]? = some upstream

theorem Inv.setCall (h : s.Inv) (index : ℕ) {call : Selecting υ} (hc : call.Sound s.log) :
    (s.setCall index call).Inv where
  sound := Lib.forall_mem_set h.sound hc
  spaced := h.spaced
  waits := h.waits
  cursor_eq := h.cursor_eq
  pools := h.pools
  probed := h.probed

/-- The exchange sees the time that the others have set, also where the clock value
    of the call is old. -/
theorem Inv.grant (h : s.Inv) (index : ℕ) {call : Selecting υ} (hc : call.Sound s.log)
    (hnone : call.FoundNone) (hle : s.probeAfter ≤ call.request.now) :
    ({ s.setCall index { call with phase := .granted } with
        probeAfter := saturatingAdd call.request.now upstreamHalfOpenProbeIntervalSeconds
        log := .granted call.request :: s.log } : Backoff υ).Inv where
  sound := by
    refine Lib.forall_mem_set (fun other hmem => (h.sound other hmem).mono _) ?_
    exact (hc.mono _).goTo ⟨hnone, List.mem_cons_self⟩
  spaced := ⟨fun earlier hmem => (h.waits earlier hmem).trans hle, h.spaced⟩
  waits := by
    intro request hmem
    dsimp only
    rw [saturatingAdd_of_lt call.request.now_lt (by decide)]
    rcases List.mem_cons.1 hmem with rfl | hmem
    · exact Nat.le_refl _
    · exact (h.waits request hmem).trans (hle.trans (Nat.le_add_right _ _))
  cursor_eq := h.cursor_eq
  pools := h.pools
  probed := h.probed

theorem Inv.probe (h : s.Inv) (index : ℕ) {call : Selecting υ} (hc : call.Sound s.log)
    (hgranted : call.FoundNone ∧ .granted call.request ∈ s.log) {upstream : υ}
    (hget : call.request.pool[s.probeCursor % call.request.pool.length]? = some upstream) :
    ({ s.setCall index { call with phase := .returned [upstream] } with
        probeCursor := (s.probeCursor + 1) % 2 ^ 64
        probes := s.probes ++ [(call.request.pool, upstream)] } : Backoff υ).Inv where
  sound := by
    refine Lib.forall_mem_set h.sound (hc.goTo (.inr ⟨hgranted.1, .inr ?_⟩))
    exact ⟨upstream, List.mem_of_getElem? hget, rfl, hgranted.2⟩
  spaced := h.spaced
  waits := h.waits
  cursor_eq := by
    dsimp only
    rw [h.cursor_eq, List.length_append, Nat.mod_add_mod]
    rfl
  pools := by
    intro probe hmem
    rcases List.mem_append.1 hmem with hmem | hmem
    · exact h.pools probe hmem
    · cases List.mem_singleton.1 hmem
      exact call.request.nodup
  probed := by
    intro k pool probed hk
    rcases lt_or_ge k s.probes.length with hlt | hge
    · rw [List.getElem?_append_left hlt] at hk
      exact h.probed k pool probed hk
    · rw [List.getElem?_append_right hge] at hk
      obtain ⟨hlt, heq⟩ := List.getElem?_eq_some_iff.1 hk
      obtain rfl : k = s.probes.length := by
        rw [List.length_singleton] at hlt
        omega
      rw [List.getElem_singleton] at heq
      cases heq
      rw [← h.cursor_eq]
      exact hget

theorem Inv.goOn [DecidableEq υ] (h : s.Inv) {s' : Backoff υ} {index : ℕ} {spurious : Bool}
    (hs : s.goOn index spurious = some s') : s'.Inv := by
  obtain ⟨call, hget, hs⟩ := Option.bind_eq_some_iff.1 hs
  have hc := h.sound call (List.mem_of_getElem? hget)
  have hphase := hc.phase_sound
  unfold Selecting.PhaseSound at hphase
  cases hp : call.phase with
  | reading =>
    rw [hp] at hs
    dsimp only at hs
    cases hnext : call.next? with
    | some upstream =>
      rw [hnext] at hs
      cases hs
      exact h.setCall index (hc.read hnext _)
    | none =>
      rw [hnext] at hs
      cases hs
      refine h.setCall index (hc.goTo ?_)
      by_cases hnone : call.healthy = []
      · have hfound := hc.foundNone hnext hnone
        rw [if_pos hnone]
        exact hfound
      · rw [if_neg hnone]
        exact .inl ⟨rfl, hnone⟩
  | claiming =>
    rw [hp] at hs hphase
    cases hs
    exact h.setCall index (hc.goTo hphase)
  | loaded probeAfter =>
    rw [hp] at hs hphase
    dsimp only at hs hphase
    split_ifs at hs with hlt hfail
    · cases hs
      exact h.setCall index (hc.goTo (.inr ⟨hphase, .inl rfl⟩))
    · cases hs
      exact h.setCall index (hc.goTo hphase)
    · cases hs
      obtain rfl : s.probeAfter = probeAfter := not_not.1 fun hne => hfail (.inr hne)
      exact h.grant index hc hphase (not_lt.1 hlt)
  | granted =>
    rw [hp] at hs hphase
    obtain ⟨upstream, hupstream, hs⟩ := Option.map_eq_some_iff.1 hs
    cases hs
    exact h.probe index hc hphase hupstream
  | returned selected =>
    rw [hp] at hs
    cases hs

theorem Inv.step [DecidableEq υ] (h : s.Inv) {s' : Backoff υ} {event : BackoffEvent υ}
    (hs : s.step event = some s') : s'.Inv := by
  cases event with
  | select request =>
    cases hs
    refine ⟨fun call hmem => ?_, h.spaced, h.waits, h.cursor_eq, h.pools, h.probed⟩
    rcases List.mem_append.1 hmem with hmem | hmem
    · exact h.sound call hmem
    · cases List.mem_singleton.1 hmem
      refine ⟨List.nil_prefix, Nat.zero_le _, ?_⟩
      by_cases hpool : request.pool = []
      · rw [if_pos hpool]
        refine .inr ⟨⟨rfl, ?_⟩, .inl rfl⟩
        rw [Selecting.order, rotation_eq, hpool]
        rfl
      · rw [if_neg hpool]
        trivial
  | goOn index spurious => exact h.goOn hs
  | available upstream =>
    cases hs
    exact ⟨h.sound, h.spaced, h.waits, h.cursor_eq, h.pools, h.probed⟩
  | reset =>
    unfold Backoff.step at hs
    split_ifs at hs
    cases hs
    exact ⟨fun call hmem => (h.sound call hmem).mono _, h.spaced, nofun, h.cursor_eq, h.pools, h.probed⟩
  | unhealthy upstream now =>
    cases hs
    exact ⟨h.sound, h.spaced, h.waits, h.cursor_eq, h.pools, h.probed⟩

theorem inv_of_reachable [DecidableEq υ] (h : (backoffMachine υ).Reachable s) : s.Inv := by
  refine h.inv (P := Inv) ?_ fun s event s' hinv hs => hinv.step hs
  exact ⟨nofun, trivial, nofun, rfl, nofun, fun index pool upstream hget => by cases hget⟩

/-! ## The bound -/

theorem Inv.selected (h : s.Inv) {call : Selecting υ} (hmem : call ∈ s.calls) {selected : List υ}
    (hreturned : call.phase = .returned selected) :
    selected.Sublist call.order ∧ selected.length ≤ call.request.limit ∧
      ∀ upstream ∈ selected, ∀ value, (upstream, value) ∈ call.reads →
        isTemporarilyUnhealthy value call.request.now →
          selected = [upstream] ∧ .granted call.request ∈ s.log ∧ call.FoundNone := by
  have hc := h.sound call hmem
  have hphase := hc.phase_sound
  unfold Selecting.PhaseSound at hphase
  rw [hreturned] at hphase
  rcases hphase with ⟨rfl, -⟩ | ⟨hnone, rfl | ⟨probed, hpool, rfl, hgranted⟩⟩
  · refine ⟨hc.healthy_sublist, hc.healthy_le, fun upstream hup value hread hun => ?_⟩
    exact absurd hun (hc.not_unhealthy_of_mem_healthy hup hread)
  · exact ⟨List.nil_sublist _, Nat.zero_le _, nofun⟩
  · refine ⟨List.singleton_sublist.2 (Selecting.mem_order.2 hpool), call.request.limit_pos, ?_⟩
    intro upstream hup _ _ _
    cases List.mem_singleton.1 hup
    exact ⟨rfl, hgranted, hnone⟩

theorem Inv.distance (h : s.Inv) {later between earlier : List (ProbeEvent υ)}
    {first second : Request υ}
    (hlog : s.log = later ++ .granted second :: (between ++ .granted first :: earlier))
    (hbetween : .reset ∉ between) :
    first.now + upstreamHalfOpenProbeIntervalSeconds ≤ second.now := by
  have hspaced := h.spaced
  rw [hlog] at hspaced
  exact hspaced.of_append.1 first (mem_grantedSinceReset hbetween)

/-- **Backoff is bounded**: what a call returns, and the distance of two granted probes
    without a success in between, in every state of every run. -/
theorem backoff_bounded [DecidableEq υ] (h : (backoffMachine υ).Reachable s) :
    (∀ call ∈ s.calls, ∀ selected, call.phase = .returned selected →
      selected.Nodup ∧ selected.length ≤ call.request.limit ∧
      selected.Sublist (rotation call.request.pool call.request.start) ∧
      ∀ upstream ∈ selected, ∀ value, (upstream, value) ∈ call.reads →
        isTemporarilyUnhealthy value call.request.now →
          selected = [upstream] ∧ .granted call.request ∈ s.log ∧
          call.reads.map Prod.fst = rotation call.request.pool call.request.start ∧
          ∀ read ∈ call.reads, isTemporarilyUnhealthy read.2 call.request.now) ∧
    ∀ later between earlier first second,
      s.log = later ++ .granted second :: (between ++ .granted first :: earlier) →
      .reset ∉ between → first.now + upstreamHalfOpenProbeIntervalSeconds ≤ second.now := by
  have hinv := inv_of_reachable h
  refine ⟨fun call hmem selected hreturned => ?_, fun _ _ _ _ _ => hinv.distance⟩
  obtain ⟨hsublist, hle, hprobe⟩ := hinv.selected hmem hreturned
  refine ⟨Selecting.order_nodup.sublist hsublist, hle, hsublist, ?_⟩
  intro upstream hup value hread hun
  obtain ⟨heq, hgranted, hnone, hall⟩ := hprobe upstream hup value hread hun
  exact ⟨heq, hgranted, hall, Selecting.isTemporarilyUnhealthy_of_healthy_eq_nil hnone⟩

end Backoff

/-- The events of a call that nobody disturbs, as far as a granted probe. -/
def probing (request : Request υ) (index : ℕ) : List (BackoffEvent υ) :=
  .select request :: List.replicate (request.pool.length + 4) (.goOn index false)

end

/-- Both upstreams fail, and three calls follow, the second of them too early. -/
def outage : List (BackoffEvent ℕ) :=
  let request (now : ℕ) (h : now < 2 ^ 63) : Request ℕ :=
    ⟨[4, 7], 1, maxParallelUpstreamsPerQuery, now, by decide,
      maxParallelUpstreamsPerQuery_pos, h⟩
  [.unhealthy 4 1000, .unhealthy 7 1000] ++ probing (request 1000 (by decide)) 0 ++
    (probing (request 1004 (by decide)) 1).dropLast ++
    probing (request 1005 (by decide)) 2

/-- The second probe of the outage comes five seconds after the first, to the other
    upstream. -/
theorem backoff_bounded_outage : ∃ s : Backoff ℕ,
    (backoffMachine ℕ).run (backoffMachine ℕ).init outage = some s ∧
    (∃ first second, s.log = [.granted second, .granted first] ∧
      first.now + 5 ≤ second.now) ∧
    ∃ call ∈ s.calls, call.phase = .returned [7] ∧
      ∀ read ∈ call.reads, isTemporarilyUnhealthy read.2 call.request.now := by
  refine ⟨_, rfl, ⟨_, _, rfl, ?_⟩, _, .tail _ (.tail _ (.head _)), rfl, ?_⟩
  · exact (Backoff.backoff_bounded ⟨outage, rfl⟩).2 [] [] [] _ _ rfl nofun
  · exact ((Backoff.backoff_bounded ⟨outage, rfl⟩).1 _ (.tail _ (.tail _ (.head _))) _ rfl).2.2.2
      7 List.mem_cons_self 1030 (.head _) rfl |>.2.2.2

end DnsBlackhole.Upstream
