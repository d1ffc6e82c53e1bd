/-
  The rotation of the half-open probes over the pools (`dns/upstream.rs`).

  All pools move one cursor, and each takes it modulo its own number of upstreams.

  * `probes_rotate_iff`: when consecutive probes of a pool go to different upstreams;
  * `probes_not_rotating`: two pools that take turns.
-/
import DnsBlackhole.Upstream.Backoff

namespace DnsBlackhole.Upstream

section
variable {υ : Type*}

/-- A probe of a pool: its upstream, and how many probes all pools had been granted
    before. -/
structure Probe (υ : Type*) where
  upstream : υ
  earlier : ℕ

namespace Backoff
variable {s : Backoff υ}

/-- The probes of a pool, in order. -/
def probesOf [DecidableEq υ] (s : Backoff υ) (pool : List υ) : List (Probe υ) :=
  s.probes.zipIdx.filterMap fun probe =>
    if probe.1.1 = pool then some ⟨probe.1.2, probe.2⟩ else none

variable [DecidableEq υ] {pool : List υ} {probe : Probe υ}

theorem mem_probesOf :
    probe ∈ s.probesOf pool ↔ s.probes[probe.earlier]? = some (pool, probe.upstream) := by
  unfold probesOf
  rw [List.mem_filterMap]
  constructor
  · rintro ⟨⟨⟨pool', upstream⟩, index⟩, hmem, hprobe⟩
    split_ifs at hprobe with heq
    cases heq
    cases hprobe
    exact List.mem_zipIdx_iff_getElem?.1 hmem
  · intro hget
    exact ⟨((pool, probe.upstream), probe.earlier), List.mem_zipIdx_iff_getElem?.2 hget,
      if_pos rfl⟩

theorem Inv.getElem?_of_mem_probesOf (h : s.Inv) (hmem : probe ∈ s.probesOf pool) :
    pool[probe.earlier % 2 ^ 64 % pool.length]? = some probe.upstream :=
  h.probed _ _ _ (mem_probesOf.1 hmem)

theorem Inv.nodup_of_mem_probesOf (h : s.Inv) (hmem : probe ∈ s.probesOf pool) : pool.Nodup :=
  h.pools _ (List.mem_of_getElem? (mem_probesOf.1 hmem))

/-- Two probes of a pool go to one upstream exactly if they find the cursor at values that
    are congruent. -/
theorem Inv.upstream_eq_iff (h : s.Inv) {first second : Probe υ}
    (hfirst : first ∈ s.probesOf pool) (hsecond : second ∈ s.probesOf pool) :
    first.upstream = second.upstream ↔
      first.earlier % 2 ^ 64 % pool.length = second.earlier % 2 ^ 64 % pool.length := by
  have hget₁ := h.getElem?_of_mem_probesOf hfirst
  have hget₂ := h.getElem?_of_mem_probesOf hsecond
  constructor
  · intro heq
    rw [← heq, ← hget₁] at hget₂
    have hlt := (List.getElem?_eq_some_iff.1 hget₁).1
    exact (List.getElem?_inj hlt (h.nodup_of_mem_probesOf hfirst)).1 hget₂.symm
  · intro heq
    rw [heq] at hget₁
    exact Option.some.inj (hget₁.symm.trans hget₂)

/-- **The rotation of a pool**: consecutive probes of a pool go to different upstreams
    exactly if the numbers of probes that were granted before them, to all pools, are
    pairwise different modulo the size of the pool. -/
theorem probes_rotate_iff (h : (backoffMachine υ).Reachable s) (pool : List υ)
    (window : List (Probe υ)) (hwindow : window <:+: s.probesOf pool) :
    (window.map (·.upstream)).Nodup ↔
      window.Pairwise fun first second =>
        first.earlier % 2 ^ 64 % pool.length ≠ second.earlier % 2 ^ 64 % pool.length := by
  have hinv := inv_of_reachable h
  rw [List.Nodup, List.pairwise_map]
  refine List.Pairwise.iff_of_mem fun hfirst hsecond => not_congr ?_
  exact hinv.upstream_eq_iff (hwindow.subset hfirst) (hwindow.subset hsecond)

end Backoff

end

theorem probedPools_nodup : ([0, 1] : List ℕ).Nodup ∧ ([2, 3] : List ℕ).Nodup := by decide

theorem probeClock_lt (now : Fin 2000) : now.val < 2 ^ 63 := by omega

/-- Two pools whose upstreams stay in backoff are probed in turn. -/
def probesInTurn : List (BackoffEvent ℕ) :=
  let primary (now : ℕ) (h : now < 2 ^ 63) : Request ℕ :=
    ⟨[0, 1], 0, maxParallelUpstreamsPerQuery, now, probedPools_nodup.1,
      maxParallelUpstreamsPerQuery_pos, h⟩
  let fallback : Request ℕ :=
    ⟨[2, 3], 0, maxParallelUpstreamsPerQuery, 1005, probedPools_nodup.2,
      maxParallelUpstreamsPerQuery_pos, probeClock_lt 1005⟩
  [.unhealthy 0 1000, .unhealthy 1 1000, .unhealthy 2 1000, .unhealthy 3 1000] ++
    probing (primary 1000 (probeClock_lt 1000)) 0 ++ probing fallback 1 ++
    probing (primary 1010 (probeClock_lt 1010)) 2

/-- The second pool takes every other value of the cursor, and both probes of the first
    pool go to its first upstream. -/
theorem probes_not_rotating : ¬ ∀ s : Backoff ℕ, (backoffMachine ℕ).Reachable s →
    ∀ pool : List ℕ,
      (∀ call ∈ s.calls, call.request.pool = pool →
        ∀ read ∈ call.reads, isTemporarilyUnhealthy read.2 call.request.now) →
      ∀ window, window <:+: s.probesOf pool → window.length = pool.length →
        (window.map (·.upstream)).Nodup := by
  intro h
  have hnodup := h _ ⟨probesInTurn, rfl⟩ [0, 1] (by decide) [⟨0, 0⟩, ⟨0, 2⟩]
    (List.infix_refl _) rfl
  revert hnodup
  decide

/-- The two probes of the first pool, when the pools take turns. -/
theorem probes_rotate_inTurn : ∃ s : Backoff ℕ,
    (backoffMachine ℕ).run (backoffMachine ℕ).init probesInTurn = some s ∧
    ¬ (([⟨0, 0⟩, ⟨0, 2⟩] : List (Probe ℕ)).map (·.upstream)).Nodup := by
  refine ⟨_, rfl, ?_⟩
  have hiff := Backoff.probes_rotate_iff ⟨probesInTurn, rfl⟩ [0, 1] [⟨0, 0⟩, ⟨0, 2⟩]
    (List.infix_refl _)
  rw [hiff]
  decide

end DnsBlackhole.Upstream
