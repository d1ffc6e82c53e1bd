/-
  Whether the rules for clients hold on every socket (`bind_listener_pair` in
  `dns/server.rs`).

  A socket of IPv6 that is not for IPv6 only reports an IPv4 client by its mapped address,
  and no rule for the client is looked up by any other address than the reported one.

  * `maxByKey_filter_eq_iff`, `verdicts_agree_iff`: when a list of rules, and the check of
    access, have the same to say of two addresses;
  * `sameTreatment_iff`: a client and its mapped address are treated alike if nothing is
    said of either;
  * `clients_treatedAlike`: which configurations treat every client alike.
-/
import DnsBlackhole.Filter.RateLimits
import DnsBlackhole.Service.Runs

namespace DnsBlackhole

/-- `::ffff:a.b.c.d` -/
def Ipv4Addr.toIpv6Mapped (a : Ipv4Addr) : Ipv6Addr :=
  ⟨[0, 0, 0, 0, 0, 0xffff, Protocol.u16OfBytes a.first a.second,
    Protocol.u16OfBytes a.third a.fourth], rfl⟩

namespace Filter
open Lib

/-! ## Rules of two addresses -/

section
variable {α β : Type} (key : α → ℕ) {items : List α}

theorem maxByKey_of_ne_nil (h : items ≠ []) : ∃ found ∈ items, maxByKey key items = some found := by
  have hspec := maxByKey_spec key items
  cases hfound : maxByKey key items with
  | none =>
    rw [hfound] at hspec
    exact absurd hspec h
  | some found =>
    rw [hfound] at hspec
    exact ⟨found, hspec.1, rfl⟩

variable {key} in
theorem mem_of_maxByKey {found : α} (h : maxByKey key items = some found) : found ∈ items := by
  have hspec := maxByKey_spec key items
  rw [h] at hspec
  exact hspec.1

/-- If no item for `p` gives the same as one for `q`, the best items give the same only if
    there are none. -/
theorem maxByKey_filter_eq_iff {p q : α → Bool} {f : α → β}
    (hapart : ∀ a ∈ items, ∀ b ∈ items, p a → q b → f a ≠ f b) :
    (maxByKey key (items.filter p)).map f = (maxByKey key (items.filter q)).map f ↔
      ∀ a ∈ items, p a = false ∧ q a = false := by
  constructor
  · intro heq
    have hp : items.filter p = [] := by
      by_contra hne
      obtain ⟨a, ha, hbest⟩ := maxByKey_of_ne_nil key hne
      rw [hbest, Option.map_some] at heq
      obtain ⟨b, hb, hfb⟩ := Option.map_eq_some_iff.1 heq.symm
      have hb := List.mem_filter.1 (mem_of_maxByKey hb)
      exact hapart a (List.mem_filter.1 ha).1 b hb.1 (List.mem_filter.1 ha).2 hb.2 hfb.symm
    have hq : items.filter q = [] := by
      by_contra hne
      obtain ⟨b, -, hbest⟩ := maxByKey_of_ne_nil key hne
      rw [hp, hbest] at heq
      cases heq
    intro a ha
    exact ⟨Bool.eq_false_iff.2 (List.filter_eq_nil_iff.1 hp a ha),
      Bool.eq_false_iff.2 (List.filter_eq_nil_iff.1 hq a ha)⟩
  · intro hnone
    rw [List.filter_eq_nil_iff.2 fun a ha => Bool.eq_false_iff.1 (hnone a ha).1,
      List.filter_eq_nil_iff.2 fun a ha => Bool.eq_false_iff.1 (hnone a ha).2]

end

theorem IpNetwork.not_contains_both {network : IpNetwork} {a : Ipv4Addr} {b : Ipv6Addr}
    (ha : network.contains (.v4 a)) (hb : network.contains (.v6 b)) : False := by
  simp only [contains, ipParts, Bool.and_eq_true, beq_iff_eq] at ha hb
  cases ha.1.trans hb.1.symm

/-! ## Access -/

/-- What a decision is, without its message. -/
inductive Verdict
  | allow
  | deny
  | rateLimited
  deriving DecidableEq

def ClientAccessDecision.verdict : ClientAccessDecision → Verdict
  | allow => .allow
  | deny _ => .deny
  | rateLimited _ => .rateLimited

namespace ClientAccess
variable {access : ClientAccess} {ip : IpAddr}

/-- The lists refuse the client. -/
def denies (access : ClientAccess) (ip : IpAddr) : Bool :=
  access.blocked.«matches» ip || (access.allowed.hasRules && !access.allowed.«matches» ip)

theorem check_of_denies (h : access.denies ip = true) (now : ℕ) :
    (access.check ip now).1.verdict = .deny ∧ (access.check ip now).2 = access := by
  rw [denies, Bool.or_eq_true, Bool.and_eq_true, Bool.not_eq_true'] at h
  rw [check]
  split_ifs with hblocked hallowed
  · exact ⟨rfl, rfl⟩
  · exact ⟨rfl, rfl⟩
  · exact absurd ⟨(h.resolve_left hblocked).1, Bool.eq_false_iff.1 (h.resolve_left hblocked).2⟩
      hallowed

theorem check_of_not_denies (h : access.denies ip = false) (now : ℕ) :
    access.check ip now = match access.rateLimiter with
      | none => (.allow, access)
      | some limiter =>
        (if (limiter.allow ip now).1 then .allow
          else .rateLimited ("客户端 ".toList ++ ip.display ++ " 触发每秒 ".toList ++
            Nat.toDigits 10 (limiter.allow ip now).2.limitPerSecond ++
            " 次持续查询限速（已用完 ".toList ++ Nat.toDigits 10 rateLimiterBurstSeconds ++
            " 秒突发容量）".toList),
          { access with rateLimiter := some (limiter.allow ip now).2 }) := by
  rw [denies, Bool.or_eq_false_iff, Bool.and_eq_false_iff, Bool.not_eq_false'] at h
  have hallowed : ¬ (access.allowed.hasRules ∧ ¬ access.allowed.«matches» ip) := by
    rintro ⟨hrules, hmatches⟩
    rcases h.2 with hrules' | hmatches'
    · rw [hrules'] at hrules
      cases hrules
    · exact hmatches hmatches'
  rw [check, if_neg (Bool.eq_false_iff.1 h.1), if_neg hallowed]
  cases access.rateLimiter with
  | none => rfl
  | some limiter =>
    dsimp only
    split_ifs <;> rfl

/-- The state after checks. -/
def after (access : ClientAccess) (calls : List (IpAddr × ℕ)) : ClientAccess :=
  calls.foldl (fun access call => (access.check call.1 call.2).2) access

theorem denies_check (other : IpAddr) (now : ℕ) :
    (access.check other now).2.denies ip = access.denies ip := by
  cases hdenies : access.denies other with
  | true => rw [(check_of_denies hdenies now).2]
  | false =>
    rw [check_of_not_denies hdenies now]
    cases access.rateLimiter with
    | none => rfl
    | some limiter => rfl

theorem denies_after (calls : List (IpAddr × ℕ)) : (access.after calls).denies ip =
    access.denies ip := by
  induction calls generalizing access with
  | nil => rfl
  | cons call calls ih => exact ih.trans (denies_check call.1 call.2)

theorem unlimited_check (h : access.rateLimiter = none) (other : IpAddr) (now : ℕ) :
    (access.check other now).2.rateLimiter = none := by
  cases hdenies : access.denies other with
  | true => rw [(check_of_denies hdenies now).2, h]
  | false =>
    rw [check_of_not_denies hdenies now, h]
    exact h

theorem unlimited_after (h : access.rateLimiter = none) (calls : List (IpAddr × ℕ)) :
    (access.after calls).rateLimiter = none := by
  induction calls generalizing access with
  | nil => exact h
  | cons call calls ih => exact ih (unlimited_check h call.1 call.2)

theorem limiter_check {limiter : ClientRateLimiter} (hdenies : access.denies ip = false)
    (h : access.rateLimiter = some limiter) (now : ℕ) :
    (access.check ip now).2.rateLimiter = some (limiter.allow ip now).2 := by
  rw [check_of_not_denies hdenies now, h]

theorem limiter_after_replicate {limiter : ClientRateLimiter}
    (hdenies : access.denies ip = false) (h : access.rateLimiter = some limiter) (n now : ℕ) :
    (access.after (List.replicate n (ip, now))).rateLimiter =
      some (limiter.after (List.replicate n (ip, now))) := by
  induction n generalizing access limiter with
  | zero => exact h
  | succ n ih => exact ih ((denies_check ip now).trans hdenies) (limiter_check hdenies h now)

theorem verdict_of_unlimited (hdenies : access.denies ip = false) (h : access.rateLimiter = none)
    (now : ℕ) : (access.check ip now).1.verdict = .allow := by
  rw [check_of_not_denies hdenies now, h]
  rfl

theorem verdict_of_limiter {limiter : ClientRateLimiter} (hdenies : access.denies ip = false)
    (h : access.rateLimiter = some limiter) (now : ℕ) :
    (access.check ip now).1.verdict =
      if (limiter.allow ip now).1 then .allow else .rateLimited := by
  rw [check_of_not_denies hdenies now, h]
  dsimp only
  split_ifs <;> rfl

theorem verdict_eq_deny_iff {now : ℕ} :
    (access.check ip now).1.verdict = .deny ↔ access.denies ip = true := by
  constructor
  · intro hdeny
    by_contra hadmits
    rw [Bool.not_eq_true] at hadmits
    cases hlimiter : access.rateLimiter with
    | none =>
      rw [verdict_of_unlimited hadmits hlimiter] at hdeny
      cases hdeny
    | some limiter =>
      rw [verdict_of_limiter hadmits hlimiter] at hdeny
      split_ifs at hdeny
  · exact fun h => (check_of_denies h now).1

end ClientAccess

/-! ## A client that has used its tokens -/

namespace ClientRateLimiter
variable {limit : ℕ} {limiter : ClientRateLimiter} {ip : IpAddr}

theorem length_le_one (honly : ∀ other, other ≠ ip → limiter.clients.lookup other = none) :
    limiter.clients.entries.length ≤ 1 := by
  have hkeys : limiter.clients.keys = List.replicate limiter.clients.keys.length ip := by
    refine List.eq_replicate_iff.2 ⟨rfl, fun other hmem => ?_⟩
    by_contra hne
    exact AList.lookup_eq_none.1 (honly other hne) hmem
  have hlength : limiter.clients.keys.length = limiter.clients.entries.length :=
    List.length_map _
  have hnodup : limiter.clients.keys.Nodup := limiter.clients.nodupKeys
  rw [hkeys, List.nodup_replicate] at hnodup
  exact hlength ▸ hnodup

theorem hasRoom_of_length (h : limiter.clients.entries.length ≤ 1) (ip : IpAddr) (now : ℕ) :
    (limiter.pruneIfDue now).hasRoom ip := by
  have hlength : (limiter.pruneIfDue now).clients.entries.length ≤ 1 := by
    rw [pruneIfDue]
    split_ifs
    · exact (List.length_filter_le _ _).trans h
    · exact h
  rw [hasRoom, Bool.or_eq_true, decide_eq_true_eq]
  exact .inr (hlength.trans_lt (by decide))

/-- One client has called `n` times at the beginning. -/
structure OnlyCaller (limit : ℕ) (ip : IpAddr) (n : ℕ) (limiter : ClientRateLimiter) : Prop where
  inv : Inv limit 0 limiter
  only : ∀ other, other ≠ ip → limiter.clients.lookup other = none
  level_eq : level limit (limiter.clients.lookup ip) 0 = fullTokens limit - n

theorem OnlyCaller.allow {n : ℕ} (h : OnlyCaller limit ip n limiter) :
    OnlyCaller limit ip (n + 1) (limiter.allow ip 0).2 where
  inv := h.inv.allow le_rfl ip
  only other hne := by
    rw [(allow_spec h.inv le_rfl ip).2, if_pos (hasRoom_of_length (length_le_one h.only) ip 0)]
    rw [HashMap.lookup_insert_eq_ite, if_neg hne]
    rcases lookup_pruneIfDue limiter 0 other with hsame | ⟨hnone, -⟩
    · rw [hsame, h.only other hne]
    · exact hnone
  level_eq := by
    have hroom := hasRoom_of_length (length_le_one h.only) ip 0
    rw [level_allow h.inv le_rfl ip ip le_rfl, if_pos ⟨rfl, hroom⟩, level_spent, h.level_eq]
    omega

theorem onlyCaller_after (limit : ℕ) (ip : IpAddr) (n : ℕ) :
    OnlyCaller limit ip n (after ⟨limit, ∅, 0⟩ (List.replicate n (ip, 0))) := by
  induction n with
  | zero =>
    have hnone (other : IpAddr) : (∅ : HashMap IpAddr RateBucket).lookup other = none :=
      AList.lookup_empty other
    exact
      { inv := Inv.init limit
        only := fun other _ => hnone other
        level_eq := rfl }
  | succ n ih =>
    rw [List.replicate_succ', after_concat]
    exact ih.allow

theorem OnlyCaller.allow_eq (h : OnlyCaller limit ip (fullTokens limit) limiter)
    (hlimit : 0 < limit) (other : IpAddr) : (limiter.allow other 0).1 = decide (other ≠ ip) := by
  have hroom := hasRoom_of_length (length_le_one h.only) other 0
  rw [(allow_spec h.inv le_rfl other).1, hroom, Bool.true_and]
  by_cases hne : other = ip
  · rw [hne, h.level_eq, Nat.sub_self]
    simp
  · have hfull : 0 < fullTokens limit := Nat.mul_pos hlimit (by decide)
    rw [h.only other hne, decide_eq_true hne]
    exact decide_eq_true hfull

end ClientRateLimiter

/-- **Access for two addresses**: the verdicts agree in every state if the lists agree, and what
    they do not refuse is not limited. -/
theorem ClientAccess.verdicts_agree_iff {access : ClientAccess} {client peer : IpAddr}
    (P : IpAddr → Prop) (hpeer : P peer) (hne : client ≠ peer)
    (hfresh : ∀ limiter ∈ access.rateLimiter, ∃ limit, 0 < limit ∧ limiter = ⟨limit, ∅, 0⟩) :
    (∀ calls : List (IpAddr × ℕ), (∀ call ∈ calls, P call.1) → ∀ now,
      ((access.after calls).check client now).1.verdict =
        ((access.after calls).check peer now).1.verdict) ↔
    access.denies client = access.denies peer ∧
      (access.denies client = false → access.rateLimiter = none) := by
  constructor
  · intro hagree
    have hnone : access.denies client = false → access.denies peer = false →
        access.rateLimiter = none := by
      intro hclient hadmitted
      cases hlimiter : access.rateLimiter with
      | none => rfl
      | some limiter =>
        exfalso
        obtain ⟨limit, hlimit, rfl⟩ := hfresh limiter hlimiter
        have hstate := limiter_after_replicate hadmitted hlimiter
          (ClientRateLimiter.fullTokens limit) 0
        have honly := ClientRateLimiter.onlyCaller_after limit peer
          (ClientRateLimiter.fullTokens limit)
        have hverdicts := hagree (List.replicate (ClientRateLimiter.fullTokens limit) (peer, 0))
          (fun call hcall => (List.eq_of_mem_replicate hcall) ▸ hpeer) 0
        rw [verdict_of_limiter ((denies_after _).trans hclient) hstate,
          verdict_of_limiter ((denies_after _).trans hadmitted) hstate, honly.allow_eq hlimit,
          honly.allow_eq hlimit, decide_eq_true hne, if_pos rfl] at hverdicts
        rw [if_neg (by simp)] at hverdicts
        cases hverdicts
    have hdenies : access.denies client = access.denies peer := by
      have hverdicts := hagree [] (fun call hcall => absurd hcall List.not_mem_nil) 0
      change (access.check client 0).1.verdict = (access.check peer 0).1.verdict at hverdicts
      rw [Bool.eq_iff_iff, ← verdict_eq_deny_iff, ← verdict_eq_deny_iff, hverdicts]
    exact ⟨hdenies, fun hclient => hnone hclient (hdenies ▸ hclient)⟩
  · rintro ⟨hdenies, hlimiter⟩ calls - now
    cases hclient : access.denies client with
    | true =>
      have hpeer : access.denies peer = true := hdenies ▸ hclient
      rw [(check_of_denies ((denies_after calls).trans hclient) now).1,
        (check_of_denies ((denies_after calls).trans hpeer) now).1]
    | false =>
      have hpeer : access.denies peer = false := hdenies ▸ hclient
      have hunlimited := unlimited_after (hlimiter hclient) calls
      rw [verdict_of_unlimited ((denies_after calls).trans hclient) hunlimited,
        verdict_of_unlimited ((denies_after calls).trans hpeer) hunlimited]

end Filter

namespace Service
open Admin (AppConfig)
open Config
open Filter
open Lib hiding Runs

/-! ## Sockets -/

/-- The address by which a socket reports a client that reaches it. -/
def Listener.peer (listener : Listener) (client : IpAddr) : Option IpAddr :=
  match listener.addr.ip, client with
  | .v4 _, .v4 a => some (.v4 a)
  | .v6 _, .v6 a => some (.v6 a)
  | .v6 _, .v4 a => if listener.ipv6Only then none else some (.v6 a.toIpv6Mapped)
  | .v4 _, .v6 _ => none

/-- The queries of `client` arrive as those of `peer`, where `reaches` tells which addresses
    a client can send to. -/
def Arrives (reaches : IpAddr → IpAddr → Prop) (server : DnsServer) (client peer : IpAddr) : Prop :=
  ∃ listener ∈ server.parameters.listeners, reaches listener.addr.ip client ∧
    listener.peer client = some peer

def RuntimeRoutes.routes (routes : RuntimeRoutes) : UpstreamRoutes where
  domains := routes.domains.map Prod.fst
  clients := routes.clients.map Prod.fst

/-- A time that a clock shows. -/
def OnClock (now : LocalTime) : Prop := now.weekday < 7 ∧ now.minute < 24 * 60

/-- The server does the same for `client` as for `peer`: in every state that its peers lead
    to, at every time, and for every domain. -/
structure SameTreatment (reaches : IpAddr → IpAddr → Prop) (server : DnsServer)
    (client peer : IpAddr) : Prop where
  access : ∀ calls : List (IpAddr × ℕ),
    (∀ call ∈ calls, ∃ other, Arrives reaches server other call.1) → ∀ now,
      ((server.parameters.access.after calls).check client now).1.verdict =
        ((server.parameters.access.after calls).check peer now).1.verdict
  filtering : ∀ now, OnClock now →
    server.filterRuntime.clientFiltering.decisionAt client now =
      server.filterRuntime.clientFiltering.decisionAt peer now
  route : ∀ domain, server.parameters.upstreamRoutes.routes.select domain client =
    server.parameters.upstreamRoutes.routes.select domain peer

def isActive (rule : ClientFilteringRule) (now : LocalTime) : Bool :=
  rule.schedule.all fun schedule => scheduleIsActive schedule now

/-- Nothing in the configuration is about the client, neither by its address nor by the mapped
    one, unless both are refused. -/
structure Unruled (server : DnsServer) (a : Ipv4Addr) : Prop where
  denied : server.parameters.access.denies (.v4 a) =
    server.parameters.access.denies (.v6 a.toIpv6Mapped)
  unlimited : server.parameters.access.denies (.v4 a) = false →
    server.parameters.access.rateLimiter = none
  unfiltered : ∀ rule ∈ server.filterRuntime.clientFiltering.rules, ∀ now, OnClock now →
    isActive rule now → rule.network.contains (.v4 a) = false ∧
      rule.network.contains (.v6 a.toIpv6Mapped) = false
  unrouted : ∀ route ∈ server.parameters.upstreamRoutes.clients,
    route.1.network.contains (.v4 a) = false ∧
      route.1.network.contains (.v6 a.toIpv6Mapped) = false

variable {env : Environment} {config : AppConfig} {server : DnsServer}
  {reaches : IpAddr → IpAddr → Prop}

/-! ## What a server is built with -/

theorem fresh_limiter {access : ClientAccess} (h : clientAccess config = .ok access) :
    ∀ limiter ∈ access.rateLimiter, ∃ limit, 0 < limit ∧ limiter = ⟨limit, ∅, 0⟩ := by
  obtain ⟨allowed, -, h⟩ := bind_eq_ok.1 h
  obtain ⟨blocked, -, h⟩ := bind_eq_ok.1 h
  cases pure_eq_ok.1 h
  intro limiter hlimiter
  dsimp only at hlimiter
  split_ifs at hlimiter with hpos
  · cases hlimiter
    exact ⟨config.rateLimitPerSecond.toNat, UInt32.lt_iff_toNat_lt.1 hpos, rfl⟩
  · cases hlimiter

theorem rule_network {policies : ClientFilteringPolicies}
    (h : clientFilteringPolicies config = .ok policies) : ∀ rule ∈ policies.rules,
      parseIpNetwork rule.source "客户端过滤策略".toList = .ok rule.network := by
  obtain ⟨groups, -, h⟩ := bind_eq_ok.1 h
  obtain ⟨services, -, h⟩ := bind_eq_ok.1 h
  obtain ⟨specs, -, h⟩ := bind_eq_ok.1 h
  obtain ⟨rules, hrules, h⟩ := bind_eq_ok.1 h
  cases pure_eq_ok.1 h
  intro rule hmem
  obtain ⟨spec, -, hrule⟩ := exists_of_mem_mapM hrules hmem
  obtain ⟨profile, -, hrule⟩ := bind_eq_ok.1 hrule
  obtain ⟨network, hnetwork, hrule⟩ := bind_eq_ok.1 hrule
  cases pure_eq_ok.1 hrule
  exact hnetwork

theorem route_keys {routes : RuntimeRoutes} (h : upstreamRoutes env config = .ok routes) :
    (∀ route ∈ routes.clients, ∃ network : Text,
      route.1.pool.key = "client:".toList ++ network ∧
        parseIpNetwork network "客户端上游策略".toList = .ok route.1.network) ∧
    ∀ route ∈ routes.domains, ∃ pattern : Text,
      route.1.pool.key = "domain:".toList ++ pattern := by
  obtain ⟨bootstrap, -, h⟩ := bind_eq_ok.1 h
  obtain ⟨domains, -, h⟩ := bind_eq_ok.1 h
  obtain ⟨specs, -, h⟩ := bind_eq_ok.1 h
  obtain ⟨clients, hclients, h⟩ := bind_eq_ok.1 h
  cases pure_eq_ok.1 h
  constructor
  · intro route hmem
    obtain ⟨spec, -, hroute⟩ := exists_of_mem_mapM hclients hmem
    obtain ⟨network, hnetwork, hroute⟩ := bind_eq_ok.1 hroute
    cases pure_eq_ok.1 hroute
    exact ⟨spec.network, rfl, hnetwork⟩
  · intro route hmem
    obtain ⟨spec, -, rfl⟩ := List.mem_map.1 hmem
    exact ⟨_, List.append_assoc _ _ _⟩

/-! ## Rules that match one address only -/

/-- The rules for clients decide the same of both addresses if no active one has either. -/
theorem decisionAt_eq_iff {policies : ClientFilteringPolicies}
    (h : clientFilteringPolicies config = .ok policies) (a : Ipv4Addr) (now : LocalTime) :
    policies.decisionAt (.v4 a) now = policies.decisionAt (.v6 a.toIpv6Mapped) now ↔
      ∀ rule ∈ policies.rules, isActive rule now →
        rule.network.contains (.v4 a) = false ∧
          rule.network.contains (.v6 a.toIpv6Mapped) = false := by
  have hapart : ∀ rule ∈ policies.rules, ∀ other ∈ policies.rules,
      (rule.network.contains (.v4 a) && isActive rule now) →
      (other.network.contains (.v6 a.toIpv6Mapped) && isActive other now) →
        rule.source ≠ other.source := by
    intro rule hrule other hother hcontains hcontains' hsource
    have hnetwork := rule_network h rule hrule
    rw [hsource, rule_network h other hother] at hnetwork
    rw [Except.ok.injEq] at hnetwork
    exact IpNetwork.not_contains_both (Bool.and_eq_true _ _ ▸ hcontains).1
      (hnetwork ▸ (Bool.and_eq_true _ _ ▸ hcontains').1)
  have hsources := maxByKey_filter_eq_iff
    (fun rule : ClientFilteringRule => rule.network.prefixLen) hapart
  have hsame : (∀ rule ∈ policies.rules, isActive rule now →
      rule.network.contains (.v4 a) = false ∧
        rule.network.contains (.v6 a.toIpv6Mapped) = false) ↔
      ∀ rule ∈ policies.rules, (rule.network.contains (.v4 a) && isActive rule now) = false ∧
        (rule.network.contains (.v6 a.toIpv6Mapped) && isActive rule now) = false := by
    refine forall₂_congr fun rule _ => ?_
    cases isActive rule now <;> simp
  rw [hsame]
  constructor
  · exact fun hdecision => hsources.1 (congrArg ClientFilteringDecision.source hdecision)
  · intro hnone
    have hfilter (ip : IpAddr)
        (hip : ∀ rule ∈ policies.rules, (rule.network.contains ip && isActive rule now) = false) :
        policies.rules.filter (fun rule => rule.network.contains ip &&
          rule.schedule.all fun schedule => scheduleIsActive schedule now) = [] :=
      List.filter_eq_nil_iff.2 fun rule hrule => Bool.eq_false_iff.1 (hip rule hrule)
    rw [ClientFilteringPolicies.decisionAt, ClientFilteringPolicies.decisionAt,
      hfilter _ fun rule hrule => (hnone rule hrule).1,
      hfilter _ fun rule hrule => (hnone rule hrule).2]

theorem select_eq_or (routes : UpstreamRoutes) (domain : Text) (client : IpAddr) :
    routes.select domain client =
      ((maxByKey (fun route : ClientRoute => route.network.prefixLen)
        (routes.clients.filter fun route => route.network.contains client)).map
          ClientRoute.pool).or (routes.selectDomain domain) := by
  rw [UpstreamRoutes.select]
  split <;> rename_i hbest <;> rw [hbest] <;> rfl

theorem or_eq_or_iff {α : Type} {x y d : Option α} (hx : ∀ a ∈ x, some a ≠ d)
    (hy : ∀ a ∈ y, some a ≠ d) : x.or d = y.or d ↔ x = y := by
  cases x with
  | none =>
    cases y with
    | none => exact iff_of_true rfl rfl
    | some b => exact iff_of_false (hy b rfl).symm (Option.some_ne_none b).symm
  | some a =>
    cases y with
    | none => exact iff_of_false (hx a rfl) (Option.some_ne_none a)
    | some b => exact Iff.rfl

theorem select_eq_iff {routes : RuntimeRoutes} (h : upstreamRoutes env config = .ok routes)
    (a : Ipv4Addr) (domain : Text) :
    routes.routes.select domain (.v4 a) = routes.routes.select domain (.v6 a.toIpv6Mapped) ↔
      ∀ route ∈ routes.clients, route.1.network.contains (.v4 a) = false ∧
        route.1.network.contains (.v6 a.toIpv6Mapped) = false := by
  obtain ⟨hclients, hdomains⟩ := route_keys h
  have hclients : ∀ route ∈ routes.routes.clients, ∃ network : Text,
      route.pool.key = "client:".toList ++ network ∧
        parseIpNetwork network "客户端上游策略".toList = .ok route.network := by
    intro route hroute
    obtain ⟨built, hbuilt, rfl⟩ := List.mem_map.1 hroute
    exact hclients built hbuilt
  have hapart : ∀ route ∈ routes.routes.clients, ∀ other ∈ routes.routes.clients,
      route.network.contains (.v4 a) → other.network.contains (.v6 a.toIpv6Mapped) →
        route.pool ≠ other.pool := by
    intro route hroute other hother hcontains hcontains' hpool
    obtain ⟨network, hkey, hnetwork⟩ := hclients route hroute
    obtain ⟨network', hkey', hnetwork'⟩ := hclients other hother
    rw [hpool, hkey', List.append_cancel_left_eq] at hkey
    rw [← hkey, hnetwork', Except.ok.injEq] at hnetwork
    exact IpNetwork.not_contains_both hcontains (hnetwork ▸ hcontains')
  have hdomain (p : ClientRoute → Bool) : ∀ pool ∈ (maxByKey
      (fun route : ClientRoute => route.network.prefixLen)
      (routes.routes.clients.filter p)).map ClientRoute.pool,
      some pool ≠ routes.routes.selectDomain domain := by
    intro pool hpool heq
    obtain ⟨route, hroute, rfl⟩ := Option.map_eq_some_iff.1 hpool
    obtain ⟨network, hkey, -⟩ := hclients route (List.mem_filter.1 (mem_of_maxByKey hroute)).1
    obtain ⟨found, hfound, hpool⟩ := Option.map_eq_some_iff.1 heq.symm
    obtain ⟨built, hbuilt, rfl⟩ := List.mem_map.1
      (List.mem_filter.1 (mem_of_maxByKey hfound)).1
    obtain ⟨pattern, hpattern⟩ := hdomains built hbuilt
    rw [hpool, hkey] at hpattern
    cases hpattern
  rw [select_eq_or, select_eq_or, or_eq_or_iff (hdomain _) (hdomain _),
    maxByKey_filter_eq_iff _ hapart]
  constructor
  · exact fun hnone route hroute => hnone route.1 (List.mem_map_of_mem hroute)
  · intro hnone route hroute
    obtain ⟨built, hbuilt, rfl⟩ := List.mem_map.1 hroute
    exact hnone built hbuilt

/-! ## Clients of IPv4 on a socket of IPv6 -/

/-- The socket of the configuration is for IPv6, but not for IPv6 only, and the client
    reaches it. -/
def Mapped (reaches : IpAddr → IpAddr → Prop) (config : AppConfig) (a : Ipv4Addr) : Prop :=
  config.listenIpv6 = false ∧ ∃ host, parseIpAddr config.listenHost.trim = some (.v6 host) ∧
    reaches (.v6 host) (.v4 a)

theorem listenSocketAddr_ip {addr : SocketAddr} (h : listenSocketAddr config = .ok addr) :
    parseIpAddr config.listenHost.trim = some addr.ip := by
  obtain ⟨-, h⟩ := require_bind_eq_ok.1 h
  obtain ⟨-, h⟩ := require_bind_eq_ok.1 h
  obtain ⟨ip, hip, h⟩ := bind_eq_ok.1 h
  cases pure_eq_ok.1 h
  exact okOr_eq_ok.1 hip

theorem listeners_cases {sockets : List Listener} (h : listeners config = .ok sockets) :
    (config.listenIpv6 = false ∧ ∃ addr, parseIpAddr config.listenHost.trim = some addr.ip ∧
      sockets = [⟨addr, false⟩]) ∨
    config.listenIpv6 = true ∧ ∀ socket ∈ sockets, ∀ host, socket.addr.ip = .v6 host →
      socket.ipv6Only = true := by
  obtain ⟨addrs, haddrs, h⟩ := bind_eq_ok.1 h
  cases pure_eq_ok.1 h
  obtain ⟨addr, haddr, haddrs⟩ := bind_eq_ok.1 haddrs
  cases hipv6 : config.listenIpv6 with
  | false =>
    rw [hipv6] at haddrs
    cases pure_eq_ok.1 haddrs
    refine .inl ⟨rfl, addr, listenSocketAddr_ip haddr, ?_⟩
    rw [List.map_singleton, Bool.and_false]
  | true =>
    refine .inr ⟨rfl, ?_⟩
    intro socket hsocket host hhost
    obtain ⟨addr, -, rfl⟩ := List.mem_map.1 hsocket
    change (isIpv6 addr.ip && true) = true
    rw [show addr.ip = .v6 host from hhost]
    rfl

theorem parts_of_buildServer (hserver : buildServer env config = .ok server) :
    listeners config = .ok server.parameters.listeners ∧
      upstreamRoutes env config = .ok server.parameters.upstreamRoutes ∧
      clientAccess config = .ok server.parameters.access ∧
      clientFilteringPolicies config = .ok server.filterRuntime.clientFiltering := by
  obtain ⟨-, hparameters, hruntime, -⟩ := buildServer_eq_ok.1 hserver
  obtain ⟨policies, hpolicies, hruntime⟩ := bind_eq_ok.1 hruntime
  obtain ⟨sockets, hsockets, h⟩ := bind_eq_ok.1 hparameters
  obtain ⟨bootstrap, -, h⟩ := bind_eq_ok.1 h
  obtain ⟨upstreams, -, h⟩ := bind_eq_ok.1 h
  obtain ⟨fallbacks, -, h⟩ := bind_eq_ok.1 h
  obtain ⟨routes, hroutes, h⟩ := bind_eq_ok.1 h
  obtain ⟨access, haccess, h⟩ := bind_eq_ok.1 h
  obtain ⟨monitoring, -, h⟩ := bind_eq_ok.1 h
  rw [hsockets, hroutes, haccess, hpolicies, ← pure_eq_ok.1 h, ← pure_eq_ok.1 hruntime]
  exact ⟨rfl, rfl, rfl, rfl⟩

theorem Listener.peer_of_v4 {listener : Listener} {b : Ipv4Addr} (h : listener.addr.ip = .v4 b)
    (a : Ipv4Addr) : listener.peer (.v4 a) = some (.v4 a) := by
  unfold Listener.peer
  rw [h]

theorem Listener.peer_of_v6 {listener : Listener} {host : Ipv6Addr}
    (h : listener.addr.ip = .v6 host) (a : Ipv4Addr) : listener.peer (.v4 a) =
      if listener.ipv6Only then none else some (.v6 a.toIpv6Mapped) := by
  unfold Listener.peer
  rw [h]

theorem arrives_cases (hserver : buildServer env config = .ok server) {a : Ipv4Addr} {peer : IpAddr}
    (h : Arrives reaches server (.v4 a) peer) :
    peer = .v4 a ∨ peer = .v6 a.toIpv6Mapped ∧ Mapped reaches config a := by
  obtain ⟨socket, hsocket, hreaches, hpeer⟩ := h
  cases hip : socket.addr.ip with
  | v4 b =>
    rw [Listener.peer_of_v4 hip] at hpeer
    exact .inl (Option.some.inj hpeer).symm
  | v6 host =>
    rw [Listener.peer_of_v6 hip] at hpeer
    rw [hip] at hreaches
    rcases listeners_cases (parts_of_buildServer hserver).1 with ⟨hipv6, addr, haddr, hsockets⟩ |
      ⟨-, honly⟩
    · rw [hsockets, List.mem_singleton] at hsocket
      rw [hsocket] at hpeer hip
      exact .inr ⟨(Option.some.inj hpeer).symm, hipv6, host, haddr.trans (congrArg some hip),
        hreaches⟩
    · rw [honly socket hsocket host hip, if_pos rfl] at hpeer
      cases hpeer

theorem arrives_of_mapped (hserver : buildServer env config = .ok server) {a : Ipv4Addr}
    (h : Mapped reaches config a) : Arrives reaches server (.v4 a) (.v6 a.toIpv6Mapped) := by
  obtain ⟨hipv6, host, hhost, hreaches⟩ := h
  rcases listeners_cases (parts_of_buildServer hserver).1 with
    ⟨-, addr, haddr, hsockets⟩ | ⟨htrue, -⟩
  · have hip : addr.ip = .v6 host := Option.some.inj (haddr.symm.trans hhost)
    refine ⟨⟨addr, false⟩, hsockets ▸ List.mem_singleton_self _, hip ▸ hreaches, ?_⟩
    exact Listener.peer_of_v6 hip a
  · rw [hipv6] at htrue
    cases htrue

/-! ## Which clients are treated alike -/

theorem sameTreatment_refl (client : IpAddr) : SameTreatment reaches server client client where
  access _ _ _ := rfl
  filtering _ _ := rfl
  route _ := rfl

/-- **A client and its mapped address** are treated alike if nothing is said of either. -/
theorem sameTreatment_iff (hserver : buildServer env config = .ok server) {a : Ipv4Addr}
    (h : Mapped reaches config a) :
    SameTreatment reaches server (.v4 a) (.v6 a.toIpv6Mapped) ↔ Unruled server a := by
  have harrives := arrives_of_mapped hserver h
  obtain ⟨-, hroutes, haccess, hpolicies⟩ := parts_of_buildServer hserver
  have hne : IpAddr.v4 a ≠ .v6 a.toIpv6Mapped := by
    intro heq
    cases heq
  have hverdicts := ClientAccess.verdicts_agree_iff
    (fun peer => ∃ other, Arrives reaches server other peer) ⟨_, harrives⟩ hne
    (fresh_limiter haccess)
  constructor
  · intro halike
    have hlists := hverdicts.1 halike.access
    exact
      { denied := hlists.1
        unlimited := hlists.2
        unfiltered := fun rule hrule now hnow hactive =>
          (decisionAt_eq_iff hpolicies a now).1 (halike.filtering now hnow) rule hrule hactive
        unrouted := (select_eq_iff hroutes a []).1 (halike.route []) }
  · intro hunruled
    exact
      { access := hverdicts.2 ⟨hunruled.denied, hunruled.unlimited⟩
        filtering := fun now hnow => (decisionAt_eq_iff hpolicies a now).2
          fun rule hrule => hunruled.unfiltered rule hrule now hnow
        route := fun domain => (select_eq_iff hroutes a domain).2 hunruled.unrouted }

/-- **Every client of IPv4 is treated as on a socket of IPv4**, whatever socket it uses, if
    nothing is said of those that reach a socket which is for both. -/
theorem clients_treatedAlike (hserver : buildServer env config = .ok server)
    (reaches : IpAddr → IpAddr → Prop) :
    (∀ (a : Ipv4Addr) (peer : IpAddr), Arrives reaches server (.v4 a) peer →
      SameTreatment reaches server (.v4 a) peer) ↔
    ∀ a : Ipv4Addr, Mapped reaches config a → Unruled server a := by
  constructor
  · exact fun halike a hmapped =>
      (sameTreatment_iff hserver hmapped).1 (halike a _ (arrives_of_mapped hserver hmapped))
  · intro hunruled a peer harrives
    rcases arrives_cases hserver harrives with rfl | ⟨rfl, hmapped⟩
    · exact sameTreatment_refl _
    · exact (sameTreatment_iff hserver hmapped).2 (hunruled a hmapped)

/-- One client is refused, at a socket for each family. -/
def refusingConfig : AppConfig :=
  { enabledCookie with
    blockedClients := "192.168.1.5".toList
    listenIpv6 := true
    listenIpv6Host := "::".toList }

/-- The same, at one address of IPv6 for clients of both families. -/
def dualConfig : AppConfig :=
  { refusingConfig with
    listenHost := "::".toList
    listenIpv6 := false }

/-- With a socket for each family, the rules hold on both. -/
theorem clients_treatedAlike_refusing : ∃ server : DnsServer,
    buildServer noLists refusingConfig = .ok server ∧
      ∀ (a : Ipv4Addr) (peer : IpAddr), Arrives (fun _ _ => True) server (.v4 a) peer →
        SameTreatment (fun _ _ => True) server (.v4 a) peer := by
  have hbuilt : (buildServer noLists refusingConfig).toOption.isSome = true := by decide +kernel
  obtain ⟨server, hserver⟩ := Option.isSome_iff_exists.1 hbuilt
  have hserver := toOption_eq_some.1 hserver
  refine ⟨server, hserver, (clients_treatedAlike hserver _).2 ?_⟩
  rintro a ⟨hipv6, -⟩
  cases hipv6

/-- **A refused client is served** at an address for both families. -/
theorem refused_client_served : ¬ ∀ (env : Environment) (config : AppConfig) (server : DnsServer)
    (reaches : IpAddr → IpAddr → Prop), buildServer env config = .ok server →
      ∀ (a : Ipv4Addr) (peer : IpAddr), Arrives reaches server (.v4 a) peer →
        SameTreatment reaches server (.v4 a) peer := by
  intro hall
  have hbuilt : ((buildServer noLists dualConfig).toOption.map fun server =>
      (server.parameters.access.denies (.v4 ⟨192, 168, 1, 5⟩),
        server.parameters.access.denies (.v6 (Ipv4Addr.toIpv6Mapped ⟨192, 168, 1, 5⟩)))) =
      some (true, false) := by decide +kernel
  obtain ⟨server, hserver, hdenies⟩ := Option.map_eq_some_iff.1 hbuilt
  have hserver := toOption_eq_some.1 hserver
  have hhost : parseIpAddr dualConfig.listenHost.trim =
      some (.v6 ⟨[0, 0, 0, 0, 0, 0, 0, 0], rfl⟩) := by decide +kernel
  have hmapped : Mapped (fun _ _ => True) dualConfig ⟨192, 168, 1, 5⟩ :=
    ⟨rfl, _, hhost, trivial⟩
  have halike := hall noLists dualConfig server (fun _ _ => True) hserver _ _
    (arrives_of_mapped hserver hmapped)
  have hdenied := ((sameTreatment_iff hserver hmapped).1 halike).denied
  obtain ⟨hv4, hv6⟩ := Prod.mk.inj hdenies
  rw [hv4, hv6] at hdenied
  cases hdenied

end Service

end DnsBlackhole
