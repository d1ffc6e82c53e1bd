/-
  The configurations that are accepted while the system DNS is managed, on Linux
  (`validate_managed_config`) and on Windows (`validate_managed_system_dns_config`).

  * `validateAsManaged_eq_ok`, `validateManagedOnWindows_eq_ok`: what is asked, field by field;
  * `accepts_migrateLegacyDefaults`: migrating keeps a configuration accepted;
  * `accepts_adoptSettings`: so does saving it, unless an old configuration brings IPv6
    back with an address that the previous one had.
-/
import DnsBlackhole.Linux.Checks
import DnsBlackhole.Service.Concurrent

namespace DnsBlackhole.Service
open Admin (AppConfig)
open Config
open Linux (SystemDnsState checkListenIpv4 checkListenIpv6 containsLoopbackTarget localIpv4
  validateAsManaged validateTakeoverConfig)
open Lib (bind_eq_ok mapError_eq_ok)
open Protocol (u16OfBytes)

/-! ## The checks -/

/-- `validate_system_dns_config` (`rpc_server.rs`), on Windows. -/
def validateSystemDnsConfig (config : AppConfig) : Except Text Unit := do
  require (config.listenPort = 53) "接管系统 DNS 前，请将 DNS 监听端口设置为 53".toList
  let listenHost ← okOr (parseIpv4Addr config.listenHost.trim)
    "接管系统 DNS 前，监听地址必须是 0.0.0.0 或 127.0.0.1".toList
  require (listenHost.isUnspecified ∨ listenHost = localIpv4)
    "接管系统 DNS 前，监听地址必须是 0.0.0.0 或 127.0.0.1".toList
  require (config.listenIpv6 = true)
    "接管系统 DNS 前，请启用 IPv6 双栈监听，避免 IPv6 DNS 绕过过滤".toList

/-- What `validate_managed_system_dns_config` asks for where the system DNS is managed. -/
def validateManagedOnWindows (config : AppConfig) : Except Text Unit := do
  require (config.enabled = true)
    "系统 DNS 正由 DnsBlackhole 接管，请先恢复原 DNS，再关闭自动运行".toList
  (validateSystemDnsConfig config).mapError
    ("系统 DNS 正由 DnsBlackhole 接管，请先恢复原 DNS。".toList ++ ·)

/-- What says on each platform whether the system DNS is managed. -/
inductive SystemDns
  | linux (journal : Option SystemDnsState)
  | windows (backupManaged : Bool)

namespace SystemDns

def managed : SystemDns → Bool
  | linux journal => journal.any SystemDnsState.managed
  | windows backupManaged => backupManaged

/-- What is asked of a configuration where it is managed. -/
def check : SystemDns → AppConfig → Except Text Unit
  | linux _ => validateAsManaged
  | windows _ => validateManagedOnWindows

/-- `validate_managed_config` and `validate_managed_system_dns_config`. -/
def validateManaged (dns : SystemDns) (config : AppConfig) : Except Text Unit :=
  if dns.managed then dns.check config else .ok ()

/-- `ensure_system_dns_not_managed` -/
def ensureNotManaged (dns : SystemDns) : Except Text Unit :=
  require (¬dns.managed) (match dns with
    | linux _ => "系统 DNS 正由 DnsBlackhole 管理，请先执行 system-dns restore".toList
    | windows _ => "系统 DNS 正由 DnsBlackhole 接管，请先在设置中恢复原 DNS，再停止服务".toList)

/-- The configuration is accepted by the check. -/
def Accepts (dns : SystemDns) (config : AppConfig) : Prop := dns.check config = .ok ()

end SystemDns

/-! ## What is asked -/

theorem forM_eq_ok {α : Type} {l : List α} {f : α → Except Text Unit} :
    l.forM f = .ok () ↔ ∀ a ∈ l, f a = .ok () := by
  induction l with
  | nil => exact iff_of_true rfl fun _ h => absurd h List.not_mem_nil
  | cons a l ih =>
    rw [List.forall_mem_cons, ← ih]
    constructor
    · intro h
      obtain ⟨⟨⟩, ha, hl⟩ := bind_eq_ok.1 h
      exact ⟨ha, hl⟩
    · rintro ⟨ha, hl⟩
      exact bind_eq_ok.2 ⟨(), ha, hl⟩

/-- The address is that of all addresses, or of the local host. -/
def CoversLoopback (address : Option Ipv4Addr) : Prop :=
  ∃ a, address = some a ∧ (a.isUnspecified = true ∨ a = localIpv4)

structure AcceptedOnLinux (config : AppConfig) : Prop where
  enabled : config.enabled = true
  listenPort : config.listenPort = 53
  listenIpv4 : checkListenIpv4 config.listenHost = .ok ()
  listenIpv6 : checkListenIpv6 config.listenIpv6 config.listenIpv6Host = .ok ()
  upstream : containsLoopbackTarget config.upstreamDns = false
  fallback : containsLoopbackTarget config.fallbackDns = false
  bootstrap : containsLoopbackTarget config.bootstrapDns = false
  domains : containsLoopbackTarget config.domainUpstreamRules = false
  clients : containsLoopbackTarget config.clientUpstreamRules = false

structure AcceptedOnWindows (config : AppConfig) : Prop where
  enabled : config.enabled = true
  listenPort : config.listenPort = 53
  listenIpv4 : CoversLoopback (parseIpv4Addr config.listenHost.trim)
  listenIpv6 : config.listenIpv6 = true

theorem validateAsManaged_eq_ok {config : AppConfig} :
    validateAsManaged config = .ok () ↔ AcceptedOnLinux config := by
  unfold validateAsManaged
  rw [require_bind_eq_ok, require_bind_eq_ok, mapError_eq_ok]
  unfold validateTakeoverConfig
  constructor
  · rintro ⟨henabled, hport, h⟩
    obtain ⟨⟨⟩, hipv4, h⟩ := bind_eq_ok.1 h
    obtain ⟨⟨⟩, hipv6, h⟩ := bind_eq_ok.1 h
    have hservers : ∀ text ∈ Linux.serverTexts config, containsLoopbackTarget text.2 = false :=
      fun text hmem => Bool.eq_false_of_not_eq_true (require_eq_ok.1 (forM_eq_ok.1 h text hmem))
    simp only [Linux.serverTexts, List.forall_mem_cons] at hservers
    obtain ⟨hupstream, hfallback, hbootstrap, hdomains, hclients, -⟩ := hservers
    exact ⟨henabled, hport, hipv4, hipv6, hupstream, hfallback, hbootstrap, hdomains, hclients⟩
  · intro h
    refine ⟨h.enabled, h.listenPort, bind_eq_ok.2 ⟨(), h.listenIpv4, bind_eq_ok.2
      ⟨(), h.listenIpv6, forM_eq_ok.2 fun text hmem => require_eq_ok.2 ?_⟩⟩⟩
    have hservers : ∀ text ∈ Linux.serverTexts config, containsLoopbackTarget text.2 = false := by
      simp only [Linux.serverTexts, List.forall_mem_cons]
      exact ⟨h.upstream, h.fallback, h.bootstrap, h.domains, h.clients,
        fun _ h => absurd h List.not_mem_nil⟩
    exact Bool.not_eq_true _ ▸ hservers text hmem

theorem validateManagedOnWindows_eq_ok {config : AppConfig} :
    validateManagedOnWindows config = .ok () ↔ AcceptedOnWindows config := by
  unfold validateManagedOnWindows
  rw [require_bind_eq_ok, mapError_eq_ok]
  unfold validateSystemDnsConfig
  rw [require_bind_eq_ok]
  constructor
  · rintro ⟨henabled, hport, h⟩
    obtain ⟨address, haddress, h⟩ := bind_eq_ok.1 h
    obtain ⟨hcovers, h⟩ := require_bind_eq_ok.1 h
    exact ⟨henabled, hport, ⟨address, okOr_eq_ok.1 haddress, hcovers⟩, require_eq_ok.1 h⟩
  · rintro ⟨henabled, hport, ⟨address, haddress, hcovers⟩, hipv6⟩
    exact ⟨henabled, hport, bind_eq_ok.2 ⟨address, okOr_eq_ok.2 haddress,
      require_bind_eq_ok.2 ⟨hcovers, require_eq_ok.2 hipv6⟩⟩⟩

/-! ## What stays accepted -/

/-- What the checks look at is the same. -/
structure SameResolver (config config' : AppConfig) : Prop where
  enabled : config'.enabled = config.enabled
  listenPort : config'.listenPort = config.listenPort
  listenHost : config'.listenHost = config.listenHost
  listenIpv6 : config'.listenIpv6 = config.listenIpv6
  listenIpv6Host : config'.listenIpv6Host = config.listenIpv6Host
  upstream : config'.upstreamDns = config.upstreamDns
  fallback : config'.fallbackDns = config.fallbackDns
  bootstrap : config'.bootstrapDns = config.bootstrapDns
  domains : config'.domainUpstreamRules = config.domainUpstreamRules
  clients : config'.clientUpstreamRules = config.clientUpstreamRules

section
variable {config config' : AppConfig}

theorem AcceptedOnLinux.of_same (h : AcceptedOnLinux config) (hsame : SameResolver config config') :
    AcceptedOnLinux config' where
  enabled := hsame.enabled.trans h.enabled
  listenPort := hsame.listenPort.trans h.listenPort
  listenIpv4 := hsame.listenHost ▸ h.listenIpv4
  listenIpv6 := by
    rw [hsame.listenIpv6, hsame.listenIpv6Host]
    exact h.listenIpv6
  upstream := hsame.upstream ▸ h.upstream
  fallback := hsame.fallback ▸ h.fallback
  bootstrap := hsame.bootstrap ▸ h.bootstrap
  domains := hsame.domains ▸ h.domains
  clients := hsame.clients ▸ h.clients

theorem AcceptedOnWindows.of_same (h : AcceptedOnWindows config)
    (hsame : SameResolver config config') : AcceptedOnWindows config' where
  enabled := hsame.enabled.trans h.enabled
  listenPort := hsame.listenPort.trans h.listenPort
  listenIpv4 := hsame.listenHost ▸ h.listenIpv4
  listenIpv6 := hsame.listenIpv6.trans h.listenIpv6

theorem loopback_defaults : containsLoopbackTarget defaultFallbackDns = false ∧
    containsLoopbackTarget defaultBootstrapDns = false := by
  decide +kernel

theorem checkListenIpv4_all : checkListenIpv4 "0.0.0.0".toList = .ok () := by
  have hchecked : (checkListenIpv4 "0.0.0.0".toList).toOption = some () := by decide +kernel
  exact Lib.toOption_eq_some.1 hchecked

theorem checkListenIpv6_all (listenIpv6 : Bool) :
    checkListenIpv6 listenIpv6 "::".toList = .ok () := by
  have hchecked : (checkListenIpv6 listenIpv6 "::".toList).toOption = some () := by
    cases listenIpv6 <;> decide +kernel
  exact Lib.toOption_eq_some.1 hchecked

theorem checkListenIpv6_and {listenIpv6 : Bool} {listenIpv6Host : Text} (b : Bool)
    (h : checkListenIpv6 listenIpv6 listenIpv6Host = .ok ()) :
    checkListenIpv6 (b && listenIpv6) listenIpv6Host = .ok () := by
  cases b with
  | false => rfl
  | true => exact h

theorem acceptedOnLinux_rewrite {rewriting : Rewriting}
    (hmem : rewriting ∈ firstRewritings ++ lastRewritings) (h : AcceptedOnLinux config) :
    AcceptedOnLinux (rewriting.rewrite config) := by
  simp only [firstRewritings, lastRewritings, List.cons_append, List.nil_append, List.mem_cons,
    List.not_mem_nil, or_false] at hmem
  obtain ⟨henabled, hport, hipv4, hipv6, hupstream, hfallback, hbootstrap, hdomains, hclients⟩ := h
  rcases hmem with rfl | rfl | rfl | rfl | rfl | rfl | rfl | rfl | rfl | rfl | rfl
  · exact ⟨henabled, hport, hipv4, checkListenIpv6_all _, hupstream, hfallback, hbootstrap,
      hdomains, hclients⟩
  · exact ⟨henabled, hport, hipv4, hipv6, hupstream, hfallback, hbootstrap, hdomains, hclients⟩
  · exact ⟨henabled, hport, hipv4, hipv6, hupstream, hfallback, hbootstrap, hdomains, hclients⟩
  · dsimp only
    split_ifs
    · exact ⟨henabled, hport, checkListenIpv4_all, hipv6, hupstream, hfallback, hbootstrap,
        hdomains, hclients⟩
    · exact ⟨henabled, hport, hipv4, hipv6, hupstream, hfallback, hbootstrap, hdomains, hclients⟩
  · exact ⟨henabled, hport, hipv4, checkListenIpv6_and _ hipv6, hupstream, hfallback, hbootstrap,
      hdomains, hclients⟩
  · exact ⟨henabled, hport, hipv4, hipv6, hupstream, hfallback, hbootstrap, hdomains, hclients⟩
  · exact ⟨henabled, hport, hipv4, hipv6, hupstream, hfallback, hbootstrap, hdomains, hclients⟩
  · refine ⟨henabled, hport, hipv4, hipv6, hupstream, ?_, ?_, hdomains, hclients⟩
    · dsimp only
      split_ifs
      · exact loopback_defaults.1
      · exact hfallback
    · dsimp only
      split_ifs
      · exact loopback_defaults.2
      · exact hbootstrap
  · exact ⟨henabled, hport, hipv4, hipv6, hupstream, hfallback, hbootstrap, hdomains, hclients⟩
  · exact ⟨henabled, hport, hipv4, hipv6, hupstream, hfallback, hbootstrap, hdomains, hclients⟩
  · refine ⟨henabled, hport, hipv4, hipv6, hupstream, ?_, hbootstrap, hdomains, hclients⟩
    dsimp only
    split_ifs
    · exact loopback_defaults.1
    · exact hfallback

theorem parseIpv6Addr_of_ipv4 {t : Text} {a : Ipv4Addr} (h : parseIpv4Addr t = some a) :
    parseIpv6Addr t = none := by
  unfold parseIpv4Addr at h
  split_ifs at h with hlen
  unfold parseWith at h
  obtain ⟨⟨b, rest⟩, hread, -⟩ := Option.bind_eq_some_iff.1 h
  have hgroups : readGroups 8 8 t =
      (([u16OfBytes b.first b.second, u16OfBytes b.third b.fourth], true), rest) := by
    rw [readGroups, if_pos (by decide), readSeparator, if_neg (by decide), hread]
  unfold parseIpv6Addr parseWith readIpv6Addr
  rw [hgroups]
  rfl

theorem coversLoopback_all : CoversLoopback (parseIpv4Addr (Text.trim "0.0.0.0".toList)) := by
  refine ⟨⟨0, 0, 0, 0⟩, ?_, .inl rfl⟩
  decide +kernel

theorem acceptedOnWindows_rewrite {rewriting : Rewriting}
    (hmem : rewriting ∈ firstRewritings ++ lastRewritings) (h : AcceptedOnWindows config) :
    AcceptedOnWindows (rewriting.rewrite config) := by
  simp only [firstRewritings, lastRewritings, List.cons_append, List.nil_append, List.mem_cons,
    List.not_mem_nil, or_false] at hmem
  obtain ⟨henabled, hport, hipv4, hipv6⟩ := h
  rcases hmem with rfl | rfl | rfl | rfl | rfl | rfl | rfl | rfl | rfl | rfl | rfl
  case inr.inr.inr.inl =>
    dsimp only
    split_ifs
    · exact ⟨henabled, hport, coversLoopback_all, hipv6⟩
    · exact ⟨henabled, hport, hipv4, hipv6⟩
  case inr.inr.inr.inr.inl =>
    obtain ⟨address, haddress, -⟩ := id hipv4
    refine ⟨henabled, hport, hipv4, ?_⟩
    dsimp only
    rw [parseIpv6Addr_of_ipv4 haddress, hipv6]
    rfl
  all_goals exact ⟨henabled, hport, hipv4, hipv6⟩

variable {dns : SystemDns}

theorem accepts_of_same (h : dns.Accepts config) (hsame : SameResolver config config') :
    dns.Accepts config' := by
  cases dns with
  | linux journal =>
    exact validateAsManaged_eq_ok.2 ((validateAsManaged_eq_ok.1 h).of_same hsame)
  | windows backupManaged =>
    exact validateManagedOnWindows_eq_ok.2 ((validateManagedOnWindows_eq_ok.1 h).of_same hsame)

theorem accepts_rewrite {rewriting : Rewriting}
    (hmem : rewriting ∈ firstRewritings ++ lastRewritings) (h : dns.Accepts config) :
    dns.Accepts (rewriting.rewrite config) := by
  cases dns with
  | linux journal =>
    exact validateAsManaged_eq_ok.2 (acceptedOnLinux_rewrite hmem (validateAsManaged_eq_ok.1 h))
  | windows backupManaged =>
    exact validateManagedOnWindows_eq_ok.2
      (acceptedOnWindows_rewrite hmem (validateManagedOnWindows_eq_ok.1 h))

theorem listenPort_of_accepts (h : dns.Accepts config) : config.listenPort = 53 := by
  cases dns with
  | linux journal => exact (validateAsManaged_eq_ok.1 h).listenPort
  | windows backupManaged => exact (validateManagedOnWindows_eq_ok.1 h).listenPort

/-- **Migrating keeps a configuration accepted.** -/
theorem accepts_migrateLegacyDefaults (h : dns.Accepts config) :
    dns.Accepts (migrateLegacyDefaults config) := by
  have hfirst : dns.Accepts (firstRewritings.foldl Rewriting.run config) :=
    foldl_run_inv (P := dns.Accepts)
      (fun _ hmem _ h => accepts_rewrite (List.mem_append_left _ hmem) h) h
  have hmdns : rewriteMdnsPort (firstRewritings.foldl Rewriting.run config) =
      firstRewritings.foldl Rewriting.run config := by
    refine if_neg fun hlistens => ?_
    cases (listenPort_of_accepts hfirst).symm.trans hlistens.2
  have hlast : dns.Accepts (lastRewritings.foldl Rewriting.run
      (firstRewritings.foldl Rewriting.run config)) :=
    foldl_run_inv (P := dns.Accepts)
      (fun _ hmem _ h => accepts_rewrite (List.mem_append_right _ hmem) h) hfirst
  unfold migrateLegacyDefaults
  dsimp only
  rw [hmdns]
  generalize lastRewritings.foldl Rewriting.run (firstRewritings.foldl Rewriting.run config) =
    migrated at hlast ⊢
  exact accepts_of_same hlast ⟨rfl, rfl, rfl, rfl, rfl, rfl, rfl, rfl, rfl, rfl⟩

end

/-! ## What is stored of a submission -/

/-- The address of IPv6 that is kept for a submission that does not know it is accepted. -/
def SystemDns.AcceptsKept (dns : SystemDns) (previous submitted : AppConfig) : Prop :=
  match dns with
  | .linux _ => submitted.schemaVersion < 18 →
      checkListenIpv6 (migrateLegacyDefaults submitted).listenIpv6 previous.listenIpv6Host = .ok ()
  | .windows _ => True

section
variable {config config' previous submitted : AppConfig} {dns : SystemDns}

theorem SameResolver.symm (h : SameResolver config config') : SameResolver config' config where
  enabled := h.enabled.symm
  listenPort := h.listenPort.symm
  listenHost := h.listenHost.symm
  listenIpv6 := h.listenIpv6.symm
  listenIpv6Host := h.listenIpv6Host.symm
  upstream := h.upstream.symm
  fallback := h.fallback.symm
  bootstrap := h.bootstrap.symm
  domains := h.domains.symm
  clients := h.clients.symm

theorem accepts_congr (h : SameResolver config config') :
    dns.Accepts config ↔ dns.Accepts config' :=
  ⟨fun hconfig => accepts_of_same hconfig h, fun hconfig => accepts_of_same hconfig h.symm⟩

theorem SameResolver.trans {config'' : AppConfig} (h : SameResolver config config')
    (h' : SameResolver config' config'') : SameResolver config config'' where
  enabled := h'.enabled.trans h.enabled
  listenPort := h'.listenPort.trans h.listenPort
  listenHost := h'.listenHost.trans h.listenHost
  listenIpv6 := h'.listenIpv6.trans h.listenIpv6
  listenIpv6Host := h'.listenIpv6Host.trans h.listenIpv6Host
  upstream := h'.upstream.trans h.upstream
  fallback := h'.fallback.trans h.fallback
  bootstrap := h'.bootstrap.trans h.bootstrap
  domains := h'.domains.trans h.domains
  clients := h'.clients.trans h.clients

theorem sameResolver_ite (p : Prop) [Decidable p] (keep : AppConfig → AppConfig)
    (hkeep : ∀ config, SameResolver config (keep config)) (config : AppConfig) :
    SameResolver config (if p then keep config else config) := by
  split_ifs
  · exact hkeep config
  · exact ⟨rfl, rfl, rfl, rfl, rfl, rfl, rfl, rfl, rfl, rfl⟩

theorem SameResolver.keepIpv6Host (h : SameResolver config config') (p : Prop) [Decidable p]
    (previous : AppConfig) : SameResolver (if p then keepIpv6Host previous config else config)
      (if p then keepIpv6Host previous config' else config') := by
  split_ifs
  · exact ⟨h.enabled, h.listenPort, h.listenHost, h.listenIpv6, rfl, h.upstream, h.fallback,
      h.bootstrap, h.domains, h.clients⟩
  · exact h

theorem sameResolver_adoptSettings (previous submitted : AppConfig) :
    SameResolver (if submitted.schemaVersion < 18 then
      keepIpv6Host previous (migrateLegacyDefaults submitted) else migrateLegacyDefaults submitted)
      (adoptSettings previous submitted) := by
  have hstatistics := sameResolver_ite (submitted.schemaVersion < 11) (keepStatistics previous)
    (fun _ => ⟨rfl, rfl, rfl, rfl, rfl, rfl, rfl, rfl, rfl, rfl⟩)
  have hpolicies := sameResolver_ite (submitted.schemaVersion < 16) (keepPolicies previous)
    (fun _ => ⟨rfl, rfl, rfl, rfl, rfl, rfl, rfl, rfl, rfl, rfl⟩)
  have hsessions := sameResolver_ite (submitted.schemaVersion < 19) (keepSessions previous)
    (fun _ => ⟨rfl, rfl, rfl, rfl, rfl, rfl, rfl, rfl, rfl, rfl⟩)
  exact (((hstatistics _).trans (hpolicies _)).keepIpv6Host _ previous).trans (hsessions _)

theorem accepts_keepIpv6Host (h : dns.Accepts config) :
    dns.Accepts (keepIpv6Host previous config) ↔ match dns with
      | .linux _ => checkListenIpv6 config.listenIpv6 previous.listenIpv6Host = .ok ()
      | .windows _ => True := by
  cases dns with
  | linux journal =>
    have haccepted := validateAsManaged_eq_ok.1 h
    constructor
    · exact fun hkept => (validateAsManaged_eq_ok.1 hkept).listenIpv6
    · intro hipv6
      exact validateAsManaged_eq_ok.2 ⟨haccepted.enabled, haccepted.listenPort,
        haccepted.listenIpv4, hipv6, haccepted.upstream, haccepted.fallback, haccepted.bootstrap,
        haccepted.domains, haccepted.clients⟩
  | windows backupManaged =>
    have haccepted := validateManagedOnWindows_eq_ok.1 h
    refine iff_of_true (validateManagedOnWindows_eq_ok.2 ?_) trivial
    exact ⟨haccepted.enabled, haccepted.listenPort, haccepted.listenIpv4, haccepted.listenIpv6⟩

/-- **What is stored of an accepted submission** is accepted, but for an address of IPv6 that
    the previous configuration had. -/
theorem accepts_adoptSettings (h : dns.Accepts (migrateLegacyDefaults submitted)) :
    dns.Accepts (adoptSettings previous submitted) ↔ dns.AcceptsKept previous submitted := by
  rw [← accepts_congr (sameResolver_adoptSettings previous submitted)]
  unfold SystemDns.AcceptsKept
  split_ifs with hversion
  · rw [accepts_keepIpv6Host h]
    cases dns with
    | linux journal => exact ⟨fun hkept _ => hkept, fun hkept => hkept hversion⟩
    | windows backupManaged => exact Iff.rfl
  · refine iff_of_true h ?_
    cases dns with
    | linux journal => exact fun hold => absurd hold hversion
    | windows backupManaged => trivial

theorem listenIpv6_rewrite {rewriting : Rewriting}
    (hmem : rewriting ∈ firstRewritings ++ lastRewritings) (config : AppConfig) :
    ∃ b, (rewriting.rewrite config).listenIpv6 = (b && config.listenIpv6) := by
  simp only [firstRewritings, lastRewritings, List.cons_append, List.nil_append, List.mem_cons,
    List.not_mem_nil, or_false] at hmem
  rcases hmem with rfl | rfl | rfl | rfl | rfl | rfl | rfl | rfl | rfl | rfl | rfl
  case inr.inr.inr.inl =>
    dsimp only
    split_ifs
    · exact ⟨true, rfl⟩
    · exact ⟨true, rfl⟩
  case inr.inr.inr.inr.inl => exact ⟨_, rfl⟩
  all_goals exact ⟨true, rfl⟩

theorem listenIpv6_migrateLegacyDefaults (config : AppConfig) :
    ∃ b, (migrateLegacyDefaults config).listenIpv6 = (b && config.listenIpv6) := by
  have hrewrite : ∀ rewriting ∈ firstRewritings ++ lastRewritings, ∀ c : AppConfig,
      (∃ b, c.listenIpv6 = (b && config.listenIpv6)) →
        ∃ b, (rewriting.rewrite c).listenIpv6 = (b && config.listenIpv6) := by
    rintro rewriting hmem c ⟨b, hc⟩
    obtain ⟨b', hb'⟩ := listenIpv6_rewrite hmem c
    exact ⟨b' && b, by rw [hb', hc, Bool.and_assoc]⟩
  have hfirst := foldl_run_inv (P := fun c => ∃ b, c.listenIpv6 = (b && config.listenIpv6))
    (fun rewriting hmem => hrewrite rewriting (List.mem_append_left _ hmem)) ⟨true, rfl⟩
  have hmdns : ∃ b, (rewriteMdnsPort (firstRewritings.foldl Rewriting.run config)).listenIpv6 =
      (b && config.listenIpv6) := by
    unfold rewriteMdnsPort
    split_ifs
    · exact hfirst
    · exact hfirst
  have hlast := foldl_run_inv (P := fun c => ∃ b, c.listenIpv6 = (b && config.listenIpv6))
    (fun rewriting hmem => hrewrite rewriting (List.mem_append_right _ hmem)) hmdns
  unfold migrateLegacyDefaults
  dsimp only
  generalize lastRewritings.foldl Rewriting.run
    (rewriteMdnsPort (firstRewritings.foldl Rewriting.run config)) = migrated at hlast ⊢
  exact hlast

theorem acceptsKept_of_accepts (h : dns.Accepts config) (hsame : SameResolver config submitted) :
    dns.AcceptsKept config submitted := by
  cases dns with
  | linux journal =>
    intro _
    obtain ⟨b, hb⟩ := listenIpv6_migrateLegacyDefaults submitted
    rw [hb, hsame.listenIpv6]
    exact checkListenIpv6_and b (validateAsManaged_eq_ok.1 h).listenIpv6
  | windows backupManaged => trivial

theorem adoptSettings_migrateLegacyDefaults (previous config : AppConfig) :
    adoptSettings previous (migrateLegacyDefaults config) = migrateLegacyDefaults config :=
  adoptSettings_of_current rfl (not_listensAtMdnsPort_migrateLegacyDefaults config)

end

end DnsBlackhole.Service
