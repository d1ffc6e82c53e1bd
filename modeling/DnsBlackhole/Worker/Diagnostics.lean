/-
  The diagnosis of a domain (`local_diagnostic` of `dns/diagnostics.rs`) next to
  the decision of the workers.

  The diagnosis goes through the rewrites, the pause, the policy of the client
  and the rules on its own.  It knows neither the lists and the rate limit of the
  clients nor the reverse names that stay local; where these do not matter, the
  two agree (`localDiagnostic_agrees_iff`).
-/
import DnsBlackhole.Worker.Local

namespace DnsBlackhole.Worker
open DnsBlackhole.Filter Protocol Rules

/-! ## The diagnosis -/

structure LocalDiagnostic where
  status : Text
  detail : Text
  clientPolicy : Text
  clientPolicySource : Option Text
  matchedRule : Option Text := none
  ruleSource : Option Text := none
  ruleType : Option Text := none
  allowlistRule : Option Text := none
  importantOverrode : Bool := false

def queryTypeName (rtype : UInt16) : Text :=
  if rtype = 12 then "PTR".toList
  else if rtype = 15 then "MX".toList
  else if rtype = 16 then "TXT".toList
  else if rtype = 33 then "SRV".toList
  else "自定义".toList

def describeRcode (rcode : UInt8) : Text :=
  if rcode = 0 then "返回空 NOERROR".toList
  else if rcode = 2 then "返回 SERVFAIL".toList
  else if rcode = 3 then "返回 NXDOMAIN".toList
  else if rcode = 5 then "返回 REFUSED".toList
  else "返回 RCODE ".toList ++ Nat.toDigits 10 rcode.toNat

mutual

/-- `DnsRewriteAction::describe`. -/
def describe : DnsRewriteAction → Text
  | .multiple actions => Text.join (describeAll actions) "；".toList
  | .rcode rcode => describeRcode rcode
  | .address address => "重写为 ".toList ++ address.display
  | .cname target => "重写为 CNAME ".toList ++ target
  | .record rtype value => "重写为 ".toList ++ queryTypeName rtype ++ " 记录 ".toList ++ value

def describeAll : List DnsRewriteAction → List Text
  | [] => []
  | action :: actions => describe action :: describeAll actions

end

def statusStopped : Text := "stopped".toList
def statusRewrite : Text := "rewrite".toList
def statusPaused : Text := "paused".toList
def statusBypassed : Text := "bypassed".toList
def statusBlocked : Text := "blocked".toList
def statusAllowed : Text := "allowed".toList

/-- A diagnosis of a rule. -/
def ruleDiagnostic (ruleMatch : BlockMatch) (clientPolicy : Text)
    (clientPolicySource : Option Text) : LocalDiagnostic :=
  let rewrite := ruleMatch.dnsrewrite.map describe
  { status := if rewrite.isSome then statusRewrite else statusBlocked
    detail := "命中 ".toList ++ ruleMatch.source ++ "：".toList ++ ruleMatch.rule ++
      rewrite.elim [] fun description => "（".toList ++ description ++ "）".toList
    clientPolicy := clientPolicy
    clientPolicySource := clientPolicySource
    matchedRule := some ruleMatch.rule
    ruleSource := some ruleMatch.source
    ruleType := some ruleMatch.ruleType
    allowlistRule := ruleMatch.allowlistRule
    importantOverrode := ruleMatch.importantOverrode }

def serviceDiagnostic (service clientPolicy : Text) (clientPolicySource : Option Text) :
    LocalDiagnostic where
  status := statusBlocked
  detail := "命中家庭策略的 ".toList ++ service ++ " 服务分类".toList
  clientPolicy := clientPolicy
  clientPolicySource := clientPolicySource
  matchedRule := some ("service:".toList ++ service)
  ruleSource := some ("家庭策略：".toList ++ service)
  ruleType := some "service".toList

def localDiagnostic (filter : Option FilterRuntime) (protectionPaused : Bool) (domain : Text)
    (qtype : UInt16) (clientIp : Option IpAddr) (now : LocalTime) : LocalDiagnostic :=
  match filter with
  | none => ⟨statusStopped, "DNS 服务当前未运行".toList, "filter".toList, none, none, none, none,
      none, false⟩
  | some filter =>
    let clientDecision := clientIp.map fun ip => filter.clientFiltering.decisionAt ip now
    let source := clientDecision.bind fun decision =>
      decision.source.map fun source => source ++ " → ".toList ++ decision.profile
    let bypassed := clientDecision.any fun decision => decision.mode == .bypass
    let policy := if bypassed then "bypass".toList else "filter".toList
    match filter.rewrites.lookup domain with
    | some target => { status := statusRewrite, clientPolicy := policy, clientPolicySource := source
                       detail := "将由本地重写返回 ".toList ++
                         Text.join ((target.ipv4.map Ipv4Addr.display).toList ++
                           (target.ipv6.map Ipv6Addr.display).toList) " / ".toList }
    | none =>
      if protectionPaused then
        { status := statusPaused, clientPolicy := policy, clientPolicySource := source
          detail := "过滤保护已暂停，本次查询会直接转发到上游".toList }
      else if bypassed then
        { status := statusBypassed, clientPolicy := policy, clientPolicySource := source
          detail := source.elim "该客户端已绕过过滤保护，本次查询会直接转发到上游".toList fun source =>
            "客户端命中 ".toList ++ source ++ " 的绕过策略；不会应用拦截规则和响应保护".toList }
      else match clientDecision.bind fun decision => decision.blockedService domain with
        | some service => serviceDiagnostic service policy source
        | none =>
          match clientDecision.bind fun decision => decision.safeSearchTarget domain with
          | some target =>
            { status := statusRewrite, clientPolicy := policy, clientPolicySource := source
              detail := "安全搜索会将查询重定向到 ".toList ++ target }
          | none =>
            match filter.rules.blockingMatch domain qtype with
            | some ruleMatch => ruleDiagnostic ruleMatch policy source
            | none =>
              { status := statusAllowed, clientPolicy := policy, clientPolicySource := source
                detail := "未命中过滤规则，将转发到上游".toList }

/-! ## The decision of a worker -/

/-- What a worker does with a query, from the check of its client on. -/
inductive QueryDecision
  | denied (message : Text)
  | rateLimited (message : Text)
  | decided (decision : LocalDecision)

def queryDecision (context : WorkerContext) (access : ClientAccess) (second : ℕ)
    (snapshot : Snapshot) (client : IpAddr) (question : Question) : QueryDecision :=
  match (access.check client second).1 with
  | .deny message => .denied message
  | .rateLimited message => .rateLimited message
  | .allow => .decided (localDecision context snapshot client question)

/-- The query is answered by a rewrite, of the table, for safe search or of a
    rule. -/
def QueryDecision.Rewrites : QueryDecision → Prop
  | .decided (.rewrite _) | .decided (.safeSearch _) | .decided (.ruleRewrite _ _) => True
  | _ => False

/-- The query is answered by a block with the rule `ruleMatch`. -/
def QueryDecision.Blocks (ruleMatch : BlockMatch) : QueryDecision → Prop
  | .decided (.blockService r) | .decided (.ruleBlock r) => r = ruleMatch
  | _ => False

/-- The query goes to an upstream server, or is answered from the cache. -/
def QueryDecision.Forwards : QueryDecision → Prop
  | .decided (.forward _ _ _) => True
  | _ => False

/-- The diagnosis names this rule. -/
def LocalDiagnostic.Names (d : LocalDiagnostic) (ruleMatch : BlockMatch) : Prop :=
  d.matchedRule = some ruleMatch.rule ∧ d.ruleSource = some ruleMatch.source ∧
    d.ruleType = some ruleMatch.ruleType ∧ d.allowlistRule = ruleMatch.allowlistRule ∧
    d.importantOverrode = ruleMatch.importantOverrode

/-- The diagnosis tells what the worker does. -/
structure LocalDiagnostic.Agrees (d : LocalDiagnostic) (q : QueryDecision) : Prop where
  rewrite : d.status = statusRewrite ↔ q.Rewrites
  blocked : d.status = statusBlocked ↔ ∃ ruleMatch, q.Blocks ruleMatch ∧ d.Names ruleMatch
  forwarded : d.status = statusPaused ∨ d.status = statusBypassed ∨ d.status = statusAllowed →
    q.Forwards

/-! ## Agreement -/

section
variable (context : WorkerContext) (snapshot : Snapshot) (client : IpAddr) (question : Question)

/-- The query has an answer before the reverse names are looked at: a rewrite, or,
    with filtering active, a service, safe search or a rule. -/
def answeredFirst : Bool :=
  (snapshot.filter.rewrites.lookup question.domain).isSome ||
    (filteringActive snapshot client &&
      (((clientPolicy snapshot client).blockedService question.domain).isSome ||
        ((clientPolicy snapshot client).safeSearchTarget question.domain).isSome ||
        (snapshot.filter.rules.blockingMatch question.domain question.qtype).isSome))

/-- The diagnosis of the query. -/
def diagnosis : LocalDiagnostic :=
  localDiagnostic (some snapshot.filter) snapshot.paused question.domain question.qtype
    (some client) snapshot.now

/-- A diagnosis next to the decision it is about. -/
inductive Diagnosed (d : LocalDiagnostic) (decision : LocalDecision) : Prop
  | rewrite : d.status = statusRewrite → (QueryDecision.decided decision).Rewrites →
      answeredFirst snapshot client question → Diagnosed d decision
  | block (ruleMatch : BlockMatch) : d.status = statusBlocked → d.Names ruleMatch →
      (QueryDecision.decided decision).Blocks ruleMatch →
      answeredFirst snapshot client question → Diagnosed d decision
  | route : d.status = statusPaused ∨ d.status = statusBypassed ∨ d.status = statusAllowed →
      decision = routeDecision context snapshot client question →
      answeredFirst snapshot client question = false → Diagnosed d decision

variable {context snapshot client question}

theorem rewrites_lookup_eq : (if snapshot.filter.rewrites.isEmpty then none
    else snapshot.filter.rewrites.lookup question.domain) =
      snapshot.filter.rewrites.lookup question.domain := by
  split_ifs with h
  · exact (CompiledRewrites.lookup_of_isEmpty h question.domain).symm
  · rfl

theorem diagnosed_filtered (hlookup : snapshot.filter.rewrites.lookup question.domain = none)
    (hactive : filteringActive snapshot client = true) :
    Diagnosed context snapshot client question (diagnosis snapshot client question)
      (filteredDecision context snapshot client question) := by
  have hmode : ((clientPolicy snapshot client).mode == ClientFilteringMode.bypass) = false := by
    simp only [filteringActive, clientFilteringEnabled, Bool.and_eq_true, beq_iff_eq] at hactive
    rw [hactive.1]
    rfl
  have hpaused : snapshot.paused = false := by
    simp only [filteringActive, Bool.and_eq_true, Bool.not_eq_true'] at hactive
    exact hactive.2
  have hpolicy : snapshot.filter.clientFiltering.decisionAt client snapshot.now =
      clientPolicy snapshot client := rfl
  simp only [diagnosis, localDiagnostic, hlookup, hpaused, hpolicy, Option.map_some,
    Option.any_some, hmode, Option.bind_some, Bool.false_eq_true, if_false]
  unfold filteredDecision
  cases hservice : (clientPolicy snapshot client).blockedService question.domain with
  | some service =>
    refine .block (serviceMatch service) rfl ⟨rfl, rfl, rfl, rfl, rfl⟩ rfl ?_
    simp [answeredFirst, hactive, hservice]
  | none =>
    cases hsafe : (clientPolicy snapshot client).safeSearchTarget question.domain with
    | some target => exact .rewrite rfl trivial (by simp [answeredFirst, hactive, hsafe])
    | none =>
      dsimp only
      unfold ruleDecision
      cases hrule : snapshot.filter.rules.blockingMatch question.domain question.qtype with
      | some ruleMatch =>
        have hfirst : answeredFirst snapshot client question := by
          simp [answeredFirst, hactive, hrule]
        dsimp only
        cases hrewrite : ruleMatch.dnsrewrite with
        | some action => exact .rewrite (by simp [ruleDiagnostic, hrewrite]) trivial hfirst
        | none =>
          exact .block ruleMatch (by simp [ruleDiagnostic, hrewrite]) ⟨rfl, rfl, rfl, rfl, rfl⟩ rfl
            hfirst
      | none =>
        exact .route (.inr (.inr rfl)) rfl
          (by simp [answeredFirst, hlookup, hservice, hsafe, hrule])

/-- **Diagnosis and decision**, for every query but ANY. -/
theorem diagnosed (hany : question.qtype ≠ typeAny) :
    Diagnosed context snapshot client question (diagnosis snapshot client question)
      (localDecision context snapshot client question) := by
  have hrefuse : ¬ (context.refuseAny && question.qtype == typeAny) = true := by
    simp [hany]
  rw [localDecision, if_neg hrefuse, rewrites_lookup_eq]
  cases hlookup : snapshot.filter.rewrites.lookup question.domain with
  | some target =>
    refine .rewrite ?_ trivial (by simp [answeredFirst, hlookup])
    simp only [diagnosis, localDiagnostic, hlookup]
  | none =>
    dsimp only
    cases hactive : filteringActive snapshot client with
    | true => exact diagnosed_filtered hlookup hactive
    | false =>
      refine .route ?_ rfl (by simp [answeredFirst, hlookup, hactive])
      simp only [diagnosis, localDiagnostic, hlookup, Option.map_some, Option.any_some]
      cases hpaused : snapshot.paused with
      | true => exact .inl rfl
      | false =>
        have hmode : (clientPolicy snapshot client).mode = .bypass := by
          simp only [filteringActive, clientFilteringEnabled, hpaused, Bool.not_false,
            Bool.and_true, beq_eq_false_iff_ne] at hactive
          cases hm : (clientPolicy snapshot client).mode with
          | filter => exact absurd hm hactive
          | bypass => rfl
        have hmode : ((snapshot.filter.clientFiltering.decisionAt client snapshot.now).mode ==
            ClientFilteringMode.bypass) = true := beq_iff_eq.2 hmode
        simp only [hmode, Bool.false_eq_true, if_false, if_true, true_or, or_true]

theorem Diagnosed.not_agrees {d : LocalDiagnostic} {decision : LocalDecision} {q : QueryDecision}
    (h : Diagnosed context snapshot client question d decision) (hrewrites : ¬ q.Rewrites)
    (hblocks : ∀ ruleMatch, ¬ q.Blocks ruleMatch) (hforwards : ¬ q.Forwards) : ¬ d.Agrees q := by
  intro hagrees
  cases h with
  | rewrite hstatus _ _ => exact hrewrites (hagrees.rewrite.1 hstatus)
  | block ruleMatch hstatus _ _ _ =>
    obtain ⟨r, hr, -⟩ := hagrees.blocked.1 hstatus
    exact hblocks r hr
  | route hstatus _ _ => exact hforwards (hagrees.forwarded hstatus)

theorem statuses_ne : statusRewrite ≠ statusBlocked ∧ statusRewrite ≠ statusPaused ∧
    statusRewrite ≠ statusBypassed ∧ statusRewrite ≠ statusAllowed ∧
    statusBlocked ≠ statusPaused ∧ statusBlocked ≠ statusBypassed ∧
    statusBlocked ≠ statusAllowed := by
  decide

theorem Diagnosed.agrees_iff {d : LocalDiagnostic} {decision : LocalDecision}
    (h : Diagnosed context snapshot client question d decision) :
    d.Agrees (.decided decision) ↔
      (answeredFirst snapshot client question = true ∨ keptLocal context question = false) := by
  obtain ⟨hrb, hrp, hry, hra, hbp, hby, hba⟩ := statuses_ne
  cases h with
  | rewrite hstatus hrewrites hfirst =>
    refine iff_of_true ⟨iff_of_true hstatus hrewrites, ?_, ?_⟩ (.inl hfirst)
    · refine iff_of_false (hstatus ▸ hrb) ?_
      rintro ⟨r, hr, -⟩
      cases decision with
      | blockService _ => exact hrewrites
      | ruleBlock _ => exact hrewrites
      | _ => exact hr
    · rw [hstatus]
      rintro (h | h | h)
      · exact absurd h hrp
      · exact absurd h hry
      · exact absurd h hra
  | block ruleMatch hstatus hnames hblocks hfirst =>
    refine iff_of_true ⟨?_, iff_of_true hstatus ⟨ruleMatch, hblocks, hnames⟩, ?_⟩ (.inl hfirst)
    · refine iff_of_false (hstatus ▸ hrb.symm) fun hr => ?_
      cases decision with
      | blockService _ => exact hr
      | ruleBlock _ => exact hr
      | _ => exact hblocks
    · rw [hstatus]
      rintro (h | h | h)
      · exact absurd h hbp
      · exact absurd h hby
      · exact absurd h hba
  | route hstatus hdecision hfirst =>
    have hnot : d.status ≠ statusRewrite ∧ d.status ≠ statusBlocked := by
      rcases hstatus with h | h | h <;> rw [h]
      · exact ⟨hrp.symm, hbp.symm⟩
      · exact ⟨hry.symm, hby.symm⟩
      · exact ⟨hra.symm, hba.symm⟩
    rw [hfirst, hdecision, routeDecision]
    cases hkept : keptLocal context question with
    | true => exact iff_of_false (fun h => h.forwarded hstatus) (by simp)
    | false =>
      exact iff_of_true ⟨iff_of_false hnot.1 id, iff_of_false hnot.2 fun ⟨_, hr, _⟩ => hr,
        fun _ => trivial⟩ (.inr rfl)

/-- **The diagnosis agrees with the workers** exactly when the client is served and
    the query is not one for a reverse name that stays local, unless something
    else answers it first. -/
theorem localDiagnostic_agrees_iff (access : ClientAccess) (second : ℕ)
    (hany : question.qtype ≠ typeAny) :
    (localDiagnostic (some snapshot.filter) snapshot.paused question.domain question.qtype
      (some client) snapshot.now).Agrees
        (queryDecision context access second snapshot client question) ↔
      (access.check client second).1 = .allow ∧
        (answeredFirst snapshot client question = true ∨ keptLocal context question = false) := by
  have hdiag : Diagnosed context snapshot client question (diagnosis snapshot client question)
      (localDecision context snapshot client question) := diagnosed hany
  change (diagnosis snapshot client question).Agrees _ ↔ _
  unfold queryDecision
  cases haccess : (access.check client second).1 with
  | deny message =>
    exact iff_of_false (hdiag.not_agrees id (fun _ => id) id) fun h => nomatch h.1
  | rateLimited message =>
    exact iff_of_false (hdiag.not_agrees id (fun _ => id) id) fun h => nomatch h.1
  | allow =>
    rw [← hdiag.agrees_iff]
    exact ⟨fun h => ⟨rfl, h⟩, And.right⟩

end

/-- The protection against rebinding, and no rules. -/
def plainSnapshot : Snapshot := ⟨rebindingOnly, false, ⟨0, 0⟩⟩

/-- A client in the local network. -/
def localClient : IpAddr := .v4 ⟨192, 168, 0, 2⟩

/-- The question for the name of 192.168.0.1. -/
def reverseQuestion : Question := ⟨"1.0.168.192.in-addr.arpa".toList, 12, 1, 42⟩

/-- The equivalence at a question that is forwarded. -/
theorem plainQuestion_agrees_iff :
    (localDiagnostic (some rebindingOnly) false ['a'] 1 (some localClient) ⟨0, 0⟩).Agrees
        (queryDecision {} {} 0 plainSnapshot localClient ⟨['a'], 1, 1, 19⟩) ↔
      (ClientAccess.check {} localClient 0).1 = .allow ∧
        (answeredFirst plainSnapshot localClient ⟨['a'], 1, 1, 19⟩ = true ∨
          keptLocal {} ⟨['a'], 1, 1, 19⟩ = false) :=
  @localDiagnostic_agrees_iff {} plainSnapshot localClient ⟨['a'], 1, 1, 19⟩ {} 0 (by decide)

/-- The name of a local address is diagnosed as allowed, and stays local. -/
theorem reverseQuestion_not_agrees :
    (localDiagnostic (some rebindingOnly) false reverseQuestion.domain 12 (some localClient)
      ⟨0, 0⟩).status = statusAllowed ∧
    localDecision {} plainSnapshot localClient reverseQuestion = .localReverse ∧
    ¬ (localDiagnostic (some rebindingOnly) false reverseQuestion.domain 12 (some localClient)
      ⟨0, 0⟩).Agrees (queryDecision {} {} 0 plainSnapshot localClient reverseQuestion) := by
  have hstatus : (localDiagnostic (some rebindingOnly) false reverseQuestion.domain 12
      (some localClient) ⟨0, 0⟩).status = statusAllowed := by decide
  have hdecision : localDecision {} plainSnapshot localClient reverseQuestion = .localReverse := by
    decide +kernel
  refine ⟨hstatus, hdecision, fun h => ?_⟩
  have hforwards := h.forwarded (.inr (.inr hstatus))
  have hq : queryDecision {} {} 0 plainSnapshot localClient reverseQuestion =
      .decided (localDecision {} plainSnapshot localClient reverseQuestion) := rfl
  rw [hq, hdecision] at hforwards
  exact hforwards

end DnsBlackhole.Worker
