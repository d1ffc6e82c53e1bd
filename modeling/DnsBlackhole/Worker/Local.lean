/-
  What a worker decides about a query before it looks into the cache
  (`handle_dns_query` of `dns/worker.rs`).

  The decision is taken from a snapshot: the filter, the pause of the protection,
  the policy of the client.  The first of the steps that has an answer gives it;
  a query without one is forwarded, or answered from the cache.
-/
import DnsBlackhole.Filter.Access
import DnsBlackhole.Filter.LocalReverse
import DnsBlackhole.Filter.Routes
import DnsBlackhole.Filter.Runtime

namespace DnsBlackhole.Worker
open DnsBlackhole.Filter Protocol Rules

/-- What the workers of a server share and do not change. -/
structure WorkerContext where
  upstreamRoutes : UpstreamRoutes := {}
  refuseAny : Bool := true
  privateReverseDnsEnabled : Bool := true
  hasPersistenceSender : Bool := true
  queryLogEnabled : Bool := true
  statisticsEnabled : Bool := true
  anonymizeClientIp : Bool := false
  detailedRuntimeStats : Bool := true

/-- What a query is evaluated with: the filter, the pause of the protection, and
    the time that the schedules look at. -/
structure Snapshot where
  filter : FilterRuntime
  paused : Bool
  now : LocalTime

/-- `protection_is_paused`. -/
def protectionIsPaused (deadline now : ℕ) : Bool := now < deadline

inductive LocalDecision
  | refuseAny
  | rewrite (target : RewriteTarget)
  | blockService (ruleMatch : BlockMatch)
  | safeSearch (target : Text)
  | ruleRewrite (action : DnsRewriteAction) (ruleMatch : BlockMatch)
  | ruleBlock (ruleMatch : BlockMatch)
  | localReverse
  | forward (filteringActive clientFilteringEnabled : Bool) (routed : Option RouteUpstreamPool)
  deriving DecidableEq

/-- The rule that stands for a service. -/
def serviceMatch (service : Text) : BlockMatch where
  rule := "service:".toList ++ service
  source := "家庭策略：".toList ++ service
  ruleType := "service".toList
  importantOverrode := false
  allowlistRule := none
  dnsrewrite := none

section
variable (context : WorkerContext) (snapshot : Snapshot) (client : IpAddr) (question : Question)

def clientPolicy : ClientFilteringDecision :=
  snapshot.filter.clientFiltering.decisionAt client snapshot.now

def clientFilteringEnabled : Bool := (clientPolicy snapshot client).mode == .filter

def filteringActive : Bool := clientFilteringEnabled snapshot client && !snapshot.paused

/-- The reverse names that stay local even without a rule: those without upstream
    servers of their own. -/
def keptLocal : Bool :=
  context.privateReverseDnsEnabled && isLocalReverseName question.domain &&
    (context.upstreamRoutes.selectDomain question.domain).isNone

def routedUpstream : Option RouteUpstreamPool :=
  let isLocalReverse := context.privateReverseDnsEnabled && isLocalReverseName question.domain
  let localReverseRoute :=
    if isLocalReverse then context.upstreamRoutes.selectDomain question.domain else none
  localReverseRoute.or (context.upstreamRoutes.select question.domain client)

/-- The decision without rules. -/
def routeDecision : LocalDecision :=
  if keptLocal context question then .localReverse
  else .forward (filteringActive snapshot client) (clientFilteringEnabled snapshot client)
    (routedUpstream context client question)

def ruleDecision : LocalDecision :=
  match snapshot.filter.rules.blockingMatch question.domain question.qtype with
  | some ruleMatch =>
    match ruleMatch.dnsrewrite with
    | some action => .ruleRewrite action ruleMatch
    | none => .ruleBlock ruleMatch
  | none => routeDecision context snapshot client question

/-- The decision for a client with filtering active. -/
def filteredDecision : LocalDecision :=
  match (clientPolicy snapshot client).blockedService question.domain with
  | some service => .blockService (serviceMatch service)
  | none =>
    match (clientPolicy snapshot client).safeSearchTarget question.domain with
    | some target => .safeSearch target
    | none => ruleDecision context snapshot client question

def localDecision : LocalDecision :=
  if context.refuseAny && question.qtype == typeAny then .refuseAny
  else
    match (if snapshot.filter.rewrites.isEmpty then none
      else snapshot.filter.rewrites.lookup question.domain) with
    | some target => .rewrite target
    | none =>
      if filteringActive snapshot client then filteredDecision context snapshot client question
      else routeDecision context snapshot client question

end

end DnsBlackhole.Worker
