/-
  Which upstream servers a query goes to (`dns/upstream_routes.rs`): those of its
  client, or else those of its domain, or else the ordinary ones.
-/
import DnsBlackhole.Filter.Clients

namespace DnsBlackhole.Filter

/-- The servers of a route, by the key that tells routes apart. -/
structure RouteUpstreamPool where
  key : Text
  deriving DecidableEq

structure DomainRoute where
  pattern : Text
  includeSubdomains : Bool
  pool : RouteUpstreamPool

structure ClientRoute where
  network : IpNetwork
  pool : RouteUpstreamPool

structure UpstreamRoutes where
  domains : List DomainRoute := []
  clients : List ClientRoute := []

def DomainRoute.«matches» (route : DomainRoute) (domain : Text) : Bool :=
  domain == route.pattern || (route.includeSubdomains &&
    (domain.stripSuffix route.pattern).any fun start => start.endsWith '.')

/-- The order of the routes of a domain: the longest pattern, and of two equal ones
    that without subdomains. -/
def DomainRoute.rank (route : DomainRoute) : ℕ :=
  2 * route.pattern.len + if route.includeSubdomains then 0 else 1

namespace UpstreamRoutes

def selectDomain (routes : UpstreamRoutes) (domain : Text) : Option RouteUpstreamPool :=
  (maxByKey DomainRoute.rank (routes.domains.filter fun route => route.«matches» domain)).map
    DomainRoute.pool

def select (routes : UpstreamRoutes) (domain : Text) (client : IpAddr) :
    Option RouteUpstreamPool :=
  match maxByKey (fun route : ClientRoute => route.network.prefixLen)
    (routes.clients.filter fun route => route.network.contains client) with
  | some route => some route.pool
  | none => routes.selectDomain domain

end UpstreamRoutes

end DnsBlackhole.Filter
