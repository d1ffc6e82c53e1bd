/-
  Which clients are served (`dns/access.rs`): a list of refused clients, a list of
  admitted ones, and a bucket of tokens for each client.
-/
import DnsBlackhole.Filter.Clients

namespace DnsBlackhole.Filter
open Lib

def rateLimiterClientTtlSeconds : ℕ := 120
def rateLimiterPruneIntervalSeconds : ℕ := 60
def rateLimiterMaxClients : ℕ := 4096
def rateLimiterBurstSeconds : ℕ := 10

inductive ClientAccessDecision
  | allow
  | deny (message : Text)
  | rateLimited (message : Text)
  deriving DecidableEq

/-! ## Lists of clients -/

structure ClientMatcher where
  exact : List IpAddr := []
  prefixes : List IpNetwork := []

namespace ClientMatcher

def hasRules (matcher : ClientMatcher) : Bool :=
  !matcher.exact.isEmpty || !matcher.prefixes.isEmpty

def «matches» (matcher : ClientMatcher) (ip : IpAddr) : Bool :=
  matcher.exact.contains ip || matcher.prefixes.any fun network => network.contains ip

end ClientMatcher

/-! ## The rate limiter -/

structure RateBucket where
  tokens : ℕ
  lastRefill : ℕ
  lastSeen : ℕ
  deriving DecidableEq

structure ClientRateLimiter where
  limitPerSecond : ℕ
  clients : HashMap IpAddr RateBucket := ∅
  lastPruneAt : ℕ := 0

namespace ClientRateLimiter

def prune (limiter : ClientRateLimiter) (now : ℕ) : ClientRateLimiter :=
  { limiter with
    clients := limiter.clients.retain fun e => now - rateLimiterClientTtlSeconds ≤ e.2.lastSeen
    lastPruneAt := now }

def capacity (limiter : ClientRateLimiter) : ℕ := limiter.limitPerSecond * rateLimiterBurstSeconds

/-- The tokens of a bucket at `now`; a clock that has been set back fills it. -/
def refill (limiter : ClientRateLimiter) (bucket : RateBucket) (now : ℕ) : RateBucket :=
  if now < bucket.lastRefill then ⟨limiter.capacity, now, now⟩
  else if now - bucket.lastRefill > 0 then
    ⟨min (bucket.tokens + (now - bucket.lastRefill) * limiter.limitPerSecond) limiter.capacity,
      now, now⟩
  else { bucket with lastSeen := now }

def allow (limiter : ClientRateLimiter) (ip : IpAddr) (now : ℕ) : Bool × ClientRateLimiter :=
  let limiter := if now - limiter.lastPruneAt ≥ rateLimiterPruneIntervalSeconds then
    limiter.prune now else limiter
  if (limiter.clients.lookup ip).isNone ∧ limiter.clients.entries.length ≥ rateLimiterMaxClients then
    (false, limiter)
  else
    let bucket := limiter.refill
      ((limiter.clients.lookup ip).getD ⟨limiter.capacity, now, now⟩) now
    if bucket.tokens = 0 then
      (false, { limiter with clients := limiter.clients.insert ip bucket })
    else (true, { limiter with
      clients := limiter.clients.insert ip { bucket with tokens := bucket.tokens - 1 } })

end ClientRateLimiter

/-! ## The check -/

structure ClientAccess where
  allowed : ClientMatcher := {}
  blocked : ClientMatcher := {}
  rateLimiter : Option ClientRateLimiter := none

def ClientAccess.check (access : ClientAccess) (ip : IpAddr) (now : ℕ) :
    ClientAccessDecision × ClientAccess :=
  if access.blocked.«matches» ip then
    (.deny ("客户端 ".toList ++ ip.display ++ " 在拒绝列表中".toList), access)
  else if access.allowed.hasRules ∧ ¬ access.allowed.«matches» ip then
    (.deny ("客户端 ".toList ++ ip.display ++ " 不在允许列表中".toList), access)
  else match access.rateLimiter with
    | none => (.allow, access)
    | some limiter =>
      let (allowed, limiter) := limiter.allow ip now
      if allowed then (.allow, { access with rateLimiter := some limiter })
      else (.rateLimited ("客户端 ".toList ++ ip.display ++ " 触发每秒 ".toList ++
        Nat.toDigits 10 limiter.limitPerSecond ++ " 次持续查询限速（已用完 ".toList ++
        Nat.toDigits 10 rateLimiterBurstSeconds ++ " 秒突发容量）".toList),
        { access with rateLimiter := some limiter })

end DnsBlackhole.Filter
