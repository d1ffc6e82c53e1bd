/-
  What the calls leave in memory and in the database, wherever they fail.

  * `saveConfigBlocking_within`, `startDnsBlocking_within`, `stopDnsBlocking_within`,
    `applyUpdate_within`: what is asked of both places, and of the configuration that is
    written, holds afterwards; a call that succeeds has put its configuration in both.
-/
import DnsBlackhole.Service.Updates

namespace DnsBlackhole.Service
open Admin (AppConfig FilterSubscription)
open Config
open Lib

/-! ## Steps that leave the configuration -/

section
variable {env : Environment} {pattern : Pattern} {s : AppState}

theorem tryHotSwap_keeps (previous config : AppConfig) :
    Ends (tryHotSwap env pattern .applying previous config) s (fun _ s' => s.KeepsConfig s')
      (fun _ s' => s.KeepsConfig s') := by
  unfold tryHotSwap
  split_ifs with hrestart
  · exact Ends.pure (.refl s)
  refine Ends.check_bind (fun _ _ => .refl s) fun _ => Ends.get_bind ?_
  cases s.server with
  | none => exact Ends.pure (.refl s)
  | some server =>
    dsimp only
    split_ifs with hfinished
    · exact Ends.pure (.refl s)
    refine Ends.lift_bind (fun _ _ => .refl s) fun filterRuntime _ => Ends.modify_bind ?_
    refine (setEffectiveSummary_ends _ _).bind ?_ ?_
    · rintro e _ ⟨-, rfl⟩
      exact ⟨rfl, rfl, rfl⟩
    · rintro ⟨⟩ _ ⟨-, rfl⟩
      exact Ends.pure ⟨rfl, rfl, rfl⟩

theorem applyConfigChange_keeps (previous config : AppConfig) :
    Ends (applyConfigChange env pattern .applying previous config) s (fun _ s' => s.KeepsConfig s')
      (fun _ s' => s.KeepsConfig s') := by
  unfold applyConfigChange
  split_ifs with henabled
  · refine (tryHotSwap_keeps previous config).bind (fun _ _ h => h) fun swapped s' hkeeps => ?_
    cases swapped with
    | true => exact Ends.modify ⟨hkeeps.db, hkeeps.config, hkeeps.sessions⟩
    | false =>
      exact (startCurrent_ends s').mono (fun _ _ h => hkeeps.trans h.2.1) fun _ _ h =>
        hkeeps.trans h.2
  · refine (stopCurrent_ends s).bind ?_ ?_
    · rintro e _ ⟨-, rfl⟩
      exact .refl _
    · rintro ⟨⟩ _ ⟨-, rfl⟩
      exact Ends.modify ⟨rfl, rfl, rfl⟩

theorem applySaved_keeps (previous config : AppConfig) (startRequired : Bool) :
    Ends (applySaved env pattern previous config startRequired) s (fun _ s' => s.KeepsConfig s')
      (fun _ s' => s.KeepsConfig s') := by
  have hstop : Ends (stopCurrent pattern .applying) s (fun _ s' => s.KeepsConfig s')
      (fun _ s' => s.KeepsConfig s') := by
    refine (stopCurrent_ends s).mono ?_ ?_
    · rintro ⟨⟩ _ ⟨-, rfl⟩
      exact ⟨rfl, rfl, rfl⟩
    · rintro e _ ⟨-, rfl⟩
      exact .refl _
  unfold applySaved
  dsimp only
  split_ifs
  · exact applyConfigChange_keeps previous config
  · exact Ends.modify ⟨rfl, rfl, rfl⟩
  · refine hstop.bind (fun _ _ h => h) fun _ s₁ hkeeps => ?_
    refine (setEffectiveSummary_ends _ _).bind ?_ ?_
    · rintro e _ ⟨-, rfl⟩
      exact hkeeps
    · rintro ⟨⟩ _ ⟨-, rfl⟩
      exact Ends.modify ⟨hkeeps.db, hkeeps.config, hkeeps.sessions⟩
  · exact hstop.bind (fun _ _ h => h) fun _ s₁ hkeeps =>
      Ends.modify ⟨hkeeps.db, hkeeps.config, hkeeps.sessions⟩

/-! ## Recovering -/

/-- What is in memory, and what is in the database. -/
def Within (A : AppConfig → Prop) (B : Option AppConfig → Prop) (s : AppState) : Prop :=
  A s.config ∧ B s.storedConfig

/-- The configuration is in both places, and it is one that is accepted. -/
structure Put (env : Environment) (config : AppConfig) (s : AppState) : Prop where
  memory : s.config = config
  stored : s.storedConfig = some config
  valid : validate env.parseUrl config = .ok ()

variable {A : AppConfig → Prop} {B : Option AppConfig → Prop}

theorem Within.of_keeps {s' : AppState} (hs : Within A B s) (h : s.KeepsConfig s') :
    Within A B s' := by
  unfold Within AppState.storedConfig
  rw [h.config, h.db]
  exact hs

theorem Put.of_keeps {config : AppConfig} {s' : AppState} (hs : Put env config s)
    (h : s.KeepsConfig s') : Put env config s' := by
  refine ⟨h.config.trans hs.memory, ?_, hs.valid⟩
  rw [AppState.storedConfig, h.db]
  exact hs.stored

theorem restoreConfigAfterFailureWith_within {α : Type} {Q : α → AppState → Prop}
    {previous : AppConfig} (hs : Within A B s) (hA : A previous) (hB : B (some previous))
    (wasRunning : Bool) (error : StepError) (earlier : List StepError) :
    Ends (restoreConfigAfterFailureWith env pattern previous wasRunning error earlier) s Q
      (fun _ s' => Within A B s') := by
  unfold restoreConfigAfterFailureWith
  have hsaved : Ends (collect (saveToDatabase env pattern .recovering previous)) s
      (fun _ s' => Within A B s') (fun _ _ => False) := by
    refine (collect_ends (saveToDatabase_ends previous s)).mono ?_ fun _ _ h => h
    rintro saved s' (⟨-, -, hstored, hs'⟩ | ⟨-, e, -, hs'⟩)
    · exact ⟨by rw [hs']; exact hs.1, hstored ▸ hB⟩
    · exact hs' ▸ hs
  refine hsaved.bind (fun _ _ => False.elim) fun saved s₁ hs₁ => ?_
  refine (collect_ends (replaceConfig_ends previous s₁)).bind (fun _ _ => False.elim) ?_
  intro replaced s₂ hreplaced
  have hrecovered : Ends (recoverReplaced env pattern previous wasRunning replaced) s₂
      (fun _ s₃ => Within A B s₃) (fun _ _ => False) := by
    obtain ⟨rfl, -, hs₂⟩ | ⟨hne, e, -, hs₂⟩ := hreplaced
    · have hmemory : s₂.config = previous := by rw [hs₂]
      have hwithin : Within A B s₂ := ⟨hmemory ▸ hA, by rw [hs₂]; exact hs₁.2⟩
      change Ends (collect (recoverService env pattern previous wasRunning)) s₂ _ _
      refine (collect_ends (recoverService_ends hmemory)).mono ?_ fun _ _ h => h
      rintro recovered s₃ (⟨-, hkeeps, -⟩ | ⟨-, e, hkeeps⟩)
      · exact hwithin.of_keeps hkeeps
      · exact hwithin.of_keeps hkeeps
    · unfold recoverReplaced
      rw [if_neg (by simpa using hne)]
      exact Ends.pure (hs₂ ▸ hs₁)
  refine hrecovered.bind (fun _ _ => False.elim) fun recovered s₃ hs₃ => ?_
  exact Ends.modify_bind (Ends.throw hs₃)

theorem restoreConfigAfterFailure_within {α : Type} {Q : α → AppState → Prop}
    {previous : AppConfig} (hs : Within A B s) (hA : A previous) (hB : B (some previous))
    (wasRunning : Bool) (error : StepError) :
    Ends (restoreConfigAfterFailure env pattern previous wasRunning error) s Q
      (fun _ s' => Within A B s') :=
  restoreConfigAfterFailureWith_within hs hA hB wasRunning error []

/-! ## The calls -/

theorem saveConfigBlocking_within {submitted : AppConfig} (hs : Within A B s)
    (hprevious : B (some s.config))
    (hnew : validate env.parseUrl (adoptSettings s.config submitted) = .ok () →
      A (adoptSettings s.config submitted) ∧ B (some (adoptSettings s.config submitted))) :
    Ends (saveConfigBlocking env pattern submitted) s
      (fun _ s' => Put env (adoptSettings s.config submitted) s') (fun _ s' => Within A B s') := by
  unfold saveConfigBlocking
  refine step_bind (check_ends _) (fun e s' h => h.2 ▸ hs) ?_
  rintro ⟨⟩ s ⟨-, rfl⟩
  refine Ends.get_bind ?_
  dsimp only
  generalize adoptSettings s.config submitted = config at hnew ⊢
  refine step_bind validate_ends (fun e s' h => h.2 ▸ hs) ?_
  rintro ⟨⟩ s ⟨hvalid, rfl⟩
  obtain ⟨hA, hB⟩ := hnew hvalid
  refine step_bind startRequired_ends (fun e s' h => h.2 ▸ hs) ?_
  rintro required s ⟨-, -, rfl⟩
  refine step_bind wasRunning_ends (fun e s' h => h.2 ▸ hs) ?_
  rintro running s ⟨-, -, rfl⟩
  refine (preflightChange_ends _ _).bind (fun e s' h => h.2 ▸ hs) ?_
  rintro ⟨⟩ s ⟨-, rfl⟩
  refine step_bind (saveToDatabase_ends config s) (fun e s' h => h.2 ▸ hs) ?_
  rintro ⟨⟩ s₁ ⟨-, hstored₁, hs₁⟩
  have hwithin₁ : Within A B s₁ := ⟨by rw [hs₁]; exact hs.1, hstored₁ ▸ hB⟩
  refine (Ends.recover (replaceConfig_ends config s₁) ?_).bind (fun _ _ h => h) ?_
  · rintro error s₂ ⟨-, rfl⟩
    exact restoreConfigAfterFailure_within hwithin₁ hs.1 hprevious running error
  rintro ⟨⟩ s₂ ⟨-, hs₂⟩
  have hput : Put env config s₂ := ⟨by rw [hs₂], by rw [hs₂]; exact hstored₁, hvalid⟩
  have hwithin : ∀ {s₃ : AppState}, s₂.KeepsConfig s₃ → Within A B s₃ := fun hkeeps =>
    ⟨(hput.of_keeps hkeeps).memory ▸ hA, (hput.of_keeps hkeeps).stored ▸ hB⟩
  refine (Ends.recover (applySaved_keeps s.config config required) ?_).bind (fun _ _ h => h) ?_
  · exact fun error s₃ hkeeps =>
      restoreConfigAfterFailure_within (hwithin hkeeps) hs.1 hprevious running error
  intro _ s₃ hkeeps
  unfold invalidateSessions
  split_ifs
  · refine step_bind (check_ends _) (fun e s' h => h.2 ▸ hwithin hkeeps) ?_
    rintro ⟨⟩ s₄ ⟨-, rfl⟩
    exact Ends.modify ⟨(hput.of_keeps hkeeps).memory, (hput.of_keeps hkeeps).stored, hvalid⟩
  · exact Ends.pure (hput.of_keeps hkeeps)

theorem startDnsBlocking_within (hs : Within A B s) (hprevious : B (some s.config))
    (hnew : validate env.parseUrl (enabledConfig s.config) = .ok () →
      A (enabledConfig s.config) ∧ B (some (enabledConfig s.config))) :
    Ends (startDnsBlocking env pattern) s (fun _ s' => Put env (enabledConfig s.config) s')
      (fun _ s' => Within A B s') := by
  unfold startDnsBlocking
  refine step_bind (check_ends _) (fun e s' h => h.2 ▸ hs) ?_
  rintro ⟨⟩ s ⟨-, rfl⟩
  refine Ends.get_bind ?_
  dsimp only
  generalize enabledConfig s.config = config at hnew ⊢
  refine step_bind wasRunning_ends (fun e s' h => h.2 ▸ hs) ?_
  rintro running s ⟨-, -, rfl⟩
  refine step_bind validate_ends (fun e s' h => h.2 ▸ hs) ?_
  rintro ⟨⟩ s ⟨hvalid, rfl⟩
  obtain ⟨hA, hB⟩ := hnew hvalid
  refine step_bind (saveToDatabase_ends config s) (fun e s' h => h.2 ▸ hs) ?_
  rintro ⟨⟩ s₁ ⟨-, hstored₁, hs₁⟩
  have hwithin₁ : Within A B s₁ := ⟨by rw [hs₁]; exact hs.1, hstored₁ ▸ hB⟩
  refine (Ends.recover (replaceConfig_ends config s₁) ?_).bind (fun _ _ h => h) ?_
  · rintro error s₂ ⟨-, rfl⟩
    exact restoreConfigAfterFailure_within hwithin₁ hs.1 hprevious running error
  rintro ⟨⟩ s₂ ⟨-, hs₂⟩
  have hput : Put env config s₂ := ⟨by rw [hs₂], by rw [hs₂]; exact hstored₁, hvalid⟩
  refine Ends.recover ((startCurrent_ends s₂).mono (fun _ _ h => hput.of_keeps h.2.1)
    fun _ _ h => h.2) fun error s₃ hkeeps => ?_
  refine restoreConfigAfterFailure_within ⟨?_, ?_⟩ hs.1 hprevious running error
  · exact (hput.of_keeps hkeeps).memory ▸ hA
  · exact (hput.of_keeps hkeeps).stored ▸ hB

end

/-! ## Updates -/

/-- A list that is merged, but for its file. -/
def mergedFilter (staged : FilterFiles) (downloaded : List FilterSubscription)
    (filter : FilterSubscription) : FilterSubscription :=
  match downloaded.find? fun result => SameList result filter with
  | none => filter
  | some result =>
    if (staged filter.id).isSome then { result with name := filter.name }
    else if result.lastError.isSome then { filter with lastError := result.lastError }
    else filter

def mergedConfig (staged : FilterFiles) (latest downloaded : AppConfig) : AppConfig :=
  { latest with filters := latest.filters.map (mergedFilter staged downloaded.filters) }

section
variable {env : Environment} {pattern : UpdatePattern} {s : UpdateState}
  {A : AppConfig → Prop} {B : Option AppConfig → Prop}

theorem mergeFilter_fst {staging data : Text → Option Text} {staged files : FilterFiles}
    {downloaded : List FilterSubscription} {filter filter' : FilterSubscription}
    {update : Option FilterCacheUpdate}
    (h : mergeFilter (readFilterCache staging staged) (readFilterCache data files) downloaded
      filter = .ok (filter', update)) : filter' = mergedFilter staged downloaded filter := by
  unfold mergeFilter at h
  unfold mergedFilter
  cases hfind : downloaded.find? fun result => SameList result filter with
  | none =>
    rw [hfind] at h
    cases pure_eq_ok.1 h
    rfl
  | some result =>
    rw [hfind] at h
    obtain ⟨content, hstaged, h⟩ := bind_eq_ok.1 h
    cases (readFilterCache_eq_ok.1 hstaged).2
    dsimp only
    cases hcontent : staged filter.id with
    | some content =>
      rw [hcontent] at h
      obtain ⟨previousContent, -, h⟩ := bind_eq_ok.1 h
      cases pure_eq_ok.1 h
      rfl
    | none =>
      rw [hcontent] at h
      dsimp only at h
      rw [if_neg (by simp)]
      by_cases herror : result.lastError.isSome = true
      · rw [if_pos herror] at h ⊢
        cases pure_eq_ok.1 h
        rfl
      · rw [if_neg herror] at h ⊢
        cases pure_eq_ok.1 h
        rfl

theorem mergedConfig_of_merge {staging data : Text → Option Text} {staged files : FilterFiles}
    {latest downloaded : AppConfig} {merged : MergedFilterUpdate}
    (h : mergeFilterUpdate (readFilterCache staging staged) (readFilterCache data files) latest
      downloaded = .ok merged) : merged.config = mergedConfig staged latest downloaded := by
  obtain ⟨results, hresults, h⟩ := bind_eq_ok.1 h
  cases pure_eq_ok.1 h
  have hall : List.Forall₂ (fun filter result => mergedFilter staged downloaded.filters filter =
      result.1) latest.filters results :=
    (forall₂_of_mapM hresults).imp fun _ _ h => (mergeFilter_fst h).symm
  have hfilters : latest.filters.map (mergedFilter staged downloaded.filters) =
      results.map Prod.fst := by
    rw [← List.forall₂_eq_eq_eq, List.forall₂_map_left_iff, List.forall₂_map_right_iff]
    exact hall
  rw [mergedConfig, hfilters]

theorem applyMerged_keeps (previous config : AppConfig) (updated : ℕ) :
    Ends (applyMerged env pattern previous config updated) s
      (fun _ s' => s.app.KeepsConfig s'.app) (fun _ s' => s.app.KeepsConfig s'.app) := by
  unfold applyMerged
  dsimp only
  split_ifs
  · exact (onService_ends (applyConfigChange_keeps previous config)).mono (fun _ _ h => h.2)
      fun _ _ h => h.2
  · refine (onService_ends (setEffectiveSummary_ends _ _)).mono ?_ ?_
    · rintro ⟨⟩ s' ⟨-, -, hs'⟩
      rw [hs']
      exact ⟨rfl, rfl, rfl⟩
    · rintro e s' ⟨-, -, hs'⟩
      rw [hs']
      exact .refl _
  · exact Ends.pure (.refl _)

theorem onFiles_app {ε α : Type} (x : EStateM ε FilterFiles α) :
    Ends (onFiles x) s (fun _ s' => s'.app = s.app) (fun _ s' => s'.app = s.app) := by
  unfold Ends onFiles
  cases x s.files <;> rfl

theorem recoverPublish_within {Q : Unit → UpdateState → Prop} {previous : AppConfig}
    (hs : Within A B s.app) (hB : B (some previous)) (error : FilterCachePublishError) :
    Ends (recoverPublish env pattern previous error) s Q (fun _ s' => Within A B s'.app) := by
  unfold recoverPublish
  refine (onService_ends (collect_ends (saveToDatabase_ends previous s.app))).bind
    (fun _ _ h => h.2.elim) ?_
  rintro saved s₁ ⟨-, hsaved⟩
  have hwithin : Within A B s₁.app := by
    obtain ⟨-, -, hstored, hs₁⟩ | ⟨-, e, -, hs₁⟩ := hsaved
    · exact ⟨by rw [hs₁]; exact hs.1, hstored ▸ hB⟩
    · exact hs₁ ▸ hs
  exact Ends.modify_bind (Ends.throw hwithin)

theorem recoverUpdate_within {Q : Unit → UpdateState → Prop} {previous : AppConfig}
    (hs : Within A B s.app) (hA : A previous) (hB : B (some previous)) (wasRunning : Bool)
    (updates : List FilterCacheUpdate) (error : StepError) :
    Ends (recoverUpdate env pattern previous wasRunning updates error) s Q
      (fun _ s' => Within A B s'.app) := by
  unfold recoverUpdate
  refine (onFiles_app _).bind (E := fun _ s' => Within A B s'.app) (fun _ _ h => h ▸ hs) ?_
  intro failures s₁ happ₁
  refine (onService_ends (restoreConfigAfterFailureWith_within (Q := fun _ _ => False) (happ₁ ▸ hs)
    hA hB _ _ _)).mono (fun _ _ h => h.2.elim) fun _ _ h => h.2

theorem applyUpdate_within {staged : FilterFiles} {downloaded : AppConfig} (updated : ℕ)
    (hs : Within A B s.app) (hprevious : B (some s.app.config))
    (hnew : validate env.parseUrl (mergedConfig staged s.app.config downloaded) = .ok () →
      A (mergedConfig staged s.app.config downloaded) ∧
        B (some (mergedConfig staged s.app.config downloaded))) :
    Ends (applyUpdate env pattern staged downloaded updated) s
      (fun _ s' => Put env (mergedConfig staged s.app.config downloaded) s'.app)
      (fun _ s' => Within A B s'.app) := by
  unfold applyUpdate
  refine onService_look_bind ((check_ends _).mono (fun _ _ h => h) fun _ _ h => h.2)
    (fun _ => hs) fun _ _ => ?_
  refine Ends.get_bind ?_
  dsimp only
  refine Ends.lift_bind (fun _ _ => hs) fun merged hmerged => ?_
  rw [← mergedConfig_of_merge hmerged] at hnew ⊢
  refine onService_look_bind (wasRunning_ends.mono (fun _ _ h => ⟨h.2.1, h.2.2⟩) fun _ _ h => h.2)
    (fun _ => hs) ?_
  rintro running -
  refine (onService_ends (step_ends (saveToDatabase_ends merged.config s.app)
    (F := fun _ app => app = s.app) fun _ _ h => h.2)).bind (fun _ _ h => h.2 ▸ hs) ?_
  rintro ⟨⟩ s₁ ⟨-, ⟨-, db', hsaved⟩, hstored₁, happ₁⟩
  have hvalid : validate env.parseUrl merged.config = .ok () := (appConfig_saveConfig hsaved).1
  obtain ⟨hA, hB⟩ := hnew hvalid
  have hwithin₁ : Within A B s₁.app := ⟨by rw [happ₁]; exact hs.1, hstored₁ ▸ hB⟩
  refine (Ends.recover (onFiles_app (publishFilterCacheUpdates pattern.cache merged.cacheUpdates))
    ?_).bind (fun _ _ h => h) ?_
  · exact fun error s₂ happ₂ => recoverPublish_within (happ₂ ▸ hwithin₁) hprevious error
  intro _ s₂ happ₂
  refine (Ends.recover (onService_ends (replaceConfig_ends merged.config s₂.app)) ?_).bind
    (fun _ _ h => h) ?_
  · rintro error s₃ ⟨-, -, happ₃⟩
    refine recoverUpdate_within ?_ hs.1 hprevious running _ error
    rw [happ₃, happ₂]
    exact hwithin₁
  rintro ⟨⟩ s₃ ⟨-, -, happ₃⟩
  have hput : Put env merged.config s₃.app := by
    refine ⟨by rw [happ₃], ?_, hvalid⟩
    rw [happ₃, happ₂]
    exact hstored₁
  refine Ends.recover ((applyMerged_keeps s.app.config merged.config updated).mono
    (fun _ _ h => hput.of_keeps h) fun _ _ h => h) fun error s₄ hkeeps => ?_
  refine recoverUpdate_within ⟨?_, ?_⟩ hs.1 hprevious running _ error
  · exact (hput.of_keeps hkeeps).memory ▸ hA
  · exact (hput.of_keeps hkeeps).stored ▸ hB

end

end DnsBlackhole.Service
