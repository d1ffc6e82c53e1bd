/-
  Downloaded lists (`update_matching_filters` of `filters.rs`, and the merging and
  publishing of what it downloaded in `service_core.rs`).

  The files of the lists are a map from the id of a list to its content.

  * `mergeFilterUpdate_eq_ok`: nothing is changed but lists that are on, with the same id
    and address, in both configurations;
  * `publishFilterCacheUpdates_ends`: all files are written, or none of them;
  * `restoreFilterCacheUpdates_ends`: all files are brought back.
-/
import DnsBlackhole.Admin.Config
import DnsBlackhole.Lib.Attempt
import DnsBlackhole.Lib.Fallible
import DnsBlackhole.Lib.Writes
import DnsBlackhole.Rules.Statistics

namespace DnsBlackhole.Service
open Admin (AppConfig FilterSubscription)
open Lib

/-- The files of the lists, by id. -/
abbrev FilterFiles := Text → Option Text

/-! ## Downloading -/

/-- What was downloaded, and when. -/
structure Download where
  content : Text
  finishedAt : Option UInt64

/-- The numbers of a list after its download. -/
def downloadedFilter (jsonString : Text → Option Text) (filter : FilterSubscription)
    (download : Download) : FilterSubscription :=
  let summary := Rules.summaryOf (Rules.scanRulesWithDisabled jsonString download.content [])
  { filter with
    ruleCount := summary.blockRules + summary.allowRules
    blockRuleCount := summary.blockRules
    allowRuleCount := summary.allowRules
    ignoredRuleCount := summary.ignoredRules
    ignoredCommentCount := summary.ignoredCommentRules
    ignoredRegexCount := summary.ignoredRegexRules
    ignoredUnsupportedCount := summary.ignoredUnsupportedRules
    ignoredInvalidCount := summary.ignoredInvalidRules
    lastUpdated := download.finishedAt
    lastError := none }

section
variable (jsonString : Text → Option Text) (shouldUpdate : FilterSubscription → Bool)
  (outcomes : Text → Option (Except Text Download))

/-- What the download of a list gave, if it was asked for and not cancelled. -/
def outcomeOf (filter : FilterSubscription) : Option (Except Text Download) :=
  if filter.enabled && shouldUpdate filter then outcomes filter.id else none

def processOutcome (filter : FilterSubscription) : FilterSubscription :=
  match outcomeOf shouldUpdate outcomes filter with
  | none => filter
  | some (.ok download) => downloadedFilter jsonString filter download
  | some (.error error) => { filter with lastError := some error }

/-- `update_matching_filters`, with what each download gave. -/
def updateMatchingFilters (config : AppConfig) : AppConfig :=
  { config with filters := config.filters.map (processOutcome jsonString shouldUpdate outcomes) }

/-- The files that the downloads have written. -/
def stagedFiles (config : AppConfig) : FilterFiles := fun id =>
  (config.filters.find? (·.id = id)).bind fun filter =>
    match outcomeOf shouldUpdate outcomes filter with
    | some (.ok download) => some download.content
    | _ => none

/-- How many lists were downloaded. -/
def updatedCount (config : AppConfig) : ℕ :=
  config.filters.countP fun filter =>
    match outcomeOf shouldUpdate outcomes filter with
    | some (.ok _) => true
    | _ => false

end

/-! ## Merging -/

structure FilterCacheUpdate where
  id : Text
  previousContent : Option Text
  nextContent : Text

structure MergedFilterUpdate where
  config : AppConfig
  cacheUpdates : List FilterCacheUpdate

/-- A read of a file may fail. -/
def readFilterCache (fault : Text → Option Text) (files : FilterFiles) (id : Text) :
    Except Text (Option Text) :=
  match fault id with
  | some error => .error error
  | none => .ok (files id)

/-- Both are on, and the same list. -/
def SameList (result filter : FilterSubscription) : Prop :=
  result.id = filter.id ∧ result.url = filter.url ∧ result.enabled = true ∧ filter.enabled = true

instance (result filter : FilterSubscription) : Decidable (SameList result filter) :=
  inferInstanceAs (Decidable (_ ∧ _))

def mergeFilter (staging data : Text → Except Text (Option Text))
    (downloaded : List FilterSubscription) (filter : FilterSubscription) :
    Except Text (FilterSubscription × Option FilterCacheUpdate) :=
  match downloaded.find? fun result => SameList result filter with
  | none => return (filter, none)
  | some result => do
    match ← staging filter.id with
    | some content =>
      let previousContent ← data filter.id
      return ({ result with name := filter.name },
        some { id := filter.id, previousContent, nextContent := content })
    | none =>
      if result.lastError.isSome then return ({ filter with lastError := result.lastError }, none)
      else return (filter, none)

def mergeFilterUpdate (staging data : Text → Except Text (Option Text))
    (latest downloaded : AppConfig) : Except Text MergedFilterUpdate := do
  let merged ← latest.filters.mapM (mergeFilter staging data downloaded.filters)
  return {
    config := { latest with filters := merged.map Prod.fst }
    cacheUpdates := merged.filterMap Prod.snd }

/-! ## Publishing -/

/-- Which files cannot be written, and which not be brought back. -/
structure CachePattern where
  publish : Text → Option Text
  restore : Text → Option Text

structure FilterCachePublishError where
  cause : Text
  rollbackFailures : Option Text

section
variable (pattern : CachePattern)

/-- One file is brought back; it is removed if there was none. -/
def restoreFilterCache {ε : Type} (update : FilterCacheUpdate) :
    EStateM ε FilterFiles (List Text) :=
  recover (do
    check (pattern.restore update.id)
    modify fun files => Function.update files update.id update.previousContent
    pure []) fun error => pure [error]

def restoreEach {ε : Type} : List FilterCacheUpdate → EStateM ε FilterFiles (List Text)
  | [] => pure []
  | update :: updates => do
    let failures ← restoreFilterCache pattern update
    let rest ← restoreEach updates
    pure (failures ++ rest)

/-- The failures are returned as one text. -/
def restoreFilterCacheUpdates {ε : Type} (updates : List FilterCacheUpdate) :
    EStateM ε FilterFiles (Option Text) := do
  let failures ← restoreEach pattern updates.reverse
  pure (if failures = [] then none else some (Text.join failures "；".toList))

/-- The updates behind those that are published. -/
def publishRest (published : List FilterCacheUpdate) :
    List FilterCacheUpdate → EStateM FilterCachePublishError FilterFiles Unit
  | [] => pure ()
  | update :: updates => do
    recover (do
      check (pattern.publish update.id)
      modify fun files => Function.update files update.id (some update.nextContent))
      fun cause => do
        let rollbackFailures ← restoreFilterCacheUpdates pattern published
        throw { cause, rollbackFailures }
    publishRest (published ++ [update]) updates

def publishFilterCacheUpdates (updates : List FilterCacheUpdate) :
    EStateM FilterCachePublishError FilterFiles Unit := publishRest pattern [] updates

end

/-! ## What the downloads write -/

section
variable {jsonString : Text → Option Text} {shouldUpdate : FilterSubscription → Bool}
  {outcomes : Text → Option (Except Text Download)}

end

/-! ## What the merging changes -/

section
variable {staging data : Text → Except Text (Option Text)} {staged files : FilterFiles}
  {stagingFault dataFault : Text → Option Text} {latest downloaded : AppConfig}
  {results : List FilterSubscription} {merged : MergedFilterUpdate}

/-- A list is as it was, takes what was downloaded for it, or its error. -/
structure MergesFilter (staged : FilterFiles) (results : List FilterSubscription)
    (filter filter' : FilterSubscription) : Prop where
  other : (∀ result ∈ results, ¬SameList result filter) → filter' = filter
  takes : ∀ content, staged filter.id = some content → (∃ result ∈ results, SameList result filter) →
    ∃ result ∈ results, SameList result filter ∧ filter' = { result with name := filter.name }
  keeps : staged filter.id = none → filter' = filter ∨ ∃ result ∈ results,
    SameList result filter ∧ result.lastError ≠ none ∧
      filter' = { filter with lastError := result.lastError }

/-- The update that a list gives. -/
def GivesUpdate (staged files : FilterFiles) (results : List FilterSubscription)
    (filter : FilterSubscription) (update : FilterCacheUpdate) : Prop :=
  (∃ result ∈ results, SameList result filter) ∧ staged filter.id = some update.nextContent ∧
    update.id = filter.id ∧ update.previousContent = files filter.id

theorem readFilterCache_eq_ok {fault : Text → Option Text} {id : Text} {content : Option Text} :
    readFilterCache fault files id = .ok content ↔ fault id = none ∧ files id = content := by
  unfold readFilterCache
  cases fault id <;> simp

theorem mergeFilter_eq_ok {filter filter' : FilterSubscription} {update : Option FilterCacheUpdate}
    (h : mergeFilter (readFilterCache stagingFault staged) (readFilterCache dataFault files) results
      filter = .ok (filter', update)) :
    MergesFilter staged results filter filter' ∧
      ∀ u, u ∈ update ↔ GivesUpdate staged files results filter u := by
  unfold mergeFilter at h
  split at h
  · rename_i hfind
    have hother : ∀ result ∈ results, ¬SameList result filter := by simpa using hfind
    cases pure_eq_ok.1 h
    refine ⟨⟨fun _ => rfl, fun content _ ⟨result, hmem, hsame⟩ => absurd hsame (hother result hmem),
      fun _ => .inl rfl⟩, fun u => ⟨nofun, fun ⟨⟨result, hmem, hsame⟩, _⟩ => ?_⟩⟩
    exact absurd hsame (hother result hmem)
  · rename_i result hfind
    have hmem : result ∈ results := List.mem_of_find?_eq_some hfind
    have hsame : SameList result filter := by simpa using List.find?_some hfind
    have hnot : ¬∀ result ∈ results, ¬SameList result filter := fun h => h result hmem hsame
    obtain ⟨content, hstaged, h⟩ := bind_eq_ok.1 h
    rw [(readFilterCache_eq_ok.1 hstaged).2.symm] at h
    cases hcontent : staged filter.id with
    | some content =>
      rw [hcontent] at h
      obtain ⟨previousContent, hprevious, h⟩ := bind_eq_ok.1 h
      cases pure_eq_ok.1 h
      refine ⟨⟨fun h => absurd h hnot, fun _ _ _ => ⟨result, hmem, hsame, rfl⟩, ?_⟩, fun u => ?_⟩
      · rw [hcontent]
        exact nofun
      · have hfiles := (readFilterCache_eq_ok.1 hprevious).2
        obtain ⟨id, previous, next⟩ := u
        simp only [Option.mem_def, Option.some.injEq, FilterCacheUpdate.mk.injEq, GivesUpdate,
          hcontent, hfiles]
        exact ⟨fun ⟨hid, hprevious, hnext⟩ => ⟨⟨result, hmem, hsame⟩, hnext, hid.symm, hprevious.symm⟩,
          fun ⟨_, hnext, hid, hprevious⟩ => ⟨hid.symm, hprevious.symm, hnext⟩⟩
    | none =>
      rw [hcontent] at h
      have hnone : ∀ u, ¬GivesUpdate staged files results filter u := by
        rintro u ⟨-, hnext, -⟩
        cases hcontent.symm.trans hnext
      dsimp only at h
      split_ifs at h with herror
      · cases pure_eq_ok.1 h
        refine ⟨⟨fun h => absurd h hnot, fun content h => ?_, fun _ => .inr ⟨result, hmem, hsame, ?_, rfl⟩⟩,
          fun u => ⟨nofun, fun hu => absurd hu (hnone u)⟩⟩
        · cases hcontent.symm.trans h
        · exact Option.isSome_iff_ne_none.1 herror
      · cases pure_eq_ok.1 h
        refine ⟨⟨fun _ => rfl, fun content h => ?_, fun _ => .inl rfl⟩,
          fun u => ⟨nofun, fun hu => absurd hu (hnone u)⟩⟩
        cases hcontent.symm.trans h

/-- **What the merging changes.** -/
structure MergesOnly (staged files : FilterFiles) (latest downloaded : AppConfig)
    (merged : MergedFilterUpdate) : Prop where
  config : merged.config = { latest with filters := merged.config.filters }
  filters : List.Forall₂ (MergesFilter staged downloaded.filters) latest.filters
    merged.config.filters
  updates : ∀ update, update ∈ merged.cacheUpdates ↔
    ∃ filter ∈ latest.filters, GivesUpdate staged files downloaded.filters filter update
  once : (latest.filters.map (·.id)).Nodup → (merged.cacheUpdates.map (·.id)).Nodup

theorem cacheUpdates_sublist {filters : List FilterSubscription}
    {results : List (FilterSubscription × Option FilterCacheUpdate)}
    (h : List.Forall₂ (fun filter result => ∀ update ∈ result.2, update.id = filter.id)
      filters results) :
    ((results.filterMap Prod.snd).map (·.id)).Sublist (filters.map (·.id)) := by
  induction h with
  | nil => exact .slnil
  | @cons filter result filters results hid _ ih =>
    obtain ⟨filter', update⟩ := result
    cases update with
    | none => exact ih.cons _
    | some update =>
      have hupdate : update.id = filter.id := hid update rfl
      rw [List.filterMap_cons, List.map_cons, List.map_cons, hupdate]
      exact ih.cons_cons _

theorem mem_cacheUpdates {filters : List FilterSubscription}
    {results : List (FilterSubscription × Option FilterCacheUpdate)}
    {P : FilterSubscription → FilterCacheUpdate → Prop}
    (h : List.Forall₂ (fun filter result => ∀ update, update ∈ result.2 ↔ P filter update)
      filters results) (update : FilterCacheUpdate) :
    update ∈ results.filterMap Prod.snd ↔ ∃ filter ∈ filters, P filter update := by
  induction h with
  | nil => simp
  | @cons filter result filters results hupdate _ ih =>
    rw [List.exists_mem_cons_iff, ← hupdate, ← ih]
    simp [eq_comm]

theorem mergeFilterUpdate_eq_ok
    (h : mergeFilterUpdate (readFilterCache stagingFault staged) (readFilterCache dataFault files)
      latest downloaded = .ok merged) : MergesOnly staged files latest downloaded merged := by
  obtain ⟨results, hresults, h⟩ := bind_eq_ok.1 h
  cases pure_eq_ok.1 h
  have hall := (forall₂_of_mapM hresults).imp fun filter result hfilter => mergeFilter_eq_ok hfilter
  refine ⟨rfl, ?_, mem_cacheUpdates (hall.imp fun _ _ h => h.2), fun hids => ?_⟩
  · exact List.forall₂_map_right_iff.2 (hall.imp fun _ _ h => h.1)
  · exact (cacheUpdates_sublist (hall.imp fun _ _ h update hu => ((h.2 update).1 hu).2.2.1)).nodup hids

end

/-! ## What the publishing writes -/

section
variable {pattern : CachePattern} {files : FilterFiles} {updates : List FilterCacheUpdate}

/-- The files after the updates. -/
def publishedFiles (files : FilterFiles) (updates : List FilterCacheUpdate) : FilterFiles :=
  writeAll (·.id) (fun update => some update.nextContent) files updates

/-- The files when some of the updates are undone. -/
def undoneFiles (files : FilterFiles) (updates : List FilterCacheUpdate) : FilterFiles :=
  writeAll (·.id) (·.previousContent) files updates

/-- The updates know the content that the files had. -/
def KnowsPrevious (files : FilterFiles) (updates : List FilterCacheUpdate) : Prop :=
  ∀ update ∈ updates, update.previousContent = files update.id

theorem undoneFiles_publishedFiles (h : KnowsPrevious files updates) :
    undoneFiles (publishedFiles files updates) updates.reverse = files :=
  writeAll_undo (fun update hupdate => h update (List.mem_reverse.1 hupdate))
    fun id hid => writeAll_of_not_mem (by simpa using hid)

theorem restoreFilterCache_ends {ε : Type} {E : ε → FilterFiles → Prop}
    (update : FilterCacheUpdate) : Ends (restoreFilterCache pattern update) files
      (fun failures files' => failures = [] →
        files' = Function.update files update.id update.previousContent) E :=
  Ends.recover (E := fun _ _ => True)
    (Ends.check_bind (fun _ _ => trivial) fun _ => Ends.modify_bind (Ends.pure fun _ => rfl))
    fun _ _ _ => Ends.pure nofun

theorem restoreEach_ends {ε : Type} {E : ε → FilterFiles → Prop} (updates : List FilterCacheUpdate)
    (files : FilterFiles) : Ends (restoreEach pattern updates) files
      (fun failures files' => failures = [] → files' = undoneFiles files updates) E := by
  induction updates generalizing files with
  | nil => exact Ends.pure fun _ => rfl
  | cons update updates ih =>
    refine (restoreFilterCache_ends update).bind (fun _ _ h => h) fun failures files₁ hfirst => ?_
    refine (ih files₁).bind (fun _ _ h => h) fun rest files₂ hrest => Ends.pure fun hfailures => ?_
    obtain ⟨hfailures, hnone⟩ := List.append_eq_nil_iff.1 hfailures
    rw [hrest hnone, hfirst hfailures]
    rfl

/-- **What was published is brought back**, unless that fails. -/
theorem restoreFilterCacheUpdates_ends {ε : Type} {E : ε → FilterFiles → Prop} :
    Ends (restoreFilterCacheUpdates pattern updates) files
      (fun failures files' => failures = none → files' = undoneFiles files updates.reverse) E := by
  refine (restoreEach_ends updates.reverse files).bind (fun _ _ h => h) ?_
  intro failures files' hfiles'
  refine Ends.pure fun hnone => hfiles' ?_
  by_contra hne
  rw [if_neg hne] at hnone
  cases hnone

theorem publishRest_ends {published : List FilterCacheUpdate}
    (h : KnowsPrevious files (published ++ updates)) :
    Ends (publishRest pattern published updates) (publishedFiles files published)
      (fun _ files' => files' = publishedFiles files (published ++ updates))
      (fun e files' => e.rollbackFailures = none → files' = files) := by
  induction updates generalizing published with
  | nil => exact Ends.pure (by rw [List.append_nil])
  | cons update updates ih =>
    have hpublished : KnowsPrevious files published := fun u hu => h u (List.mem_append_left _ hu)
    refine (Ends.recover (E := fun _ files' => files' = publishedFiles files published)
      (Q := fun _ files' => files' = publishedFiles files (published ++ [update]))
      (Ends.check_bind (fun _ _ => rfl) fun _ => Ends.modify ?_) ?_).bind (fun _ _ h => h) ?_
    · exact (writeAll_append [update]).symm
    · rintro cause _ rfl
      refine restoreFilterCacheUpdates_ends.bind (fun _ _ h => h) fun failures files' hfiles' => ?_
      exact Ends.throw fun hnone => (hfiles' hnone).trans (undoneFiles_publishedFiles hpublished)
    · rintro ⟨⟩ _ rfl
      have hsplit : published ++ update :: updates = published ++ [update] ++ updates := by simp
      rw [hsplit] at h ⊢
      exact ih h

/-- **All files are published or none of them**, unless bringing them back fails. -/
theorem publishFilterCacheUpdates_ends (h : KnowsPrevious files updates) :
    Ends (publishFilterCacheUpdates pattern updates) files
      (fun _ files' => files' = publishedFiles files updates)
      (fun e files' => e.rollbackFailures = none → files' = files) := by
  rw [← List.nil_append updates] at h
  exact publishRest_ends h

/-- Exactly the listed files have the downloaded text. -/
structure PublishesOnly (files files' : FilterFiles) (updates : List FilterCacheUpdate) : Prop where
  listed : ∀ update ∈ updates, files' update.id = some update.nextContent
  others : ∀ id ∉ updates.map (·.id), files' id = files id

theorem publishesOnly_publishedFiles (h : (updates.map (·.id)).Nodup) :
    PublishesOnly files (publishedFiles files updates) updates :=
  ⟨fun _ hupdate => writeAll_of_mem h hupdate, fun _ hid => writeAll_of_not_mem hid⟩

end

/-! ## The download as a whole -/

theorem MergesOnly.knowsPrevious {staged files : FilterFiles} {latest downloaded : AppConfig}
    {merged : MergedFilterUpdate} (h : MergesOnly staged files latest downloaded merged) :
    KnowsPrevious files merged.cacheUpdates := by
  intro update hupdate
  obtain ⟨filter, -, -, -, hid, hprevious⟩ := (h.updates update).1 hupdate
  rw [hprevious, hid]

/-- **A download touches only what it downloaded**: in the configuration, in the files when they
    are published, and in none of them when that fails or is undone. -/
theorem download_touches_only {stagingFault dataFault : Text → Option Text}
    {staged files : FilterFiles} {latest downloaded : AppConfig} {merged : MergedFilterUpdate}
    (pattern : CachePattern) (hids : (latest.filters.map (·.id)).Nodup)
    (hmerge : mergeFilterUpdate (readFilterCache stagingFault staged)
      (readFilterCache dataFault files) latest downloaded = .ok merged) :
    MergesOnly staged files latest downloaded merged ∧
    Ends (publishFilterCacheUpdates pattern merged.cacheUpdates) files
      (fun _ files' => PublishesOnly files files' merged.cacheUpdates ∧
        Ends (restoreFilterCacheUpdates pattern merged.cacheUpdates :
          EStateM Empty FilterFiles (Option Text)) files'
          (fun failures files'' => failures = none → files'' = files) fun _ _ => False)
      (fun e files' => e.rollbackFailures = none → files' = files) := by
  have hmerges := mergeFilterUpdate_eq_ok hmerge
  refine ⟨hmerges, (publishFilterCacheUpdates_ends hmerges.knowsPrevious).mono ?_ fun _ _ h => h⟩
  rintro ⟨⟩ _ rfl
  refine ⟨publishesOnly_publishedFiles (hmerges.once hids), ?_⟩
  refine restoreFilterCacheUpdates_ends.mono (fun failures files'' h hnone => ?_) fun _ _ h => h
  rw [h hnone, undoneFiles_publishedFiles hmerges.knowsPrevious]

def adsList : FilterSubscription where
  id := "ads".toList
  name := "Ads".toList
  url := "https://example.com/ads.txt".toList
  enabled := true
  ruleCount := 0
  blockRuleCount := 0
  allowRuleCount := 0
  ignoredRuleCount := 0
  ignoredCommentCount := 0
  ignoredRegexCount := 0
  ignoredUnsupportedCount := 0
  ignoredInvalidCount := 0
  lastUpdated := none
  lastError := none

def adsDownload : Download := { content := "||ads.example^".toList, finishedAt := some 1700000000 }

/-- The list is renamed while it is downloaded, and no file can be written. -/
theorem ads_touched_only :
    let renamed : AppConfig := { (default : AppConfig) with
      filters := [{ adsList with name := "Renamed".toList }] }
    let downloaded : AppConfig := { (default : AppConfig) with
      filters := [downloadedFilter (fun _ => none) adsList adsDownload] }
    let pattern : CachePattern := { publish _ := some [], restore _ := none }
    ∃ merged, MergesOnly (fun _ => some adsDownload.content) (fun _ => none) renamed downloaded merged ∧
      Ends (publishFilterCacheUpdates pattern merged.cacheUpdates) (fun _ => none)
        (fun _ _ => True) (fun e files' => e.rollbackFailures = none → files' = fun _ => none) := by
  intro renamed downloaded pattern
  have hmerge : ∃ merged, mergeFilterUpdate
      (readFilterCache (fun _ => none) fun _ => some adsDownload.content)
      (readFilterCache (fun _ => none) fun _ => none) renamed downloaded = .ok merged := ⟨_, rfl⟩
  obtain ⟨merged, hmerge⟩ := hmerge
  have hids : (renamed.filters.map (·.id)).Nodup := List.nodup_singleton adsList.id
  obtain ⟨hmerges, hpublish⟩ := download_touches_only pattern hids hmerge
  exact ⟨merged, hmerges, hpublish.mono (fun _ _ _ => trivial) fun _ _ h => h⟩

end DnsBlackhole.Service
