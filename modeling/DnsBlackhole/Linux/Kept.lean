/-
  What the steps of the service keep, while the system DNS is taken over or restored: the
  files and the state file, and the port of DNS.
-/
import DnsBlackhole.Linux.SystemDns

namespace DnsBlackhole.Linux
open Admin (AppConfig)
open Config (Url migrateLegacyDefaults listenPort_migrateLegacyDefaults)
open Lib
open Service (enabledConfig)
open Steps

variable {parseUrl : Text → Except Text Url}

/-! ## What is kept -/

/-- The files and the state file are the same. -/
structure World.SameFiles (w w' : World) : Prop where
  node : ∀ file, w'.node file = w.node file
  journal : w'.journal = w.journal

theorem World.SameFiles.refl (w : World) : w.SameFiles w := ⟨fun _ => rfl, rfl⟩

theorem World.SameFiles.trans {w w' w'' : World} (h : w.SameFiles w') (h' : w'.SameFiles w'') :
    w.SameFiles w'' :=
  ⟨fun file => (h'.node file).trans (h.node file), h'.journal.trans h.journal⟩

/-- Both configurations have the port of DNS. -/
def World.Port53 (w : World) : Prop := w.stored.listenPort = 53 ∧ w.memory.listenPort = 53

/-- The configuration in the database, which the next start uses, is served on the port of DNS. -/
def World.Serves53 (w : World) : Prop := w.stored.enabled = true ∧ w.stored.listenPort = 53

theorem World.sameFiles_stored (w : World) (config : AppConfig) :
    w.SameFiles { w with stored := config } :=
  ⟨fun file => by cases file <;> rfl, rfl⟩

theorem World.sameFiles_memory (w : World) (config : AppConfig) :
    w.SameFiles { w with memory := config } :=
  ⟨fun file => by cases file <;> rfl, rfl⟩

theorem probe_always {P : World → Prop} {w : World} (h : P w) :
    Always (ε := Text) probe w (fun _ w' => w' = w) (fun _ w' => P w') P :=
  Always.probe rfl (fun _ => h) h

theorem lift_always {α : Type} {P : World → Prop} {w : World} {r : Except Text α} (h : P w) :
    Always (lift r) w (fun a w' => w' = w ∧ r = .ok a) (fun _ w' => P w') P :=
  Always.lift (fun _ ha => ⟨rfl, ha⟩) fun _ _ => h

theorem readState_always {P : World → Prop} {w : World} (h : P w) : Always readState w
    (fun journal w' => w' = w ∧ journal = w.journal) (fun _ w' => P w') P := by
  refine (probe_always h).andThen ?_
  rintro _ w rfl
  exact Always.get_bind (Always.pure ⟨rfl, rfl⟩)

theorem readState_succeeds (w : World) :
    Succeeds readState w fun journal w' => w' = w ∧ journal = w.journal := by
  refine (Succeeds.probe (Q := fun _ w' => w' = w) rfl).bind ?_
  rintro _ w rfl
  exact Succeeds.get_bind (Succeeds.pure ⟨rfl, rfl⟩)

/-- What a call of the service keeps: the files, and the port of DNS if `ported`. -/
structure World.Kept (ported : Prop) (w w' : World) : Prop where
  files : w.SameFiles w'
  port : ported → w.Port53 → w'.Port53

theorem World.Kept.refl (ported : Prop) (w : World) : w.Kept ported w := ⟨.refl w, fun _ h => h⟩

theorem saveConfig_always {ported : Prop} {w₀ w : World} {config : AppConfig}
    (hkept : w₀.Kept ported w) (hport : ported → w₀.Port53 → config.listenPort = 53) :
    Always (saveConfig config) w
      (fun _ w' => w₀.Kept ported w' ∧ w'.stored = config ∧ w'.memory = w.memory)
      (fun _ w' => w₀.Kept ported w') (w₀.Kept ported) := by
  have hdone : w₀.Kept ported { w with stored := config } :=
    ⟨hkept.files.trans (w.sameFiles_stored config), fun hported h =>
      ⟨hport hported h, (hkept.port hported h).2⟩⟩
  exact Always.step ⟨hdone, rfl, rfl⟩ (fun _ => ⟨hkept, hdone⟩) ⟨hkept, hdone⟩

theorem replaceConfig_always {ported : Prop} {w₀ w : World} {config : AppConfig}
    (hkept : w₀.Kept ported w) (hport : ported → w₀.Port53 → config.listenPort = 53) :
    Always (replaceConfig config) w
      (fun _ w' => w₀.Kept ported w' ∧ w'.memory = config ∧ w'.stored = w.stored)
      (fun _ w' => w₀.Kept ported w') (w₀.Kept ported) := by
  have hdone : w₀.Kept ported { w with memory := config } :=
    ⟨hkept.files.trans (w.sameFiles_memory config), fun hported h =>
      ⟨(hkept.port hported h).1, hport hported h⟩⟩
  exact Always.step ⟨hdone, rfl, rfl⟩ (fun _ => ⟨hkept, hdone⟩) ⟨hkept, hdone⟩

theorem listenPort_enabledConfig {config : AppConfig} (h : config.listenPort = 53) :
    (enabledConfig config).listenPort = 53 := by
  dsimp only [enabledConfig]
  exact listenPort_migrateLegacyDefaults h

theorem enabled_enabledConfig (config : AppConfig) : (enabledConfig config).enabled = true := rfl

theorem stopDnsBlocking_always (w : World) : Always stopDnsBlocking w
    (fun _ w' => w.Kept True w') (fun _ w' => w.Kept True w') (w.Kept True) := by
  unfold stopDnsBlocking
  refine (probe_always (.refl True w)).andThen ?_
  rintro _ w rfl
  have hport : True → w.Port53 → (disabledConfig w.memory).listenPort = 53 := fun _ h => h.2
  refine Always.get_bind ?_
  refine (saveConfig_always (.refl True w) hport).andThen fun _ w₁ h₁ => ?_
  refine (replaceConfig_always h₁.1 hport).andThen fun _ w₂ h₂ => ?_
  exact Always.probe h₂.1 (fun _ => h₂.1) h₂.1

theorem restoreConfigAfterFailure_always {ported : Prop} {w₀ w : World} {previous : AppConfig}
    {error : Text} {Q : PUnit → World → Prop} (hkept : w₀.Kept ported w)
    (hport : ported → w₀.Port53 → previous.listenPort = 53) :
    Always (restoreConfigAfterFailure previous error) w Q (fun _ w' => w₀.Kept ported w')
      (w₀.Kept ported) := by
  unfold restoreConfigAfterFailure
  have hprobe : ∀ w', w₀.Kept ported w' → Always (attempt probe >>= fun _ => throw error) w' Q
      (fun _ w' => w₀.Kept ported w') (w₀.Kept ported) := fun w' h =>
    Always.attempt_bind (probe_always h) (fun _ _ hw => Always.throw (hw ▸ h))
      fun _ _ h => Always.throw h
  have hreplace : ∀ w', w₀.Kept ported w' →
      Always (attempt (replaceConfig previous) >>= fun _ => attempt probe >>= fun _ => throw error)
        w' Q (fun _ w' => w₀.Kept ported w') (w₀.Kept ported) := fun w' h =>
    Always.attempt_bind (replaceConfig_always h hport) (fun _ w'' h => hprobe w'' h.1)
      fun _ w'' h => hprobe w'' h
  exact Always.attempt_bind (saveConfig_always hkept hport) (fun _ w' h => hreplace w' h.1)
    fun _ w' h => hreplace w' h

theorem runConfig_always {ported : Prop} {w₀ w : World} {config : AppConfig}
    (hkept : w₀.Kept ported w) (hport : ported → w₀.Port53 → config.listenPort = 53) :
    Always (runConfig config) w
      (fun _ w' => w₀.Kept ported w' ∧ w'.memory = config ∧ w'.stored = w.stored)
      (fun _ w' => w₀.Kept ported w') (w₀.Kept ported) := by
  unfold runConfig
  refine (replaceConfig_always hkept hport).andThen fun _ w₁ h₁ => ?_
  exact Always.probe h₁ (fun _ => h₁.1) h₁.1

theorem startDnsBlocking_always (w : World) : Always (startDnsBlocking parseUrl) w
    (fun _ w' => w.Kept True w' ∧ w'.memory = enabledConfig w.memory ∧
      w'.stored = enabledConfig w.memory)
    (fun _ w' => w.Kept True w') (w.Kept True) := by
  unfold startDnsBlocking
  refine (probe_always (.refl True w)).andThen ?_
  rintro _ w rfl
  refine Always.get_bind ?_
  refine (lift_always (.refl True w)).andThen ?_
  rintro _ w ⟨rfl, -⟩
  have hport : True → w.Port53 → (enabledConfig w.memory).listenPort = 53 :=
    fun _ h => listenPort_enabledConfig h.2
  refine (saveConfig_always (.refl True w) hport).andThen fun _ w₁ h₁ => ?_
  refine Always.attempt_bind (runConfig_always h₁.1 hport) (fun _ w₂ h₂ => ?_) fun error w₂ h₂ => ?_
  · exact Always.pure ⟨h₂.1, h₂.2.1, h₂.2.2.trans h₁.2.1⟩
  · exact restoreConfigAfterFailure_always h₂ fun _ h => h.2

theorem applyListenPortBlocking_always (w : World) (port : UInt16) :
    Always (applyListenPortBlocking parseUrl port) w
      (fun _ w' => w.SameFiles w' ∧ w'.memory.listenPort = port)
      (fun _ w' => w.SameFiles w') w.SameFiles := by
  unfold applyListenPortBlocking
  refine (probe_always (.refl w)).andThen ?_
  rintro _ w rfl
  refine Always.get_bind ?_
  split_ifs with hport
  · exact Always.pure ⟨.refl w, hport⟩
  refine (lift_always (.refl w)).andThen ?_
  rintro _ w ⟨rfl, -⟩
  refine Always.bind (saveConfig_always (.refl False w) fun h => h.elim) (fun _ _ h => h.files)
    (fun _ h => h.files) fun _ w₁ h₁ => ?_
  refine Always.bind (replaceConfig_always h₁.1 fun h => h.elim) (fun _ _ h => h.files)
    (fun _ h => h.files) fun _ w₂ h₂ => ?_
  exact Always.pure ⟨h₂.1.files, congrArg AppConfig.listenPort h₂.2.1⟩

end DnsBlackhole.Linux
