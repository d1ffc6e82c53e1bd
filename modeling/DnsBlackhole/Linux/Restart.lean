/-
  No stopped resolver is left behind (`linux_system_dns.rs`, `linux_daemon.rs`).

  A start repairs what is desired, a shutdown what is effective; a transaction that is only
  pending is repaired by neither.

  * `resolver_served`: along every run where they meet no such transaction with the files
    managed, a start without an error leaves the originals, or a configuration that is
    served on the port of DNS, and a shutdown that succeeds leaves the originals;
  * `start_leaves_managed`: a start behind a restore that was cut short.
-/
import DnsBlackhole.Linux.Conflicts

namespace DnsBlackhole.Linux
open Config (Url noUrl)
open Lib
open Steps

variable {parseUrl : Text → Except Text Url} {sha256Hex : List UInt8 → Text} {host : Host}
  {o : ManagedFile → Node} {w : World}

/-! ## Starts and shutdowns -/

/-- Behind a start without an error, and behind a shutdown that succeeds, the system is not
    left with a resolver that is stopped. -/
def LeavesResolver (parseUrl : Text → Except Text Url) (sha256Hex : List UInt8 → Text)
    (o : ManagedFile → Node) (w : World) : DnsEvent → Prop
  | .called .start host script => ∀ reconciliation rest w',
      startDaemon parseUrl sha256Hex host script w = .returned reconciliation rest w' →
      reconciliation.error = none → w'.Original o ∨ w'.Serves53
  | .called .shutdown host script => ∀ a rest w',
      restoreBeforeShutdown sha256Hex host script w = .returned a rest w' → w'.Original o
  | _ => True

/-- The start, or the shutdown, does not meet a transaction that it does not repair. -/
def MeetsRepairable (o : ManagedFile → Node) (w : World) : DnsEvent → Prop
  | .called .start _ _ => ∀ state, w.journal = some state →
      state.pending = true → state.desired = false → w.Original o ∨ w.Serves53
  | .called .shutdown _ _ => ∀ state, w.journal = some state →
      state.pending = true → state.effective = false → w.Original o
  | _ => True

theorem returned_of_always {α : Type} {x : DnsM α} {Q : α → World → Prop}
    {E : Text → World → Prop} {D : World → Prop} (h : Always x w Q E D) {script rest : Script Text}
    {a : α} {w' : World} (hreturned : x script w = .returned a rest w') : Q a w' := by
  have := h.ends script
  rw [hreturned] at this
  exact this

theorem start_leavesResolver (hutf8 : ∀ file, (o file).LinksUtf8) (h : Recoverable sha256Hex o w)
    {script : Script Text} (hmeets : MeetsRepairable o w (.called .start host script)) :
    LeavesResolver parseUrl sha256Hex o w (.called .start host script) := by
  intro reconciliation rest w' hreturned herror
  have hreconciled := returned_of_always (startDaemon_always hutf8 h) hreturned
  cases hdesired : reconciliation.desired with
  | true => exact .inr (hreconciled.serves hdesired herror)
  | false =>
    obtain ⟨hsame, hstored, hnot⟩ := hreconciled.untouched hdesired
    have hleft : w.Original o ∨ w.Serves53 := by
      rcases h.marked with horiginal | ⟨state, hstate, hmarked⟩
      · exact .inl horiginal
      cases hpending : state.pending with
      | true => exact hmeets state hstate hpending (hnot state hstate)
      | false =>
        -- a takeover that is effective and not pending is desired
        have heffective : state.effective = true :=
          hmarked.resolve_right fun hp => Bool.false_ne_true (hpending.symm.trans hp)
        cases (hnot state hstate).symm.trans (h.serving state hstate heffective hpending).1
    refine hleft.imp (fun horiginal file => (hsame.node file).trans (horiginal file)) fun hserves => ?_
    exact ⟨hstored ▸ hserves.1, hstored ▸ hserves.2⟩

theorem shutdown_leavesResolver (hutf8 : ∀ file, (o file).LinksUtf8)
    (h : Recoverable sha256Hex o w) {script : Script Text}
    (hmeets : MeetsRepairable o w (.called .shutdown host script)) :
    LeavesResolver parseUrl sha256Hex o w (.called .shutdown host script) := by
  intro a rest w' hreturned
  rcases returned_of_always (restoreBeforeShutdown_always hutf8 h) hreturned with
    hrestored | ⟨rfl, hnot⟩
  · exact hrestored.restored.original
  rcases h.marked with horiginal | ⟨state, hstate, heffective | hpending⟩
  · exact horiginal
  · cases (hnot state hstate).symm.trans heffective
  · exact hmeets state hstate hpending (hnot state hstate)

/-! ## Runs -/

/-- **The resolver is never left stopped**, in a run without other programs whose starts and
    shutdowns meet no transaction that they do not repair. -/
theorem resolver_served {init : World} (hinit : init.Untouched)
    (hutf8 : ∀ file, (init.node file).LinksUtf8) {events : List DnsEvent}
    (hmeets : (systemDnsMachine parseUrl sha256Hex init).Guarded
      (fun w event => event.IsCall ∧ MeetsRepairable init.node w event) init events) :
    (systemDnsMachine parseUrl sha256Hex init).Guarded
      (LeavesResolver parseUrl sha256Hex init.node) init events := by
  refine Machine.Guarded.mono (P := Recoverable sha256Hex init.node) (fun w event w' h hok hstep => ?_)
    (fun w event h hok => ?_) events hinit.recoverable hmeets
  · cases hstep
    exact recoverable_after hutf8 h hok.1
  · cases event with
    | wrote file node => trivial
    | called call host script =>
      cases call with
      | start => exact start_leavesResolver hutf8 h hok.2
      | shutdown => exact shutdown_leavesResolver hutf8 h hok.2
      | takeOver => trivial
      | restore preserveDesired => trivial
      | restoreOffline preserveDesired => trivial

/-! ## Transactions that are cut short -/

/-- A takeover that is cut short is repaired by the next start, and by the shutdown behind it. -/
def cutAndStarted : List DnsEvent :=
  [cutTakeover, .called .start stubHost [], .called .shutdown stubHost []]

theorem marked_cutAndStarted :
    ((stubWorld.after noUrl sampleSha256 cutTakeover).journal.all fun state => state.desired) =
        true ∧
      (((stubWorld.after noUrl sampleSha256 cutTakeover).after noUrl sampleSha256
        (.called .start stubHost [])).journal.all fun state => state.effective) = true := by
  decide +kernel

theorem served_cutAndStarted : (systemDnsMachine noUrl sampleSha256 stubWorld).Guarded
    (LeavesResolver noUrl sampleSha256 stubWorld.node) stubWorld cutAndStarted := by
  refine resolver_served (show stubWorld.Untouched from rfl) linksUtf8_stubWorld
    ⟨⟨trivial, trivial⟩, _, rfl, ⟨trivial, fun state hstate _ hdesired => ?_⟩, _, rfl,
      ⟨trivial, fun state hstate _ heffective => ?_⟩, _, rfl, trivial⟩
  · have hmarked := marked_cutAndStarted.1
    rw [hstate] at hmarked
    cases hdesired.symm.trans hmarked
  · have hmarked := marked_cutAndStarted.2
    rw [hstate] at hmarked
    cases heffective.symm.trans hmarked

/-- A restore that is not to be taken over again, and dies when the server is disabled. -/
def cutRestore : DnsEvent :=
  .called (.restore false) stubHost [none, none, none, none, none, some (.dies true)]

theorem start_cutRestore :
    (((systemDnsMachine noUrl sampleSha256 stubWorld).run stubWorld
      [.called .takeOver stubHost [], cutRestore]).bind fun w =>
        (startDaemon noUrl sampleSha256 stubHost [] w).returned?).map
      (fun r => (r.1.error, r.2.dropIn, r.2.stored.enabled)) =
      some (none, managedNode .dropIn, false) := by
  decide +kernel

/-- The next start reports no error; the files are managed, and the server stays disabled. -/
theorem start_leaves_managed : ∃ w,
    (systemDnsMachine noUrl sampleSha256 stubWorld).run stubWorld
        [.called .takeOver stubHost [], cutRestore] = some w ∧
      ¬LeavesResolver noUrl sampleSha256 stubWorld.node w (.called .start stubHost []) := by
  obtain ⟨⟨reconciliation, w'⟩, hstart, hw'⟩ := Option.map_eq_some_iff.1 start_cutRestore
  obtain ⟨w, hrun, hreturned⟩ := Option.bind_eq_some_iff.1 hstart
  obtain ⟨rest, hreturned⟩ := Ending.returned?_eq_some.1 hreturned
  refine ⟨w, hrun, fun hleaves => ?_⟩
  have herror : reconciliation.error = none := congrArg (·.1) hw'
  have hdropIn : w'.dropIn = managedNode .dropIn := congrArg (·.2.1) hw'
  have henabled : w'.stored.enabled = false := congrArg (·.2.2) hw'
  rcases hleaves reconciliation rest w' hreturned herror with horiginal | hserves
  · cases hdropIn.symm.trans (horiginal .dropIn)
  · cases henabled.symm.trans hserves.1

end DnsBlackhole.Linux
