/- A finished mode: no state refers to it exactly when the release finds every reference. -/

import WayDisplays.Act.Handles

set_option autoImplicit false
set_option relaxedAutoImplicit false

namespace WayDisplays.Act.ModeLifetime

open Lib (OrderedMap)
open Lib.Run
open Model
open Handles
open ModeReferences

def Finished (compositor : Compositor) (zmode : ZMode) : Prop :=
  ∃ a, compositor.modes.get? zmode = some a ∧ a.finished = true

/-- The step finishes no mode that is among the failed ones of its head, or that the change
in flight is about. -/
def SparesMode (sys : System) (event : Event) : Prop :=
  ∀ zhead zmode, event = .dispatch (.mode zhead zmode .finished) →
    (∀ head, sys.server.gDispl.heads.get? zhead = some head → zmode ∉ head.modesFailed.keys) ∧
      sys.server.gDispl.delta.zmode ≠ some zmode

variable [Platform]

/-- No head and no change refers to a finished mode, nor does what `act` would send now. -/
def NoFinishedMode (sys : System) : Prop :=
  ∀ zmode, Finished sys.compositor zmode →
    (∀ zhead head, sys.server.gDispl.heads.get? zhead = some head → ¬ HeadRefers head zmode) ∧
      sys.server.gDispl.delta.zmode ≠ some zmode ∧
      ∀ configuration ∈ sys.sent .act, ¬ SetsMode configuration zmode

private theorem noFinishedMode_iff {sys : System} (howned : Owned sys) :
    NoFinishedMode sys ↔
      ∀ zhead zmode, Refers sys.server.gDispl zhead zmode →
        ¬ Finished sys.compositor zmode := by
  constructor
  · intro h zhead zmode hrefers hfinished
    obtain ⟨hheads, hdelta, _⟩ := h zmode hfinished
    rcases hrefers with ⟨head, hget, hr⟩ | ⟨_, hr⟩
    · exact hheads zhead head hget hr
    · exact hdelta hr
  · intro h zmode hfinished
    refine ⟨fun zhead head hget hr => h zhead zmode (Or.inl ⟨head, hget, hr⟩) hfinished, ?_, ?_⟩
    · intro hdelta
      obtain ⟨zhead, hhead⟩ := howned.deltaHead zmode hdelta
      exact h zhead zmode (Or.inr ⟨hhead, hdelta⟩) hfinished
    · intro configuration hsent hsets
      unfold System.sent at hsent
      cases hact : Model.act sys.server with
      | error halt => simp [hact] at hsent
      | ok result =>
        obtain ⟨server, sent⟩ := result
        cases sent with
        | none => simp [hact] at hsent
        | some sent =>
          simp only [hact, List.mem_singleton] at hsent
          subst hsent
          obtain ⟨zhead, hr⟩ := refers_sent (Spec.act_called hact) hsets
          exact h zhead zmode hr hfinished

/-! ### Steps -/

/-- References stay unfinished in a step that passes them on and finishes no mode. -/
private theorem noFinishedMode_of_refers {sys sys' : System} (howned : Owned sys)
    (howned' : Owned sys') (hclean : NoFinishedMode sys)
    (hrefers : ∀ zhead zmode, Refers sys'.server.gDispl zhead zmode →
      Refers sys.server.gDispl zhead zmode)
    (hmodes : sys'.compositor.modes = sys.compositor.modes) : NoFinishedMode sys' := by
  rw [noFinishedMode_iff howned']
  rw [noFinishedMode_iff howned] at hclean
  intro zhead zmode h
  rw [Finished, hmodes]
  exact hclean zhead zmode (hrefers zhead zmode h)

private theorem refers_act {sys : System} {zhead : ZHead} {zmode : ZMode}
    (h : Refers sys.act.server.gDispl zhead zmode) : Refers sys.server.gDispl zhead zmode := by
  unfold System.act at h
  cases hact : Model.act sys.server with
  | error halt => simpa [hact] using h
  | ok result =>
    obtain ⟨server, configuration⟩ := result
    simp only [hact] at h
    exact refers_called (Spec.act_called hact) h

omit [Platform] in
private theorem act_modes [Platform] (sys : System) :
    sys.act.compositor.modes = sys.compositor.modes := by
  unfold System.act
  split <;> rfl

omit [Platform] in
private theorem finished_sends {c : Compositor} {event : WlEvent}
    (hadmits : c.admits event = true) {zmode : ZMode} {a : AnnouncedMode}
    (hget : c.modes.get? zmode = some a) (h : Finished (c.sends event) zmode) :
    a.finished = true ∨ event = .mode a.zhead zmode .finished := by
  obtain ⟨a', hget', hfinished⟩ := h
  obtain ⟨a'', hget'', _, hcase⟩ := sends_modes hadmits hget
  obtain rfl := Option.some.inj (hget'.symm.trans hget'')
  rcases hcase with hsame | ⟨zhead, rfl⟩
  · exact Or.inl (hsame ▸ hfinished)
  · obtain ⟨_, b, hb, howner, _⟩ := hasMode_iff.mp hadmits
    obtain rfl := Option.some.inj (hget.symm.trans hb)
    exact Or.inr (by rw [howner])

private theorem noFinishedMode_dispatch {sys : System} {event : WlEvent} (howned : Owned sys)
    (hadmits : sys.compositor.admits event = true) (hclean : NoFinishedMode sys) :
    NoFinishedMode (sys.dispatch event) ↔ SparesMode sys (.dispatch event) := by
  rw [noFinishedMode_iff (owned_dispatch howned hadmits)]
  rw [noFinishedMode_iff howned] at hclean
  constructor
  · rintro hclean' zhead zmode ⟨⟩
    obtain ⟨hlive, a, hget, howner, _⟩ := hasMode_iff.mp hadmits
    have hfinished : Finished (sys.dispatch (.mode zhead zmode .finished)).compositor zmode :=
      ⟨a.update .finished, by simp [System.dispatch, Compositor.sends, hget], rfl⟩
    refine ⟨fun head hhead hfailed => ?_, fun hdelta => ?_⟩
    · exact hclean' zhead zmode (refers_finished_of_failed hhead hfailed) hfinished
    · obtain ⟨z, hz⟩ := howned.deltaHead zmode hdelta
      refine hclean' z zmode (Or.inr ?_) hfinished
      simp only [System.dispatch, Listeners.displListener_delta]
      exact ⟨hz, hdelta⟩
  · intro hspares z zmode hrefers hfinished
    rcases refers_displListener hrefers with hold | hnew
    · obtain ⟨a, hget, howner⟩ := howned.owner z zmode hold
      rcases finished_sends hadmits hget hfinished with hbefore | rfl
      · exact hclean z zmode hold ⟨a, hget, hbefore⟩
      · -- the mode finishes now: what the release leaves out is what the step spares
        obtain ⟨hfailed, hdelta⟩ := hspares a.zhead zmode rfl
        rcases refers_finished hrefers with ⟨_, head, hhead, hmem⟩ | ⟨hne, _⟩ | hzmode
        · exact hfailed head hhead hmem
        · exact hne howner.symm
        · exact hdelta hzmode
    · obtain ⟨a, hget, _, hlive⟩ := newly_held hadmits hnew
      obtain ⟨a', hget', hdone⟩ := hfinished
      obtain rfl := Option.some.inj (hget.symm.trans hget')
      simp [hlive] at hdone

theorem step_noFinishedMode {sys sys' : System} {event : Event} (howned : Owned sys)
    (hclean : NoFinishedMode sys) (h : sys.step event = some sys') :
    NoFinishedMode sys' ↔ SparesMode sys event := by
  have howned' := owned_step howned h
  cases event with
  | dispatch event =>
    obtain ⟨hadmits, rfl⟩ := System.step_dispatch h
    exact noFinishedMode_dispatch howned hadmits hclean
  | act =>
    obtain rfl := System.step_act h
    exact iff_of_true (noFinishedMode_of_refers howned howned' hclean (fun _ _ => refers_act)
      (act_modes sys)) (by simp [SparesMode])
  | request request =>
    obtain rfl := System.step_request h
    exact iff_of_true (noFinishedMode_of_refers howned howned' hclean
      (fun _ _ => refers_request) rfl) (by simp [SparesMode])
  | reload cfg =>
    obtain rfl := System.step_reload h
    exact iff_of_true (noFinishedMode_of_refers howned howned' hclean
      (fun _ _ => id) rfl) (by simp [SparesMode])
  | lid closed =>
    obtain rfl := System.step_lid h
    refine iff_of_true (noFinishedMode_of_refers howned howned' hclean
      (fun _ _ hr => ?_) rfl) (by simp [SparesMode])
    simpa only [gLidUpdate_gDispl] using hr

/-- In a run from the start no state refers to a finished mode, nor sends one, exactly when
each mode that finishes is neither a failed one of its head nor in the change in flight. -/
theorem noFinishedMode_iff_sparesMode (cfg : Cfg) (lid : Option Lid) (es : List Event) :
    Always System.step NoFinishedMode (systemInit cfg lid) es ↔
      Along System.step SparesMode (systemInit cfg lid) es := by
  refine always_iff_along (J := Owned) (fun _ _ _ => owned_step)
    (fun _ _ _ howned hclean h => step_noFinishedMode howned hclean h)
    (owned_systemInit cfg lid) ?_
  rintro zmode ⟨a, hget, _⟩
  simp [systemInit, compositorInit] at hget

/-- A mode fails, finishes, and is put back by a reapply. -/
def finishedAfterFailure : List Event :=
  [.dispatch (.managerHead ⟨0⟩), .dispatch (.head ⟨0⟩ (.name "DP-1")),
    .dispatch (.head ⟨0⟩ (.mode ⟨0⟩)), .dispatch (.mode ⟨0⟩ ⟨0⟩ (.size 1920 1080)), .act,
    .dispatch (.configuration .failed), .act, .dispatch (.mode ⟨0⟩ ⟨0⟩ .finished),
    .request (ipcRequestInit (some .reapply)), .act, .dispatch (.configuration .succeeded)]

omit [Platform] in
/-- The next configuration then asks for the finished mode. -/
theorem finishedAfterFailure_sendsMode :
    (run (@System.step plainPlatform) (systemInit (cfgApplyDefaults cfgInit) none)
        finishedAfterFailure).map (fun sys =>
          ((sys.compositor.modes.get? ⟨0⟩).map (fun a => a.finished),
            @System.sent plainPlatform sys .act)) =
        some (some true, [[(⟨0⟩, .enable [.setMode (some ⟨0⟩)])]]) ∧
      ¬ Always (@System.step plainPlatform) (@NoFinishedMode plainPlatform)
        (systemInit (cfgApplyDefaults cfgInit) none) finishedAfterFailure := by
  have hrun : (run (@System.step plainPlatform) (systemInit (cfgApplyDefaults cfgInit) none)
      finishedAfterFailure).map (fun sys =>
        ((sys.compositor.modes.get? ⟨0⟩).map (fun a => a.finished),
          @System.sent plainPlatform sys .act)) =
      some (some true, [[(⟨0⟩, .enable [.setMode (some ⟨0⟩)])]]) := by
    decide +kernel
  refine ⟨hrun, fun halways => ?_⟩
  obtain ⟨sys, hsys, hvalue⟩ := Option.map_eq_some_iff.mp hrun
  obtain ⟨hfinished, hsent⟩ := Prod.mk.inj hvalue
  obtain ⟨_, _, hnone⟩ := halways.last hsys ⟨0⟩ (Option.map_eq_some_iff.mp hfinished)
  refine hnone [(⟨0⟩, .enable [.setMode (some ⟨0⟩)])] ?_ ?_
  · rw [hsent]
    exact List.mem_singleton_self _
  · exact ⟨⟨0⟩, [.setMode (some ⟨0⟩)], List.mem_singleton_self _, List.mem_singleton_self _⟩

end WayDisplays.Act.ModeLifetime
