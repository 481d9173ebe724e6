/- The head of the delta: it is valid in a whole run exactly when none finishes under it. -/

import WayDisplays.Act.Listeners
import WayDisplays.Act.Requests
import WayDisplays.Act.Spec
import WayDisplays.Model.System

set_option autoImplicit false
set_option relaxedAutoImplicit false

namespace WayDisplays.Act.DeltaLifetime

open Lib (OrderedMap)
open Lib.Run
open Model
open Spec (Called Dangling)

/-- The delta names no head or one that is there, and no freed head has been read. -/
def DeltaValid (sys : System) : Prop :=
  (∀ zhead, sys.server.gDispl.delta.head = some zhead → zhead ∈ sys.server.gDispl.heads.keys) ∧
    sys.halted ≠ some .useAfterFree

/-- The step finishes no head that the delta names. -/
def SparesDelta (sys : System) (event : Event) : Prop :=
  ∀ zhead, event = .dispatch (.headFinished zhead) →
    sys.server.gDispl.delta.head ≠ some zhead

private theorem deltaValid_dispatch {sys : System} {event : WlEvent} (hvalid : DeltaValid sys) :
    DeltaValid (sys.dispatch event) ↔ SparesDelta sys (.dispatch event) := by
  simp only [DeltaValid, SparesDelta, System.dispatch, Listeners.displListener_delta,
    Listeners.mem_keys_displListener, Event.dispatch.injEq]
  constructor
  · rintro ⟨hkeys, _⟩ zhead rfl hhead
    rcases hkeys zhead hhead with ⟨_, hne⟩ | hnew
    · exact hne rfl
    · exact absurd hnew (by simp)
  · intro hspares
    refine ⟨fun zhead hhead => Or.inl ⟨hvalid.1 zhead hhead, ?_⟩, hvalid.2⟩
    exact fun hfinished => hspares zhead hfinished hhead

variable [Platform]

omit [Platform] in
private theorem deltaValid_of_displ {sys sys' : System} (hvalid : DeltaValid sys)
    (hdelta : sys'.server.gDispl.delta = sys.server.gDispl.delta)
    (hkeys : sys'.server.gDispl.heads.keys = sys.server.gDispl.heads.keys)
    (hhalted : sys'.halted = sys.halted) : DeltaValid sys' := by
  refine ⟨fun zhead hhead => ?_, hhalted ▸ hvalid.2⟩
  rw [hkeys]
  exact hvalid.1 zhead (hdelta ▸ hhead)

private theorem deltaValid_act {sys : System} (hvalid : DeltaValid sys)
    (hrunning : sys.halted = none) : DeltaValid sys.act := by
  unfold System.act
  cases hact : Model.act sys.server with
  | error halt =>
    refine ⟨hvalid.1, ?_⟩
    rintro ⟨⟩
    rcases Spec.act_error hact with ⟨hexit, _⟩ | ⟨_, _, zhead, hhead, hgone⟩
    · exact absurd hexit (by simp)
    · exact hgone (hvalid.1 zhead hhead)
  | ok result =>
    obtain ⟨server, configuration⟩ := result
    have hcalled := Spec.act_called hact
    refine ⟨fun zhead hhead => ?_, by simp [hrunning]⟩
    rw [hcalled.keys]
    cases hcalled with
    | waits _ _ _ hdelta => exact hvalid.1 zhead (hdelta ▸ hhead)
    | applies _ hhandled _ _ hstage =>
      have := hstage.delta_head hhead
      rwa [Desire.Heads.keys_desire, hhandled.keys] at this

theorem step_deltaValid {sys sys' : System} {event : Event} (hvalid : DeltaValid sys)
    (h : sys.step event = some sys') : DeltaValid sys' ↔ SparesDelta sys event := by
  cases event with
  | dispatch event =>
    obtain ⟨_, rfl⟩ := System.step_dispatch h
    exact deltaValid_dispatch hvalid
  | act =>
    obtain rfl := System.step_act h
    exact iff_of_true (deltaValid_act hvalid (System.not_halted h)) (by simp [SparesDelta])
  | request request =>
    obtain rfl := System.step_request h
    exact iff_of_true (deltaValid_of_displ hvalid (Requests.serverRequest_delta _ _)
      (Requests.serverRequest_keys _ _) rfl) (by simp [SparesDelta])
  | reload cfg =>
    obtain rfl := System.step_reload h
    exact iff_of_true (deltaValid_of_displ hvalid rfl rfl rfl) (by simp [SparesDelta])
  | lid closed =>
    obtain rfl := System.step_lid h
    have hlid := gLidUpdate_gDispl sys.server closed
    exact iff_of_true (deltaValid_of_displ hvalid (by rw [hlid]) (by rw [hlid]) rfl)
      (by simp [SparesDelta])

/-- In a run from the start the delta never names a freed head, and none is read, exactly
when no head finishes while the delta names it. -/
theorem deltaValid_iff_sparesDelta (cfg : Cfg) (lid : Option Lid) (es : List Event) :
    Always System.step DeltaValid (systemInit cfg lid) es ↔
      Along System.step SparesDelta (systemInit cfg lid) es :=
  always_iff_along (J := fun _ => True) (fun _ _ _ _ _ => trivial)
    (fun _ _ _ _ hvalid h => step_deltaValid hvalid h) trivial
    ⟨fun _ hhead => by simp [systemInit, displInit, displDeltaNone] at hhead, by simp [systemInit]⟩

/-- A head is unplugged while the change of its mode is in flight, and the change then fails. -/
def unpluggedInFlight : List Event :=
  [.dispatch (.managerHead ⟨0⟩), .dispatch (.head ⟨0⟩ (.name "DP-1")),
    .dispatch (.head ⟨0⟩ (.mode ⟨0⟩)), .dispatch (.mode ⟨0⟩ ⟨0⟩ (.size 1920 1080)), .act,
    .dispatch (.mode ⟨0⟩ ⟨0⟩ .finished), .dispatch (.headFinished ⟨0⟩),
    .dispatch (.configuration .failed), .act]

omit [Platform] in
/-- The freed head is then read. -/
theorem unpluggedInFlight_useAfterFree :
    (run (@System.step plainPlatform) (systemInit (cfgApplyDefaults cfgInit) none)
        unpluggedInFlight).map (fun sys => sys.halted) = some (some .useAfterFree) ∧
      ¬ Always (@System.step plainPlatform) DeltaValid
        (systemInit (cfgApplyDefaults cfgInit) none) unpluggedInFlight := by
  have hrun : (run (@System.step plainPlatform) (systemInit (cfgApplyDefaults cfgInit) none)
      unpluggedInFlight).map (fun sys => sys.halted) = some (some .useAfterFree) := by
    decide +kernel
  refine ⟨hrun, fun halways => ?_⟩
  obtain ⟨sys, hsys, hhalted⟩ := Option.map_eq_some_iff.mp hrun
  exact (halways.last hsys).2 hhalted

end WayDisplays.Act.DeltaLifetime
