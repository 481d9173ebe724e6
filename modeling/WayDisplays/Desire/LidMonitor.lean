/- The switch for the lid: what conditions make of a lid that is no longer monitored. -/

import WayDisplays.Act.Spec
import WayDisplays.Model.System

set_option autoImplicit false
set_option relaxedAutoImplicit false

namespace WayDisplays.Desire.LidMonitor

open Lib (OrderedMap)
open Lib.Run
open Model

variable [Platform]

omit [Platform] in
def lidCondition (lid : ConditionLid) : CfgCondition :=
  { plugged := .empty, unplugged := .empty, lid := some lid }

/-- While it is not monitored, the lid is not present to any condition. -/
def LidIgnored (s : Server) : Prop :=
  s.gCfg.laptopLidMonitor = some .off → ∀ failLidClosed,
    cfgConditionMet s.gDispl.heads s.gLid failLidClosed (lidCondition .notPresent) = true ∧
      cfgConditionMet s.gDispl.heads s.gLid failLidClosed (lidCondition .open) = false ∧
      cfgConditionMet s.gDispl.heads s.gLid failLidClosed (lidCondition .closed) = false

def lidMet (failLidClosed : Bool) (lid : Option Lid) : ConditionLid → Bool
  | .closed => !failLidClosed && lid.any (fun l => l.closed)
  | .open => lid.any (fun l => !l.closed)
  | .notPresent => lid.isNone

theorem lidIgnored_iff {s : Server} :
    LidIgnored s ↔ (s.gCfg.laptopLidMonitor = some .off → s.gLid = none) := by
  refine imp_congr_right fun _ => ?_
  have hmet (failLidClosed : Bool) (lid : ConditionLid) :
      cfgConditionMet s.gDispl.heads s.gLid failLidClosed (lidCondition lid) =
        lidMet failLidClosed s.gLid lid := by
    cases lid <;> rfl
  simp only [hmet, lidMet]
  cases hlid : s.gLid with
  | none => simp
  | some lid => simp

/-! ### Steps -/

omit [Platform] in
private theorem gCfgProcessIpcRequest_lid (s : Server) (request : IpcRequest) :
    (gCfgProcessIpcRequest s request).1.gLid = s.gLid ∧
      (gCfgProcessIpcRequest s request).1.gCfg.laptopLidMonitor = s.gCfg.laptopLidMonitor := by
  have hmerge {from_ : Option Cfg} {command : Option IpcCommand} {merged : Cfg}
      (h : cfgMerge s.gCfg from_ command = some merged) :
      merged.laptopLidMonitor = s.gCfg.laptopLidMonitor := by
    unfold cfgMerge at h
    obtain ⟨fixed, hfixed, h⟩ := Option.bind_eq_some_iff.mp h
    obtain ⟨combined, hcombined, rfl⟩ := Option.map_eq_some_iff.mp hfixed
    have hkept : combined.laptopLidMonitor = s.gCfg.laptopLidMonitor := by
      obtain ⟨cfg, _, hcombined⟩ := Option.bind_eq_some_iff.mp hcombined
      split at hcombined
      · obtain rfl := Option.some.inj hcombined
        rfl
      · obtain rfl := Option.some.inj hcombined
        rfl
      · obtain rfl := Option.some.inj hcombined
        rfl
      · exact absurd hcombined (by simp)
    split at h
    · exact absurd h (by simp)
    · obtain rfl := Option.some.inj h
      exact hkept
  unfold gCfgProcessIpcRequest
  split
  · split
    · rename_i hmerged
      exact ⟨rfl, hmerge hmerged⟩
    · exact ⟨rfl, rfl⟩
  · split
    · rename_i hmerged
      exact ⟨rfl, hmerge hmerged⟩
    · exact ⟨rfl, rfl⟩
  · split
    · rename_i hmerged
      exact ⟨rfl, hmerge hmerged⟩
    · exact ⟨rfl, rfl⟩
  · exact ⟨rfl, rfl⟩
  · exact ⟨rfl, rfl⟩
  · exact ⟨rfl, rfl⟩
  · exact ⟨rfl, rfl⟩
  · exact ⟨rfl, rfl⟩

private theorem called_lid {s s' : Server} {configuration : Option Configuration}
    (h : Act.Spec.Called s s' configuration) :
    s'.gLid = s.gLid ∧ s'.gCfg.laptopLidMonitor = s.gCfg.laptopLidMonitor := by
  cases h with
  | waits hcfg hlid => exact ⟨hlid, by rw [hcfg]⟩
  | @applies heads _ _ _ _ hcfg hlid =>
    have hquiet := congrArg Cfg.laptopLidMonitor (Heads.quiet_desire s.gCfg s.gLid heads)
    refine ⟨hlid, ?_⟩
    rw [hcfg]
    exact hquiet

private theorem step_lid {sys sys' : System} {event : Event} (h : sys.step event = some sys') :
    (sys'.server.gLid = none ↔ sys.server.gLid = none) ∧
      sys'.server.gCfg.laptopLidMonitor =
        match event with
        | .reload cfg => cfg.laptopLidMonitor
        | _ => sys.server.gCfg.laptopLidMonitor := by
  cases event with
  | dispatch event =>
    obtain ⟨_, rfl⟩ := System.step_dispatch h
    exact ⟨Iff.rfl, rfl⟩
  | act =>
    obtain rfl := System.step_act h
    unfold System.act
    dsimp only
    split
    · exact ⟨Iff.rfl, rfl⟩
    · rename_i server configuration hact
      obtain ⟨hlid, hmonitor⟩ := called_lid (Act.Spec.act_called hact)
      exact ⟨by rw [hlid], hmonitor⟩
  | request request =>
    obtain rfl := System.step_request h
    have hlid := gCfgProcessIpcRequest_lid
      { sys.server with gDispl := { sys.server.gDispl with
          heads := (ipcRequestFilter sys.server.gCfg sys.server.gDispl.heads request).1 } }
      (ipcRequestFilter sys.server.gCfg sys.server.gDispl.heads request).2
    exact ⟨by rw [← hlid.1]; rfl, hlid.2⟩
  | reload cfg =>
    obtain rfl := System.step_reload h
    exact ⟨Iff.rfl, rfl⟩
  | lid closed =>
    obtain rfl := System.step_lid h
    unfold gLidUpdate
    split
    · exact ⟨Option.map_eq_none_iff, rfl⟩
    · exact ⟨Iff.rfl, rfl⟩

/-! ### Runs -/

/-- Monitoring is not switched off while there is a lid. -/
def KeepsMonitor (sys : System) : Event → Prop
  | .reload cfg => cfg.laptopLidMonitor = some .off → sys.server.gLid = none
  | _ => True

/-- A lid is ignored in every state of a run exactly when monitoring is never switched off
once a lid was found. -/
theorem lidIgnored_iff_keepsMonitor (gCfg : Cfg) (device : Option Lid) (es : List Event) :
    Always System.step (fun sys => LidIgnored sys.server)
        (systemInit gCfg (gLidInit gCfg device)) es ↔
      Along System.step KeepsMonitor (systemInit gCfg (gLidInit gCfg device)) es := by
  refine always_iff_along (J := fun _ => True) (fun _ _ _ _ _ => trivial)
    (fun sys event sys' _ hignored h => ?_) trivial ?_
  · obtain ⟨hlid, hmonitor⟩ := step_lid h
    rw [lidIgnored_iff] at hignored ⊢
    rw [hlid, hmonitor]
    cases event with
    | reload cfg => exact Iff.rfl
    | dispatch | act | request | lid => exact iff_of_true hignored trivial
  · rw [lidIgnored_iff]
    intro hoff
    exact if_pos hoff

/-- Monitoring is switched off while the lid is closed. -/
def switchedOff : List Event :=
  [.lid true, .reload { cfgApplyDefaults cfgInit with laptopLidMonitor := some .off }]

omit [Platform] in
/-- The lid stays closed to conditions. -/
theorem switchedOff_closed :
    ¬ ∀ sys, run (@System.step plainPlatform) (systemInit (cfgApplyDefaults cfgInit)
        (gLidInit (cfgApplyDefaults cfgInit) (some ⟨false⟩))) switchedOff = some sys →
      @LidIgnored plainPlatform sys.server := by
  intro hclaim
  have hvalue : (run (@System.step plainPlatform) (systemInit (cfgApplyDefaults cfgInit)
      (gLidInit (cfgApplyDefaults cfgInit) (some ⟨false⟩))) switchedOff).map (fun sys =>
        (sys.server.gCfg.laptopLidMonitor, sys.server.gLid)) = some (some .off, some ⟨true⟩) := by
    decide +kernel
  obtain ⟨sys, hrun, hvalue⟩ := Option.map_eq_some_iff.mp hvalue
  obtain ⟨hoff, hlid⟩ := Prod.mk.inj hvalue
  have hnone := (@lidIgnored_iff plainPlatform _).mp (hclaim sys hrun) hoff
  exact absurd (hlid.symm.trans hnone) (by simp)

end WayDisplays.Desire.LidMonitor
