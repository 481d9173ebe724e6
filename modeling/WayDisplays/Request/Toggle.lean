/- Toggles: what one flips, and that another one flips back. -/

import WayDisplays.CfgFile.Equality
import WayDisplays.CfgFile.Validity
import WayDisplays.Lib.Toggle

set_option autoImplicit false
set_option relaxedAutoImplicit false

namespace WayDisplays.Request.Toggle

open CfgFile.Equality
open CfgFile.Validity
open Lib (OrderedMap OrderedSet)
open Model

def other : OnOff → OnOff
  | .on => .off
  | .off => .on

/-- What a request is to flip: the elements it passes as ON, and the names it has. -/
structure Flips (request cfg toggled : Cfg) : Prop where
  scaling : toggled.scaling =
    if request.scaling = some .on then cfg.scaling.map other else cfg.scaling
  autoScale : toggled.autoScale =
    if request.autoScale = some .on then cfg.autoScale.map other else cfg.autoScale
  adaptiveSyncOff : ∀ name ∈ request.adaptiveSyncOff.vals,
    (name ∈ toggled.adaptiveSyncOff.vals ↔ name ∉ cfg.adaptiveSyncOff.vals)
  otherAdaptiveSyncOff :
    toggled.adaptiveSyncOff.vals.filter (fun name => name ∉ request.adaptiveSyncOff.vals) =
      cfg.adaptiveSyncOff.vals.filter (fun name => name ∉ request.adaptiveSyncOff.vals)
  disableds : ∀ key ∈ request.disableds.keys,
    (key ∈ toggled.disableds.keys ↔ key ∉ cfg.disableds.keys)
  otherDisableds :
    toggled.disableds.filter (fun key _ => key ∉ request.disableds.keys) =
      cfg.disableds.filter (fun key _ => key ∉ request.disableds.keys)
  rest : toggled = { cfg with
    scaling := toggled.scaling
    autoScale := toggled.autoScale
    adaptiveSyncOff := toggled.adaptiveSyncOff
    disableds := toggled.disableds }

/-- The loops over a request flip membership. -/
theorem cfgMergeToggle_eq (cfg request : Cfg) :
    cfgMergeToggle cfg request = { cfg with
      scaling := if request.scaling = some .on then onOffInvert cfg.scaling else cfg.scaling
      autoScale := if request.autoScale = some .on then onOffInvert cfg.autoScale
        else cfg.autoScale
      adaptiveSyncOff := cfg.adaptiveSyncOff.toggleAll request.adaptiveSyncOff.vals
      disableds := cfg.disableds.toggleAll request.disableds.entries } := rfl

theorem onOffInvert_eq {val : Option OnOff} (h : val.isSome = true) :
    onOffInvert val = val.map other := by
  rcases val with _ | _ | _
  · contradiction
  · rfl
  · rfl

theorem onOffInvert_onOffInvert {val : Option OnOff} (h : val.isSome = true) :
    onOffInvert (onOffInvert val) = val := by
  rcases val with _ | _ | _
  · contradiction
  · rfl
  · rfl

theorem flips_cfgMergeToggle {cfg : Cfg} (h : CfgValid cfg) (request : Cfg) :
    Flips request cfg (cfgMergeToggle cfg request) where
  scaling := by rw [cfgMergeToggle_eq, onOffInvert_eq h.scaling]
  autoScale := by rw [cfgMergeToggle_eq, onOffInvert_eq h.autoScale]
  adaptiveSyncOff := fun name hname => by
    rw [cfgMergeToggle_eq]
    exact OrderedSet.mem_toggleAll_of_mem request.adaptiveSyncOff.nodup hname
  otherAdaptiveSyncOff := by
    rw [cfgMergeToggle_eq]
    exact OrderedSet.filter_toggleAll fun name hname => by simpa using hname
  disableds := fun key hkey => by
    rw [cfgMergeToggle_eq]
    exact OrderedMap.mem_keys_toggleAll request.disableds.nodup hkey
  otherDisableds := by
    rw [cfgMergeToggle_eq]
    exact OrderedMap.filter_toggleAll (p := fun key => decide (key ∉ request.disableds.keys))
      fun key hkey => decide_eq_false (not_not.mpr hkey)
  rest := rfl

/-- A second toggle puts everything back, with entries that have no conditions for those that
had none. -/
theorem agree_toggle_toggle {cfg request : Cfg} (h : CfgValid cfg) (hnan : NanFree cfg)
    (hcfg : ∀ key ∈ request.disableds.keys, ∀ disabled,
      cfg.disableds.get? key = some disabled → disabled.conditions.size = 0)
    (hrequest : ∀ disabled ∈ request.disableds.vals, disabled.conditions.size = 0) :
    Agree (cfgMergeToggle (cfgMergeToggle cfg request) request) cfg := by
  rw [cfgMergeToggle_eq, cfgMergeToggle_eq]
  refine { agree_self hnan with
    scaling := ?_
    autoScale := ?_
    adaptiveSyncOff := OrderedSet.equal_toggleAll_toggleAll request.adaptiveSyncOff.nodup
    disableds := OrderedMap.equal_toggleAll_toggleAll disabledEqual_self request.disableds.nodup
      fun key disabled disabled' hmem hget => ?_ }
  · dsimp only
    split_ifs
    · exact onOffInvert_onOffInvert h.autoScale
    · rfl
  · dsimp only
    split_ifs
    · exact onOffInvert_onOffInvert h.scaling
    · rfl
  · have hkey : key ∈ request.disableds.keys := List.mem_map_of_mem (f := Prod.fst) hmem
    have hval : disabled ∈ request.disableds.vals := List.mem_map_of_mem (f := Prod.snd) hmem
    exact disabledEqual_of_size (hrequest disabled hval) (hcfg key hkey disabled' hget)

/-- Toggling twice leaves the configuration as it was, as far as it can be told equal to itself;
toggling once flips what is named. -/
theorem toggle_involution {cfg request : Cfg} (h : CfgValid cfg)
    (hcfg : ∀ key ∈ request.disableds.keys, ∀ disabled,
      cfg.disableds.get? key = some disabled → disabled.conditions.size = 0)
    (hrequest : ∀ disabled ∈ request.disableds.vals, disabled.conditions.size = 0) :
    (cfgEqual (cfgMergeToggle (cfgMergeToggle cfg request) request) cfg = true ↔ NanFree cfg) ∧
      Flips request cfg (cfgMergeToggle cfg request) := by
  refine ⟨?_, flips_cfgMergeToggle h request⟩
  rw [cfgEqual_iff]
  exact ⟨Agree.nanFree, fun hnan => agree_toggle_toggle h hnan hcfg hrequest⟩

def hdmiDisabled : Cfg :=
  cfgValidateFix (cfgApplyDefaults { cfgInit with
    disableds := OrderedMap.empty.put "HDMI-A-1" ⟨.empty⟩ })

/-- A request for that display, another one, a name that has no entry yet, and the scaling. -/
def toggleDisplays : Cfg :=
  { cfgInit with
    scaling := some .on
    adaptiveSyncOff := OrderedSet.empty.add "DP-1"
    disableds := (OrderedMap.empty.put "DP-2" ⟨.empty⟩).put "HDMI-A-1" ⟨.empty⟩ }

theorem toggle_involution_displays :
    (cfgEqual (cfgMergeToggle (cfgMergeToggle hdmiDisabled toggleDisplays) toggleDisplays)
        hdmiDisabled = true ↔ NanFree hdmiDisabled) ∧
      Flips toggleDisplays hdmiDisabled (cfgMergeToggle hdmiDisabled toggleDisplays) := by
  have hentries : hdmiDisabled.disableds.vals = [⟨.empty⟩] := rfl
  have hvalid : CfgValid hdmiDisabled := by
    refine valid_loaded ⟨by decide, fun disabled hdisabled condition hcondition => ?_⟩
    obtain rfl := List.mem_singleton.mp hdisabled
    exact absurd hcondition List.not_mem_nil
  refine toggle_involution hvalid (fun key _ disabled hget => ?_) (fun disabled hdisabled => ?_)
  · have hmem := OrderedMap.mem_vals_of_get? hget
    rw [hentries] at hmem
    obtain rfl := List.mem_singleton.mp hmem
    rfl
  · change disabled ∈ [⟨.empty⟩, ⟨.empty⟩] at hdisabled
    simp only [List.mem_cons, List.not_mem_nil, or_false, or_self] at hdisabled
    rw [hdisabled]
    rfl

/-- A minimum that is no number, as a file may have it. -/
def nanMinimumYaml : YamlNode := .mapping [(.scalar "AUTO_SCALE_MIN", .scalar "nan")]

def nanMinimum : Cfg := @gCfgFileInitRead plainPlatform (some nanMinimumYaml)

def toggleDp2 : Cfg := { cfgInit with disableds := OrderedMap.empty.put "DP-2" ⟨.empty⟩ }

/-- Disabled and enabled again, and the configuration is another. -/
theorem toggleDp2_nanMinimum :
    CfgValid nanMinimum ∧ "DP-2" ∉ nanMinimum.disableds.keys ∧
      cfgEqual (cfgMergeToggle (cfgMergeToggle nanMinimum toggleDp2) toggleDp2) nanMinimum =
        false :=
  ⟨@valid_gCfgFileInitRead plainPlatform _, by decide +kernel, by decide +kernel⟩

end WayDisplays.Request.Toggle
