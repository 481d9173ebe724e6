/- Configurations and heads as they are written to YAML. -/

import WayDisplays.Model.Yaml

set_option autoImplicit false
set_option relaxedAutoImplicit false

namespace WayDisplays.Model

open Lib (OrderedMap OrderedSet)

/-! ### The configuration -/

/-- An empty map is written as an empty scalar. -/
def yamlMapFrom {ν : Type} (map : OrderedMap String ν) (add : String → ν → List YamlPair) :
    YamlNode :=
  if map.size = 0 then .scalar ""
  else .mapping (map.entries.flatMap (fun e => add e.1 e.2))

def yamlMapFromCfgMode (mode : Mode) : List YamlPair :=
  if mode.max then yamlMapAddBool "MAX" mode.max
  else if mode.maxPreferredRefresh then
    yamlMapAddBool "MAX_PREFERRED_REFRESH" mode.maxPreferredRefresh
  else
    yamlMapAddInt "WIDTH" mode.width ++ yamlMapAddInt "HEIGHT" mode.height ++
      if mode.refreshMhz ≠ -1 then
        yamlMapAddStr "HZ" (some (snprintfFloat (toFloat (toFloat mode.refreshMhz / 1000))))
      else []

def yamlMapFromCfgModes (modes : OrderedMap String Mode) : YamlNode :=
  yamlMapFrom modes (fun nameDesc mode =>
    yamlMapAddNode nameDesc (some (.mapping (yamlMapFromCfgMode mode))))

def yamlMapFromScales (scales : OrderedMap String Nat) : YamlNode :=
  yamlMapFrom scales (fun nameDesc milliscale =>
    yamlMapAddFloatNz nameDesc (.number (toDouble (milliscale / 1000))))

def yamlMapFromTransforms (transforms : OrderedMap String Transform) : YamlNode :=
  yamlMapFrom transforms (fun nameDesc transform =>
    yamlMapAddStr nameDesc (transformName transform))

def yamlMapFromCondition (condition : CfgCondition) : YamlNode :=
  .mapping
    ((if condition.plugged.size > 0 then yamlMapAddSset "PLUGGED" condition.plugged else []) ++
      (if condition.unplugged.size > 0 then yamlMapAddSset "UNPLUGGED" condition.unplugged
        else []) ++
      yamlMapAddEnum "LID" condition.lid conditionLidName)

def yamlMapFromDisableds (disableds : Disableds) : YamlNode :=
  yamlMapFrom disableds (fun nameDesc disabled =>
    if disabled.conditions.size > 0 then
      yamlMapAddNode nameDesc (some (.mapping
        (yamlMapAddPlist "IF" disabled.conditions.vals yamlMapFromCondition)))
    else yamlMapAddStr nameDesc (some ""))

/-- Every element has a name. -/
def elementKey (element : CfgElement) : String := (cfgElementName element).getD ""

/-- The pairs of each element that is set, in an order that is important. -/
def cfgPairs (cfg : Cfg) : List (List YamlPair) :=
  [yamlMapAddEnum (elementKey .arrange) cfg.arrange arrangeName,
    yamlMapAddEnum (elementKey .align) cfg.align alignName,
    yamlMapAddSset (elementKey .order) cfg.orderNameDesc,
    yamlMapAddOnOff (elementKey .scaling) cfg.scaling,
    yamlMapAddEnum (elementKey .scaleRoundTo) (some cfg.scaleRoundTo) scaleRoundToName,
    yamlMapAddEnum (elementKey .scaleRoundStrategy) cfg.scaleRoundStrategy
      scaleRoundStrategyName,
    yamlMapAddOnOff (elementKey .autoScale) cfg.autoScale,
    yamlMapAddIntNz (elementKey .autoScaleDpi) cfg.autoScaleDpi,
    yamlMapAddFloatNz (elementKey .autoScaleMin) cfg.autoScaleMin,
    yamlMapAddFloatNz (elementKey .autoScaleMax) cfg.autoScaleMax,
    yamlMapAddNode (elementKey .scale) (some (yamlMapFromScales cfg.scales)),
    yamlMapAddNode (elementKey .mode) (some (yamlMapFromCfgModes cfg.modes)),
    yamlMapAddNode (elementKey .transform) (some (yamlMapFromTransforms cfg.transforms)),
    yamlMapAddSset (elementKey .vrrOff) cfg.adaptiveSyncOff,
    yamlMapAddStr (elementKey .callbackCmd) cfg.callbackCmd,
    yamlMapAddOnOff (elementKey .laptopLidMonitor) cfg.laptopLidMonitor,
    yamlMapAddEnum (elementKey .logThreshold) cfg.logThreshold logThresholdName,
    yamlMapAddNode (elementKey .disabled) (some (yamlMapFromDisableds cfg.disableds))]

def yamlMapFromCfg (cfg : Cfg) : YamlNode := .mapping (cfgPairs cfg).flatten

/-! ### Heads -/

def yamlMapFromHeadMode (mode : Mode) : YamlNode :=
  .mapping (yamlMapAddInt "WIDTH" mode.width ++ yamlMapAddInt "HEIGHT" mode.height ++
    yamlMapAddInt "REFRESH_MHZ" mode.refreshMhz)

/-- Only what is among the modes that have not failed. -/
def yamlMapFromZmode (head : Head) (zmode : Option ZMode) : Option YamlNode :=
  (zmode.bind head.modes.get?).map yamlMapFromHeadMode

def yamlMapFromHeadState (headState : HeadState) (head : Head) : YamlNode :=
  .mapping
    (yamlMapAddFloatNz "SCALE" (.number ((headState.scale : ℚ) / 256)) ++
      yamlMapAddBool "ENABLED" headState.enabled ++
      yamlMapAddInt "X" headState.x ++
      yamlMapAddInt "Y" headState.y ++
      yamlMapAddBool "VRR" (decide (headState.adaptiveSync = .enabled)) ++
      yamlMapAddEnum "TRANSFORM" (some headState.transform) transformName ++
      yamlMapAddNode "MODE" (yamlMapFromZmode head headState.zmode))

def yamlMapFromHeadOverrides (head : Head) : YamlNode :=
  .mapping
    (if head.overridedEnabled ≠ .noOverride then
      yamlMapAddBool "DISABLED" (decide (head.overridedEnabled = .overrideTrue))
    else [])

def yamlMapFromHead (head : Head) : YamlNode :=
  .mapping
    (yamlMapAddStr "NAME" head.name ++
      yamlMapAddStr "DESCRIPTION" head.description ++
      yamlMapAddStr "MAKE" head.make ++
      yamlMapAddStr "MODEL" head.model ++
      yamlMapAddStr "SERIAL_NUMBER" head.serialNumber ++
      yamlMapAddInt "WIDTH_MM" head.widthMm ++
      yamlMapAddInt "HEIGHT_MM" head.heightMm ++
      yamlMapAddNode "CURRENT" (some (yamlMapFromHeadState head.cur head)) ++
      yamlMapAddNode "DESIRED" (some (yamlMapFromHeadState head.des head)) ++
      yamlMapAddNode "OVERRIDES" (some (yamlMapFromHeadOverrides head)) ++
      yamlMapAddNode "MODE_PREFERRED" (yamlMapFromZmode head head.zmodePref) ++
      yamlMapAddPlist "MODES" head.modes.vals yamlMapFromHeadMode ++
      yamlMapAddPlist "MODES_FAILED" head.modesFailed.vals yamlMapFromHeadMode)

end WayDisplays.Model
