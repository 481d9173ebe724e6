/- Configurations that are equal: element by element, whatever the order of maps and sets. -/

import WayDisplays.Model.Cfg

set_option autoImplicit false
set_option relaxedAutoImplicit false

namespace WayDisplays.CfgFile.Equality

open Lib (Floating OrderedMap OrderedSet)
open Model

theorem ssetEqual_self (sset : Sset) : sset.equal sset = true :=
  OrderedSet.equal_self (fun a => beq_self_eq_true a) sset

theorem conditionEqual_self (condition : CfgCondition) :
    conditionEqual condition condition = true := by
  rw [conditionEqual, ssetEqual_self, ssetEqual_self, beq_self_eq_true]
  rfl

theorem disabledEqual_self (disabled : CfgDisabled) : disabledEqual disabled disabled = true :=
  OrderedSet.equal_self conditionEqual_self disabled.conditions

theorem disabledEqual_of_size {a b : CfgDisabled} (ha : a.conditions.size = 0)
    (hb : b.conditions.size = 0) : disabledEqual a b = true := by
  have hnil : b.conditions.vals = [] := List.eq_nil_of_length_eq_zero hb
  rw [disabledEqual, OrderedSet.equal, decide_eq_true (ha.trans hb.symm), hnil]
  rfl

theorem modeEqual_iff {a b : Mode} : modeEqual a b = true ↔ a = b := decide_eq_true_iff

/-- What is compared. -/
structure Agree (a b : Cfg) : Prop where
  align : a.align = b.align
  arrange : a.arrange = b.arrange
  autoScale : a.autoScale = b.autoScale
  autoScaleDpi : a.autoScaleDpi = b.autoScaleDpi
  autoScaleMax : a.autoScaleMax.equal b.autoScaleMax = true
  autoScaleMin : a.autoScaleMin.equal b.autoScaleMin = true
  laptopLidMonitor : a.laptopLidMonitor = b.laptopLidMonitor
  logThreshold : a.logThreshold = b.logThreshold
  scaleRoundStrategy : a.scaleRoundStrategy = b.scaleRoundStrategy
  scaleRoundTo : a.scaleRoundTo = b.scaleRoundTo
  scaling : a.scaling = b.scaling
  callbackCmd : a.callbackCmd = b.callbackCmd
  disableds : a.disableds.equal disabledEqual b.disableds = true
  modes : a.modes.equal modeEqual b.modes = true
  scales : a.scales.equal (fun x y => x == y) b.scales = true
  transforms : a.transforms.equal (fun x y => x == y) b.transforms = true
  adaptiveSyncOff : a.adaptiveSyncOff.equal b.adaptiveSyncOff = true
  orderNameDesc : a.orderNameDesc.equal b.orderNameDesc = true

theorem cfgEqual_iff {a b : Cfg} : cfgEqual a b = true ↔ Agree a b := by
  simp only [cfgEqual, Bool.and_eq_true, beq_iff_eq, and_assoc]
  constructor
  · rintro ⟨h1, h2, h3, h4, h5, h6, h7, h8, h9, h10, h11, h12, h13, h14, h15, h16, h17, h18⟩
    exact ⟨h1, h2, h3, h4, h5, h6, h7, h8, h9, h10, h11, h12, h13, h14, h15, h16, h17, h18⟩
  · rintro ⟨h1, h2, h3, h4, h5, h6, h7, h8, h9, h10, h11, h12, h13, h14, h15, h16, h17, h18⟩
    exact ⟨h1, h2, h3, h4, h5, h6, h7, h8, h9, h10, h11, h12, h13, h14, h15, h16, h17, h18⟩

/-- Neither bound of the automatic scale is a NaN, which equals nothing. -/
structure NanFree (cfg : Cfg) : Prop where
  autoScaleMin : cfg.autoScaleMin.isNan = false
  autoScaleMax : cfg.autoScaleMax.isNan = false

theorem agree_self {cfg : Cfg} (h : NanFree cfg) : Agree cfg cfg where
  align := rfl
  arrange := rfl
  autoScale := rfl
  autoScaleDpi := rfl
  autoScaleMax := Floating.equal_self h.autoScaleMax
  autoScaleMin := Floating.equal_self h.autoScaleMin
  laptopLidMonitor := rfl
  logThreshold := rfl
  scaleRoundStrategy := rfl
  scaleRoundTo := rfl
  scaling := rfl
  callbackCmd := rfl
  disableds := OrderedMap.equal_self disabledEqual_self cfg.disableds
  modes := OrderedMap.equal_self (fun _ => modeEqual_iff.mpr rfl) cfg.modes
  scales := OrderedMap.equal_self (fun x => beq_self_eq_true x) cfg.scales
  transforms := OrderedMap.equal_self (fun x => beq_self_eq_true x) cfg.transforms
  adaptiveSyncOff := ssetEqual_self cfg.adaptiveSyncOff
  orderNameDesc := ssetEqual_self cfg.orderNameDesc

theorem Agree.nanFree {a b : Cfg} (h : Agree a b) : NanFree b := by
  obtain ⟨hmin, hminNan⟩ := Floating.equal_iff.mp h.autoScaleMin
  obtain ⟨hmax, hmaxNan⟩ := Floating.equal_iff.mp h.autoScaleMax
  exact ⟨hmin ▸ hminNan, hmax ▸ hmaxNan⟩

/-- A configuration is told from itself exactly when one of its bounds is a NaN. -/
theorem cfgEqual_self_iff {cfg : Cfg} : cfgEqual cfg cfg = true ↔ NanFree cfg :=
  cfgEqual_iff.trans ⟨Agree.nanFree, agree_self⟩

end WayDisplays.CfgFile.Equality
