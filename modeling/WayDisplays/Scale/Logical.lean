/- The logical size of a head: its mode over its scale, by way of the rounding base. -/

import WayDisplays.Desire.Heads
import WayDisplays.Scale.Fixed

set_option autoImplicit false
set_option relaxedAutoImplicit false

namespace WayDisplays.Scale.Logical

open Lib (OrderedMap)
open Model
open Desire.Heads
open Desire.Spec
open Fixed

/-! ### Lengths -/

/-- The count of steps that desired_scaled_length converts the desired scale to. -/
def scaledDivisor (cfg : Cfg) (head : Head) : Int :=
  truncate ((head.des.scale : ℚ) / 256 * cfg.scalingBase + 1 / 2)

theorem desiredScaledLength_divisor (cfg : Cfg) (head : Head) (length : Int) :
    desiredScaledLength cfg head length =
      ⌊(length : ℚ) * cfg.scalingBase / scaledDivisor cfg head⌋ :=
  rfl

/-- A scale on the grid is converted to its steps exactly. -/
theorem scaledDivisor_of_steps {cfg : Cfg} (h : ScaleRoundTo cfg) {head : Head} {n : Int}
    (hn : 0 ≤ n) (hscale : head.des.scale = n * gridStep cfg) : scaledDivisor cfg head = n := by
  have hmul := gridStep_cast_mul h
  have hn' : (0 : ℚ) ≤ n := by exact_mod_cast hn
  have hsteps : (head.des.scale : ℚ) / 256 * cfg.scalingBase = n := by
    rw [hscale, div_mul_eq_mul_div, div_eq_iff (by norm_num), ← hmul]
    push_cast
    ring
  rw [scaledDivisor, hsteps, truncate, if_pos (by linarith), Int.floor_intCast_add]
  norm_num

theorem desiredScaledLength_eq {cfg : Cfg} (h : ScaleRoundTo cfg) {head : Head}
    (hdvd : gridStep cfg ∣ head.des.scale) (hpos : 0 < head.des.scale) (length : Int) :
    desiredScaledLength cfg head length = ⌊(length : ℚ) * 256 / head.des.scale⌋ := by
  obtain ⟨n, hscale⟩ := exists_eq_mul_left_of_dvd hdvd
  have hn : 0 < n := (mul_pos_iff_of_pos_right (gridStep_pos h)).mp (hscale ▸ hpos)
  have hn' : (n : ℚ) ≠ 0 := by exact_mod_cast hn.ne'
  rw [desiredScaledLength_divisor, scaledDivisor_of_steps h hn.le hscale, hscale]
  congr 1
  push_cast
  rw [div_eq_div_iff hn' (mul_ne_zero hn' (gridStep_cast_pos h).ne'), ← gridStep_cast_mul h]
  ring

/-! ### Sizes -/

def Turned (transform : Transform) : Prop :=
  transform ∈ [Transform.rot90, .rot270, .flipped90, .flipped270]

instance (transform : Transform) : Decidable (Turned transform) :=
  inferInstanceAs (Decidable (transform ∈ [Transform.rot90, .rot270, .flipped90, .flipped270]))

theorem turned_iff (transform : Transform) : Turned transform ↔ transform.val % 2 ≠ 0 := by
  cases transform <;> decide

/-- The size of a mode over a scale in 256ths, turned as the transform says. -/
def logicalSize (mode : Mode) (scale : Int) (transform : Transform) : Scaled :=
  if Turned transform then
    ⟨⌊(mode.height : ℚ) * 256 / scale⌋, ⌊(mode.width : ℚ) * 256 / scale⌋⟩
  else ⟨⌊(mode.width : ℚ) * 256 / scale⌋, ⌊(mode.height : ℚ) * 256 / scale⌋⟩

theorem desireScaledDimensions_scaled {cfg : Cfg} (h : ScaleRoundTo cfg) {head : Head}
    (hdvd : gridStep cfg ∣ head.des.scale) (hpos : 0 < head.des.scale) {mode : Mode}
    (hmode : head.des.zmode.bind head.modes.get? = some mode) :
    (desireScaledDimensions cfg head).scaled =
      logicalSize mode head.des.scale head.des.transform := by
  unfold desireScaledDimensions logicalSize
  rw [if_neg hpos.ne', hmode]
  by_cases hturned : Turned head.des.transform
  · simp only [hturned, if_true, (turned_iff _).mp hturned, if_false]
    rw [desiredScaledLength_eq h hdvd hpos, desiredScaledLength_eq h hdvd hpos]
  · simp only [hturned, if_false, not_not.mp (mt (turned_iff _).mpr hturned), if_true]
    rw [desiredScaledLength_eq h hdvd hpos, desiredScaledLength_eq h hdvd hpos]

/-! ### Every enabled head -/

variable [Platform]

/-- Every branch of the automatic scale ends in a quantisation. -/
theorem exists_headAutoScale_eq (cfg : Cfg) (head : Head) (min max : ℚ) :
    ∃ scale, headAutoScale cfg head min max = headGetFixedScale cfg scale := by
  unfold headAutoScale
  split
  · exact ⟨1, rfl⟩
  · dsimp only
    split
    · exact ⟨1, rfl⟩
    · exact ⟨_, rfl⟩

/-- Every branch of desire_scale does: all scaling off, a user's scale, auto and 1. -/
theorem gridStep_dvd_wantedScale {cfg : Cfg} (h : ScaleRoundTo cfg) (head : Head)
    (zmode : Option ZMode) : gridStep cfg ∣ wantedScale cfg head zmode := by
  have hfixed := gridStep_dvd_headGetFixedScale h
  rw [wantedScale_eq]
  split
  · exact hfixed 1
  · split
    · exact hfixed _
    · split
      · obtain ⟨scale, hscale⟩ := exists_headAutoScale_eq cfg
          { head with des := { head.des with zmode := zmode } }
          (cfg.autoScaleMin.numberOr 0) (cfg.autoScaleMax.numberOr 0)
        rw [hscale]
        exact hfixed scale
      · exact hfixed 1

/-- For every enabled head after desire the detour through the rounding base loses nothing. -/
theorem desire_logicalSize {cfg : Cfg} (hbase : cfg.scalingBase ∈ [1, 2, 4, 8])
    (lid : Option Lid) (heads : Heads) {zhead : ZHead} {head : Head}
    (hget : (desire cfg lid heads).2.get? zhead = some head)
    (henabled : head.des.enabled = true) (hpos : 0 < head.des.scale) :
    ∃ mode, head.des.zmode.bind head.modes.get? = some mode ∧
      head.scaled = logicalSize mode head.des.scale head.des.transform := by
  obtain ⟨before, _, hdesired⟩ := (desired_desire cfg lid heads).2 zhead head hget
  have hactive : active cfg lid heads before = true := by
    cases hactive : active cfg lid heads before with
    | true => rfl
    | false =>
      rw [hdesired.inactive hactive] at henabled
      cases henabled
  obtain ⟨hzmode, hscale, -⟩ := hdesired.active hactive
  obtain ⟨zmode, hchosen⟩ := Option.isSome_iff_exists.mp (Bool.and_eq_true_iff.mp hactive).2
  obtain ⟨mode, hmode⟩ := OrderedMap.exists_get?_of_mem_keys (chosenMode_mem hchosen)
  have hfound : head.des.zmode.bind before.modes.get? = some mode := by
    rw [hzmode, hchosen]
    exact hmode
  refine ⟨mode, ?_, ?_⟩
  · rw [← hdesired.modes]
    exact hfound
  · have hdvd : gridStep cfg ∣ head.des.scale := hscale ▸ gridStep_dvd_wantedScale hbase before _
    have hsize : (desireScaledDimensions cfg { before with des := head.des }).scaled =
        logicalSize mode head.des.scale head.des.transform :=
      @desireScaledDimensions_scaled cfg hbase { before with des := head.des } hdvd hpos mode hfound
    rw [hdesired.scaled, desiredScaled, hsize]

/-! ### A display on its side -/

def fullHdMode : Mode := { modeInit with width := 1920, height := 1080 }

def oneDisplay : Heads :=
  OrderedMap.empty.put ⟨0⟩
    { headInit with name := some "DP-1", modes := OrderedMap.empty.put ⟨1⟩ fullHdMode }

def onItsSide : Cfg :=
  { cfgInit with
    scales := OrderedMap.empty.put "DP-1" 1500
    transforms := OrderedMap.empty.put "DP-1" .rot90 }

omit [Platform] in
theorem desire_logicalSize_onItsSide : let _ : Platform := plainPlatform
    ∃ head, (desire onItsSide none oneDisplay).2.get? ⟨0⟩ = some head ∧
      head.scaled = ⟨720, 1280⟩ := by
  intro _
  have hdesired : ((desire onItsSide none oneDisplay).2.get? ⟨0⟩).map (fun head =>
      (head.des, head.des.zmode.bind head.modes.get?)) =
      some ({ zmode := some ⟨1⟩, scale := 384, enabled := true, x := 0, y := 0,
              transform := .rot90, adaptiveSync := .enabled }, some fullHdMode) := by
    decide +kernel
  obtain ⟨head, hget, hpair⟩ := Option.map_eq_some_iff.mp hdesired
  obtain ⟨hdes, hfound⟩ := Prod.mk.inj hpair
  obtain ⟨mode, hmode, hsize⟩ := desire_logicalSize (by decide) none oneDisplay hget
    (by rw [hdes]) (by rw [hdes]; decide)
  obtain rfl := Option.some.inj (hfound.symm.trans hmode)
  refine ⟨head, hget, ?_⟩
  rw [hsize, hdes]
  decide +kernel

end WayDisplays.Scale.Logical
