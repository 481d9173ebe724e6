/- Which of the scales that are asked for leave a scale above zero. -/

import WayDisplays.Model.Act
import WayDisplays.Model.Unmarshal
import WayDisplays.Names.Precedence
import WayDisplays.Scale.Auto

set_option autoImplicit false
set_option relaxedAutoImplicit false

namespace WayDisplays.Scale.Positive

open Lib (OrderedMap)
open Model
open Fixed
open Auto
open Names.Precedence (entryUsed desireScale_eq scaleBy)

variable [Platform]

/-- The scale that desire_scale has quantised for an enabled head. -/
def requestedScale (cfg : Cfg) (head : Head) : ℚ :=
  if cfg.scaling = some .off then 1
  else
    match entryUsed cfg.scales head with
    | some e => (e.2 : ℚ) / 1000
    | none =>
      if cfg.autoScale = some .on then
        requestedAutoScale cfg head (cfg.autoScaleMin.numberOr 0) (cfg.autoScaleMax.numberOr 0)
      else 1

theorem desireScale_requested {cfg : Cfg} (hbase : ScaleRoundTo cfg)
    (hdpi : cfg.autoScaleDpi > autoScaleDpiMin) {head : Head} (henabled : head.des.enabled = true) :
    (desireScale cfg head).des.scale = headGetFixedScale cfg (requestedScale cfg head) := by
  rw [desireScale_eq, if_pos henabled]
  unfold scaleBy requestedScale
  by_cases hoff : cfg.scaling = some .off
  · rw [if_pos hoff, if_pos hoff]
  · rw [if_neg hoff, if_neg hoff]
    cases entryUsed cfg.scales head with
    | some e => rfl
    | none =>
      by_cases hauto : cfg.autoScale = some .on
      · simp only [hauto, if_true]
        exact headAutoScale_eq hbase hdpi head _ _
      · simp only [hauto, if_false]

theorem requestedScale_nonneg {cfg : Cfg} (hbase : ScaleRoundTo cfg)
    (hdpi : cfg.autoScaleDpi > autoScaleDpiMin) (head : Head) : 0 ≤ requestedScale cfg head := by
  unfold requestedScale
  split
  · exact zero_le_one
  · split
    · exact div_nonneg (Nat.cast_nonneg _) (by norm_num)
    · split
      · exact requestedAutoScale_nonneg hbase hdpi head _ _
      · exact zero_le_one

/-- What a scale above zero is for: the compositor is never asked for none, and the dimensions
of a head with a mode do not depend on what they were. -/
structure ScalePositive (cfg : Cfg) (head : Head) : Prop where
  positive : 0 < (desireScale cfg head).des.scale
  sent : ∀ changes, headConfig (desireScale cfg head) = .enable changes →
    .setScale 0 ∉ changes
  refreshed : (head.des.zmode.bind head.modes.get?).isSome → ∀ old,
    desireScaledDimensions cfg { desireScale cfg head with scaled := old } =
      desireScaledDimensions cfg (desireScale cfg head)

omit [Platform] in
/-- The dimensions of a head are computed afresh when it has a scale and a mode. -/
theorem desireScaledDimensions_fresh (cfg : Cfg) {head : Head} (hscale : head.des.scale ≠ 0)
    (hmode : (head.des.zmode.bind head.modes.get?).isSome) (old : Scaled) :
    desireScaledDimensions cfg { head with scaled := old } = desireScaledDimensions cfg head := by
  obtain ⟨mode, hmode⟩ := Option.isSome_iff_exists.mp hmode
  unfold desireScaledDimensions
  simp only [hscale, hmode, if_false]
  rfl

theorem scalePositive_of_pos {cfg : Cfg} {head : Head}
    (hpos : 0 < (desireScale cfg head).des.scale) : ScalePositive cfg head := by
  refine { positive := hpos, sent := ?_, refreshed := ?_ }
  · intro changes hconfig hmem
    unfold headConfig at hconfig
    split at hconfig
    · obtain rfl := HeadConfig.enable.inj hconfig
      simp only [List.mem_cons, HeadChange.setScale.injEq, reduceCtorEq, List.not_mem_nil,
        or_false] at hmem
      omega
    · cases hconfig
  · intro hmode old
    refine desireScaledDimensions_fresh cfg (by omega) ?_ old
    have hkept : (desireScale cfg head).des.zmode = head.des.zmode ∧
        (desireScale cfg head).modes = head.modes := by
      unfold desireScale
      split
      · exact ⟨rfl, rfl⟩
      · exact ⟨rfl, rfl⟩
    rwa [hkept.1, hkept.2]

/-- An enabled head gets a scale above zero if and only if the scale that is asked for reaches
one step of the rounding base. -/
theorem scalePositive_iff {cfg : Cfg} (hbase : cfg.scalingBase ∈ [1, 2, 4, 8])
    (hdpi : cfg.autoScaleDpi > autoScaleDpiMin) {head : Head} (henabled : head.des.enabled = true) :
    ScalePositive cfg head ↔
      Reaches cfg 1 (Platform.wlFixedFromDouble (requestedScale cfg head)) := by
  rw [← headGetFixedScale_pos_iff hbase, ← desireScale_requested hbase hdpi henabled]
  exact ⟨fun h => h.positive, scalePositive_of_pos⟩

/-! ### A small scale -/

def scaledTo (milliscale : Nat) : Cfg :=
  { cfgInit with
    autoScaleDpi := autoScaleDpiDefault
    scales := OrderedMap.empty.put "DP-1" milliscale }

def fullHdDisplay : Head :=
  { displayOf 1920 1080 510 290 with name := some "DP-1", scaled := ⟨1280, 720⟩ }

omit [Platform] in
theorem scalePositive_threeHalves : let _ : Platform := plainPlatform
    ScalePositive (scaledTo 1500) fullHdDisplay := by
  intro _
  refine (scalePositive_iff (by decide) (by decide) rfl).mpr ?_
  have hfixed :
      Platform.wlFixedFromDouble (requestedScale (scaledTo 1500) fullHdDisplay) = 384 := by
    decide +kernel
  rw [hfixed]
  show (2 * 1 - 1) * (256 / (scaledTo 1500).scalingBase) ≤ 2 * 384
  decide

omit [Platform] in
/-- A scale of 0.05 is read as positive, and rounded to the nearest eighth there is none. -/
theorem twentieth_roundedToZero : let _ : Platform := plainPlatform
    milliscaleOf (some (.scalar "0.05")) = some 50 ∧
      (desireScale (scaledTo 50) fullHdDisplay).des.scale = 0 ∧
      headConfig (desireScale (scaledTo 50) fullHdDisplay) =
        .enable [.setScale 0, .setPosition 0 0, .setTransform .normal] ∧
      (desireScaledDimensions (scaledTo 50) (desireScale (scaledTo 50) fullHdDisplay)).scaled =
        ⟨1280, 720⟩ ∧
      ¬ ScalePositive (scaledTo 50) fullHdDisplay := by
  intro _
  have hscale : (desireScale (scaledTo 50) fullHdDisplay).des.scale = 0 := by decide +kernel
  refine ⟨by decide +kernel, hscale, by decide +kernel, by decide +kernel, ?_⟩
  intro h
  have hpos := h.positive
  rw [hscale] at hpos
  omega

end WayDisplays.Scale.Positive
