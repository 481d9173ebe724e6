/- The range of automatic scales, for every DPI, basis, rounding base and strategy. -/

import WayDisplays.Model.CfgMerge
import WayDisplays.Scale.Fixed

set_option autoImplicit false
set_option relaxedAutoImplicit false

namespace WayDisplays.Scale.Auto

open Lib (OrderedMap)
open Lib.Quantise
open Model
open Fixed

/-! ### The scale that is asked for -/

def desiredDpi (head : Head) : ℚ :=
  modeDpi (head.des.zmode.bind head.modes.get?) head.widthMm head.heightMm

/-- The bounds of the range as numbers of steps of the rounding base. -/
def lowestSteps (cfg : Cfg) (min : ℚ) : Int := max ⌈min * cfg.scalingBase⌉ 1

def highestSteps (cfg : Cfg) (max : ℚ) : Int := ⌊max * cfg.scalingBase⌋

/-- The DPI of one step, without the remainder of the division. -/
def dpiStep (cfg : Cfg) : Int := cfg.dpiBase.tdiv cfg.scalingBase

/-- The scale that a bound of so many steps is clamped to. -/
def boundScale (cfg : Cfg) (n : Int) : ℚ := ((dpiStep cfg * n : Int) : ℚ) / cfg.dpiBase

/-- The clamped DPI over the basis, 1 where the DPI is not known. -/
def requestedAutoScale (cfg : Cfg) (head : Head) (min max : ℚ) : ℚ :=
  if desiredDpi head = 0 then 1
  else clampTo ((dpiStep cfg * lowestSteps cfg min : Int) : ℚ)
    (dpiStep cfg * highestSteps cfg max : Int) (desiredDpi head) / cfg.dpiBase

theorem lowestSteps_pos (cfg : Cfg) (min : ℚ) : 0 < lowestSteps cfg min :=
  Int.lt_of_lt_of_le Int.zero_lt_one (le_max_right _ _)

section Basis

variable {cfg : Cfg} (hbase : ScaleRoundTo cfg) (hdpi : cfg.autoScaleDpi > autoScaleDpiMin)

include hdpi

theorem dpiBase_eq : cfg.dpiBase = cfg.autoScaleDpi := by
  have hmin : autoScaleDpiMin = 8 := rfl
  rw [Cfg.dpiBase, if_neg (by omega)]

theorem dpiBase_pos : (0 : ℚ) < cfg.dpiBase := by
  have hmin : autoScaleDpiMin = 8 := rfl
  have : 0 < cfg.dpiBase := by
    rw [dpiBase_eq hdpi]
    omega
  exact_mod_cast this

include hbase

theorem dpiStep_spec : 0 < dpiStep cfg ∧ dpiStep cfg * cfg.scalingBase ≤ cfg.autoScaleDpi ∧
    (dpiStep cfg * cfg.scalingBase = cfg.autoScaleDpi ↔ cfg.scalingBase ∣ cfg.autoScaleDpi) := by
  have hmin : autoScaleDpiMin = 8 := rfl
  have hdiv : dpiStep cfg = cfg.autoScaleDpi / cfg.scalingBase := by
    rw [dpiStep, dpiBase_eq hdpi]
    exact Int.tdiv_eq_ediv_of_nonneg (by omega)
  have hpos := scalingBase_pos hbase
  have hle : cfg.scalingBase ≤ 8 := by
    simp only [ScaleRoundTo, List.mem_cons, List.not_mem_nil, or_false] at hbase
    omega
  rw [hdiv]
  refine ⟨?_, Int.ediv_mul_le _ hpos.ne', fun h => Dvd.intro_left _ h, Int.ediv_mul_cancel⟩
  have : 1 ≤ cfg.autoScaleDpi / cfg.scalingBase := (Int.le_ediv_iff_mul_le hpos).mpr (by omega)
  omega

theorem requestedAutoScale_nonneg (head : Head) (min max : ℚ) :
    0 ≤ requestedAutoScale cfg head min max := by
  have hlowest : 0 ≤ dpiStep cfg * lowestSteps cfg min :=
    Int.mul_nonneg (dpiStep_spec hbase hdpi).1.le (lowestSteps_pos cfg min).le
  rw [requestedAutoScale]
  split
  · exact zero_le_one
  · have hclamped := lowest_le_clampTo ((dpiStep cfg * lowestSteps cfg min : Int) : ℚ)
      (dpiStep cfg * highestSteps cfg max : Int) (desiredDpi head)
    have hlowest : (0 : ℚ) ≤ (dpiStep cfg * lowestSteps cfg min : Int) := by exact_mod_cast hlowest
    exact div_nonneg (hlowest.trans hclamped) (dpiBase_pos hdpi).le

end Basis

/-- Where they differ, neither is above zero. -/
private theorem truncate_floor (q : ℚ) : truncate q = ⌊q⌋ ∨ truncate q ≤ 0 ∧ ⌊q⌋ ≤ 0 := by
  rw [truncate]
  split
  · exact Or.inl rfl
  · rename_i hneg
    right
    constructor
    · rw [Int.ceil_le]
      push_cast
      linarith
    · exact (Int.floor_lt.mpr (by push_cast; linarith)).le

private theorem clampTo_eq (lowest highest : Int) (v : ℚ) :
    clampTo (lowest : ℚ) highest v =
      if v < lowest then (lowest : ℚ)
      else if lowest ≤ highest ∧ v > highest then (highest : ℚ) else v := by
  have hcast : ((lowest : ℚ) ≤ highest) ↔ lowest ≤ highest := Int.cast_le
  rw [clampTo]
  by_cases hv : v < lowest
  · rw [if_pos hv, max_eq_left hv.le]
    split
    · rename_i h
      exact min_eq_right h
    · rfl
  · rw [if_neg hv, max_eq_right (not_lt.mp hv)]
    by_cases h : lowest ≤ highest
    · rw [if_pos (hcast.mpr h)]
      by_cases hhigh : v > highest
      · rw [if_pos ⟨h, hhigh⟩, min_eq_left hhigh.le]
      · rw [if_neg (fun hboth => hhigh hboth.2), min_eq_right (not_lt.mp hhigh)]
    · rw [if_neg (mt hcast.mp h), if_neg (fun hboth => h hboth.1)]

section Bounds

variable {cfg : Cfg} (hstep : 0 < dpiStep cfg) (min max : ℚ)

include hstep

private theorem dpiMin_eq : (if dpiStep cfg * ⌈min * cfg.scalingBase⌉ < dpiStep cfg
      then dpiStep cfg else dpiStep cfg * ⌈min * cfg.scalingBase⌉) =
    dpiStep cfg * lowestSteps cfg min := by
  rw [lowestSteps]
  rcases Int.lt_or_le ⌈min * cfg.scalingBase⌉ 1 with h | h
  · have : dpiStep cfg * ⌈min * cfg.scalingBase⌉ < dpiStep cfg * 1 :=
      Int.mul_lt_mul_of_pos_left h hstep
    rw [if_pos (by omega), max_eq_right h.le, mul_one]
  · have : dpiStep cfg * 1 ≤ dpiStep cfg * ⌈min * cfg.scalingBase⌉ :=
      Int.mul_le_mul_of_nonneg_left h hstep.le
    rw [if_neg (by omega), max_eq_left h]

/-- A negative maximum is below every minimum, in whichever direction it is rounded. -/
private theorem clampTo_dpiMax (v : ℚ) :
    clampTo ((dpiStep cfg * lowestSteps cfg min : Int) : ℚ)
        (dpiStep cfg * truncate (max * cfg.scalingBase) : Int) v =
      clampTo ((dpiStep cfg * lowestSteps cfg min : Int) : ℚ)
        (dpiStep cfg * highestSteps cfg max : Int) v := by
  rw [highestSteps]
  rcases truncate_floor (max * cfg.scalingBase) with h | ⟨htruncate, hfloor⟩
  · rw [h]
  · have hpos := Int.mul_pos hstep (lowestSteps_pos cfg min)
    have h₁ := Int.mul_nonpos_of_nonneg_of_nonpos hstep.le htruncate
    have h₂ := Int.mul_nonpos_of_nonneg_of_nonpos hstep.le hfloor
    rw [clampTo_eq, clampTo_eq, if_neg (c := _ ∧ _) (fun h => by omega),
      if_neg (c := _ ∧ _) (fun h => by omega)]

end Bounds

variable [Platform]

theorem headAutoScale_eq {cfg : Cfg} (hbase : ScaleRoundTo cfg)
    (hdpi : cfg.autoScaleDpi > autoScaleDpiMin) (head : Head) (min max : ℚ) :
    headAutoScale cfg head min max =
      headGetFixedScale cfg (requestedAutoScale cfg head min max) := by
  obtain ⟨hstep, -⟩ := dpiStep_spec hbase hdpi
  unfold headAutoScale requestedAutoScale
  cases hzmode : head.des.zmode with
  | none =>
    have hunknown : desiredDpi head = 0 := by
      rw [desiredDpi, hzmode]
      rfl
    rw [if_pos hunknown]
  | some zmode =>
    have hknown : modeDpi (head.modes.get? zmode) head.widthMm head.heightMm =
        desiredDpi head := by
      rw [desiredDpi, hzmode]
      rfl
    simp only [hknown]
    by_cases hzero : desiredDpi head = 0
    · rw [if_pos hzero, if_pos hzero]
    · rw [if_neg hzero, if_neg hzero, ← clampTo_dpiMax hstep, clampTo_eq, ← dpiMin_eq hstep]
      rfl

/-! ### The range -/

/-- The quantised scale of the DPI, clamped to the bounds in steps of the rounding base. -/
structure AutoScaleRange (cfg : Cfg) (head : Head) (min max : ℚ) : Prop where
  clamped : headAutoScale cfg head min max =
    clampTo (lowestSteps cfg min * (256 / cfg.scalingBase))
      (highestSteps cfg max * (256 / cfg.scalingBase))
      (headGetFixedScale cfg (desiredDpi head / cfg.dpiBase))
  minimum : min ≤ headAutoScale cfg head min max / 256
  nonzero : headAutoScale cfg head min max ≠ 0

/-- The scales of exact arithmetic, which do not overflow. -/
abbrev Nonneg : Set ℚ := Set.Ici 0

private theorem headGetFixedScale_steps {cfg : Cfg} (hbase : ScaleRoundTo cfg)
    (hfixed : FixedRounds Nonneg) {n : Int} (hn : 0 ≤ n) :
    headGetFixedScale cfg ((n : ℚ) / cfg.scalingBase) = n * gridStep cfg := by
  have hstep := gridStep_cast_pos hbase
  have hmul := gridStep_cast_mul hbase
  have hbase' := scalingBase_cast_pos hbase
  have hscale : (n : ℚ) / cfg.scalingBase = ((n * gridStep cfg : Int) : ℚ) / 256 := by
    rw [← hmul]
    push_cast
    field_simp
  rw [hscale]
  refine headGetFixedScale_of_dvd hbase hfixed ?_ (Dvd.intro_left n rfl)
  have : (0 : ℚ) ≤ n := by exact_mod_cast hn
  rw [← hscale]
  exact div_nonneg this hbase'.le

omit [Platform] in
private theorem clampTo_div {c : ℚ} (hc : 0 < c) (lowest highest v : ℚ) :
    clampTo lowest highest v / c = clampTo (lowest / c) (highest / c) (v / c) := by
  have hmono : MonotoneOn (fun q : ℚ => q / c) Set.univ := fun a _ b _ h =>
    div_le_div_of_nonneg_right h hc.le
  exact map_clampTo hmono (Set.mem_univ _) (Set.mem_univ _) (fun _ => Set.mem_univ _)
    (div_le_div_iff_of_pos_right hc)

/-- Both bounds are rounded back to the steps they were taken from, for all that the division
of the basis drops. -/
structure BoundsKept (cfg : Cfg) (min max : ℚ) : Prop where
  lowest : Reaches cfg (lowestSteps cfg min)
    (Platform.wlFixedFromDouble (boundScale cfg (lowestSteps cfg min)))
  highest : lowestSteps cfg min ≤ highestSteps cfg max → Reaches cfg (highestSteps cfg max)
    (Platform.wlFixedFromDouble (boundScale cfg (highestSteps cfg max)))

section Range

variable {cfg : Cfg} (hbase : ScaleRoundTo cfg) (hdpi : cfg.autoScaleDpi > autoScaleDpiMin)

include hbase hdpi

omit [Platform] in
private theorem boundScale_spec {n : Int} (hn : 0 ≤ n) :
    0 ≤ boundScale cfg n ∧ boundScale cfg n ≤ n / cfg.scalingBase := by
  obtain ⟨hstep, hle, -⟩ := dpiStep_spec hbase hdpi
  have hbasis := dpiBase_pos hdpi
  have hbase' := scalingBase_cast_pos hbase
  have hn' : (0 : ℚ) ≤ n := by exact_mod_cast hn
  constructor
  · exact div_nonneg (by exact_mod_cast Int.mul_nonneg hstep.le hn) hbasis.le
  · rw [boundScale, div_le_div_iff₀ hbasis hbase']
    have hsteps : (dpiStep cfg * cfg.scalingBase : ℚ) ≤ cfg.dpiBase := by
      rw [dpiBase_eq hdpi]
      exact_mod_cast hle
    push_cast
    linarith [mul_le_mul_of_nonneg_left hsteps hn']

omit [Platform] in
/-- With a basis that the rounding base divides, a bound is a whole number of steps. -/
private theorem boundScale_of_dvd (hdvd : cfg.scalingBase ∣ cfg.autoScaleDpi) (n : Int) :
    boundScale cfg n = n / cfg.scalingBase := by
  have hbase' := scalingBase_cast_pos hbase
  have hexact : ((dpiStep cfg * cfg.scalingBase : Int) : ℚ) = cfg.dpiBase := by
    rw [(dpiStep_spec hbase hdpi).2.2.mpr hdvd, dpiBase_eq hdpi]
  rw [boundScale, div_eq_div_iff (dpiBase_pos hdpi).ne' hbase'.ne', ← hexact]
  push_cast
  ring

omit [Platform] in
private theorem boundScale_le_iff {m n : Int} :
    boundScale cfg m ≤ boundScale cfg n ↔ m ≤ n := by
  rw [boundScale, boundScale, div_le_div_iff_of_pos_right (dpiBase_pos hdpi), Int.cast_le,
    Int.mul_le_mul_left (dpiStep_spec hbase hdpi).1]

variable (hfixed : FixedRounds Nonneg)

include hfixed

/-- A bound is never rounded to more steps than it was taken from. -/
private theorem reaches_bound_iff {n : Int} (hn : 0 < n) :
    Reaches cfg n (Platform.wlFixedFromDouble (boundScale cfg n)) ↔
      headGetFixedScale cfg (boundScale cfg n) = n * gridStep cfg := by
  obtain ⟨hnonneg, hle⟩ := boundScale_spec hbase hdpi hn.le
  have hupper := headGetFixedScale_mono hbase hfixed hnonneg (hnonneg.trans hle) hle
  rw [headGetFixedScale_steps hbase hfixed hn.le] at hupper
  rw [reaches_iff hbase hn]
  omega

omit hfixed in
private theorem headAutoScale_known {head : Head} (hknown : 0 < desiredDpi head) (min max : ℚ) :
    headAutoScale cfg head min max = headGetFixedScale cfg
      (clampTo (boundScale cfg (lowestSteps cfg min)) (boundScale cfg (highestSteps cfg max))
        (desiredDpi head / cfg.dpiBase)) := by
  rw [headAutoScale_eq hbase hdpi, requestedAutoScale, if_neg hknown.ne',
    clampTo_div (dpiBase_pos hdpi), ← boundScale, ← boundScale]

theorem headAutoScale_clamped {min max : ℚ} (hkept : BoundsKept cfg min max) {head : Head}
    (hknown : 0 < desiredDpi head) :
    headAutoScale cfg head min max =
      clampTo (lowestSteps cfg min * gridStep cfg) (highestSteps cfg max * gridStep cfg)
        (headGetFixedScale cfg (desiredDpi head / cfg.dpiBase)) := by
  have hbasis := dpiBase_pos hdpi
  have hgrid := gridStep_pos hbase
  have hlowest := lowestSteps_pos cfg min
  have hmono := headGetFixedScale_mono hbase hfixed
  have hdpiMem : desiredDpi head / cfg.dpiBase ∈ Nonneg := div_nonneg hknown.le hbasis.le
  have hlowestMem : boundScale cfg (lowestSteps cfg min) ∈ Nonneg :=
    (boundScale_spec hbase hdpi hlowest.le).1
  have hlowestKept := (reaches_bound_iff hbase hdpi hfixed hlowest).mp hkept.lowest
  have hbounds := boundScale_le_iff hbase hdpi (m := lowestSteps cfg min)
    (n := highestSteps cfg max)
  rw [headAutoScale_known hbase hdpi hknown]
  by_cases hrange : lowestSteps cfg min ≤ highestSteps cfg max
  · have hhighest := hlowest.trans_le hrange
    have hhighestKept :=
      (reaches_bound_iff hbase hdpi hfixed hhighest).mp (hkept.highest hrange)
    rw [map_clampTo hmono hlowestMem hdpiMem
      (fun _ => (boundScale_spec hbase hdpi hhighest.le).1), hlowestKept, hhighestKept]
    rw [hlowestKept, hhighestKept, Int.mul_le_mul_right hgrid, hbounds]
  · have hempty : ¬ lowestSteps cfg min * gridStep cfg ≤ highestSteps cfg max * gridStep cfg := by
      rwa [Int.mul_le_mul_right hgrid]
    rw [clampTo, clampTo, if_neg (mt hbounds.mp hrange), if_neg hempty,
      hmono.map_max hlowestMem hdpiMem, hlowestKept]

/-- The clamped scale is not below the minimum, which is at least one step. -/
theorem autoScaleRange_of_kept {min max : ℚ} (hkept : BoundsKept cfg min max) {head : Head}
    (hknown : 0 < desiredDpi head) : AutoScaleRange cfg head min max := by
  have hclamped := headAutoScale_clamped hbase hdpi hfixed hkept hknown
  have hlowest : lowestSteps cfg min * gridStep cfg ≤ headAutoScale cfg head min max := by
    rw [hclamped]
    exact lowest_le_clampTo _ _ _
  have hpos := Int.mul_pos (lowestSteps_pos cfg min) (gridStep_pos hbase)
  refine { clamped := hclamped, minimum := ?_, nonzero := by omega }
  have hceil : min * cfg.scalingBase ≤ lowestSteps cfg min := by
    have h : ⌈min * cfg.scalingBase⌉ ≤ lowestSteps cfg min := le_max_left _ _
    exact (Int.le_ceil _).trans (by exact_mod_cast h)
  have hlowest : (lowestSteps cfg min * gridStep cfg : ℚ) ≤ headAutoScale cfg head min max := by
    exact_mod_cast hlowest
  rw [le_div_iff₀ (by norm_num)]
  calc min * 256 = min * cfg.scalingBase * gridStep cfg := by
        rw [← gridStep_cast_mul hbase]
        ring
    _ ≤ lowestSteps cfg min * gridStep cfg :=
        mul_le_mul_of_nonneg_right hceil (gridStep_cast_pos hbase).le
    _ ≤ headAutoScale cfg head min max := hlowest

/-- Bounds that are whole numbers of steps are kept. -/
private theorem kept_of_dvd (hdvd : cfg.scalingBase ∣ cfg.autoScaleDpi) (min max : ℚ) :
    BoundsKept cfg min max := by
  have hreaches (n : Int) (hn : 0 < n) :
      Reaches cfg n (Platform.wlFixedFromDouble (boundScale cfg n)) := by
    rw [reaches_bound_iff hbase hdpi hfixed hn, boundScale_of_dvd hbase hdpi hdvd]
    exact headGetFixedScale_steps hbase hfixed hn.le
  have hlowest := lowestSteps_pos cfg min
  exact ⟨hreaches _ hlowest, fun h => hreaches _ (hlowest.trans_le h)⟩

/-- A minimum as great as the basis is short of as many steps as its remainder. -/
private theorem dvd_of_kept (h : BoundsKept cfg cfg.autoScaleDpi 0) :
    cfg.scalingBase ∣ cfg.autoScaleDpi := by
  have hmin : autoScaleDpiMin = 8 := rfl
  have hbase' := scalingBase_pos hbase
  have hsteps : lowestSteps cfg cfg.autoScaleDpi = cfg.autoScaleDpi * cfg.scalingBase := by
    have hceil : ⌈(cfg.autoScaleDpi : ℚ) * cfg.scalingBase⌉ =
        cfg.autoScaleDpi * cfg.scalingBase := by
      exact_mod_cast Int.ceil_intCast (R := ℚ) (cfg.autoScaleDpi * cfg.scalingBase)
    have hpos : 0 < cfg.autoScaleDpi * cfg.scalingBase := Int.mul_pos (by omega) hbase'
    rw [lowestSteps, hceil]
    omega
  have hwhole : boundScale cfg (cfg.autoScaleDpi * cfg.scalingBase) =
      ((dpiStep cfg * cfg.scalingBase * cfg.scalingBase : Int) : ℚ) / cfg.scalingBase := by
    rw [boundScale, div_eq_div_iff (dpiBase_pos hdpi).ne' (scalingBase_cast_pos hbase).ne',
      dpiBase_eq hdpi]
    push_cast
    ring
  have hkept := (reaches_bound_iff hbase hdpi hfixed (lowestSteps_pos _ _)).mp h.lowest
  have hstep := (dpiStep_spec hbase hdpi).1
  rw [hsteps, hwhole, headGetFixedScale_steps hbase hfixed
    (Int.mul_nonneg (Int.mul_nonneg hstep.le hbase'.le) hbase'.le)] at hkept
  have hsteps := Int.eq_of_mul_eq_mul_right (gridStep_pos hbase).ne' hkept
  have hexact := Int.eq_of_mul_eq_mul_right hbase'.ne' hsteps
  exact (dpiStep_spec hbase hdpi).2.2.mp hexact

end Range

/-! ### Displays of every DPI -/

omit [Platform] in
def displayOf (width height widthMm heightMm : Int) : Head :=
  { headInit with
    widthMm := widthMm
    heightMm := heightMm
    modes := OrderedMap.empty.put ⟨1⟩ { modeInit with width := width, height := height }
    des := { headStateInit with zmode := some ⟨1⟩, enabled := true } }

omit [Platform] in
theorem desiredDpi_square (n : Int) {mm : Int} (hmm : mm ≠ 0) :
    desiredDpi (displayOf n n mm mm) = n / mm * (254 / 10) := by
  have hmode : (displayOf n n mm mm).des.zmode.bind (displayOf n n mm mm).modes.get? =
      some { modeInit with width := n, height := n } := OrderedMap.get?_put_self _ _ _
  rw [desiredDpi, hmode]
  simp only [modeDpi, displayOf, hmm, decide_false, Bool.or_self, Bool.false_eq_true, if_false]
  ring

section Converse

variable {cfg : Cfg} (hbase : ScaleRoundTo cfg) (hdpi : cfg.autoScaleDpi > autoScaleDpiMin)
  (hfixed : FixedRounds Nonneg) {min max : ℚ}
  (hrange : ∀ head, 0 < desiredDpi head → AutoScaleRange cfg head min max)

include hbase hdpi hfixed hrange

private theorem lowest_kept : Reaches cfg (lowestSteps cfg min)
    (Platform.wlFixedFromDouble (boundScale cfg (lowestSteps cfg min))) := by
  have hlowest := lowestSteps_pos cfg min
  have hbasis := dpiBase_pos hdpi
  have hdpiLow : desiredDpi (displayOf 1 1 254 254) = 1 / 10 := by
    rw [desiredDpi_square 1 (by decide)]
    norm_num
  have hknown : 0 < desiredDpi (displayOf 1 1 254 254) := by
    rw [hdpiLow]
    norm_num
  have hstep : 1 ≤ dpiStep cfg * lowestSteps cfg min :=
    Int.mul_pos (dpiStep_spec hbase hdpi).1 hlowest
  have hstep : (1 : ℚ) ≤ (dpiStep cfg * lowestSteps cfg min : Int) := by exact_mod_cast hstep
  have hbelow : desiredDpi (displayOf 1 1 254 254) / cfg.dpiBase ≤
      boundScale cfg (lowestSteps cfg min) := by
    rw [hdpiLow]
    exact div_le_div_of_nonneg_right (by linarith) hbasis.le
  obtain ⟨hnonneg, hle⟩ := boundScale_spec hbase hdpi hlowest.le
  have hquantised : headGetFixedScale cfg (desiredDpi (displayOf 1 1 254 254) / cfg.dpiBase) ≤
      lowestSteps cfg min * gridStep cfg := by
    rw [← headGetFixedScale_steps hbase hfixed hlowest.le]
    exact headGetFixedScale_mono hbase hfixed (div_nonneg hknown.le hbasis.le)
      (hnonneg.trans hle) (hbelow.trans hle)
  have hclamped := (hrange _ hknown).clamped
  rw [← gridStep] at hclamped
  rw [headAutoScale_known hbase hdpi hknown, clampTo_of_le hbelow,
    clampTo_of_le hquantised] at hclamped
  exact (reaches_bound_iff hbase hdpi hfixed hlowest).mpr hclamped

private theorem highest_kept (h : lowestSteps cfg min ≤ highestSteps cfg max) :
    Reaches cfg (highestSteps cfg max)
      (Platform.wlFixedFromDouble (boundScale cfg (highestSteps cfg max))) := by
  have hhighest := (lowestSteps_pos cfg min).trans_le h
  have hbasis := dpiBase_pos hdpi
  have hbase' : (1 : ℚ) ≤ cfg.scalingBase := by exact_mod_cast scalingBase_pos hbase
  have hhighest' : (0 : ℚ) < highestSteps cfg max := by exact_mod_cast hhighest
  obtain ⟨N, hN⟩ : ∃ N, N = highestSteps cfg max * cfg.dpiBase := ⟨_, rfl⟩
  have hratio : (highestSteps cfg max : ℚ) ≤ desiredDpi (displayOf N N 1 1) / cfg.dpiBase := by
    rw [desiredDpi_square N (by decide), le_div_iff₀ hbasis, hN]
    push_cast
    linarith [mul_pos hhighest' hbasis]
  have hknown : 0 < desiredDpi (displayOf N N 1 1) :=
    (div_pos_iff_of_pos_right hbasis).mp (hhighest'.trans_le hratio)
  have habove : (highestSteps cfg max : ℚ) / cfg.scalingBase ≤
      desiredDpi (displayOf N N 1 1) / cfg.dpiBase :=
    (div_le_self hhighest'.le hbase').trans hratio
  obtain ⟨hnonneg, hle⟩ := boundScale_spec hbase hdpi hhighest.le
  have hquantised : highestSteps cfg max * gridStep cfg ≤
      headGetFixedScale cfg (desiredDpi (displayOf N N 1 1) / cfg.dpiBase) := by
    rw [← headGetFixedScale_steps hbase hfixed hhighest.le]
    exact headGetFixedScale_mono hbase hfixed (hnonneg.trans hle)
      (div_nonneg hknown.le hbasis.le) habove
  have hbounds : boundScale cfg (lowestSteps cfg min) ≤ boundScale cfg (highestSteps cfg max) :=
    (boundScale_le_iff hbase hdpi).mpr h
  have hclamped := (hrange _ hknown).clamped
  rw [← gridStep] at hclamped
  rw [headAutoScale_known hbase hdpi hknown, clampTo_of_ge hbounds (hle.trans habove),
    clampTo_of_ge (Int.mul_le_mul_of_nonneg_right h (gridStep_pos hbase).le) hquantised]
    at hclamped
  exact (reaches_bound_iff hbase hdpi hfixed hhighest).mpr hclamped

end Converse

/-- The range is kept for displays of every DPI if and only if its bounds survive the division
of the basis, and for every range if and only if the division leaves no remainder. -/
theorem autoScaleRange_iff {cfg : Cfg} (hbase : cfg.scalingBase ∈ [1, 2, 4, 8])
    (hdpi : cfg.autoScaleDpi > autoScaleDpiMin) (hfixed : FixedRounds Nonneg) :
    (∀ min max, (∀ head, 0 < desiredDpi head → AutoScaleRange cfg head min max) ↔
      BoundsKept cfg min max) ∧
    ((∀ min max head, 0 < desiredDpi head → AutoScaleRange cfg head min max) ↔
      cfg.scalingBase ∣ cfg.autoScaleDpi) := by
  have hkept (min max : ℚ) : (∀ head, 0 < desiredDpi head → AutoScaleRange cfg head min max) ↔
      BoundsKept cfg min max := by
    constructor
    · intro hrange
      exact ⟨lowest_kept hbase hdpi hfixed hrange, highest_kept hbase hdpi hfixed hrange⟩
    · intro hkept head hknown
      exact autoScaleRange_of_kept hbase hdpi hfixed hkept hknown
  refine ⟨hkept, ?_⟩
  constructor
  · intro hrange
    exact dvd_of_kept hbase hdpi hfixed
      ((hkept cfg.autoScaleDpi 0).mp (hrange cfg.autoScaleDpi 0))
  · intro hdvd min max
    exact (hkept min max).mpr (kept_of_dvd hbase hdpi hfixed hdvd min max)

def withAutoScaleDpi (dpi : Int) : Cfg := { cfgInit with autoScaleDpi := dpi }

omit [Platform] in
theorem autoScaleRange_ninetySix : let _ : Platform := plainPlatform
    AutoScaleRange (withAutoScaleDpi 96) (displayOf 1800 900 508 254) 4 (-1) := by
  intro _
  have hrange := (@autoScaleRange_iff _ (withAutoScaleDpi 96) (by decide) (by decide)
    (fixedRounds_plain Nonneg)).2.mpr (by decide)
  refine hrange 4 (-1) (displayOf 1800 900 508 254) ?_
  decide +kernel

omit [Platform] in
/-- A minimum of 4 clamps to 384 DPI on a basis of 100, which is 3.875. On the least basis the
lowest bound is rounded down to nothing. -/
theorem remainder_belowMinimum : let _ : Platform := plainPlatform
    desiredDpi (displayOf 1800 900 508 254) = 90 ∧
      headAutoScale (withAutoScaleDpi 100) (displayOf 1800 900 508 254) 4 (-1) = 992 ∧
      ¬ AutoScaleRange (withAutoScaleDpi 100) (displayOf 1800 900 508 254) 4 (-1) ∧
      headAutoScale { withAutoScaleDpi 9 with scaleRoundStrategy := some .down }
        (displayOf 1 1 254 254) (1 / 8) (-1) = 0 := by
  intro _
  have hscale : headAutoScale (withAutoScaleDpi 100) (displayOf 1800 900 508 254) 4 (-1) = 992 := by
    decide +kernel
  refine ⟨by decide +kernel, hscale, ?_, by decide +kernel⟩
  intro hrange
  have hminimum := hrange.minimum
  rw [hscale] at hminimum
  norm_num at hminimum

end WayDisplays.Scale.Auto
