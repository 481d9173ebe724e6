/- What the quantisation of scales does with a scale, for every rounding base and strategy. -/

import WayDisplays.Lib.Quantise
import WayDisplays.Model.Head

set_option autoImplicit false
set_option relaxedAutoImplicit false

namespace WayDisplays.Scale.Fixed

open Lib.Quantise
open Model

/-- The fixed point of the Wayland headers on a range of scales: it keeps the order, and the
multiples of 1/256. -/
structure FixedRounds [Platform] (range : Set ℚ) : Prop where
  mono : MonotoneOn Platform.wlFixedFromDouble range
  exact : ∀ n : Int, (n : ℚ) / 256 ∈ range → Platform.wlFixedFromDouble (n / 256) = n

theorem FixedRounds.nonneg [Platform] {range : Set ℚ} (h : FixedRounds range) (hzero : 0 ∈ range)
    {scale : ℚ} (hscale : scale ∈ range) (hle : 0 ≤ scale) :
    0 ≤ Platform.wlFixedFromDouble scale := by
  have hexact := h.exact 0 (by simpa using hzero)
  rw [Int.cast_zero, zero_div] at hexact
  exact hexact.symm.trans_le (h.mono hzero hscale hle)

/-! ### The grid -/

/-- The rounding bases that divide the denominator of a fixed point number. -/
def ScaleRoundTo (cfg : Cfg) : Prop := cfg.scalingBase ∈ [1, 2, 4, 8]

instance (cfg : Cfg) : Decidable (ScaleRoundTo cfg) :=
  inferInstanceAs (Decidable (cfg.scalingBase ∈ [1, 2, 4, 8]))

/-- The distance of neighbouring scales, in 256ths. -/
def gridStep (cfg : Cfg) : Int := 256 / cfg.scalingBase

/-- The function that the strategy selects. -/
def roundFn (cfg : Cfg) : ℚ → Int :=
  match cfg.scaleRoundStrategy with
  | some .down => Int.floor
  | some .up => Int.ceil
  | _ => nearestAway

theorem roundFn_down {cfg : Cfg} (h : cfg.scaleRoundStrategy = some .down) :
    roundFn cfg = Int.floor := by
  rw [roundFn, h]

theorem roundFn_up {cfg : Cfg} (h : cfg.scaleRoundStrategy = some .up) :
    roundFn cfg = Int.ceil := by
  rw [roundFn, h]

theorem roundFn_nearest {cfg : Cfg} (hdown : cfg.scaleRoundStrategy ≠ some .down)
    (hup : cfg.scaleRoundStrategy ≠ some .up) : roundFn cfg = nearestAway := by
  unfold roundFn
  split
  · contradiction
  · contradiction
  · rfl

theorem isRounding_roundFn (cfg : Cfg) : IsRounding (roundFn cfg) := by
  by_cases hdown : cfg.scaleRoundStrategy = some .down
  · rw [roundFn_down hdown]
    exact isRounding_floor
  · by_cases hup : cfg.scaleRoundStrategy = some .up
    · rw [roundFn_up hup]
      exact isRounding_ceil
    · rw [roundFn_nearest hdown hup]
      exact isRounding_nearestAway

section Grid

variable {cfg : Cfg} (h : ScaleRoundTo cfg)

include h

theorem scalingBase_pos : 0 < cfg.scalingBase := by
  simp only [ScaleRoundTo, List.mem_cons, List.not_mem_nil, or_false] at h
  omega

theorem scalingBase_cast_pos : (0 : ℚ) < cfg.scalingBase := by
  exact_mod_cast scalingBase_pos h

theorem gridStep_mul : gridStep cfg * cfg.scalingBase = 256 := by
  simp only [ScaleRoundTo, List.mem_cons, List.not_mem_nil, or_false] at h
  rw [gridStep]
  rcases h with h | h | h | h
  all_goals
    rw [h]
    rfl

theorem gridStep_pos : 0 < gridStep cfg := by
  have hmul := gridStep_mul h
  exact Int.pos_of_mul_pos_left (by omega) (scalingBase_pos h)

theorem gridStep_cast_pos : (0 : ℚ) < gridStep cfg := by exact_mod_cast gridStep_pos h

theorem gridStep_cast_mul : (gridStep cfg : ℚ) * cfg.scalingBase = 256 := by
  exact_mod_cast gridStep_mul h

end Grid

/-! ### Quantisation -/

variable [Platform]

private theorem headGetFixedScale_roundFn (cfg : Cfg) (scale : ℚ) :
    headGetFixedScale cfg scale =
      truncate ((roundFn cfg ((Platform.wlFixedFromDouble scale : ℚ) / 256 * cfg.scalingBase) : ℚ) *
        (256 / cfg.scalingBase)) := by
  rw [headGetFixedScale, roundFn]
  cases cfg.scaleRoundStrategy with
  | none => rfl
  | some strategy =>
    cases strategy with
    | nearest => rfl
    | up => rfl
    | down => rfl

/-- By way of the rounding base, a fixed point number is rounded to the grid. -/
theorem headGetFixedScale_eq {cfg : Cfg} (h : ScaleRoundTo cfg) (scale : ℚ) :
    headGetFixedScale cfg scale =
      quantise (roundFn cfg) (gridStep cfg) (Platform.wlFixedFromDouble scale) := by
  have hstep := (gridStep_cast_pos h).ne'
  have hbase : (cfg.scalingBase : ℚ) = 256 / gridStep cfg := by
    rw [eq_div_iff hstep]
    linarith [gridStep_cast_mul h]
  have hquot : (Platform.wlFixedFromDouble scale : ℚ) / 256 * cfg.scalingBase =
      Platform.wlFixedFromDouble scale / gridStep cfg := by
    rw [hbase]
    field_simp
  have hback (n : Int) : truncate ((n : ℚ) * (256 / cfg.scalingBase)) = n * gridStep cfg := by
    have hcast : (n : ℚ) * (256 / cfg.scalingBase) = (n * gridStep cfg : Int) := by
      rw [hbase]
      push_cast
      field_simp
    rw [hcast, truncate, Int.floor_intCast, Int.ceil_intCast, ite_self]
  rw [headGetFixedScale_roundFn, hback, hquot, quantise]

theorem gridStep_dvd_headGetFixedScale {cfg : Cfg} (h : ScaleRoundTo cfg) (scale : ℚ) :
    gridStep cfg ∣ headGetFixedScale cfg scale := by
  rw [headGetFixedScale_eq h]
  exact dvd_quantise _ _ _

theorem headGetFixedScale_nonneg {cfg : Cfg} (h : ScaleRoundTo cfg) {scale : ℚ}
    (hscale : 0 ≤ Platform.wlFixedFromDouble scale) : 0 ≤ headGetFixedScale cfg scale := by
  rw [headGetFixedScale_eq h]
  exact quantise_nonneg (gridStep_pos h) (isRounding_roundFn cfg) hscale

theorem headGetFixedScale_mono {cfg : Cfg} (h : ScaleRoundTo cfg) {range : Set ℚ}
    (hfixed : FixedRounds range) : MonotoneOn (headGetFixedScale cfg) range := by
  intro s hs t ht hst
  rw [headGetFixedScale_eq h, headGetFixedScale_eq h]
  exact quantise_mono (gridStep_pos h) (isRounding_roundFn cfg) (hfixed.mono hs ht hst)

/-- A scale on the grid stays where it is. -/
theorem headGetFixedScale_of_dvd {cfg : Cfg} (h : ScaleRoundTo cfg) {range : Set ℚ}
    (hfixed : FixedRounds range) {n : Int} (hn : (n : ℚ) / 256 ∈ range) (hdvd : gridStep cfg ∣ n) :
    headGetFixedScale cfg (n / 256) = n := by
  rw [headGetFixedScale_eq h, hfixed.exact n hn]
  exact quantise_of_dvd (gridStep_pos h) (isRounding_roundFn cfg) hdvd

/-- Whether a fixed point number is rounded to at least `k` steps of the rounding base. -/
def Reaches (cfg : Cfg) (k q : Int) : Prop :=
  match cfg.scaleRoundStrategy with
  | some .down => k * (256 / cfg.scalingBase) ≤ q
  | some .up => (k - 1) * (256 / cfg.scalingBase) < q
  | _ => (2 * k - 1) * (256 / cfg.scalingBase) ≤ 2 * q

theorem reaches_iff {cfg : Cfg} (h : ScaleRoundTo cfg) {k : Int} (hk : 0 < k) (scale : ℚ) :
    Reaches cfg k (Platform.wlFixedFromDouble scale) ↔
      k * gridStep cfg ≤ headGetFixedScale cfg scale := by
  have hstep := gridStep_pos h
  rw [headGetFixedScale_eq h, Reaches, roundFn]
  split
  · exact (le_quantise_floor hstep).symm
  · exact (le_quantise_ceil hstep).symm
  · exact (le_quantise_nearestAway hstep hk).symm

theorem headGetFixedScale_pos_iff {cfg : Cfg} (h : ScaleRoundTo cfg) (scale : ℚ) :
    0 < headGetFixedScale cfg scale ↔ Reaches cfg 1 (Platform.wlFixedFromDouble scale) := by
  rw [reaches_iff h Int.zero_lt_one, headGetFixedScale_eq h]
  exact quantise_pos_iff (gridStep_pos h) _ _

/-! ### Every scale that fits -/

/-- The scales whose fixed point numbers, and those they are rounded up to, fit 32 bits. -/
def scaleRange : Set ℚ := Set.Icc 0 (2 ^ 22)

/-- The place of the quantised `v` of a fixed point number `q`, as the strategy says. -/
structure Quantised (cfg : Cfg) (q v : Int) : Prop where
  multiple : 256 / cfg.scalingBase ∣ v
  down : cfg.scaleRoundStrategy = some .down →
    IsGreatest {m | 256 / cfg.scalingBase ∣ m ∧ m ≤ q} v
  up : cfg.scaleRoundStrategy = some .up → IsLeast {m | 256 / cfg.scalingBase ∣ m ∧ q ≤ m} v
  nearest : cfg.scaleRoundStrategy ≠ some .down → cfg.scaleRoundStrategy ≠ some .up →
    NearestMultiple (256 / cfg.scalingBase) q v

omit [Platform] in
theorem quantised_quantise {cfg : Cfg} (h : ScaleRoundTo cfg) (q : Int) :
    Quantised cfg q (quantise (roundFn cfg) (gridStep cfg) q) where
  multiple := dvd_quantise _ _ q
  down hdown := by
    rw [roundFn_down hdown]
    exact quantise_floor_isGreatest (gridStep_pos h) q
  up hup := by
    rw [roundFn_up hup]
    exact quantise_ceil_isLeast (gridStep_pos h) q
  nearest hdown hup := by
    rw [roundFn_nearest hdown hup]
    exact quantise_nearestAway (gridStep_pos h) q

theorem FixedRounds.between (hfixed : FixedRounds scaleRange) {scale : ℚ}
    (hscale : scale ∈ scaleRange) :
    ⌊scale * 256⌋ ≤ Platform.wlFixedFromDouble scale ∧
      Platform.wlFixedFromDouble scale ≤ ⌈scale * 256⌉ := by
  obtain ⟨hlo, hhi⟩ := hscale
  have hfloor : ((⌊scale * 256⌋ : Int) : ℚ) ≤ scale * 256 := Int.floor_le _
  have hceil : scale * 256 ≤ (⌈scale * 256⌉ : Int) := Int.le_ceil _
  have hfloor_nonneg : (0 : ℚ) ≤ (⌊scale * 256⌋ : Int) := by
    exact_mod_cast Int.floor_nonneg.mpr (by linarith)
  have hceil_le : ((⌈scale * 256⌉ : Int) : ℚ) ≤ 2 ^ 30 := by
    have : ⌈scale * 256⌉ ≤ 2 ^ 30 := Int.ceil_le.mpr (by push_cast; linarith)
    exact_mod_cast this
  have hbelow : ((⌊scale * 256⌋ : Int) : ℚ) / 256 ∈ scaleRange :=
    ⟨by linarith, by linarith⟩
  have habove : ((⌈scale * 256⌉ : Int) : ℚ) / 256 ∈ scaleRange :=
    ⟨by linarith, by linarith⟩
  constructor
  · rw [← hfixed.exact _ hbelow]
    exact hfixed.mono hbelow ⟨hlo, hhi⟩ (by linarith)
  · rw [← hfixed.exact _ habove]
    exact hfixed.mono ⟨hlo, hhi⟩ habove (by linarith)

theorem headGetFixedScale_fits {cfg : Cfg} (h : ScaleRoundTo cfg)
    (hfixed : FixedRounds scaleRange) {scale : ℚ} (hscale : scale ∈ scaleRange) :
    0 ≤ headGetFixedScale cfg scale ∧ headGetFixedScale cfg scale ≤ 2 ^ 30 := by
  have hlowest : (0 : ℚ) ∈ scaleRange := ⟨le_rfl, by norm_num⟩
  have hhighest : ((2 ^ 30 : Int) : ℚ) / 256 ∈ scaleRange := ⟨by norm_num, by norm_num⟩
  have hdvd : gridStep cfg ∣ 2 ^ 30 := Dvd.intro (cfg.scalingBase * 2 ^ 22) (by
    have := gridStep_mul h
    rw [← mul_assoc, this]
    norm_num)
  constructor
  · exact headGetFixedScale_nonneg h (hfixed.nonneg hlowest hscale hscale.1)
  · rw [← headGetFixedScale_of_dvd h hfixed hhighest hdvd]
    refine headGetFixedScale_mono h hfixed hscale hhighest (hscale.2.trans ?_)
    norm_num

/-- What the quantisation of scales below `2 ^ 22` promises. -/
structure Quantisation (cfg : Cfg) : Prop where
  quantised : ∀ scale : ℚ, 0 ≤ scale → scale < 2 ^ 22 →
    Quantised cfg (Platform.wlFixedFromDouble scale) (headGetFixedScale cfg scale)
  fixed : ∀ scale : ℚ, 0 ≤ scale → scale < 2 ^ 22 →
    ⌊scale * 256⌋ ≤ Platform.wlFixedFromDouble scale ∧
      Platform.wlFixedFromDouble scale ≤ ⌈scale * 256⌉
  fits : ∀ scale : ℚ, 0 ≤ scale → scale < 2 ^ 22 →
    0 ≤ headGetFixedScale cfg scale ∧ headGetFixedScale cfg scale < 2 ^ 31
  mono : ∀ s t : ℚ, 0 ≤ s → s ≤ t → t < 2 ^ 22 → headGetFixedScale cfg s ≤ headGetFixedScale cfg t
  idempotent : ∀ scale : ℚ, 0 ≤ scale → scale < 2 ^ 22 →
    headGetFixedScale cfg (headGetFixedScale cfg scale / 256) = headGetFixedScale cfg scale

/-- For every rounding base and strategy. -/
theorem headGetFixedScale_quantisation {cfg : Cfg} (hbase : cfg.scalingBase ∈ [1, 2, 4, 8])
    (hfixed : FixedRounds scaleRange) : Quantisation cfg where
  quantised scale _ _ := by
    rw [headGetFixedScale_eq hbase]
    exact quantised_quantise hbase _
  fixed scale hlo hhi := hfixed.between ⟨hlo, hhi.le⟩
  fits scale hlo hhi := by
    have := headGetFixedScale_fits hbase hfixed ⟨hlo, hhi.le⟩
    omega
  mono s t hs hst ht :=
    headGetFixedScale_mono hbase hfixed ⟨hs, (hst.trans_lt ht).le⟩ ⟨hs.trans hst, ht.le⟩ hst
  idempotent scale hlo hhi := by
    obtain ⟨hnonneg, hle⟩ := headGetFixedScale_fits hbase hfixed ⟨hlo, hhi.le⟩
    have hnonneg : (0 : ℚ) ≤ headGetFixedScale cfg scale := by exact_mod_cast hnonneg
    have hle : (headGetFixedScale cfg scale : ℚ) ≤ 2 ^ 30 := by exact_mod_cast hle
    have hrange : (headGetFixedScale cfg scale : ℚ) / 256 ∈ scaleRange :=
      ⟨by linarith, by linarith⟩
    exact headGetFixedScale_of_dvd hbase hfixed hrange
      (gridStep_dvd_headGetFixedScale hbase scale)

omit [Platform] in
/-- Rounding to the nearest multiple of 1/256 is a fixed point of every range. -/
theorem fixedRounds_plain (range : Set ℚ) : let _ : Platform := plainPlatform
    FixedRounds range := by
  intro _
  refine { mono := ?_, exact := ?_ }
  · intro s _ t _ hst
    have hscaled : s * 256 ≤ t * 256 := by linarith
    exact isRounding_nearestAway.mono hscaled
  · intro n _
    have hcancel : (n : ℚ) / 256 * 256 = n := div_mul_cancel₀ _ (by norm_num)
    exact (congrArg nearestAway hcancel).trans (isRounding_nearestAway.int n)

omit [Platform] in
theorem headGetFixedScale_quantisation_quarters : let _ : Platform := plainPlatform
    Quantisation { cfgInit with scaleRoundTo := 4, scaleRoundStrategy := some .up } := by
  intro _
  exact headGetFixedScale_quantisation (by decide) (fixedRounds_plain scaleRange)

omit [Platform] in
example : let _ : Platform := plainPlatform
    headGetFixedScale { cfgInit with scaleRoundTo := 4, scaleRoundStrategy := some .up }
      (137 / 100) = 384 := by
  decide +kernel

end WayDisplays.Scale.Fixed
