/- Rounding to an integer and to the multiples of a step: down, up or to the nearest. -/

import Mathlib.Algebra.Order.Round
import Mathlib.Data.Int.ConditionallyCompleteOrder
import Mathlib.Data.Rat.Floor
import Mathlib.Order.Bounds.Basic
import Mathlib.Tactic.FieldSimp
import Mathlib.Tactic.Linarith
import Mathlib.Tactic.Positivity

set_option autoImplicit false
set_option relaxedAutoImplicit false

namespace WayDisplays.Lib.Quantise

/-! ### To an integer -/

/-- A choice of integers that keeps the order, and the integers themselves. -/
structure IsRounding (f : ℚ → ℤ) : Prop where
  mono : Monotone f
  int : ∀ n : ℤ, f n = n

theorem isRounding_floor : IsRounding Int.floor where
  mono _ _ h := Int.floor_mono h
  int n := Int.floor_intCast n

theorem isRounding_ceil : IsRounding Int.ceil where
  mono _ _ h := Int.ceil_mono h
  int n := Int.ceil_intCast n

/-- An integer nearer than one half is the only one within one half. -/
theorem eq_of_close {q : ℚ} {m n : ℤ} (hm : |q - m| ≤ 1 / 2) (hn : |q - n| < 1 / 2) : m = n := by
  have hclose : |(m : ℚ) - n| < 1 := by
    calc |(m : ℚ) - n| = |(q - n) - (q - m)| := by ring_nf
      _ ≤ |q - n| + |q - m| := abs_sub _ _
      _ < 1 := by linarith
  have hint : |m - n| < 1 := by exact_mod_cast hclose
  have hzero := Int.abs_lt_one_iff.mp hint
  omega

/-- The nearest integer, halves away from zero. -/
def nearestAway (q : ℚ) : ℤ := if 0 ≤ q then ⌊q + 1 / 2⌋ else ⌈q - 1 / 2⌉

theorem nearestAway_of_nonneg {q : ℚ} (h : 0 ≤ q) : nearestAway q = round q := by
  rw [nearestAway, if_pos h, round_eq]

theorem nearestAway_nonneg {q : ℚ} (h : 0 ≤ q) : 0 ≤ nearestAway q := by
  rw [nearestAway, if_pos h]
  exact Int.floor_nonneg.mpr (by linarith)

theorem nearestAway_neg (q : ℚ) : nearestAway (-q) = -nearestAway q := by
  have hflip (x : ℚ) : ⌈-x - 1 / 2⌉ = -⌊x + 1 / 2⌋ := by
    rw [← Int.ceil_neg]
    congr 1
    ring
  rcases lt_trichotomy q 0 with hq | rfl | hq
  · rw [nearestAway, nearestAway, if_pos (by linarith), if_neg (by linarith)]
    have := hflip (-q)
    rw [neg_neg] at this
    omega
  · rw [neg_zero, nearestAway_of_nonneg le_rfl, round_zero, neg_zero]
  · rw [nearestAway, nearestAway, if_neg (by linarith), if_pos hq.le, hflip]

private theorem forall_of_nonneg {P : ℚ → Prop} (hpos : ∀ q, 0 ≤ q → P q)
    (hneg : ∀ q, P q → P (-q)) (q : ℚ) : P q := by
  rcases le_total 0 q with hq | hq
  · exact hpos q hq
  · have := hneg (-q) (hpos (-q) (by linarith))
    rwa [neg_neg] at this

theorem nearestAway_closest (q : ℚ) : ∀ n : ℤ, |q - nearestAway q| ≤ |q - n| := by
  refine forall_of_nonneg (P := fun q => ∀ n : ℤ, |q - nearestAway q| ≤ |q - n|) ?_ ?_ q
  · intro q hq n
    rw [nearestAway_of_nonneg hq]
    exact round_le q n
  · intro q h n
    have hn := h (-n)
    push_cast at hn
    rw [nearestAway_neg, ← abs_neg, ← abs_neg (-q - (n : ℚ))]
    push_cast
    convert hn using 2 <;> ring

theorem nearestAway_error (q : ℚ) : |q - nearestAway q| ≤ 1 / 2 :=
  (nearestAway_closest q (round q)).trans (abs_sub_round q)

theorem nearestAway_eq_of_close {q : ℚ} {n : ℤ} (h : |q - n| < 1 / 2) : nearestAway q = n :=
  eq_of_close (nearestAway_error q) h

/-- Of two nearest integers it is the one further from zero. -/
theorem nearestAway_away (q : ℚ) :
    ∀ n : ℤ, |q - n| = |q - nearestAway q| → |n| ≤ |nearestAway q| := by
  refine forall_of_nonneg
    (P := fun q => ∀ n : ℤ, |q - n| = |q - nearestAway q| → |n| ≤ |nearestAway q|) ?_ ?_ q
  · intro q hq n htie
    have hnonneg := nearestAway_nonneg hq
    have hlt : q < nearestAway q + 1 / 2 := by
      rw [nearestAway, if_pos hq]
      have := Int.lt_floor_add_one (q + 1 / 2)
      linarith
    have hclose := abs_le.mp (htie.trans_le (nearestAway_error q))
    have hlower : (-1 : ℚ) < n := by linarith
    have hlower : (-1 : ℤ) < n := by exact_mod_cast hlower
    have hupper : n ≤ nearestAway q := by
      -- an integer above is further away than one half
      by_contra hcon
      have hge : ((nearestAway q + 1 : ℤ) : ℚ) ≤ n := by exact_mod_cast not_le.mp hcon
      push_cast at hge
      linarith
    rwa [abs_of_nonneg (by omega), abs_of_nonneg hnonneg]
  · intro q h n htie
    have hn := h (-n)
    rw [nearestAway_neg] at htie ⊢
    rw [abs_neg] at hn ⊢
    apply hn
    push_cast at htie ⊢
    rw [← abs_neg, ← abs_neg (q - (nearestAway q : ℚ))]
    convert htie using 2 <;> ring

theorem isRounding_nearestAway : IsRounding nearestAway where
  int n := nearestAway_eq_of_close (by norm_num)
  mono p q h := by
    by_cases hp : 0 ≤ p
    · rw [nearestAway, nearestAway, if_pos hp, if_pos (hp.trans h)]
      exact Int.floor_mono (by linarith)
    · by_cases hq : 0 ≤ q
      · have hneg : nearestAway p ≤ 0 := by
          rw [nearestAway, if_neg hp, Int.ceil_le]
          push_cast
          linarith
        exact hneg.trans (nearestAway_nonneg hq)
      · rw [nearestAway, nearestAway, if_neg hp, if_neg hq]
        exact Int.ceil_mono (by linarith)

namespace IsRounding

variable {f : ℚ → ℤ} (h : IsRounding f)

include h

theorem floor_le (q : ℚ) : ⌊q⌋ ≤ f q :=
  (h.int ⌊q⌋).symm.trans_le (h.mono (Int.floor_le q))

theorem le_ceil (q : ℚ) : f q ≤ ⌈q⌉ :=
  (h.mono (Int.le_ceil q)).trans_eq (h.int ⌈q⌉)

theorem nonneg {q : ℚ} (hq : 0 ≤ q) : 0 ≤ f q :=
  (Int.floor_nonneg.mpr hq).trans (h.floor_le q)

end IsRounding

/-! ### To a range -/

section Clamp

variable {α β : Type} [LinearOrder α] [LinearOrder β]

/-- From below, and where the range is not empty also from above. -/
def clampTo (lowest highest v : α) : α :=
  if lowest ≤ highest then min highest (max lowest v) else max lowest v

theorem lowest_le_clampTo (lowest highest v : α) : lowest ≤ clampTo lowest highest v := by
  rw [clampTo]
  split
  · rename_i h
    exact le_min h (le_max_left lowest v)
  · exact le_max_left lowest v

theorem clampTo_of_le {lowest highest v : α} (h : v ≤ lowest) :
    clampTo lowest highest v = lowest := by
  rw [clampTo, max_eq_left h]
  split
  · rename_i hrange
    exact min_eq_right hrange
  · rfl

theorem clampTo_of_ge {lowest highest v : α} (hrange : lowest ≤ highest) (h : highest ≤ v) :
    clampTo lowest highest v = highest := by
  rw [clampTo, if_pos hrange]
  exact min_eq_left (h.trans (le_max_right lowest v))

/-- A monotone function clamps to the images of bounds that it keeps apart. -/
theorem map_clampTo {f : α → β} {s : Set α} (hf : MonotoneOn f s) {lowest highest v : α}
    (hlowest : lowest ∈ s) (hv : v ∈ s) (hhighest : lowest ≤ highest → highest ∈ s)
    (hbounds : f lowest ≤ f highest ↔ lowest ≤ highest) :
    f (clampTo lowest highest v) = clampTo (f lowest) (f highest) (f v) := by
  have hmax : max lowest v ∈ s := by
    rcases max_choice lowest v with h | h
    · rwa [h]
    · rwa [h]
  rw [clampTo, clampTo]
  by_cases h : lowest ≤ highest
  · rw [if_pos h, if_pos (hbounds.mpr h), hf.map_min (hhighest h) hmax, hf.map_max hlowest hv]
  · rw [if_neg h, if_neg (mt hbounds.mp h), hf.map_max hlowest hv]

end Clamp

/-! ### To a multiple -/

/-- The multiple of `d` that a rounding of the quotient chooses. -/
def quantise (f : ℚ → ℤ) (d q : ℤ) : ℤ := f ((q : ℚ) / d) * d

/-- A multiple of `d` as near to `q` as any, and the one further from zero of two. -/
structure NearestMultiple (d q v : ℤ) : Prop where
  dvd : d ∣ v
  closest : ∀ m, d ∣ m → |q - v| ≤ |q - m|
  away : ∀ m, d ∣ m → |q - m| = |q - v| → |m| ≤ |v|

theorem dvd_quantise (f : ℚ → ℤ) (d q : ℤ) : d ∣ quantise f d q := Dvd.intro_left _ rfl

section Step

variable {d : ℤ} (hd : 0 < d)

include hd

private theorem cast_pos : (0 : ℚ) < d := by exact_mod_cast hd

theorem quantise_mono {f : ℚ → ℤ} (hf : IsRounding f) : Monotone (quantise f d) := by
  intro p q h
  have hdiv : (p : ℚ) / d ≤ q / d :=
    div_le_div_of_nonneg_right (by exact_mod_cast h) (cast_pos hd).le
  exact Int.mul_le_mul_of_nonneg_right (hf.mono hdiv) hd.le

theorem quantise_of_dvd {f : ℚ → ℤ} (hf : IsRounding f) {q : ℤ} (h : d ∣ q) :
    quantise f d q = q := by
  obtain ⟨k, rfl⟩ := h
  have hdiv : ((d * k : ℤ) : ℚ) / d = k := by
    push_cast
    exact mul_div_cancel_left₀ (k : ℚ) (cast_pos hd).ne'
  rw [quantise, hdiv, hf.int, mul_comm]

theorem quantise_nonneg {f : ℚ → ℤ} (hf : IsRounding f) {q : ℤ} (h : 0 ≤ q) :
    0 ≤ quantise f d q :=
  (quantise_of_dvd hd hf (dvd_zero d)).symm.trans_le (quantise_mono hd hf h)

theorem quantise_floor_isGreatest (q : ℤ) :
    IsGreatest {m | d ∣ m ∧ m ≤ q} (quantise Int.floor d q) := by
  refine ⟨⟨dvd_quantise _ d q, ?_⟩, ?_⟩
  · have h := (le_div_iff₀ (cast_pos hd)).mp (Int.floor_le ((q : ℚ) / d))
    rw [quantise]
    exact_mod_cast h
  · rintro m ⟨hdvd, hle⟩
    rw [← quantise_of_dvd hd isRounding_floor hdvd]
    exact quantise_mono hd isRounding_floor hle

theorem quantise_ceil_isLeast (q : ℤ) :
    IsLeast {m | d ∣ m ∧ q ≤ m} (quantise Int.ceil d q) := by
  refine ⟨⟨dvd_quantise _ d q, ?_⟩, ?_⟩
  · have h := (div_le_iff₀ (cast_pos hd)).mp (Int.le_ceil ((q : ℚ) / d))
    rw [quantise]
    exact_mod_cast h
  · rintro m ⟨hdvd, hle⟩
    rw [← quantise_of_dvd hd isRounding_ceil hdvd]
    exact quantise_mono hd isRounding_ceil hle

private theorem abs_sub_mul (q k : ℤ) : ((|q - k * d| : ℤ) : ℚ) = |(q : ℚ) / d - k| * d := by
  have hd' := cast_pos hd
  have hscale : ((q - k * d : ℤ) : ℚ) = ((q : ℚ) / d - k) * d := by
    push_cast
    rw [sub_mul, div_mul_cancel₀ _ hd'.ne']
  rw [Int.cast_abs, hscale, abs_mul, abs_of_pos hd']

theorem quantise_nearestAway (q : ℤ) : NearestMultiple d q (quantise nearestAway d q) where
  dvd := dvd_quantise _ d q
  closest := by
    rintro m ⟨k, rfl⟩
    have h := mul_le_mul_of_nonneg_right (nearestAway_closest ((q : ℚ) / d) k) (cast_pos hd).le
    rw [← abs_sub_mul hd, ← abs_sub_mul hd] at h
    rw [quantise, mul_comm d k]
    exact_mod_cast h
  away := by
    rintro m ⟨k, rfl⟩ htie
    have hquot : |(q : ℚ) / d - k| = |(q : ℚ) / d - nearestAway ((q : ℚ) / d)| := by
      apply mul_right_cancel₀ (cast_pos hd).ne'
      rw [← abs_sub_mul hd, ← abs_sub_mul hd, mul_comm k d]
      exact congrArg Int.cast htie
    rw [quantise, mul_comm d k, abs_mul, abs_mul]
    exact Int.mul_le_mul_of_nonneg_right (nearestAway_away _ k hquot) (abs_nonneg d)

/-! The multiples that are reached. -/

theorem le_quantise_iff (f : ℚ → ℤ) (k q : ℤ) : k * d ≤ quantise f d q ↔ k ≤ f ((q : ℚ) / d) :=
  Int.mul_le_mul_right hd

theorem quantise_pos_iff (f : ℚ → ℤ) (q : ℤ) : 0 < quantise f d q ↔ 1 * d ≤ quantise f d q := by
  rw [le_quantise_iff hd]
  exact mul_pos_iff_of_pos_right hd

theorem le_quantise_floor {k q : ℤ} : k * d ≤ quantise Int.floor d q ↔ k * d ≤ q := by
  rw [le_quantise_iff hd, Int.le_floor, le_div_iff₀ (cast_pos hd)]
  exact_mod_cast Iff.rfl

theorem le_quantise_ceil {k q : ℤ} : k * d ≤ quantise Int.ceil d q ↔ (k - 1) * d < q := by
  rw [le_quantise_iff hd, ← Int.sub_one_lt_iff, Int.lt_ceil, lt_div_iff₀ (cast_pos hd)]
  exact_mod_cast Iff.rfl

theorem le_quantise_nearestAway {k q : ℤ} (hk : 0 < k) :
    k * d ≤ quantise nearestAway d q ↔ (2 * k - 1) * d ≤ 2 * q := by
  have hd' := cast_pos hd
  have hk' : (1 : ℚ) ≤ k := by exact_mod_cast hk
  have hhalf : (k : ℚ) - 1 / 2 ≤ q / d ↔ (2 * k - 1) * d ≤ 2 * q := by
    have hscale : ((k : ℚ) - 1 / 2) * d ≤ q ↔ (2 * k - 1) * (d : ℚ) ≤ 2 * q := by
      constructor <;> intro h <;> linarith
    rw [le_div_iff₀ hd', hscale]
    exact_mod_cast Iff.rfl
  rw [le_quantise_iff hd, ← hhalf]
  by_cases hq : 0 ≤ (q : ℚ) / d
  · rw [nearestAway, if_pos hq, Int.le_floor]
    constructor <;> intro h <;> linarith
  · have hneg : nearestAway ((q : ℚ) / d) ≤ 0 := by
      rw [nearestAway, if_neg hq, Int.ceil_le]
      push_cast
      linarith
    constructor
    · intro h
      omega
    · intro h
      linarith

end Step

end WayDisplays.Lib.Quantise
