/- Rounding of rationals to a number of significant digits, nearest first, ties to even. -/

import Mathlib.Algebra.Order.Floor.Ring
import Mathlib.Data.Int.Log
import Mathlib.Data.Rat.Floor
import Mathlib.Tactic.FieldSimp
import Mathlib.Tactic.Linarith
import Mathlib.Tactic.Positivity
import Mathlib.Tactic.Ring
import WayDisplays.Lib.Quantise

set_option autoImplicit false
set_option relaxedAutoImplicit false

namespace WayDisplays.Lib.Rounding

/-! ### To an integer -/

/-- The nearest integer, the even one of two. -/
def roundEven (q : ℚ) : ℤ :=
  if q - ⌊q⌋ < 1 / 2 then ⌊q⌋
  else if 1 / 2 < q - ⌊q⌋ then ⌊q⌋ + 1
  else if ⌊q⌋ % 2 = 0 then ⌊q⌋ else ⌊q⌋ + 1

theorem roundEven_error (q : ℚ) : |(roundEven q : ℚ) - q| ≤ 1 / 2 := by
  have hlo := Int.floor_le q
  have hhi := Int.lt_floor_add_one q
  unfold roundEven
  rw [abs_le]
  split_ifs with h₁ h₂ h₃
  · constructor <;> linarith
  · push_cast
    constructor <;> linarith
  · constructor <;> linarith
  · push_cast
    constructor <;> linarith

/-- An integer nearer than one half is the nearest. -/
theorem roundEven_eq_of_close {q : ℚ} {n : ℤ} (h : |q - n| < 1 / 2) : roundEven q = n := by
  have herr := roundEven_error q
  rw [abs_sub_comm] at herr
  exact Quantise.eq_of_close herr h

theorem roundEven_neg (q : ℚ) : roundEven (-q) = -roundEven q := by
  have hlo := Int.floor_le q
  have hhi := Int.lt_floor_add_one q
  by_cases htie : q - ⌊q⌋ = 1 / 2
  · have hfloor : ⌊-q⌋ = -⌊q⌋ - 1 := by
      rw [Int.floor_eq_iff]
      push_cast
      constructor <;> linarith
    have htie' : -q - ⌊-q⌋ = 1 / 2 := by
      rw [hfloor]
      push_cast
      linarith
    unfold roundEven
    rw [htie, htie', hfloor]
    simp only [lt_irrefl, if_false]
    split_ifs <;> omega
  · apply roundEven_eq_of_close
    have herr : |(roundEven q : ℚ) - q| < 1 / 2 := by
      unfold roundEven
      rw [abs_lt]
      split_ifs with h₁ h₂ h₃
      · constructor <;> linarith
      · push_cast
        constructor <;> linarith
      · exact absurd (le_antisymm (not_lt.mp h₂) (not_lt.mp h₁)) htie
      · exact absurd (le_antisymm (not_lt.mp h₂) (not_lt.mp h₁)) htie
    calc |-q - ((-roundEven q : ℤ) : ℚ)| = |(roundEven q : ℚ) - q| := by
          push_cast
          ring_nf
      _ < 1 / 2 := herr

/-! ### To significant digits -/

variable (b p : ℕ)

/-- The place of the last of the digits. -/
def lastPlace (q : ℚ) : ℤ := Int.log b |q| + 1 - p

def coefficient (q : ℚ) : ℤ := roundEven (q / (b : ℚ) ^ lastPlace b p q)

def significant (q : ℚ) : ℚ := coefficient b p q * (b : ℚ) ^ lastPlace b p q

variable {b p}

theorem lastPlace_neg (q : ℚ) : lastPlace b p (-q) = lastPlace b p q := by
  rw [lastPlace, abs_neg, lastPlace]

theorem significant_neg (q : ℚ) : significant b p (-q) = -significant b p q := by
  rw [significant, coefficient, lastPlace_neg, neg_div, roundEven_neg, significant, coefficient]
  push_cast
  ring

@[simp] theorem significant_zero : significant b p 0 = 0 := by
  have hzero : coefficient b p 0 = 0 := by
    rw [coefficient, zero_div]
    exact roundEven_eq_of_close (by norm_num)
  rw [significant, hzero, Int.cast_zero, zero_mul]

theorem coefficient_nonneg {q : ℚ} (hq : 0 ≤ q) : 0 ≤ coefficient b p q := by
  have herr := (abs_le.mp (roundEven_error (q / (b : ℚ) ^ lastPlace b p q))).1
  have hquot : 0 ≤ q / (b : ℚ) ^ lastPlace b p q :=
    div_nonneg hq (zpow_nonneg (Nat.cast_nonneg b) _)
  have hlt : (-1 : ℚ) < (coefficient b p q : ℚ) := by
    rw [coefficient]
    linarith
  have : (-1 : ℤ) < coefficient b p q := by exact_mod_cast hlt
  omega

theorem significant_nonneg {q : ℚ} (hq : 0 ≤ q) : 0 ≤ significant b p q := by
  have hcoeff : (0 : ℚ) ≤ coefficient b p q := by exact_mod_cast coefficient_nonneg hq
  exact mul_nonneg hcoeff (zpow_nonneg (Nat.cast_nonneg b) _)

/-- The relative error of one rounding. -/
theorem significant_error (hb : 1 < b) (q : ℚ) :
    |significant b p q - q| ≤ |q| * (b : ℚ) ^ (1 - p : ℤ) / 2 := by
  rcases eq_or_ne q 0 with rfl | hq
  · simp
  have hb0 : (0 : ℚ) < b := by exact_mod_cast (by omega : 0 < b)
  have hplace : 0 < (b : ℚ) ^ lastPlace b p q := zpow_pos hb0 _
  have hsplit : (b : ℚ) ^ lastPlace b p q = (b : ℚ) ^ Int.log b |q| * (b : ℚ) ^ (1 - p : ℤ) := by
    rw [lastPlace, add_sub_assoc, zpow_add₀ hb0.ne']
  have hle : (b : ℚ) ^ lastPlace b p q ≤ |q| * (b : ℚ) ^ (1 - p : ℤ) := by
    rw [hsplit]
    exact mul_le_mul_of_nonneg_right (Int.zpow_log_le_self hb (abs_pos.mpr hq))
      (zpow_nonneg hb0.le _)
  have herr := roundEven_error (q / (b : ℚ) ^ lastPlace b p q)
  calc |significant b p q - q|
      = |(coefficient b p q : ℚ) - q / (b : ℚ) ^ lastPlace b p q| * (b : ℚ) ^ lastPlace b p q := by
        rw [significant, ← abs_of_pos hplace, ← abs_mul, abs_of_pos hplace, sub_mul,
          div_mul_cancel₀ _ hplace.ne']
    _ ≤ 1 / 2 * (b : ℚ) ^ lastPlace b p q := mul_le_mul_of_nonneg_right herr hplace.le
    _ ≤ |q| * (b : ℚ) ^ (1 - p : ℤ) / 2 := by linarith

/-- Every number of at most `p` digits has exactly `p` once zeros are appended. -/
theorem exists_full_digits (hb : 1 < b) {n : ℕ} (hn : 0 < n) (hlt : n < b ^ p) (k : ℤ) :
    ∃ (d : ℕ) (e : ℤ), b ^ p ≤ b * d ∧ d < b ^ p ∧ (n : ℚ) * (b : ℚ) ^ k = d * (b : ℚ) ^ e := by
  have hb0 : (b : ℚ) ≠ 0 := by exact_mod_cast (by omega : b ≠ 0)
  have hlog : Nat.log b n < p := Nat.log_lt_of_lt_pow hn.ne' hlt
  have hlo : b ^ Nat.log b n ≤ n := Nat.pow_log_le_self b hn.ne'
  have hhi : n < b ^ (Nat.log b n + 1) := Nat.lt_pow_succ_log_self hb n
  obtain ⟨j, hj⟩ : ∃ j, p = Nat.log b n + 1 + j := ⟨p - (Nat.log b n + 1), by omega⟩
  refine ⟨n * b ^ j, k - j, ?_, ?_, ?_⟩
  · calc b ^ p = b * (b ^ Nat.log b n * b ^ j) := by
          conv_lhs => rw [hj]
          ring
      _ ≤ b * (n * b ^ j) := Nat.mul_le_mul_left b (Nat.mul_le_mul_right _ hlo)
  · calc n * b ^ j < b ^ (Nat.log b n + 1) * b ^ j :=
          Nat.mul_lt_mul_of_pos_right hhi (Nat.pow_pos (by omega))
      _ = b ^ p := by
          conv_rhs => rw [hj]
          exact (pow_add b _ j).symm
  · push_cast
    rw [zpow_sub₀ hb0, zpow_natCast]
    field_simp

/-- The logarithm is the place between whose powers the number lies. -/
theorem log_eq_of_between (hb : 1 < b) {x : ℚ} {e : ℤ} (hlo : (b : ℚ) ^ e ≤ x)
    (hhi : x < (b : ℚ) ^ (e + 1)) : Int.log b x = e := by
  have hb0 : (0 : ℚ) < b := by exact_mod_cast (by omega : 0 < b)
  have hx : 0 < x := lt_of_lt_of_le (zpow_pos hb0 e) hlo
  have hge : e ≤ Int.log b x := (Int.zpow_le_iff_le_log hb hx).mp hlo
  have hlt : Int.log b x < e + 1 := (Int.lt_zpow_iff_log_lt hb hx).mp hhi
  omega

private theorem significant_of_lastPlace (hb : 1 < b) {x : ℚ} {d e : ℤ}
    (hplace : lastPlace b p x = e) (h : |x - d * (b : ℚ) ^ e| < (b : ℚ) ^ e / 2) :
    significant b p x = d * (b : ℚ) ^ e := by
  have hpos : (0 : ℚ) < (b : ℚ) ^ e := zpow_pos (by exact_mod_cast (by omega : 0 < b)) e
  have hclose : |x / (b : ℚ) ^ e - d| < 1 / 2 := by
    have hdiv : x / (b : ℚ) ^ e - d = (x - d * (b : ℚ) ^ e) / (b : ℚ) ^ e := by
      rw [sub_div, mul_div_cancel_right₀ _ hpos.ne']
    rw [hdiv, abs_div, abs_of_pos hpos, div_lt_iff₀ hpos]
    linarith
  rw [significant, coefficient, hplace, roundEven_eq_of_close hclose]

section Close

variable {d : ℕ} {e : ℤ} {x δ : ℚ} (hb : 1 < b) (hfull : b ^ p ≤ b * d) (hdlt : d < b ^ p)

include hb hfull

/-- The first of exactly `p` digits is not zero. -/
theorem zpow_le_of_full : (b : ℚ) ^ (e + p - 1) ≤ d * (b : ℚ) ^ e := by
  have hb0 : (0 : ℚ) < b := by exact_mod_cast (by omega : 0 < b)
  have hcast : (b : ℚ) ^ p ≤ b * d := by exact_mod_cast hfull
  have hsplit : (b : ℚ) ^ (e + p - 1) = (b : ℚ) ^ p * (b : ℚ) ^ (e - 1) := by
    rw [← zpow_natCast, ← zpow_add₀ hb0.ne']
    congr 1
    ring
  calc (b : ℚ) ^ (e + p - 1) = (b : ℚ) ^ p * (b : ℚ) ^ (e - 1) := hsplit
    _ ≤ b * d * (b : ℚ) ^ (e - 1) := mul_le_mul_of_nonneg_right hcast (zpow_pos hb0 _).le
    _ = d * (b : ℚ) ^ e := by
      rw [zpow_sub_one₀ hb0.ne']
      field_simp

theorem one_le_of_full : 1 ≤ d := by
  by_contra hzero
  have hpow : 0 < b ^ p := Nat.pow_pos (by omega)
  have hd : d = 0 := by omega
  rw [hd, Nat.mul_zero] at hfull
  omega

include hdlt

omit hfull in
theorem error_lt_half (hδ0 : 0 ≤ δ) (hδ : δ * (b : ℚ) ^ p < 1 / 2) :
    d * (b : ℚ) ^ e * δ < (b : ℚ) ^ e / 2 := by
  have he : (0 : ℚ) < (b : ℚ) ^ e := zpow_pos (by exact_mod_cast (by omega : 0 < b)) e
  have hd : (d : ℚ) ≤ (b : ℚ) ^ p := by exact_mod_cast hdlt.le
  have hdδ : d * δ < 1 / 2 :=
    calc d * δ ≤ (b : ℚ) ^ p * δ := mul_le_mul_of_nonneg_right hd hδ0
      _ = δ * (b : ℚ) ^ p := mul_comm _ _
      _ < 1 / 2 := hδ
  calc d * (b : ℚ) ^ e * δ = d * δ * (b : ℚ) ^ e := by ring
    _ < 1 / 2 * (b : ℚ) ^ e := mul_lt_mul_of_pos_right hdδ he
    _ = (b : ℚ) ^ e / 2 := by ring

omit hfull in
/-- The same place: the error is below one half of it. -/
private theorem significant_of_same (hxpos : 0 < x) (hx : |x - d * (b : ℚ) ^ e| < (b : ℚ) ^ e / 2)
    (hbelow : (b : ℚ) ^ (e + p - 1) ≤ x) : significant b p x = d * (b : ℚ) ^ e := by
  have hb0 : (0 : ℚ) < b := by exact_mod_cast (by omega : 0 < b)
  have he : (0 : ℚ) < (b : ℚ) ^ e := zpow_pos hb0 e
  have hdlt' : (d : ℚ) + 1 ≤ (b : ℚ) ^ p := by exact_mod_cast hdlt
  have hxhi := (abs_lt.mp hx).2
  have hplace : lastPlace b p x = e := by
    have hlog : Int.log b x = e + p - 1 := by
      refine log_eq_of_between hb hbelow ?_
      have hnext : (d + 1) * (b : ℚ) ^ e ≤ (b : ℚ) ^ p * (b : ℚ) ^ e :=
        mul_le_mul_of_nonneg_right hdlt' he.le
      rw [sub_add_cancel, zpow_add₀ hb0.ne', zpow_natCast, mul_comm]
      linarith
    rw [lastPlace, abs_of_pos hxpos, hlog]
    ring
  have h := significant_of_lastPlace (d := d) hb hplace (by exact_mod_cast hx)
  exact_mod_cast h

/-- Just below a power of the base: one place more, and the number is that power. -/
private theorem significant_of_below (hxpos : 0 < x) (hδ0 : 0 ≤ δ) (hδ : δ * (b : ℚ) ^ p < 1 / 2)
    (hx : |x - d * (b : ℚ) ^ e| ≤ d * (b : ℚ) ^ e * δ) (hlt : x < (b : ℚ) ^ (e + p - 1)) :
    significant b p x = d * (b : ℚ) ^ e := by
  have hb0 : (0 : ℚ) < b := by exact_mod_cast (by omega : 0 < b)
  have hb2 : (2 : ℚ) ≤ b := by exact_mod_cast hb
  have he : (0 : ℚ) < (b : ℚ) ^ e := zpow_pos hb0 e
  have hd : (1 : ℚ) ≤ d := by exact_mod_cast one_le_of_full hb hfull
  have hde : (b : ℚ) ^ e ≤ d * (b : ℚ) ^ e := le_mul_of_one_le_left he.le hd
  have hxlo := (abs_le.mp hx).1
  have herr := error_lt_half (e := e) hb hdlt hδ0 hδ
  have hlower : (b : ℚ) ^ (e + p - 1) ≤ d * (b : ℚ) ^ e := zpow_le_of_full hb hfull
  have hprev : (b : ℚ) ^ e = b * (b : ℚ) ^ (e - 1) := by
    rw [zpow_sub_one₀ hb0.ne']
    field_simp
  have hplace : lastPlace b p x = e - 1 := by
    have hlog : Int.log b x = e + p - 2 := by
      have hpred : e + p - 2 + 1 = e + p - 1 := by ring
      refine log_eq_of_between hb ?_ (by rwa [hpred])
      have hpow : (b : ℚ) ^ (e + p - 1) = b * (b : ℚ) ^ (e + p - 2) := by
        rw [← hpred, zpow_add_one₀ hb0.ne', mul_comm]
      have hdouble : 2 * (b : ℚ) ^ (e + p - 2) ≤ b * (b : ℚ) ^ (e + p - 2) :=
        mul_le_mul_of_nonneg_right hb2 (zpow_pos hb0 _).le
      linarith
    rw [lastPlace, abs_of_pos hxpos, hlog]
    ring
  -- the digits are those of the power, so that another place leaves room for them
  have hdb : (d : ℚ) * b ≤ (b : ℚ) ^ p := by
    obtain ⟨q, rfl⟩ : ∃ q, p = q + 1 := by
      refine ⟨p - 1, ?_⟩
      have hp : p ≠ 0 := by
        rintro rfl
        rw [pow_zero] at hdlt
        have := one_le_of_full hb hfull
        omega
      omega
    have hlast : (b : ℚ) ^ (e + (q + 1 : ℕ) - 1) = (b : ℚ) ^ q * (b : ℚ) ^ e := by
      rw [← zpow_natCast, ← zpow_add₀ hb0.ne']
      congr 1
      push_cast
      ring
    have hdq : (d - 1 / 2) * (b : ℚ) ^ e < (b : ℚ) ^ q * (b : ℚ) ^ e := by
      rw [hlast] at hlt
      linarith
    have hdq' : (d : ℚ) < (b : ℚ) ^ q + 1 := by
      have := lt_of_mul_lt_mul_right hdq he.le
      linarith
    have hdle : d ≤ b ^ q := by
      have : d < b ^ q + 1 := by exact_mod_cast hdq'
      omega
    rw [pow_succ]
    exact mul_le_mul_of_nonneg_right (by exact_mod_cast hdle) hb0.le
  have hprev0 : (0 : ℚ) < (b : ℚ) ^ (e - 1) := zpow_pos hb0 _
  have herr' : d * (b : ℚ) ^ e * δ < (b : ℚ) ^ (e - 1) / 2 :=
    calc d * (b : ℚ) ^ e * δ = d * b * δ * (b : ℚ) ^ (e - 1) := by
          rw [hprev]
          ring
      _ ≤ (b : ℚ) ^ p * δ * (b : ℚ) ^ (e - 1) :=
        mul_le_mul_of_nonneg_right (mul_le_mul_of_nonneg_right hdb hδ0) hprev0.le
      _ < 1 / 2 * (b : ℚ) ^ (e - 1) := mul_lt_mul_of_pos_right (by linarith) hprev0
      _ = (b : ℚ) ^ (e - 1) / 2 := by ring
  have hscaled : (d : ℚ) * (b : ℚ) ^ e = ((d * b : ℕ) : ℤ) * (b : ℚ) ^ (e - 1) := by
    rw [hprev]
    push_cast
    ring
  rw [hscaled]
  refine significant_of_lastPlace hb hplace ?_
  rw [← hscaled]
  exact lt_of_le_of_lt hx herr'

end Close

/-- A number of at most `p` digits is found again from what is close enough to it. -/
theorem significant_of_close (hb : 1 < b) {n : ℕ} (hn : 0 < n) (hlt : n < b ^ p) {k : ℤ} {x δ : ℚ}
    (hδ : δ * (b : ℚ) ^ p < 1 / 2)
    (hx : |x - n * (b : ℚ) ^ k| ≤ n * (b : ℚ) ^ k * δ) :
    significant b p x = n * (b : ℚ) ^ k := by
  obtain ⟨d, e, hfull, hdlt, hv⟩ := exists_full_digits hb hn hlt k
  rw [hv] at hx ⊢
  have he : (0 : ℚ) < (b : ℚ) ^ e := zpow_pos (by exact_mod_cast (by omega : 0 < b)) e
  have hd : (1 : ℚ) ≤ d := by exact_mod_cast one_le_of_full hb hfull
  have hδ0 : 0 ≤ δ := by
    have hprod : 0 ≤ d * (b : ℚ) ^ e * δ := le_trans (abs_nonneg _) hx
    exact nonneg_of_mul_nonneg_right hprod (mul_pos (by linarith) he)
  have hclose := lt_of_le_of_lt hx (error_lt_half hb hdlt hδ0 hδ)
  have hxpos : 0 < x := by
    have hde : (b : ℚ) ^ e ≤ d * (b : ℚ) ^ e := le_mul_of_one_le_left he.le hd
    have hxlo := (abs_lt.mp hclose).1
    linarith
  by_cases hbelow : (b : ℚ) ^ (e + p - 1) ≤ x
  · exact significant_of_same hb hdlt hxpos hclose hbelow
  · exact significant_of_below hb hfull hdlt hxpos hδ0 hδ hx (not_le.mp hbelow)

/-! ### Relative errors -/

/-- The first number is the second, but for a relative error. -/
def Near (δ x y : ℚ) : Prop := |x - y| ≤ |y| * δ

theorem near_significant (hb : 1 < b) (q : ℚ) :
    Near ((b : ℚ) ^ (1 - p : ℤ) / 2) (significant b p q) q := by
  have herr := significant_error (p := p) hb q
  rwa [mul_div_assoc] at herr

theorem Near.mono {δ ε x y : ℚ} (h : Near δ x y) (hle : δ ≤ ε) : Near ε x y :=
  le_trans h (mul_le_mul_of_nonneg_left hle (abs_nonneg y))

theorem Near.mul {δ x y : ℚ} (h : Near δ x y) (c : ℚ) : Near δ (x * c) (y * c) := by
  have hscaled : |x - y| * |c| ≤ |y| * δ * |c| := mul_le_mul_of_nonneg_right h (abs_nonneg c)
  calc |x * c - y * c| = |x - y| * |c| := by rw [← sub_mul, abs_mul]
    _ ≤ |y| * δ * |c| := hscaled
    _ = |y * c| * δ := by
      rw [abs_mul]
      ring

theorem Near.trans {δ ε x y z : ℚ} (hδ : 0 ≤ δ) (hxy : Near δ x y) (hyz : Near ε y z) :
    Near (δ + ε + δ * ε) x z := by
  have hy : |y| ≤ |z| + |z| * ε := by
    have hsum : |y| ≤ |y - z| + |z| := by
      have := abs_add_le (y - z) z
      rwa [sub_add_cancel] at this
    exact hsum.trans (by rw [add_comm]; exact add_le_add_right hyz |z|)
  have hstep : |y| * δ ≤ (|z| + |z| * ε) * δ := mul_le_mul_of_nonneg_right hy hδ
  calc |x - z| ≤ |x - y| + |y - z| := abs_sub_le x y z
    _ ≤ |y| * δ + |z| * ε := add_le_add hxy hyz
    _ ≤ (|z| + |z| * ε) * δ + |z| * ε := by linarith
    _ = |z| * (δ + ε + δ * ε) := by ring

theorem Near.pos {δ x y : ℚ} (h : Near δ x y) (hδ : δ < 1) (hy : 0 < y) : 0 < x := by
  rw [Near, abs_of_pos hy] at h
  have herr := (abs_le.mp h).1
  nlinarith

theorem Near.ne_zero {δ x y : ℚ} (h : Near δ x y) (hδ : δ < 1) (hy : y ≠ 0) : x ≠ 0 := by
  rintro rfl
  have hpos : 0 < |y| := abs_pos.mpr hy
  have herr : |y| ≤ |y| * δ := by
    have := h
    rwa [Near, zero_sub, abs_neg] at this
  nlinarith

/-- A number of at most `p` digits is found again from what is near it. -/
theorem significant_of_near (hb : 1 < b) {n : ℕ} (hlt : n < b ^ p) {k : ℤ} {x δ : ℚ}
    (hδ : δ * (b : ℚ) ^ p < 1 / 2) (h : Near δ x (n * (b : ℚ) ^ k)) :
    significant b p x = n * (b : ℚ) ^ k := by
  have hpow : (0 : ℚ) < (b : ℚ) ^ k := zpow_pos (by exact_mod_cast (by omega : 0 < b)) k
  have hnonneg : 0 ≤ (n : ℚ) * (b : ℚ) ^ k := mul_nonneg (Nat.cast_nonneg n) hpow.le
  rw [Near, abs_of_nonneg hnonneg] at h
  rcases Nat.eq_zero_or_pos n with rfl | hn
  · rw [Nat.cast_zero, zero_mul, zero_mul, sub_zero] at h
    rw [abs_nonpos_iff.mp h, significant_zero, Nat.cast_zero, zero_mul]
  · exact significant_of_close hb hn hlt hδ h

end WayDisplays.Lib.Rounding
