/- Decimal numerals: how numbers are written, and read back from the start of a text. -/

import Mathlib.Data.Nat.Log
import Mathlib.Tactic.IntervalCases
import WayDisplays.Lib.Rounding

set_option autoImplicit false
set_option relaxedAutoImplicit false

namespace WayDisplays.Lib.Decimal

open Rounding (coefficient lastPlace significant)

/-! ### Digits -/

def digitVal (c : Char) : ℕ := c.toNat - '0'.toNat

/-- The number a list of digits stands for. -/
def ofDigits (cs : List Char) : ℕ := cs.foldl (fun n c => 10 * n + digitVal c) 0

def padded : ℕ → ℕ → List Char
  | 0, _ => []
  | width + 1, n => Nat.digitChar (n / 10 ^ width % 10) :: padded width n

def digits (n : ℕ) : List Char := padded (Nat.log 10 n + 1) n

theorem isDigit_digitChar {n : ℕ} (h : n < 10) : (Nat.digitChar n).isDigit = true := by
  interval_cases n <;> rfl

theorem digitVal_digitChar {n : ℕ} (h : n < 10) : digitVal (Nat.digitChar n) = n := by
  interval_cases n <;> rfl

theorem isDigit_of_mem_padded {width n : ℕ} {c : Char} (h : c ∈ padded width n) :
    c.isDigit = true := by
  induction width with
  | zero => simp [padded] at h
  | succ width ih =>
    rcases List.mem_cons.mp h with rfl | h
    · exact isDigit_digitChar (Nat.mod_lt _ (by omega))
    · exact ih h

@[simp] theorem length_padded (width n : ℕ) : (padded width n).length = width := by
  induction width with
  | zero => rfl
  | succ width ih => rw [padded, List.length_cons, ih]

private theorem foldl_padded (width n acc : ℕ) :
    (padded width n).foldl (fun n c => 10 * n + digitVal c) acc =
      acc * 10 ^ width + n % 10 ^ width := by
  induction width generalizing acc with
  | zero => simp [padded, Nat.mod_one]
  | succ width ih =>
    have hmod : n % 10 ^ (width + 1) = n / 10 ^ width % 10 * 10 ^ width + n % 10 ^ width := by
      rw [pow_succ, Nat.mod_mul]
      ring
    rw [padded, List.foldl_cons, ih, digitVal_digitChar (Nat.mod_lt _ (by omega)), hmod]
    ring

theorem ofDigits_padded (width n : ℕ) : ofDigits (padded width n) = n % 10 ^ width := by
  rw [ofDigits, foldl_padded, zero_mul, zero_add]

theorem ofDigits_digits (n : ℕ) : ofDigits (digits n) = n := by
  rw [digits, ofDigits_padded]
  exact Nat.mod_eq_of_lt (Nat.lt_pow_succ_log_self (by omega) n)

theorem ofDigits_append_padded (cs : List Char) (width n : ℕ) :
    ofDigits (cs ++ padded width n) = ofDigits cs * 10 ^ width + n % 10 ^ width := by
  rw [ofDigits, List.foldl_append, foldl_padded, ofDigits]

/-! ### Integers -/

def readNat (cs : List Char) : Option ℕ :=
  if cs.takeWhile Char.isDigit = [] then none else some (ofDigits (cs.takeWhile Char.isDigit))

/-- An optional sign and digits, whatever follows. -/
def readInt : List Char → Option ℤ
  | '-' :: cs => (readNat cs).map (fun n : ℕ => -(n : ℤ))
  | '+' :: cs => (readNat cs).map Int.ofNat
  | cs => (readNat cs).map Int.ofNat

def writeInt (n : ℤ) : List Char :=
  if n < 0 then '-' :: digits n.natAbs else digits n.natAbs

/-- A text that goes on without a digit. -/
def NoDigit (cs : List Char) : Prop := ∀ c, cs.head? = some c → c.isDigit = false

theorem noDigit_nil : NoDigit [] := by simp [NoDigit]

theorem noDigit_cons {c : Char} (h : c.isDigit = false) (cs : List Char) : NoDigit (c :: cs) := by
  simpa [NoDigit] using h

theorem takeWhile_padded {cs : List Char} (h : NoDigit cs) (width n : ℕ) :
    (padded width n ++ cs).takeWhile Char.isDigit = padded width n := by
  rw [List.takeWhile_append_of_pos (fun c hc => isDigit_of_mem_padded hc)]
  cases cs with
  | nil => simp
  | cons c cs => simp [h c rfl]

theorem dropWhile_padded {cs : List Char} (h : NoDigit cs) (width n : ℕ) :
    (padded width n ++ cs).dropWhile Char.isDigit = cs := by
  rw [List.dropWhile_append_of_pos (fun c hc => isDigit_of_mem_padded hc)]
  cases cs with
  | nil => rfl
  | cons c cs => simp [h c rfl]

theorem readNat_padded {cs : List Char} (h : NoDigit cs) {width : ℕ} (hw : width ≠ 0) (n : ℕ) :
    readNat (padded width n ++ cs) = some (n % 10 ^ width) := by
  have hne : padded width n ≠ [] := by
    rw [← List.length_pos_iff, length_padded]
    omega
  rw [readNat, takeWhile_padded h, if_neg hne, ofDigits_padded]

theorem readInt_of_digit {c : Char} (h : c.isDigit = true) (cs : List Char) :
    readInt (c :: cs) = (readNat (c :: cs)).map Int.ofNat := by
  unfold readInt
  split
  · rename_i heq
    obtain rfl := (List.cons.inj heq).1
    exact absurd h (by decide)
  · rename_i heq
    obtain rfl := (List.cons.inj heq).1
    exact absurd h (by decide)
  · rfl

theorem readInt_padded {cs : List Char} (h : NoDigit cs) (width n : ℕ) :
    readInt (padded (width + 1) n ++ cs) = some ((n % 10 ^ (width + 1) : ℕ) : ℤ) := by
  have hhead : Nat.digitChar (n / 10 ^ width % 10) ∈ padded (width + 1) n := by
    exact List.mem_cons_self
  have hread := readInt_of_digit (isDigit_of_mem_padded hhead) (padded width n ++ cs)
  rw [← List.cons_append] at hread
  change readInt (padded (width + 1) n ++ cs) =
    (readNat (padded (width + 1) n ++ cs)).map _ at hread
  rw [hread, readNat_padded h (Nat.succ_ne_zero width)]
  rfl

theorem readInt_writeInt (n : ℤ) : readInt (writeInt n) = some n := by
  have hmod : n.natAbs % 10 ^ (Nat.log 10 n.natAbs + 1) = n.natAbs :=
    Nat.mod_eq_of_lt (Nat.lt_pow_succ_log_self (by omega) _)
  unfold writeInt
  split
  · rename_i hneg
    have hread := readNat_padded noDigit_nil (Nat.succ_ne_zero (Nat.log 10 n.natAbs)) n.natAbs
    rw [List.append_nil, hmod] at hread
    rw [readInt, digits, hread, Option.map_some]
    congr 1
    omega
  · rename_i hpos
    have hread := readInt_padded noDigit_nil (Nat.log 10 n.natAbs) n.natAbs
    rw [List.append_nil, hmod] at hread
    rw [digits, hread]
    congr 1
    omega

/-! ### Fractions -/

/-- A number of units of which `scale` digits stand after the point. -/
def writeFixed (units scale : ℕ) : List Char :=
  digits (units / 10 ^ scale) ++ if scale = 0 then [] else '.' :: padded scale units

/-- The units and the scale of a number with an optional point, and what follows it. -/
def readFixed (cs : List Char) : Option (ℕ × ℕ × List Char) :=
  let whole := cs.takeWhile Char.isDigit
  let rest := cs.dropWhile Char.isDigit
  let fraction := if rest.head? = some '.' then rest.tail.takeWhile Char.isDigit else []
  let after := if rest.head? = some '.' then rest.tail.dropWhile Char.isDigit else rest
  if whole = [] ∧ fraction = [] then none
  else some (ofDigits (whole ++ fraction), fraction.length, after)

theorem readFixed_writeFixed {cs : List Char} (h : NoDigit cs) (hpoint : cs.head? ≠ some '.')
    (units scale : ℕ) : readFixed (writeFixed units scale ++ cs) = some (units, scale, cs) := by
  have hne : digits (units / 10 ^ scale) ≠ [] := by
    rw [digits, ← List.length_pos_iff, length_padded]
    omega
  by_cases hscale : scale = 0
  · subst hscale
    have htake := takeWhile_padded h (Nat.log 10 units + 1) units
    have hdrop := dropWhile_padded h (Nat.log 10 units + 1) units
    have hne' : padded (Nat.log 10 units + 1) units ≠ [] := by simpa [digits] using hne
    have hvalue : ofDigits (padded (Nat.log 10 units + 1) units) = units := ofDigits_digits units
    simp only [readFixed, writeFixed, digits, pow_zero, Nat.div_one, if_pos, List.append_nil,
      htake, hdrop, if_neg hpoint, hne', false_and, if_false, List.length_nil, hvalue]
  · have hno : NoDigit ('.' :: (padded scale units ++ cs)) := noDigit_cons (by decide) _
    have htake := takeWhile_padded hno (Nat.log 10 (units / 10 ^ scale) + 1) (units / 10 ^ scale)
    have hdrop := dropWhile_padded hno (Nat.log 10 (units / 10 ^ scale) + 1) (units / 10 ^ scale)
    have hvalue : ofDigits (digits (units / 10 ^ scale) ++ padded scale units) = units := by
      rw [ofDigits_append_padded, ofDigits_digits]
      exact Nat.div_add_mod' units (10 ^ scale)
    rw [digits] at hne hvalue
    simp only [readFixed, writeFixed, digits, if_neg hscale, List.append_assoc, List.cons_append,
      htake, hdrop, List.head?_cons, if_pos, List.tail_cons, takeWhile_padded h,
      dropWhile_padded h, hne, false_and, if_false, length_padded, hvalue]

/-- An exponent is read once it has a digit. -/
def readExponent (cs : List Char) : ℤ :=
  if cs.head? = some 'e' ∨ cs.head? = some 'E' then (readInt cs.tail).getD 0 else 0

/-- At least two digits, after a sign. -/
def writeExponent (e : ℤ) : List Char :=
  (if e < 0 then '-' else '+') :: padded (max 1 (Nat.log 10 e.natAbs) + 1) e.natAbs

theorem readInt_writeExponent (e : ℤ) : readInt (writeExponent e) = some e := by
  have hlt : e.natAbs < 10 ^ (max 1 (Nat.log 10 e.natAbs) + 1) :=
    lt_of_lt_of_le (Nat.lt_pow_succ_log_self (by omega) _)
      (Nat.pow_le_pow_right (by omega) (by omega))
  have hread := readNat_padded noDigit_nil (Nat.succ_ne_zero (max 1 (Nat.log 10 e.natAbs))) e.natAbs
  rw [List.append_nil, Nat.mod_eq_of_lt hlt] at hread
  unfold writeExponent
  split
  · rw [readInt, hread, Option.map_some]
    congr 1
    omega
  · rw [readInt, hread, Option.map_some]
    congr 1
    simp only [Int.ofNat_eq_natCast]
    omega

/-- A number without a sign at the start of a text. -/
def readUnsigned (cs : List Char) : Option ℚ :=
  (readFixed cs).map (fun r => (r.1 : ℚ) * 10 ^ (readExponent r.2.2 - (r.2.1 : ℤ)))

/-- An optional sign and a decimal number, whatever follows. -/
def readDecimal : List Char → Option ℚ
  | '-' :: cs => (readUnsigned cs).map (fun q => -q)
  | '+' :: cs => readUnsigned cs
  | cs => readUnsigned cs

/-! ### Significant digits -/

/-- Move trailing zeros of the digits, at most `fuel` of them, to the exponent. -/
def stripZeros : ℕ → ℕ → ℤ → ℕ × ℤ
  | 0, m, e => (m, e)
  | fuel + 1, m, e => if m % 10 = 0 then stripZeros fuel (m / 10) (e + 1) else (m, e)

/-- `m` times a power of ten: positional while the place of its first digit is near the point,
with an exponent otherwise. -/
def writeScaled (p m : ℕ) (e : ℤ) : List Char :=
  let first : ℤ := e + Nat.log 10 m
  if -4 ≤ first ∧ first < p then
    if 0 ≤ e then writeFixed (m * 10 ^ e.toNat) 0 else writeFixed m (-e).toNat
  else writeFixed m (Nat.log 10 m) ++ 'e' :: writeExponent first

/-- The number rounded to `p` significant digits, without the zeros at their end. -/
def writeGeneral (p : ℕ) (q : ℚ) : List Char :=
  let stripped := stripZeros p (coefficient 10 p |q|).toNat (lastPlace 10 p |q|)
  let unsigned := if stripped.1 = 0 then ['0'] else writeScaled p stripped.1 stripped.2
  if q < 0 then '-' :: unsigned else unsigned

theorem stripZeros_value (fuel m : ℕ) (e : ℤ) :
    ((stripZeros fuel m e).1 : ℚ) * 10 ^ (stripZeros fuel m e).2 = (m : ℚ) * 10 ^ e := by
  induction fuel generalizing m e with
  | zero => rfl
  | succ fuel ih =>
    rw [stripZeros]
    split
    · rename_i hzero
      have hm : (m : ℚ) = 10 * ((m / 10 : ℕ) : ℚ) := by
        exact_mod_cast (by omega : m = 10 * (m / 10))
      rw [ih, hm, zpow_add_one₀ (by norm_num)]
      ring
    · rfl

theorem readUnsigned_writeFixed (units scale : ℕ) :
    readUnsigned (writeFixed units scale) = some ((units : ℚ) * 10 ^ (-scale : ℤ)) := by
  have hread := readFixed_writeFixed noDigit_nil (by simp) units scale
  rw [List.append_nil] at hread
  rw [readUnsigned, hread]
  simp [readExponent]

theorem readUnsigned_writeFixed_exponent (units scale : ℕ) (e : ℤ) :
    readUnsigned (writeFixed units scale ++ 'e' :: writeExponent e) =
      some ((units : ℚ) * 10 ^ (e - scale : ℤ)) := by
  have hread := readFixed_writeFixed (noDigit_cons (c := 'e') (by decide) (writeExponent e))
    (by simp) units scale
  rw [readUnsigned, hread]
  simp [readExponent, readInt_writeExponent]

theorem readUnsigned_writeScaled (p m : ℕ) (e : ℤ) :
    readUnsigned (writeScaled p m e) = some ((m : ℚ) * 10 ^ e) := by
  unfold writeScaled
  dsimp only
  split_ifs with hnear hwhole
  · rw [readUnsigned_writeFixed]
    obtain ⟨k, rfl⟩ := Int.eq_ofNat_of_zero_le hwhole
    simp
  · rw [readUnsigned_writeFixed]
    have : -((-e).toNat : ℤ) = e := by omega
    rw [this]
  · rw [readUnsigned_writeFixed_exponent]
    congr 3
    omega

theorem readDecimal_of_digit {c : Char} (h : c.isDigit = true) (cs : List Char) :
    readDecimal (c :: cs) = readUnsigned (c :: cs) := by
  unfold readDecimal
  split
  · rename_i heq
    obtain rfl := (List.cons.inj heq).1
    exact absurd h (by decide)
  · rename_i heq
    obtain rfl := (List.cons.inj heq).1
    exact absurd h (by decide)
  · rfl

theorem exists_digit_digits (n : ℕ) : ∃ c cs, c.isDigit = true ∧ digits n = c :: cs :=
  ⟨_, _, isDigit_digitChar (Nat.mod_lt _ (by omega)), rfl⟩

theorem exists_digit_writeFixed (units scale : ℕ) :
    ∃ c cs, c.isDigit = true ∧ writeFixed units scale = c :: cs := by
  obtain ⟨c, cs, hc, hcs⟩ := exists_digit_digits (units / 10 ^ scale)
  rw [writeFixed, hcs]
  exact ⟨c, _, hc, rfl⟩

/-- What is written of a number without its sign starts with a digit. -/
theorem exists_digit_writeScaled (p m : ℕ) (e : ℤ) :
    ∃ c cs, c.isDigit = true ∧ writeScaled p m e = c :: cs := by
  unfold writeScaled
  dsimp only
  split_ifs
  · exact exists_digit_writeFixed _ _
  · exact exists_digit_writeFixed _ _
  · obtain ⟨c, cs, hc, hcs⟩ := exists_digit_writeFixed m (Nat.log 10 m)
    rw [hcs]
    exact ⟨c, _, hc, rfl⟩

theorem exists_digit_writeGeneral (p : ℕ) {q : ℚ} (hq : 0 ≤ q) :
    ∃ c cs, c.isDigit = true ∧ writeGeneral p q = c :: cs := by
  unfold writeGeneral
  rw [if_neg (not_lt.mpr hq)]
  split_ifs
  · exact ⟨'0', [], by decide, rfl⟩
  · exact exists_digit_writeScaled p _ _

/-- What is written starts with a sign or a digit. -/
theorem exists_head_writeGeneral (p : ℕ) (q : ℚ) :
    (∃ cs, writeGeneral p q = '-' :: cs) ∨
      ∃ c cs, c.isDigit = true ∧ writeGeneral p q = c :: cs := by
  rcases lt_or_ge q 0 with hneg | hpos
  · exact Or.inl ⟨_, if_pos hneg⟩
  · exact Or.inr (exists_digit_writeGeneral p hpos)

/-- Reading what is written yields the number rounded to its significant digits. -/
theorem readDecimal_writeGeneral (p : ℕ) (q : ℚ) :
    readDecimal (writeGeneral p q) = some (significant 10 p q) := by
  set m := (stripZeros p (coefficient 10 p |q|).toNat (lastPlace 10 p |q|)).1 with hm
  set e := (stripZeros p (coefficient 10 p |q|).toNat (lastPlace 10 p |q|)).2 with he
  set unsigned := if m = 0 then ['0'] else writeScaled p m e with hunsigned
  have hvalue : (m : ℚ) * 10 ^ e = significant 10 p |q| := by
    have hcoeff : (((coefficient 10 p |q|).toNat : ℤ) : ℚ) = coefficient 10 p |q| := by
      rw [Int.toNat_of_nonneg (Rounding.coefficient_nonneg (abs_nonneg q))]
    rw [hm, he, stripZeros_value, significant, ← hcoeff]
    push_cast
    rfl
  have hread : readUnsigned unsigned = some (significant 10 p |q|) := by
    rw [hunsigned, ← hvalue]
    split_ifs with hzero
    · rw [hzero, Nat.cast_zero, zero_mul]
      decide +kernel
    · exact readUnsigned_writeScaled p m e
  have hdigit : ∃ c cs, c.isDigit = true ∧ unsigned = c :: cs := by
    rw [hunsigned]
    split_ifs
    · exact ⟨'0', [], by decide, rfl⟩
    · exact exists_digit_writeScaled p m e
  have hwrite : writeGeneral p q = if q < 0 then '-' :: unsigned else unsigned := rfl
  rw [hwrite]
  split_ifs with hneg
  · rw [readDecimal, hread, Option.map_some, abs_of_neg hneg, Rounding.significant_neg, neg_neg]
  · obtain ⟨c, cs, hc, hcons⟩ := hdigit
    rw [hcons, readDecimal_of_digit hc, ← hcons, hread, abs_of_nonneg (not_lt.mp hneg)]

/-! ### A fixed number of places -/

/-- The number rounded to some places after the point. -/
def writeRounded (places : ℕ) (q : ℚ) : List Char :=
  let unsigned := writeFixed (Rounding.roundEven (|q| * 10 ^ places)).toNat places
  if q < 0 then '-' :: unsigned else unsigned

/-- What is near a number of units is written as these. -/
theorem writeRounded_of_close {places units : ℕ} {q : ℚ} (hq : 0 ≤ q)
    (h : |q * 10 ^ places - units| < 1 / 2) : writeRounded places q = writeFixed units places := by
  have hunits : Rounding.roundEven (|q| * 10 ^ places) = (units : ℤ) := by
    rw [abs_of_nonneg hq]
    exact Rounding.roundEven_eq_of_close h
  rw [writeRounded, hunits, Int.toNat_natCast, if_neg (not_lt.mpr hq)]

/-! ### Characters of numerals -/

def numeral (c : Char) : Bool := c.isDigit || decide (c ∈ ['.', '-', '+', 'e'])

theorem numeral_of_isDigit {c : Char} (h : c.isDigit = true) : numeral c = true := by
  rw [numeral, h, Bool.true_or]

theorem numeral_of_mem_padded {width n : ℕ} {c : Char} (h : c ∈ padded width n) :
    numeral c = true :=
  numeral_of_isDigit (isDigit_of_mem_padded h)

theorem numeral_of_mem_writeInt {n : ℤ} {c : Char} (h : c ∈ writeInt n) : numeral c = true := by
  unfold writeInt at h
  split at h
  · rcases List.mem_cons.mp h with rfl | h
    · decide
    · exact numeral_of_mem_padded h
  · exact numeral_of_mem_padded h

theorem numeral_of_mem_writeFixed {units scale : ℕ} {c : Char} (h : c ∈ writeFixed units scale) :
    numeral c = true := by
  rcases List.mem_append.mp h with h | h
  · exact numeral_of_mem_padded h
  · split at h
    · exact absurd h List.not_mem_nil
    · rcases List.mem_cons.mp h with rfl | h
      · decide
      · exact numeral_of_mem_padded h

theorem numeral_of_mem_writeExponent {e : ℤ} {c : Char} (h : c ∈ writeExponent e) :
    numeral c = true := by
  rcases List.mem_cons.mp h with rfl | h
  · split <;> decide
  · exact numeral_of_mem_padded h

theorem numeral_of_mem_writeScaled {p m : ℕ} {e : ℤ} {c : Char} (h : c ∈ writeScaled p m e) :
    numeral c = true := by
  unfold writeScaled at h
  dsimp only at h
  split_ifs at h
  · exact numeral_of_mem_writeFixed h
  · exact numeral_of_mem_writeFixed h
  · rcases List.mem_append.mp h with h | h
    · exact numeral_of_mem_writeFixed h
    · rcases List.mem_cons.mp h with rfl | h
      · decide
      · exact numeral_of_mem_writeExponent h

theorem numeral_of_mem_writeGeneral {p : ℕ} {q : ℚ} {c : Char} (h : c ∈ writeGeneral p q) :
    numeral c = true := by
  have hunsigned : ∀ m e, c ∈ (if m = 0 then ['0'] else writeScaled p m e) → numeral c = true := by
    intro m e hc
    split_ifs at hc
    · rw [List.mem_singleton.mp hc]
      decide
    · exact numeral_of_mem_writeScaled hc
  unfold writeGeneral at h
  dsimp only at h
  split at h
  · rcases List.mem_cons.mp h with rfl | h
    · decide
    · exact hunsigned _ _ h
  · exact hunsigned _ _ h

end WayDisplays.Lib.Decimal
