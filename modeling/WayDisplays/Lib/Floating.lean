/- The values of a floating point type: numbers, infinities and what is no number, read from the
start of a text. -/

import WayDisplays.Lib.Decimal

set_option autoImplicit false
set_option relaxedAutoImplicit false

namespace WayDisplays.Lib

/-- A value of a floating point type, whatever its precision. -/
inductive Floating
  | number (q : ℚ)
  | infinity (negative : Bool)
  | nan (negative : Bool)
  deriving DecidableEq, Repr

namespace Floating

instance (n : ℕ) [OfNat ℚ n] : OfNat Floating n := ⟨.number (OfNat.ofNat n)⟩

instance : Neg Floating where
  neg
    | .number q => .number (-q)
    | .infinity negative => .infinity !negative
    | .nan negative => .nan !negative

@[simp] theorem number_zero : number 0 = 0 := rfl

@[simp] theorem number_eq_zero {q : ℚ} : number q = 0 ↔ q = 0 := number.injEq q 0 ▸ Iff.rfl

@[simp] theorem neg_number (q : ℚ) : -number q = number (-q) := rfl

/-- A function of the numbers, which leaves the other values as they are. -/
def map (f : ℚ → ℚ) : Floating → Floating
  | number q => number (f q)
  | infinity negative => infinity negative
  | nan negative => nan negative

@[simp] theorem map_number (f : ℚ → ℚ) (q : ℚ) : (number q).map f = number (f q) := rfl

/-- The number, or the value that a conversion to an integer type yields of all others. -/
def numberOr (default : ℚ) : Floating → ℚ
  | number q => q
  | _ => default

/-! ### Comparisons -/

def isNan : Floating → Bool
  | nan _ => true
  | _ => false

/-- What `==` tells: nothing equals what is no number. -/
def equal : Floating → Floating → Bool
  | number a, number b => decide (a = b)
  | infinity a, infinity b => a == b
  | _, _ => false

theorem equal_iff {a b : Floating} : a.equal b = true ↔ a = b ∧ a.isNan = false := by
  cases a <;> cases b <;> simp [equal, isNan]

theorem equal_self {a : Floating} (h : a.isNan = false) : a.equal a = true :=
  equal_iff.mpr ⟨rfl, h⟩

/-- What `> 0` tells. -/
def positive : Floating → Bool
  | number q => decide (0 < q)
  | infinity negative => !negative
  | nan _ => false

/-- What `<= 0` tells: of a NaN neither this nor its opposite holds. -/
def nonpositive : Floating → Bool
  | number q => decide (q ≤ 0)
  | infinity negative => negative
  | nan _ => false

/-! ### Texts -/

def startsWith (word : String) (cs : List Char) : Bool :=
  word.toList.isPrefixOf (cs.map Char.toLower)

def isHexDigit (c : Char) : Bool := c.isDigit || decide (c.toLower ∈ "abcdef".toList)

def hexDigitVal (c : Char) : ℕ :=
  if c.isDigit then Decimal.digitVal c else 10 + (c.toLower.toNat - 'a'.toNat)

def ofHexDigits (cs : List Char) : ℕ := cs.foldl (fun n c => 16 * n + hexDigitVal c) 0

/-- Hexadecimal digits with an optional point, and an exponent of two once there is a digit. -/
def readHexadecimal (cs : List Char) : ℚ :=
  let whole := cs.takeWhile isHexDigit
  let rest := cs.dropWhile isHexDigit
  let fraction := if rest.head? = some '.' then rest.tail.takeWhile isHexDigit else []
  let after := if rest.head? = some '.' then rest.tail.dropWhile isHexDigit else rest
  let exponent := if startsWith "p" after then (Decimal.readInt after.tail).getD 0 else 0
  if whole = [] ∧ fraction = [] then 0
  else ofHexDigits (whole ++ fraction) * 2 ^ (exponent - 4 * (fraction.length : ℤ))

/-- Without its sign. -/
def readMagnitude (cs : List Char) : Option Floating :=
  if startsWith "inf" cs then some (infinity false)
  else if startsWith "nan" cs then some (nan false)
  else if startsWith "0x" cs then some (number (readHexadecimal (cs.drop 2)))
  else (Decimal.readUnsigned cs).map number

/-- A value at the start of a text, after an optional sign. -/
def readFloating : List Char → Option Floating
  | '-' :: cs => (readMagnitude cs).map (fun value => -value)
  | '+' :: cs => readMagnitude cs
  | cs => readMagnitude cs

private theorem toLower_of_isDigit {c : Char} (h : c.isDigit = true) : c.toLower = c := by
  simp only [Char.isDigit, Bool.and_eq_true, decide_eq_true_eq, UInt32.le_iff_toNat_le] at h
  have hupper : ¬ (c.val ≥ 'A'.val ∧ c.val ≤ 'Z'.val) := by
    simp only [UInt32.le_iff_toNat_le, ge_iff_le]
    rintro ⟨hlo, -⟩
    exact absurd (hlo.trans h.2) (by decide)
  exact dif_neg hupper

theorem numeral_toLower {c : Char} (h : Decimal.numeral c = true) :
    Decimal.numeral c.toLower = true := by
  rw [Decimal.numeral, Bool.or_eq_true, decide_eq_true_eq] at h
  rcases h with hdigit | hmem
  · rw [toLower_of_isDigit hdigit]
    exact Decimal.numeral_of_isDigit hdigit
  · simp only [List.mem_cons, List.not_mem_nil, or_false] at hmem
    rcases hmem with rfl | rfl | rfl | rfl <;> decide

/-- Only a text of numerals is no word. -/
theorem startsWith_eq_false {word : String} {cs : List Char}
    (hcs : ∀ c ∈ cs, Decimal.numeral c = true)
    (hword : word.toList.all Decimal.numeral = false) : startsWith word cs = false := by
  by_contra hstarts
  rw [Bool.not_eq_false, startsWith, List.isPrefixOf_iff_prefix] at hstarts
  refine absurd (List.all_eq_true.mpr fun c hc => ?_) (ne_of_eq_of_ne hword Bool.false_ne_true)
  obtain ⟨d, hd, rfl⟩ := List.mem_map.mp (hstarts.subset hc)
  exact numeral_toLower (hcs d hd)

theorem readMagnitude_of_numeral {cs : List Char} (h : ∀ c ∈ cs, Decimal.numeral c = true) :
    readMagnitude cs = (Decimal.readUnsigned cs).map number := by
  have hno {word : String} (hword : word.toList.all Decimal.numeral = false) :
      ¬ startsWith word cs = true :=
    Bool.not_eq_true _ ▸ startsWith_eq_false h hword
  rw [readMagnitude, if_neg (hno (by decide)), if_neg (hno (by decide)), if_neg (hno (by decide))]

/-- Of the characters of numerals only numbers are read. -/
theorem readFloating_of_numeral {cs : List Char} (h : ∀ c ∈ cs, Decimal.numeral c = true) :
    readFloating cs = (Decimal.readDecimal cs).map number := by
  have htail {c : Char} {cs : List Char} (h : ∀ d ∈ c :: cs, Decimal.numeral d = true) :
      readMagnitude cs = (Decimal.readUnsigned cs).map number :=
    readMagnitude_of_numeral fun d hd => h d (List.mem_cons_of_mem c hd)
  unfold readFloating
  split
  · rw [htail h, Decimal.readDecimal, Option.map_map, Option.map_map]
    rfl
  · rw [htail h, Decimal.readDecimal]
  · rename_i hminus hplus
    rw [readMagnitude_of_numeral h, Decimal.readDecimal.eq_3 cs hminus hplus]

end Floating

end WayDisplays.Lib
