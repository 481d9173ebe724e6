/- What is written as a scalar is read back, and found under its key. -/

import WayDisplays.Model.Marshal

set_option autoImplicit false
set_option relaxedAutoImplicit false

namespace WayDisplays.Yaml.Scalars

open Lib (Floating OrderedMap OrderedSet)
open Lib.Quantise (nearestAway_eq_of_close)
open Lib.Rounding
open Model

/-! ### Numbers -/

theorem toInt32_eq {n : Int} (h : IsInt32 n) : toInt32 n = n :=
  Int.bmod_eq_of_le (by have := h.1; omega) (by have := h.2; omega)

private theorem isSpace_of_isDigit {c : Char} (h : c.isDigit = true) : isSpace c = false := by
  by_contra hspace
  rw [Bool.not_eq_false] at hspace
  simp only [isSpace, Char.isWhitespace, Bool.or_eq_true, decide_eq_true_eq, beq_iff_eq] at hspace
  rcases hspace with ((((rfl | rfl) | rfl) | rfl) | rfl) | rfl <;> exact absurd h (by decide)

theorem dropWhile_isSpace_of_digit {c : Char} (h : c.isDigit = true) (cs : List Char) :
    (c :: cs).dropWhile isSpace = c :: cs := by
  rw [List.dropWhile_cons_of_neg]
  simp [isSpace_of_isDigit h]

private theorem dropWhile_isSpace_minus (cs : List Char) :
    ('-' :: cs).dropWhile isSpace = '-' :: cs := by
  rw [List.dropWhile_cons_of_neg]
  decide

theorem sscanfInt_snprintfInt {n : Int} (h : IsInt32 n) : sscanfInt (snprintfInt n) = some n := by
  have hdrop : (Lib.Decimal.writeInt n).dropWhile isSpace = Lib.Decimal.writeInt n := by
    unfold Lib.Decimal.writeInt
    split
    · exact dropWhile_isSpace_minus _
    · obtain ⟨c, cs, hc, hcs⟩ := Lib.Decimal.exists_digit_digits n.natAbs
      rw [hcs]
      exact dropWhile_isSpace_of_digit hc cs
  have hclamp : max (-(2 ^ 63)) (min n (2 ^ 63 - 1)) = n := by
    obtain ⟨hlo, hhi⟩ := h
    omega
  rw [sscanfInt, snprintfInt, String.toList_ofList, hdrop, Lib.Decimal.readInt_writeInt,
    Option.map_some, hclamp, toInt32_eq h]

theorem dropWhile_isSpace_writeGeneral (p : ℕ) (q : ℚ) :
    (Lib.Decimal.writeGeneral p q).dropWhile isSpace = Lib.Decimal.writeGeneral p q := by
  obtain ⟨cs, hcs⟩ | ⟨c, cs, hc, hcs⟩ := Lib.Decimal.exists_head_writeGeneral p q
  · rw [hcs]
    exact dropWhile_isSpace_minus cs
  · rw [hcs]
    exact dropWhile_isSpace_of_digit hc cs

/-- A word that is given up has letters that no numeral has. -/
theorem unscannable_of_numeral {cs : List Char} (h : ∀ c ∈ cs, Lib.Decimal.numeral c = true) :
    unscannable cs = false := by
  have hunsigned : ∀ c ∈ (if cs.head? = some '-' ∨ cs.head? = some '+' then cs.tail else cs),
      Lib.Decimal.numeral c = true := by
    split
    · exact fun c hc => h c (List.mem_of_mem_tail hc)
    · exact h
  have hno {word : String} (hword : word.toList.all Lib.Decimal.numeral = false) :=
    Floating.startsWith_eq_false hunsigned hword
  simp only [unscannable, hno (by decide : "infi".toList.all Lib.Decimal.numeral = false),
    hno (by decide : "0x".toList.all Lib.Decimal.numeral = false), Bool.false_and, Bool.or_false]

theorem sscanfFloat_of_numeral {s : String}
    (h : ∀ c ∈ s.toList.dropWhile isSpace, Lib.Decimal.numeral c = true) :
    sscanfFloat s = (Lib.Decimal.readDecimal (s.toList.dropWhile isSpace)).map
      (fun q => .number (toFloat q)) := by
  have hscannable : ¬ unscannable (s.toList.dropWhile isSpace) = true := by
    rw [unscannable_of_numeral h]
    exact Bool.false_ne_true
  rw [sscanfFloat, if_neg hscannable, Floating.readFloating_of_numeral h, Option.map_map]
  rfl

theorem sscanfFloat_snprintfFloat (q : ℚ) :
    sscanfFloat (snprintfFloat q) = some (.number (toFloat (significant 10 6 q))) := by
  have hwritten : (snprintfFloat q).toList.dropWhile isSpace = Lib.Decimal.writeGeneral 6 q := by
    rw [snprintfFloat, String.toList_ofList, dropWhile_isSpace_writeGeneral]
  rw [sscanfFloat_of_numeral, hwritten, Lib.Decimal.readDecimal_writeGeneral, Option.map_some]
  rw [hwritten]
  exact fun c hc => Lib.Decimal.numeral_of_mem_writeGeneral hc

/-! ### Floats -/

theorem toFloat_near (q : ℚ) : Near (1 / 2 ^ 24) (toFloat q) q := by
  have hnear := near_significant (b := 2) (p := 24) (by decide) q
  exact hnear.mono (by norm_num)

theorem toDouble_near (q : ℚ) : Near (1 / 2 ^ 53) (toDouble q) q := by
  have hnear := near_significant (b := 2) (p := 53) (by decide) q
  exact hnear.mono (by norm_num)

theorem toFloat_neg (q : ℚ) : toFloat (-q) = -toFloat q := significant_neg q

/-- A number of at most six digits is what is written of everything near it. -/
theorem significant_of_near_six {x : ℚ} {n : ℕ} {k : ℤ} (hlt : n < 10 ^ 6)
    (h : Near (1 / 2 ^ 22) x (n * 10 ^ k)) : significant 10 6 x = n * 10 ^ k := by
  have hfound := significant_of_near (b := 10) (k := k) (x := x) (δ := 1 / 2 ^ 22) (by decide) hlt
    (by norm_num)
  push_cast at hfound
  exact hfound h

theorem sscanfFloat_of_near {x : ℚ} {n : ℕ} {k : ℤ} (hlt : n < 10 ^ 6)
    (h : Near (1 / 2 ^ 22) x (n * 10 ^ k)) :
    sscanfFloat (snprintfFloat x) = some (.number (toFloat (n * 10 ^ k))) := by
  rw [sscanfFloat_snprintfFloat, significant_of_near_six hlt h]

theorem sscanfFloat_of_near_neg {x : ℚ} {n : ℕ} {k : ℤ} (hlt : n < 10 ^ 6)
    (h : Near (1 / 2 ^ 22) x (n * 10 ^ k)) :
    sscanfFloat (snprintfFloat (-x)) = some (.number (toFloat (-(n * 10 ^ k)))) := by
  rw [sscanfFloat_snprintfFloat, significant_neg, significant_of_near_six hlt h]

theorem close_of_near {x : ℚ} {n : ℕ} (hlt : n < 10 ^ 6) (h : Near (1 / 2 ^ 21) x n) :
    |x - n| < 1 / 2 := by
  have hn : (n : ℚ) < 10 ^ 6 := by exact_mod_cast hlt
  have habs : |(n : ℚ)| = n := abs_of_nonneg (Nat.cast_nonneg n)
  rw [Near, habs] at h
  linarith

/-- What is near a number of at most six digits is rounded to it. -/
theorem roundNearest_of_near {x : ℚ} {n : ℕ} (hlt : n < 10 ^ 6) (h : Near (1 / 2 ^ 21) x n) :
    roundNearest x = n :=
  nearestAway_eq_of_close (by exact_mod_cast close_of_near hlt h)

/-! Numbers of thousandths. -/

theorem significant_of_near_thousandths {x : ℚ} {n : ℕ} (hlt : n < 10 ^ 6)
    (h : Near (1 / 2 ^ 22) x (n / 1000)) : significant 10 6 x = n / 1000 := by
  have hthousandths : (n : ℚ) / 1000 = n * 10 ^ (-3 : ℤ) := by
    rw [div_eq_mul_inv]
    norm_num
  rw [hthousandths] at h ⊢
  exact significant_of_near_six hlt h

theorem sscanfFloat_of_near_thousandths {x : ℚ} {n : ℕ} (hlt : n < 10 ^ 6)
    (h : Near (1 / 2 ^ 22) x (n / 1000)) :
    sscanfFloat (snprintfFloat x) = some (.number (toFloat (n / 1000))) := by
  rw [sscanfFloat_snprintfFloat, significant_of_near_thousandths hlt h]

theorem near_toFloat_thousandths (n : ℕ) :
    Near (1 / 2 ^ 22) (toFloat (toFloat n / 1000)) (n / 1000) := by
  have hscaled := (toFloat_near (n : ℚ)).mul (1 / 1000)
  rw [mul_one_div, mul_one_div] at hscaled
  exact ((toFloat_near _).trans (by norm_num) hscaled).mono (by norm_num)

theorem roundNearest_toFloat_thousandths {n : ℕ} (hlt : n < 10 ^ 6) :
    roundNearest (toFloat (toFloat (n / 1000) * 1000)) = n := by
  apply roundNearest_of_near hlt
  have hscaled : Near (1 / 2 ^ 24) (toFloat (n / 1000) * 1000) n := by
    have hmul := (toFloat_near (n / 1000)).mul 1000
    rwa [div_mul_cancel₀ _ (by norm_num)] at hmul
  exact ((toFloat_near _).trans (by norm_num) hscaled).mono (by norm_num)

/-! ### Scalars -/

theorem yamlScalarToInt_snprintfInt {n : Int} (h : IsInt32 n) :
    yamlScalarToInt (some (.scalar (snprintfInt n))) = some n :=
  sscanfInt_snprintfInt h

theorem yamlScalarToBoolean_true : yamlScalarToBoolean (some (.scalar "TRUE")) = some true := by
  decide +kernel

theorem yamlScalarToBoolean_false : yamlScalarToBoolean (some (.scalar "FALSE")) = some false := by
  decide +kernel

theorem yamlScalarToBoolean_ite (val : Bool) :
    yamlScalarToBoolean (some (.scalar (if val then "TRUE" else "FALSE"))) = some val := by
  cases val
  · exact yamlScalarToBoolean_false
  · exact yamlScalarToBoolean_true

/-! ### Names -/

theorem mem_of_valName {α : Type} [DecidableEq α] {nameVals : List (String × α)} {val : α}
    {name : String} (h : valName nameVals val = some name) : (name, val) ∈ nameVals := by
  obtain ⟨nv, hfind, rfl⟩ := Option.map_eq_some_iff.mp h
  have hval : val = nv.2 := by simpa using List.find?_some hfind
  rw [hval]
  exact List.mem_of_find?_eq_some hfind

/-! ### Keys -/

theorem yamlMapAddStr_eq (key : String) (str : Option String) :
    yamlMapAddStr key str = yamlMapAddNode key (str.map YamlNode.scalar) := rfl

theorem yamlMapAddInt_eq (key : String) (val : Int) :
    yamlMapAddInt key val = yamlMapAddNode key (some (.scalar (snprintfInt val))) := rfl

theorem yamlMapAddBool_eq (key : String) (val : Bool) :
    yamlMapAddBool key val =
      yamlMapAddNode key (some (.scalar (if val then "TRUE" else "FALSE"))) := rfl

theorem yamlMapAddEnum_eq {α : Type} (key : String) (val : Option α) (name : α → Option String) :
    yamlMapAddEnum key val name = yamlMapAddNode key ((val.bind name).map YamlNode.scalar) := rfl

theorem yamlMapAddFloatNz_number (key : String) (q : ℚ) :
    yamlMapAddFloatNz key (.number q) = yamlMapAddNode key
      (if toFloat q = 0 then none else some (.scalar (snprintfFloat (toFloat q)))) := by
  simp only [yamlMapAddFloatNz, Floating.map_number, Floating.number_eq_zero]
  split <;> rfl

theorem yamlMapAddPlist_eq {α : Type} (key : String) (plist : List α) (fn : α → YamlNode) :
    yamlMapAddPlist key plist fn = yamlMapAddNode key
      (if plist.isEmpty then none else some (.sequence (plist.map fn))) := by
  unfold yamlMapAddPlist
  split <;> rfl

/-- What is added under a key is found under it, and nothing else changes. -/
theorem get?_foldl_yamlMapAddNode (m : YamlMap) (key : String) (node : Option YamlNode)
    (k : String) :
    ((yamlMapAddNode key node).foldl spmapPutPair m).get? k =
      if k = key then node.or (m.get? k) else m.get? k := by
  cases node with
  | none => simp [yamlMapAddNode]
  | some node =>
    have hput : (yamlMapAddNode key (some node)).foldl spmapPutPair m = m.put key node := rfl
    rw [hput]
    split
    · rename_i hk
      subst hk
      simp
    · rename_i hk
      exact OrderedMap.get?_put_ne m node hk

/-- The pairs of several keys, each of which may be left out. -/
def nodePairs (nodes : List (String × Option YamlNode)) : List YamlPair :=
  nodes.flatMap (fun n => yamlMapAddNode n.1 n.2)

theorem get?_nodePairs_of_not_mem {nodes : List (String × Option YamlNode)} {key : String}
    (h : key ∉ nodes.map Prod.fst) (m : YamlMap) :
    ((nodePairs nodes).foldl spmapPutPair m).get? key = m.get? key := by
  induction nodes generalizing m with
  | nil => rfl
  | cons n nodes ih =>
    rw [List.map_cons, List.mem_cons, not_or] at h
    rw [nodePairs, List.flatMap_cons, List.foldl_append]
    refine (ih h.2 _).trans ?_
    rw [get?_foldl_yamlMapAddNode, if_neg h.1]

/-- Of distinct keys, each is found with its node, if any. -/
theorem get?_nodePairs {nodes : List (String × Option YamlNode)}
    (hnodup : (nodes.map Prod.fst).Nodup) {key : String} {node : Option YamlNode}
    (h : (key, node) ∈ nodes) :
    ((nodePairs nodes).foldl spmapPutPair .empty).get? key = node := by
  suffices hfold : ∀ m : YamlMap, m.get? key = none →
      ((nodePairs nodes).foldl spmapPutPair m).get? key = node from hfold .empty rfl
  induction nodes with
  | nil => exact absurd h List.not_mem_nil
  | cons n nodes ih =>
    intro m hm
    obtain ⟨hnew, hnodup⟩ := List.nodup_cons.mp hnodup
    rw [nodePairs, List.flatMap_cons, List.foldl_append]
    rcases List.mem_cons.mp h with rfl | h
    · refine (get?_nodePairs_of_not_mem hnew _).trans ?_
      rw [get?_foldl_yamlMapAddNode, if_pos rfl, hm, Option.or_none]
    · refine ih hnodup h _ ?_
      have hne : key ≠ n.1 := by
        rintro rfl
        exact hnew (List.mem_map.mpr ⟨_, h, rfl⟩)
      rw [get?_foldl_yamlMapAddNode, if_neg hne, hm]

/-- Pairs with distinct keys make a map of these pairs, in their order. -/
theorem yamlMapToSpmap_of_nodup (es : List (String × YamlNode))
    (h : (es.map Prod.fst).Nodup) :
    yamlMapToSpmap (some (.mapping (es.map (fun e => (YamlNode.scalar e.1, e.2))))) =
      some ⟨es, h⟩ := by
  have hputs : (es.map (fun e => (YamlNode.scalar e.1, e.2))).foldl spmapPutPair .empty =
      OrderedMap.empty.putAll es := List.foldl_map
  have hentries : (OrderedMap.empty.putAll es).entries = es :=
    OrderedMap.entries_putAll (m := .empty) h
  rw [yamlMapToSpmap, hputs]
  exact congrArg some (OrderedMap.ext hentries)

end WayDisplays.Yaml.Scalars
