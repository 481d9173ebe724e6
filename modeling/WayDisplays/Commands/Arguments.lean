/- The arguments that are printed of a setting: they are read as that setting. -/

import WayDisplays.Commands.Settings
import WayDisplays.Yaml.CfgCodec

set_option autoImplicit false
set_option relaxedAutoImplicit false

namespace WayDisplays.Commands.Arguments

open Commands.Settings (Setting)
open Lib (Floating OrderedSet)
open Lib.Decimal
open Lib.Rounding (Near significant_nonneg)
open Lib.Shell (Plain Spelling plain)
open Model
open Yaml.CfgCodec (Named cfgElementVal_elementKey named_align named_arrange named_onOff
  named_transform sizedMode)
open Yaml.Scalars

/-! ### Numbers -/

theorem scaleMsg_eq {milliscale : Nat} (hlt : milliscale < 10 ^ 6) :
    scaleMsg milliscale = String.ofList (writeFixed milliscale 3) := by
  have hnear : Near (1 / 2 ^ 21) (toDouble (toDouble milliscale / 1000) * 10 ^ 3) milliscale := by
    have hscaled := (toDouble_near (milliscale : ℚ)).mul (1 / 1000)
    rw [mul_one_div, mul_one_div] at hscaled
    have hmul := ((toDouble_near _).trans (by norm_num) hscaled).mul (10 ^ 3)
    have hcancel : (milliscale : ℚ) / 1000 * 10 ^ 3 = milliscale := by
      norm_num [div_mul_cancel₀]
    rw [hcancel] at hmul
    exact hmul.mono (by norm_num)
  have hnonneg : 0 ≤ toDouble (toDouble milliscale / 1000) :=
    significant_nonneg (div_nonneg (significant_nonneg (Nat.cast_nonneg _)) (by norm_num))
  rw [scaleMsg, snprintfMillis, writeRounded_of_close hnonneg (close_of_near hlt hnear)]

/-- A numeral is read as the number that it stands for. -/
theorem strtofloating_of_numeral (round : ℚ → ℚ) {cs : List Char} {q : ℚ}
    (hnumeral : ∀ c ∈ cs, numeral c = true) (hspace : cs.dropWhile isSpace = cs)
    (hread : readDecimal cs = some q) :
    strtofloating round (String.ofList cs) = .number (round q) := by
  rw [strtofloating, String.toList_ofList, hspace, Floating.readFloating_of_numeral hnumeral, hread]
  rfl

theorem strtof_scaleMsg {milliscale : Nat} (hlt : milliscale < 10 ^ 6) :
    strtof (scaleMsg milliscale) = .number (toFloat (milliscale / 1000)) := by
  obtain ⟨c, cs, hc, hcs⟩ := exists_digit_writeFixed milliscale 3
  have hspace : (writeFixed milliscale 3).dropWhile isSpace = writeFixed milliscale 3 := by
    rw [hcs, dropWhile_isSpace_of_digit hc]
  have hread : readDecimal (writeFixed milliscale 3) = some ((milliscale : ℚ) / 1000) := by
    rw [hcs, readDecimal_of_digit hc, ← hcs, readUnsigned_writeFixed, div_eq_mul_inv]
    norm_num
  rw [strtof, scaleMsg_eq hlt]
  exact strtofloating_of_numeral toFloat (fun c hc => numeral_of_mem_writeFixed hc) hspace hread

theorem argsScale_scaleMsg {milliscale : Nat} (hlo : 1 ≤ milliscale) (hhi : milliscale ≤ 999999) :
    argsScale [scaleMsg milliscale] = some milliscale := by
  have hlt : milliscale < 10 ^ 6 := by omega
  have hpos : (0 : ℚ) < milliscale / 1000 := by
    have : (0 : ℚ) < milliscale := by exact_mod_cast hlo
    positivity
  have hscale : 0 < toFloat (milliscale / 1000) := (toFloat_near _).pos (by norm_num) hpos
  rw [argsScale, strtof_scaleMsg hlt, Floating.positive, if_pos (decide_eq_true hscale),
    toMilliscale, roundNearest_toFloat_thousandths hlt]
  rfl

theorem atoi_snprintfInt {n : Int} (h : IsInt32 n) : atoi (snprintfInt n) = n := by
  rw [atoi, sscanfInt_snprintfInt h, Option.getD_some]

def hzMsg (refreshMhz : Int) : String := snprintfFloat (toFloat (toFloat refreshMhz / 1000))

theorem atof_hzMsg {n : Nat} (hlt : n < 10 ^ 6) :
    atof (hzMsg n) = .number (toDouble (n / 1000)) := by
  have hvalue := significant_of_near_thousandths hlt (near_toFloat_thousandths n)
  rw [atof, hzMsg, Int.cast_natCast, snprintfFloat, ← hvalue]
  exact strtofloating_of_numeral toDouble (fun c hc => numeral_of_mem_writeGeneral hc)
    (dropWhile_isSpace_writeGeneral 6 _) (readDecimal_writeGeneral 6 _)

theorem argsModeRefresh_hzMsg (mode : Mode) {refreshMhz : Int} (hlo : 1 ≤ refreshMhz)
    (hhi : refreshMhz ≤ 999999) :
    argsModeRefresh mode [hzMsg refreshMhz] = some { mode with refreshMhz := refreshMhz } := by
  obtain ⟨n, rfl⟩ : ∃ n : ℕ, refreshMhz = n := ⟨refreshMhz.toNat, by omega⟩
  have hlt : n < 10 ^ 6 := by omega
  have hnear : Near (1 / 2 ^ 21) (toDouble (toDouble (n / 1000) * 1000)) n := by
    have hmul := (toDouble_near ((n : ℚ) / 1000)).mul 1000
    rw [div_mul_cancel₀ _ (by norm_num)] at hmul
    exact ((toDouble_near _).trans (by norm_num) hmul).mono (by norm_num)
  have hround : toInt32 (roundNearest (toDouble (toDouble (n / 1000) * 1000))) = n := by
    rw [roundNearest_of_near hlt hnear, toInt32_eq ⟨by omega, by omega⟩]
  rw [argsModeRefresh, atof_hzMsg hlt, lroundMhz, hround]
  exact if_pos (by omega)

/-! ### Arguments -/

def element : Setting → String
  | .arrangeAlign .. => "ARRANGE_ALIGN"
  | .order .. => "ORDER"
  | .scaling .. => "SCALING"
  | .autoScale .. => "AUTO_SCALE"
  | .scale .. => "SCALE"
  | .mode .. => "MODE"
  | .transform .. => "TRANSFORM"
  | .disabled .. => "DISABLED"
  | .vrrOff .. => "VRR_OFF"
  | .callbackCmd .. => "CALLBACK_CMD"

def bare (s : String) : Spelling := .bare s.toList

def quoted (s : String) : Spelling := .quoted s.toList

def modeArguments (mode : Mode) : List String :=
  if mode.max then ["MAX"]
  else if mode.refreshMhz ≠ -1 then
    [snprintfInt mode.width, snprintfInt mode.height, hzMsg mode.refreshMhz]
  else [snprintfInt mode.width, snprintfInt mode.height]

/-- Names are quoted, numbers and the names of enumerations are not. -/
def arguments : Setting → List Spelling
  | .arrangeAlign arrange align =>
    [bare (strOrNull (arrangeName arrange)), bare (strOrNull (alignName align))]
  | .order names => names.vals.map quoted
  | .scaling val | .autoScale val => [bare (strOrNull (onOffName val))]
  | .scale nameDesc milliscale => [quoted nameDesc, bare (scaleMsg milliscale)]
  | .mode nameDesc mode => quoted nameDesc :: (modeArguments mode).map bare
  | .transform nameDesc transform => [quoted nameDesc, bare (strOrNull (transformName transform))]
  | .disabled nameDesc | .vrrOff nameDesc => [quoted nameDesc]
  | .callbackCmd cmd => [quoted cmd]

/-- A string that a quoted word can hold, and that is no option. -/
structure Quotable (s : String) : Prop where
  noQuote : '\'' ∉ s.toList
  noOption : s.toList.head? ≠ some '-'

/-- MAX alone, or a size that may come with a refresh. -/
def ModePrintable (mode : Mode) : Prop :=
  mode = { modeInit with max := true } ∨
    ∃ width height refreshMhz, IsInt32 width ∧ IsInt32 height ∧ 0 < width ∧ 0 < height ∧
      (refreshMhz = -1 ∨ 1 ≤ refreshMhz ∧ refreshMhz ≤ 999999) ∧
      mode = sizedMode width height refreshMhz

def Printable : Setting → Prop
  | .order names => names.size > 0 ∧ ∀ name ∈ names.vals, Quotable name
  | .scale nameDesc milliscale => Quotable nameDesc ∧ 1 ≤ milliscale ∧ milliscale ≤ 999999
  | .mode nameDesc mode => Quotable nameDesc ∧ ModePrintable mode
  | .transform nameDesc transform => Quotable nameDesc ∧ transform ≠ .normal
  | .disabled nameDesc | .vrrOff nameDesc => Quotable nameDesc
  | .callbackCmd cmd => Quotable cmd
  | _ => True

/-! ### Words -/

/-- Read as its word, which is no option. -/
def Operand (a : Spelling) : Prop := a.Clean ∧ a.word.head? ≠ some '-'

instance (a : Spelling) : Decidable (Operand a) := inferInstanceAs (Decidable (_ ∧ _))

theorem plain_of_numeral {c : Char} (h : numeral c = true) : plain c = true := by
  have hall : ∀ d ∈ Lib.Shell.special ++ [' ', '\t', '\n', '\''], numeral d = false :=
    @of_decide_eq_true _ (List.decidableBAll _ _) rfl
  have hnot : c ∉ Lib.Shell.special ++ [' ', '\t', '\n', '\''] := by
    intro hc
    rw [hall c hc] at h
    exact Bool.false_ne_true h
  rw [List.mem_append, not_or] at hnot
  rw [plain, decide_eq_true hnot.1, decide_eq_true hnot.2, Bool.true_and]

theorem operand_numeral {cs : List Char} (hdigit : ∃ c ds, c.isDigit = true ∧ cs = c :: ds)
    (h : ∀ c ∈ cs, numeral c = true) : Operand (bare (String.ofList cs)) := by
  obtain ⟨c, ds, hc, rfl⟩ := hdigit
  rw [bare, String.toList_ofList]
  refine ⟨⟨List.cons_ne_nil c ds, fun d hd => plain_of_numeral (h d hd)⟩, ?_⟩
  rintro hdash
  obtain rfl := Option.some.inj hdash
  exact absurd hc (by decide)

theorem operand_snprintfInt {n : Int} (h : 0 < n) : Operand (bare (snprintfInt n)) := by
  refine operand_numeral ?_ fun c hc => numeral_of_mem_writeInt hc
  rw [writeInt, if_neg (by omega)]
  exact exists_digit_digits _

theorem operand_scaleMsg {milliscale : Nat} (hlt : milliscale < 10 ^ 6) :
    Operand (bare (scaleMsg milliscale)) := by
  rw [scaleMsg_eq hlt]
  exact operand_numeral (exists_digit_writeFixed _ _) fun c hc => numeral_of_mem_writeFixed hc

theorem operand_hzMsg {refreshMhz : Int} (h : 1 ≤ refreshMhz) :
    Operand (bare (hzMsg refreshMhz)) := by
  have hcast : (0 : ℚ) ≤ refreshMhz := by exact_mod_cast (by omega : 0 ≤ refreshMhz)
  have hnonneg : 0 ≤ toFloat (toFloat refreshMhz / 1000) :=
    significant_nonneg (div_nonneg (significant_nonneg hcast) (by norm_num))
  exact operand_numeral (exists_digit_writeGeneral 6 hnonneg)
    fun c hc => numeral_of_mem_writeGeneral hc

theorem operand_quoted {s : String} (h : Quotable s) : Operand (quoted s) :=
  ⟨h.noQuote, h.noOption⟩

/-- MAX, and the names that may stand behind a command. -/
def bareNames : List String :=
  "MAX" :: (arranges.map Prod.fst ++ aligns.map Prod.fst ++ onOffs.map Prod.fst ++
    transforms.map Prod.fst)

theorem operand_bareNames : ∀ name ∈ bareNames, Operand (bare name) := by
  decide +kernel

theorem operand_named {α : Type} {nameVals : List (String × α)}
    (htable : nameVals.map Prod.fst ⊆ bareNames) [DecidableEq α] {val : String → Option α} {a : α}
    (h : Named (valName nameVals) val a) : Operand (bare (strOrNull (valName nameVals a))) := by
  obtain ⟨s, hs, -⟩ := h
  rw [hs]
  exact operand_bareNames s (htable (List.mem_map_of_mem (mem_of_valName hs)))

theorem operand_arrange (arrange : Arrange) : Operand (bare (strOrNull (arrangeName arrange))) :=
  operand_named (fun s hs => by simp [bareNames, hs]) (named_arrange arrange)

theorem operand_align (align : Align) : Operand (bare (strOrNull (alignName align))) :=
  operand_named (fun s hs => by simp [bareNames, hs]) (named_align align)

theorem operand_onOff (val : OnOff) : Operand (bare (strOrNull (onOffName val))) :=
  operand_named (fun s hs => by simp [bareNames, hs]) (named_onOff val)

theorem operand_transform {transform : Transform} (h : transform ≠ .normal) :
    Operand (bare (strOrNull (transformName transform))) :=
  operand_named (fun s hs => by simp [bareNames, hs]) (named_transform h)

theorem modeArguments_sizedMode (width height refreshMhz : Int) :
    modeArguments (sizedMode width height refreshMhz) =
      snprintfInt width :: snprintfInt height ::
        if refreshMhz = -1 then [] else [hzMsg refreshMhz] := by
  have hmax : (sizedMode width height refreshMhz).max = false := rfl
  have hrefresh : (sizedMode width height refreshMhz).refreshMhz = refreshMhz := rfl
  rw [modeArguments, hmax, hrefresh, if_neg Bool.false_ne_true]
  by_cases hunset : refreshMhz = -1
  · rw [if_neg (not_not.mpr hunset), if_pos hunset]
    rfl
  · rw [if_pos hunset, if_neg hunset]
    rfl

theorem operand_modeArguments {mode : Mode} (h : ModePrintable mode) :
    ∀ s ∈ modeArguments mode, Operand (bare s) := by
  intro s hs
  rcases h with rfl | ⟨width, height, refreshMhz, -, -, hwidth, hheight, hrefresh, rfl⟩
  · rw [List.mem_singleton.mp hs]
    exact operand_bareNames "MAX" List.mem_cons_self
  · rw [modeArguments_sizedMode] at hs
    rcases List.mem_cons.mp hs with rfl | hs
    · exact operand_snprintfInt hwidth
    · rcases List.mem_cons.mp hs with rfl | hs
      · exact operand_snprintfInt hheight
      · split at hs
        · exact absurd hs List.not_mem_nil
        · rw [List.mem_singleton.mp hs]
          exact operand_hzMsg (by omega)

theorem operand_arguments {setting : Setting} (h : Printable setting) :
    ∀ a ∈ arguments setting, Operand a := by
  intro a ha
  cases setting with
  | arrangeAlign arrange align =>
    rcases List.mem_pair.mp ha with rfl | rfl
    · exact operand_arrange arrange
    · exact operand_align align
  | order names =>
    obtain ⟨name, hname, rfl⟩ := List.mem_map.mp ha
    exact operand_quoted (h.2 name hname)
  | scaling val =>
    rw [List.mem_singleton.mp ha]
    exact operand_onOff val
  | autoScale val =>
    rw [List.mem_singleton.mp ha]
    exact operand_onOff val
  | scale nameDesc milliscale =>
    obtain ⟨hname, -, hhi⟩ := h
    rcases List.mem_pair.mp ha with rfl | rfl
    · exact operand_quoted hname
    · exact operand_scaleMsg (by omega)
  | mode nameDesc mode =>
    rcases List.mem_cons.mp ha with rfl | ha
    · exact operand_quoted h.1
    · obtain ⟨s, hs, rfl⟩ := List.mem_map.mp ha
      exact operand_modeArguments h.2 s hs
  | transform nameDesc transform =>
    rcases List.mem_pair.mp ha with rfl | rfl
    · exact operand_quoted h.1
    · exact operand_transform h.2
  | disabled nameDesc =>
    rw [List.mem_singleton.mp ha]
    exact operand_quoted h
  | vrrOff nameDesc =>
    rw [List.mem_singleton.mp ha]
    exact operand_quoted h
  | callbackCmd cmd =>
    rw [List.mem_singleton.mp ha]
    exact operand_quoted h

/-! ### What the client reads -/

def argument (a : Spelling) : String := String.ofList a.word

@[simp] theorem argument_bare (s : String) : argument (bare s) = s := String.ofList_toList

@[simp] theorem argument_quoted (s : String) : argument (quoted s) = s := String.ofList_toList

theorem map_argument_bare (ss : List String) : (ss.map bare).map argument = ss := by
  simp [Function.comp_def]

theorem map_argument_quoted (ss : List String) : (ss.map quoted).map argument = ss := by
  simp [Function.comp_def]

theorem strcasecmpEqual_snprintfInt {n : Int} (h : 0 < n) :
    strcasecmpEqual (snprintfInt n) "MAX" = false := by
  obtain ⟨c, cs, hc, hcs⟩ := exists_digit_digits n.natAbs
  have hdigits : (snprintfInt n).toList = c :: cs := by
    rw [snprintfInt, String.toList_ofList, writeInt, if_neg (by omega), hcs]
  have hmax : "MAX".toList.map Char.toLower = ['m', 'a', 'x'] := rfl
  have hlower : c.toLower = c := by
    rw [Char.isDigit, Bool.and_eq_true, decide_eq_true_eq, decide_eq_true_eq] at hc
    refine dif_neg fun hupper => ?_
    exact absurd (UInt32.le_trans hupper.1 hc.2) (by decide)
  rw [strcasecmpEqual, hdigits, hmax, List.map_cons, hlower, beq_eq_false_iff_ne]
  intro heq
  obtain rfl := (List.cons.inj heq).1
  exact absurd hc (by decide)

theorem argsMode_modeArguments {mode : Mode} (h : ModePrintable mode) :
    argsMode (modeArguments mode) = some mode := by
  rcases h with rfl | ⟨width, height, refreshMhz, hw, hh, hwidth, hheight, hrefresh, rfl⟩
  · have hargs : modeArguments { modeInit with max := true } = ["MAX"] := if_pos rfl
    have hmax : strcasecmpEqual "MAX" "MAX" = true := beq_self_eq_true _
    rw [hargs, argsMode, if_pos hmax]
  · rw [modeArguments_sizedMode, argsMode,
      if_neg (by rw [strcasecmpEqual_snprintfInt hwidth]; simp), atoi_snprintfInt hw,
      atoi_snprintfInt hh]
    dsimp only
    rw [if_pos ⟨hwidth, hheight⟩]
    rcases hrefresh with rfl | ⟨hlo, hhi⟩
    · rfl
    · rw [if_neg (by omega)]
      exact argsModeRefresh_hzMsg _ hlo hhi

theorem onOffVal_onOffName (val : OnOff) : onOffVal (strOrNull (onOffName val)) = some val := by
  obtain ⟨s, hs, hsVal⟩ := named_onOff val
  rw [onOffName, hs]
  exact hsVal

def cfgElementOf : Setting → CfgElement
  | .arrangeAlign .. => .arrangeAlign
  | .order .. => .order
  | .scaling .. => .scaling
  | .autoScale .. => .autoScale
  | .scale .. => .scale
  | .mode .. => .mode
  | .transform .. => .transform
  | .disabled .. => .disabled
  | .vrrOff .. => .vrrOff
  | .callbackCmd .. => .callbackCmd

theorem cfgElementVal_element (setting : Setting) :
    cfgElementVal (element setting) = some (cfgElementOf setting) := by
  have hread := cfgElementVal_elementKey (cfgElementOf setting)
  cases setting <;> exact hread

theorem argsIpcSetTakes_arguments {setting : Setting} (h : Printable setting) :
    argsIpcSetTakes (cfgElementOf setting) (arguments setting).length = true := by
  cases setting with
  | order names =>
    have hsize : 1 ≤ (names.vals.map quoted).length := by
      rw [List.length_map]
      exact h.1
    exact decide_eq_true hsize
  | mode nameDesc mode =>
    rcases h.2 with rfl | ⟨width, height, refreshMhz, -, -, -, -, -, rfl⟩
    · rfl
    · have hlength : (arguments (.mode nameDesc (sizedMode width height refreshMhz))).length =
          3 + (if refreshMhz = -1 then [] else [hzMsg refreshMhz]).length := by
        rw [arguments, modeArguments_sizedMode, List.length_cons, List.length_map, List.length_cons,
          List.length_cons]
        omega
      rw [hlength]
      split <;> rfl
  | _ => rfl

theorem argsCfg_arguments {setting : Setting} (h : Printable setting) :
    argsCfg .cfgSet (cfgElementOf setting) ((arguments setting).map argument) =
      some (setting.apply cfgInit) := by
  cases setting with
  | arrangeAlign arrange align =>
    obtain ⟨s, hs, hsVal⟩ := named_arrange arrange
    obtain ⟨t, ht, htVal⟩ := named_align align
    simp only [arguments, List.map_cons, List.map_nil, argument_bare, hs, ht, strOrNull,
      Option.getD_some, argsCfg, cfgElementOf, argsCfgArrangeAlign, hsVal, htVal, Option.bind_some,
      Option.map_some]
    rfl
  | order names =>
    rw [arguments, map_argument_quoted]
    exact congrArg (fun names => some { cfgInit with orderNameDesc := names })
      (OrderedSet.addAll_empty names)
  | scaling val =>
    rw [arguments, List.map_singleton, argument_bare]
    exact congrArg (Option.map _) (onOffVal_onOffName val)
  | autoScale val =>
    rw [arguments, List.map_singleton, argument_bare]
    exact congrArg (Option.map _) (onOffVal_onOffName val)
  | scale nameDesc milliscale =>
    rw [arguments, List.map_cons, List.map_singleton, argument_quoted, argument_bare]
    exact congrArg (Option.map _) (argsScale_scaleMsg h.2.1 h.2.2)
  | mode nameDesc mode =>
    rw [arguments, List.map_cons, map_argument_bare, argument_quoted]
    exact congrArg (Option.map _) (argsMode_modeArguments h.2)
  | transform nameDesc transform =>
    obtain ⟨s, hs, hsVal⟩ := named_transform h.2
    rw [arguments, List.map_cons, List.map_singleton, argument_quoted, argument_bare, hs]
    exact congrArg (Option.map _) hsVal
  | disabled nameDesc =>
    rw [arguments, List.map_singleton, argument_quoted]
    rfl
  | vrrOff nameDesc =>
    rw [arguments, List.map_singleton, argument_quoted]
    rfl
  | callbackCmd cmd =>
    rw [arguments, List.map_singleton, argument_quoted]
    rfl

/-- What is read of the arguments is the request for the setting. -/
theorem argsIpcSet_arguments {setting : Setting} (h : Printable setting) :
    argsIpcSet (element setting) ((arguments setting).map argument) = some setting.request := by
  have hlength : ((arguments setting).map argument).length = (arguments setting).length :=
    List.length_map _
  rw [argsIpcSet, cfgElementVal_element, Option.bind_some, hlength,
    if_pos (argsIpcSetTakes_arguments h), argsCfg_arguments h]
  rfl

theorem isOperand_argument {a : Spelling} (h : Operand a) : isOperand (argument a) = true := by
  rw [isOperand, argument, String.toList_ofList, decide_eq_true h.2, Bool.or_true]

theorem cliParse_arguments {setting : Setting} (h : Printable setting) :
    cliParse ("way-displays" :: "-s" :: element setting :: (arguments setting).map argument) =
      some setting.request := by
  have hoperands : ((arguments setting).map argument).all isOperand = true := by
    rw [List.all_eq_true]
    intro s hs
    obtain ⟨a, ha, rfl⟩ := List.mem_map.mp hs
    exact isOperand_argument (operand_arguments h a ha)
  rw [cliParse, if_pos ⟨rfl, rfl, hoperands⟩, argsIpcSet_arguments h]

end WayDisplays.Commands.Arguments
