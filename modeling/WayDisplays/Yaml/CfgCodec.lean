/- Configurations on their way to a file or a client: they arrive as they were sent. -/

import WayDisplays.CfgFile.Equality
import WayDisplays.CfgFile.Validity
import WayDisplays.Yaml.Scalars

set_option autoImplicit false
set_option relaxedAutoImplicit false

namespace WayDisplays.Yaml.CfgCodec

open CfgFile.Equality
open CfgFile.Validity
open Lib (Floating OrderedMap OrderedSet)
open Lib.Rounding
open Model Scalars

/-! ### What is sent -/

/-- The `float` that is nearest to a number of at most six significant digits. -/
def SixDigits (val : Floating) : Prop :=
  ∃ (n : ℕ) (k : ℤ), n < 10 ^ 6 ∧
    (val = .number (toFloat (n * 10 ^ k)) ∨ val = .number (toFloat (-(n * 10 ^ k))))

def sizedMode (width height refreshMhz : Int) : Mode :=
  { width := width, height := height, refreshMhz := refreshMhz,
    max := false, maxPreferredRefresh := false, warnedNoMode := false }

/-- Only MAX, only MAX_PREFERRED_REFRESH, or a size that may come with a refresh. -/
def ModeCanonical (mode : Mode) : Prop :=
  mode = { modeInit with max := true } ∨
    mode = { modeInit with maxPreferredRefresh := true } ∨
    ∃ width height refreshMhz, IsInt32 width ∧ IsInt32 height ∧
      (refreshMhz = -1 ∨ 1 ≤ refreshMhz ∧ refreshMhz ≤ 999999) ∧
      mode = sizedMode width height refreshMhz

section Codec

variable [Platform]

/-- Names or descriptions that are plain, or patterns that compile. -/
def ValidNameDescs (nameDescs : List String) : Prop :=
  ∀ nameDesc ∈ nameDescs, yamlValidNameDesc nameDesc = true

instance (nameDescs : List String) : Decidable (ValidNameDescs nameDescs) :=
  List.decidableBAll _ nameDescs

/-- A condition with something in it. -/
structure ConditionWritable (condition : CfgCondition) : Prop where
  plugged : ValidNameDescs condition.plugged.vals
  unplugged : ValidNameDescs condition.unplugged.vals
  nontrivial : Nontrivial condition

/-- Every element is unset or has a value that can be written. -/
structure CfgWritable (cfg : Cfg) : Prop where
  orderNameDesc : ValidNameDescs cfg.orderNameDesc.vals
  scaleRoundTo : cfg.scaleRoundTo ∈ [0, 1, 2, 4, 8]
  autoScaleDpi : IsInt32 cfg.autoScaleDpi
  autoScaleMin : SixDigits cfg.autoScaleMin
  autoScaleMax : SixDigits cfg.autoScaleMax
  scaleNames : ValidNameDescs cfg.scales.keys
  scales : ∀ milliscale ∈ cfg.scales.vals, 1 ≤ milliscale ∧ milliscale ≤ 999999
  modeNames : ValidNameDescs cfg.modes.keys
  modes : ∀ mode ∈ cfg.modes.vals, ModeCanonical mode
  transformNames : ValidNameDescs cfg.transforms.keys
  transforms : ∀ transform ∈ cfg.transforms.vals, transform ≠ .normal
  adaptiveSyncOff : ValidNameDescs cfg.adaptiveSyncOff.vals
  disabledNames : ValidNameDescs cfg.disableds.keys
  conditions : ∀ disabled ∈ cfg.disableds.vals, ∀ condition ∈ disabled.conditions.vals,
    ConditionWritable condition

/-- A configuration with the marker that its DISABLED map comes with. -/
def remarked (cfg : Cfg) : Cfg := { cfg with disabledsEmpty := decide (cfg.disableds.size = 0) }

/-! ### Names of the enumerations -/

/-- A value that is found by its name. -/
def Named {α : Type} (name : α → Option String) (val : String → Option α) (a : α) : Prop :=
  ∃ s, name a = some s ∧ val s = some a

omit [Platform] in
theorem tables_read :
    (∀ nv ∈ cfgElements, cfgElementVal nv.1 = some nv.2) ∧
    (∀ nv ∈ arranges, arrangeValStart nv.1 = some nv.2) ∧
    (∀ nv ∈ aligns, alignValStart nv.1 = some nv.2) ∧
    (∀ nv ∈ onOffs, onOffVal nv.1 = some nv.2) ∧
    (∀ nv ∈ scaleRoundStrategies, scaleRoundStrategyVal nv.1 = some nv.2) ∧
    (∀ nv ∈ logThresholds, logThresholdVal nv.1 = some nv.2) ∧
    (∀ nv ∈ conditionLids, conditionLidVal nv.1 = some nv.2) ∧
    (∀ nv ∈ transforms, transformVal nv.1 = some nv.2) ∧
    (∀ nv ∈ scaleRoundTos, yamlScalarToScaleRoundTo (some (.scalar nv.1)) = nv.2) := by
  decide +kernel

omit [Platform] in
theorem named_of_table {α : Type} [DecidableEq α] {nameVals : List (String × α)}
    {val : String → Option α} (hread : ∀ nv ∈ nameVals, val nv.1 = some nv.2) {a : α}
    (h : (valName nameVals a).isSome = true) : Named (valName nameVals) val a := by
  obtain ⟨s, hs⟩ := Option.isSome_iff_exists.mp h
  exact ⟨s, hs, hread (s, a) (mem_of_valName hs)⟩

omit [Platform] in
theorem cfgElementVal_elementKey (element : CfgElement) :
    cfgElementVal (elementKey element) = some element := by
  have hnamed : Named cfgElementName cfgElementVal element :=
    named_of_table tables_read.1 (by cases element <;> rfl)
  obtain ⟨s, hname, hval⟩ := hnamed
  rw [elementKey, hname, Option.getD_some, hval]

omit [Platform] in
/-- A name of these is its own start, and the start of none before it. -/
theorem named_arrange (arrange : Arrange) : Named arrangeName arrangeValStart arrange :=
  named_of_table tables_read.2.1 (by cases arrange <;> rfl)

omit [Platform] in
theorem named_align (align : Align) : Named alignName alignValStart align :=
  named_of_table tables_read.2.2.1 (by cases align <;> rfl)

omit [Platform] in
theorem named_onOff (onOff : OnOff) : Named (valName onOffs) onOffVal onOff :=
  named_of_table tables_read.2.2.2.1 (by cases onOff <;> rfl)

omit [Platform] in
theorem named_scaleRoundStrategy (strategy : ScaleRoundStrategy) :
    Named scaleRoundStrategyName scaleRoundStrategyVal strategy :=
  named_of_table tables_read.2.2.2.2.1 (by cases strategy <;> rfl)

omit [Platform] in
theorem named_logThreshold (threshold : LogThreshold) :
    Named logThresholdName logThresholdVal threshold :=
  named_of_table tables_read.2.2.2.2.2.1 (by cases threshold <;> rfl)

omit [Platform] in
theorem named_conditionLid (lid : ConditionLid) : Named conditionLidName conditionLidVal lid :=
  named_of_table tables_read.2.2.2.2.2.2.1 (by cases lid <;> rfl)

omit [Platform] in
theorem named_transform {transform : Transform} (h : transform ≠ .normal) :
    Named transformName transformVal transform := by
  refine named_of_table tables_read.2.2.2.2.2.2.2.1 ?_
  cases transform with
  | normal => exact absurd rfl h
  | _ => rfl

omit [Platform] in
/-- The inverse of a scale is named by that scale, zero has no name. -/
theorem exists_scaleRoundToName {scaleRoundTo : Nat} (h : scaleRoundTo ∈ [1, 2, 4, 8]) :
    ∃ name, scaleRoundToName scaleRoundTo = some name ∧
      yamlScalarToScaleRoundTo (some (.scalar name)) = scaleRoundTo := by
  have hsome : (scaleRoundToName scaleRoundTo).isSome = true := by
    simp only [List.mem_cons, List.not_mem_nil, or_false] at h
    rcases h with rfl | rfl | rfl | rfl <;> rfl
  obtain ⟨name, hname⟩ := Option.isSome_iff_exists.mp hsome
  exact ⟨name, hname, tables_read.2.2.2.2.2.2.2.2 (name, scaleRoundTo) (mem_of_valName hname)⟩

omit [Platform] in
theorem yamlScalarToOnOffDef_write (val : OnOff) :
    yamlScalarToOnOffDef .on
      (some (.scalar (if decide (val = .on) then "TRUE" else "FALSE"))) = val := by
  rw [yamlScalarToOnOffDef, yamlScalarToBoolean_ite]
  cases val <;> rfl

/-! ### Sets of names -/

theorem yamlSeqIntoNameDescSset_write {sset : Sset} (h : ValidNameDescs sset.vals) :
    yamlSeqIntoNameDescSset .empty (.sequence (sset.vals.map YamlNode.scalar)) = sset := by
  have hadd : ∀ s, ∀ nameDesc ∈ sset.vals,
      addNameDesc s (.scalar nameDesc) = s.add nameDesc := by
    intro s nameDesc hmem
    have hvalid : yamlScalarToNameDesc (some (.scalar nameDesc)) = some nameDesc := by
      rw [yamlScalarToNameDesc, yamlScalarToString, Option.filter_some, if_pos (h nameDesc hmem)]
    rw [addNameDesc, hvalid, Option.elim_some]
  calc yamlSeqIntoNameDescSset .empty (.sequence (sset.vals.map YamlNode.scalar))
      = sset.vals.foldl (fun s nameDesc => addNameDesc s (.scalar nameDesc)) .empty := by
        rw [yamlSeqIntoNameDescSset, yamlSeqIntoCol, Option.getD_some, List.foldl_map]
    _ = OrderedSet.empty.addAll sset := List.foldl_ext _ _ _ hadd
    _ = sset := OrderedSet.addAll_empty sset

omit [Platform] in
theorem eq_empty_of_size {α : Type} {eqVal : α → α → Bool} {s : OrderedSet α eqVal}
    (h : s.size = 0) : s = .empty :=
  OrderedSet.ext (List.length_eq_zero_iff.mp h)

/-! ### Maps by name or description -/

section Map

variable {ν : Type} {map : OrderedMap String ν}

omit [Platform] in
theorem yamlMapFrom_eq {add : String → ν → List YamlPair} (node : ν → YamlNode)
    (hadd : ∀ e ∈ map.entries, add e.1 e.2 = [(.scalar e.1, node e.2)]) (hsize : map.size ≠ 0) :
    yamlMapFrom map add = .mapping ((map.entries.map (fun e => (e.1, node e.2))).map
      (fun e => (YamlNode.scalar e.1, e.2))) := by
  rw [yamlMapFrom, if_neg hsize, List.map_map]
  congr 1
  calc map.entries.flatMap (fun e => add e.1 e.2)
      = map.entries.flatMap (fun e => [(YamlNode.scalar e.1, node e.2)]) :=
        List.flatMap_congr hadd
    _ = map.entries.map (fun e => (YamlNode.scalar e.1, node e.2)) := List.map_eq_flatMap.symm

/-- What each entry becomes is put back under its key. -/
theorem yamlMapIntoByNameDesc_write (node : ν → YamlNode)
    {into : OrderedMap String ν → String → YamlNode → OrderedMap String ν}
    (hnames : ValidNameDescs map.keys)
    (hinto : ∀ e ∈ map.entries, ∀ m, e.1 ∉ m.keys → into m e.1 (node e.2) = m.put e.1 e.2) :
    yamlMapIntoByNameDesc into .empty (.mapping ((map.entries.map (fun e => (e.1, node e.2))).map
      (fun e => (YamlNode.scalar e.1, e.2)))) = map := by
  have hnodup : ((map.entries.map (fun e => (e.1, node e.2))).map Prod.fst).Nodup := by
    rw [List.map_map]
    exact map.nodup
  have hput : ∀ e ∈ map.entries, ∀ m, e.1 ∉ m.keys →
      intoByNameDesc into m (e.1, node e.2) = m.put e.1 e.2 := by
    intro e he m hnew
    rw [intoByNameDesc, if_pos (hnames e.1 (List.mem_map_of_mem he))]
    exact hinto e he m hnew
  rw [yamlMapIntoByNameDesc, yamlMapToSpmap_of_nodup _ hnodup, Option.elim_some, List.foldl_map]
  exact (OrderedMap.foldl_eq_putAll (m := .empty) hput map.nodup).trans
    (OrderedMap.putAll_entries map)

omit [Platform] in
theorem putIfAbsent_new {m : OrderedMap String ν} {key : String} (hnew : key ∉ m.keys) (val : ν) :
    putIfAbsent m key (some val) = m.put key val := by
  have hcontains : m.contains key = false := decide_eq_false hnew
  rw [putIfAbsent, hcontains, if_neg Bool.false_ne_true]

end Map

/-! ### Scales -/

def scaleNode (milliscale : Nat) : YamlNode :=
  .scalar (snprintfFloat (toFloat (toDouble (milliscale / 1000))))

omit [Platform] in
theorem near_toFloat_toDouble (q : ℚ) : Near (1 / 2 ^ 22) (toFloat (toDouble q)) q :=
  ((toFloat_near _).trans (by norm_num) (toDouble_near q)).mono (by norm_num)

omit [Platform] in
theorem milliscaleOf_scaleNode {milliscale : Nat} (hlo : 1 ≤ milliscale)
    (hhi : milliscale ≤ 999999) : milliscaleOf (some (scaleNode milliscale)) = some milliscale := by
  have hlt : milliscale < 10 ^ 6 := by omega
  have hpos : (0 : ℚ) < milliscale / 1000 := by
    have : (0 : ℚ) < milliscale := by exact_mod_cast hlo
    positivity
  have hread : yamlScalarToFloat (some (scaleNode milliscale)) =
      some (.number (toFloat (milliscale / 1000))) :=
    sscanfFloat_of_near_thousandths hlt (near_toFloat_toDouble _)
  have hscale : ¬ toFloat (milliscale / 1000) ≤ 0 :=
    not_le.mpr ((toFloat_near _).pos (by norm_num) hpos)
  rw [milliscaleOf, hread, Option.filter_some, Floating.nonpositive, decide_eq_false hscale,
    Bool.not_false, if_pos rfl, Option.map_some, toMilliscale,
    roundNearest_toFloat_thousandths hlt]
  rfl

omit [Platform] in
/-- A scale is never left out. -/
theorem yamlMapAddFloatNz_milliscale (nameDesc : String) {milliscale : Nat}
    (hlo : 1 ≤ milliscale) : yamlMapAddFloatNz nameDesc (.number (toDouble (milliscale / 1000))) =
      [(.scalar nameDesc, scaleNode milliscale)] := by
  have hscale : (milliscale : ℚ) / 1000 ≠ 0 := by
    have : (0 : ℚ) < milliscale := by exact_mod_cast hlo
    positivity
  rw [yamlMapAddFloatNz_number, if_neg ((near_toFloat_toDouble _).ne_zero (by norm_num) hscale)]
  rfl

theorem yamlMapIntoScales_write {scales : OrderedMap String Nat}
    (hnames : ValidNameDescs scales.keys)
    (hscales : ∀ milliscale ∈ scales.vals, 1 ≤ milliscale ∧ milliscale ≤ 999999)
    (hsize : scales.size ≠ 0) :
    ∃ pairs, yamlMapFromScales scales = .mapping pairs ∧
      yamlMapIntoScales .empty (.mapping pairs) = scales := by
  have hvals : ∀ e ∈ scales.entries, 1 ≤ e.2 ∧ e.2 ≤ 999999 :=
    fun e he => hscales e.2 (List.mem_map_of_mem he)
  refine ⟨_, yamlMapFrom_eq scaleNode ?_ hsize, yamlMapIntoByNameDesc_write scaleNode hnames ?_⟩
  · intro e he
    exact yamlMapAddFloatNz_milliscale e.1 (hvals e he).1
  · intro e he m hnew
    rw [intoScales, milliscaleOf_scaleNode (hvals e he).1 (hvals e he).2]
    exact putIfAbsent_new hnew e.2

/-! ### Transforms -/

def transformNode (transform : Transform) : YamlNode :=
  .scalar ((transformName transform).getD "")

theorem yamlMapIntoTransforms_write {transforms : OrderedMap String Transform}
    (hnames : ValidNameDescs transforms.keys)
    (htransforms : ∀ transform ∈ transforms.vals, transform ≠ .normal)
    (hsize : transforms.size ≠ 0) :
    ∃ pairs, yamlMapFromTransforms transforms = .mapping pairs ∧
      yamlMapIntoTransforms .empty (.mapping pairs) = transforms := by
  have hnamed : ∀ e ∈ transforms.entries, Named transformName transformVal e.2 :=
    fun e he => named_transform (htransforms e.2 (List.mem_map_of_mem he))
  refine ⟨_, yamlMapFrom_eq transformNode ?_ hsize,
    yamlMapIntoByNameDesc_write transformNode hnames ?_⟩
  · intro e he
    obtain ⟨name, hname, -⟩ := hnamed e he
    rw [transformNode, hname]
    rfl
  · intro e he m hnew
    obtain ⟨name, hname, hval⟩ := hnamed e he
    have hread : yamlScalarToEnum transformVal (some (transformNode e.2)) = some e.2 := by
      rw [transformNode, hname]
      exact hval
    rw [intoTransforms, hread]
    exact putIfAbsent_new hnew e.2

/-! ### Modes -/

omit [Platform] in
theorem mhzOfHz_write {refreshMhz : Int} (hlo : 1 ≤ refreshMhz) (hhi : refreshMhz ≤ 999999) :
    (yamlScalarToFloat (some (.scalar
      (snprintfFloat (toFloat (toFloat refreshMhz / 1000)))))).map mhzOfHz = some refreshMhz := by
  obtain ⟨n, rfl⟩ : ∃ n : ℕ, refreshMhz = n := ⟨refreshMhz.toNat, by omega⟩
  have hlt : n < 10 ^ 6 := by omega
  have hread : yamlScalarToFloat (some (.scalar
      (snprintfFloat (toFloat (toFloat ((n : ℤ) : ℚ) / 1000))))) =
        some (.number (toFloat (n / 1000))) :=
    sscanfFloat_of_near_thousandths hlt (near_toFloat_thousandths n)
  rw [hread, Option.map_some, mhzOfHz, lroundMhz, roundNearest_toFloat_thousandths hlt, toInt32_eq]
  exact ⟨by omega, by omega⟩

def hzNode (refreshMhz : Int) : Option YamlNode :=
  if refreshMhz = -1 then none
  else some (.scalar (snprintfFloat (toFloat (toFloat refreshMhz / 1000))))

def sizedModeNodes (width height refreshMhz : Int) : List (String × Option YamlNode) :=
  [("WIDTH", some (.scalar (snprintfInt width))), ("HEIGHT", some (.scalar (snprintfInt height))),
    ("HZ", hzNode refreshMhz)]

omit [Platform] in
theorem yamlMapFromCfgMode_sizedMode (width height refreshMhz : Int) :
    yamlMapFromCfgMode (sizedMode width height refreshMhz) =
      nodePairs (sizedModeNodes width height refreshMhz) := by
  have hmax : (sizedMode width height refreshMhz).max = false := rfl
  have hpreferred : (sizedMode width height refreshMhz).maxPreferredRefresh = false := rfl
  have hrefresh : (sizedMode width height refreshMhz).refreshMhz = refreshMhz := rfl
  rw [yamlMapFromCfgMode, hmax, hpreferred, hrefresh, if_neg Bool.false_ne_true,
    if_neg Bool.false_ne_true, sizedModeNodes, hzNode]
  by_cases hunset : refreshMhz = -1
  · rw [if_pos hunset, if_neg (not_not.mpr hunset)]
    rfl
  · rw [if_neg hunset, if_pos hunset]
    rfl

omit [Platform] in
/-- A size, and whatever becomes of the refresh. -/
theorem cfgModeOf_sizedMode {width height refreshMhz : Int} (hwidth : IsInt32 width)
    (hheight : IsInt32 height)
    (hhz : scalarOr (fun scalar => (yamlScalarToFloat scalar).map mhzOfHz) modeInit.refreshMhz
      (hzNode refreshMhz) = some refreshMhz) :
    cfgModeOf ((nodePairs (sizedModeNodes width height refreshMhz)).foldl spmapPutPair .empty) =
      some (sizedMode width height refreshMhz) := by
  have hkeys : (sizedModeNodes width height refreshMhz).map Prod.fst = ["WIDTH", "HEIGHT", "HZ"] :=
    rfl
  have hnodup : ((sizedModeNodes width height refreshMhz).map Prod.fst).Nodup := by
    rw [hkeys]
    decide
  have hread : ∀ {n : Int} (default : Int), IsInt32 n →
      scalarOr yamlScalarToInt default (some (.scalar (snprintfInt n))) = some n :=
    fun _ h => yamlScalarToInt_snprintfInt h
  rw [cfgModeOf, get?_nodePairs hnodup List.mem_cons_self,
    get?_nodePairs hnodup (List.mem_cons_of_mem _ List.mem_cons_self),
    get?_nodePairs hnodup (List.mem_cons_of_mem _ (List.mem_cons_of_mem _ List.mem_cons_self)),
    get?_nodePairs_of_not_mem (by rw [hkeys]; decide),
    get?_nodePairs_of_not_mem (by rw [hkeys]; decide),
    hread _ hwidth, Option.bind_some, hread _ hheight, Option.bind_some, hhz, Option.bind_some]
  rfl

omit [Platform] in
theorem yamlMapToCfgMode_write {mode : Mode} (h : ModeCanonical mode) :
    yamlMapToCfgMode (.mapping (yamlMapFromCfgMode mode)) = some mode := by
  have hflags : yamlMapToCfgMode (.mapping (yamlMapFromCfgMode { modeInit with max := true })) =
        some { modeInit with max := true } ∧
      yamlMapToCfgMode
          (.mapping (yamlMapFromCfgMode { modeInit with maxPreferredRefresh := true })) =
        some { modeInit with maxPreferredRefresh := true } := by
    decide +kernel
  rcases h with rfl | rfl | ⟨width, height, refreshMhz, hwidth, hheight, hrefresh, rfl⟩
  · exact hflags.1
  · exact hflags.2
  · have hread : scalarOr (fun scalar => (yamlScalarToFloat scalar).map mhzOfHz) modeInit.refreshMhz
        (hzNode refreshMhz) = some refreshMhz := by
      rcases hrefresh with rfl | ⟨hlo, hhi⟩
      · rfl
      · rw [hzNode, if_neg (by omega)]
        exact mhzOfHz_write hlo hhi
    rw [yamlMapToCfgMode, yamlMapFromCfgMode_sizedMode, yamlMapToSpmap, Option.bind_some]
    exact cfgModeOf_sizedMode hwidth hheight hread

def modeNode (mode : Mode) : YamlNode := .mapping (yamlMapFromCfgMode mode)

theorem yamlMapIntoCfgModes_write {modes : OrderedMap String Mode}
    (hnames : ValidNameDescs modes.keys) (hmodes : ∀ mode ∈ modes.vals, ModeCanonical mode)
    (hsize : modes.size ≠ 0) :
    ∃ pairs, yamlMapFromCfgModes modes = .mapping pairs ∧
      yamlMapIntoCfgModes .empty (.mapping pairs) = modes := by
  refine ⟨_, yamlMapFrom_eq modeNode (fun e _ => rfl) hsize,
    yamlMapIntoByNameDesc_write modeNode hnames ?_⟩
  intro e he m hnew
  rw [intoCfgModes, modeNode, yamlMapToCfgMode_write (hmodes e.2 (List.mem_map_of_mem he))]
  exact putIfAbsent_new hnew e.2

/-! ### Disabled heads -/

/-- A set that is left out when it is empty. -/
def ssetNode (sset : Sset) : Option YamlNode :=
  if sset.size = 0 then none else some (.sequence (sset.vals.map YamlNode.scalar))

theorem nameDescSset_ssetNode {sset : Sset} (h : ValidNameDescs sset.vals) :
    nameDescSset (ssetNode sset) = sset := by
  by_cases hsize : sset.size = 0
  · rw [ssetNode, if_pos hsize, eq_empty_of_size hsize]
    rfl
  · rw [ssetNode, if_neg hsize]
    exact yamlSeqIntoNameDescSset_write h

omit [Platform] in
theorem yamlMapAddSset_ssetNode (key : String) (sset : Sset) :
    (if sset.size > 0 then yamlMapAddSset key sset else []) =
      yamlMapAddNode key (ssetNode sset) := by
  by_cases hsize : sset.size = 0
  · rw [ssetNode, if_pos hsize, if_neg (by omega)]
    rfl
  · rw [ssetNode, if_neg hsize, if_pos (by omega), yamlMapAddSset, if_neg hsize]
    rfl

def lidNode (lid : Option ConditionLid) : Option YamlNode :=
  (lid.bind conditionLidName).map YamlNode.scalar

omit [Platform] in
theorem scalarOr_lidNode (lid : Option ConditionLid) :
    scalarOr (fun scalar => (yamlScalarToEnum conditionLidVal scalar).map some) none (lidNode lid) =
      some lid := by
  cases lid with
  | none => rfl
  | some lid =>
    obtain ⟨name, hname, hval⟩ := named_conditionLid lid
    rw [lidNode, Option.bind_some, hname]
    exact congrArg (fun l => l.map some) hval

def conditionNodes (condition : CfgCondition) : List (String × Option YamlNode) :=
  [("PLUGGED", ssetNode condition.plugged), ("UNPLUGGED", ssetNode condition.unplugged),
    ("LID", lidNode condition.lid)]

theorem yamlMapToCondition_write {condition : CfgCondition} (h : ConditionWritable condition) :
    yamlMapToCondition (yamlMapFromCondition condition) = some condition := by
  have hwrite : yamlMapFromCondition condition =
      .mapping (nodePairs (conditionNodes condition)) := by
    rw [yamlMapFromCondition, yamlMapAddSset_ssetNode, yamlMapAddSset_ssetNode, conditionNodes,
      nodePairs, List.flatMap_cons, List.flatMap_cons, List.flatMap_cons, List.flatMap_nil,
      List.append_nil, List.append_assoc]
    rfl
  have hnodup : ((conditionNodes condition).map Prod.fst).Nodup := by
    have hkeys : (conditionNodes condition).map Prod.fst = ["PLUGGED", "UNPLUGGED", "LID"] := rfl
    rw [hkeys]
    decide
  have hsome : ¬(condition.plugged.size = 0 ∧ condition.unplugged.size = 0 ∧
      condition.lid = none) := by
    rintro ⟨hplugged, hunplugged, hlid⟩
    rcases h.nontrivial with hp | hu | hl
    · omega
    · omega
    · exact hl hlid
  rw [yamlMapToCondition, hwrite, yamlMapToSpmap, Option.bind_some,
    get?_nodePairs hnodup (List.mem_cons_of_mem _ (List.mem_cons_of_mem _ List.mem_cons_self)),
    scalarOr_lidNode, Option.bind_some, get?_nodePairs hnodup List.mem_cons_self,
    get?_nodePairs hnodup (List.mem_cons_of_mem _ List.mem_cons_self),
    nameDescSset_ssetNode h.plugged, nameDescSset_ssetNode h.unplugged]
  exact if_neg hsome

theorem foldl_yamlMapIntoConditions_write {conditions : OrderedSet CfgCondition conditionEqual}
    (h : ∀ condition ∈ conditions.vals, ConditionWritable condition) :
    (conditions.vals.map yamlMapFromCondition).foldl yamlMapIntoConditions .empty = conditions := by
  have hadd : ∀ cs, ∀ condition ∈ conditions.vals,
      yamlMapIntoConditions cs (yamlMapFromCondition condition) = cs.add condition := by
    intro cs condition hmem
    rw [yamlMapIntoConditions, yamlMapToCondition_write (h condition hmem), Option.elim_some]
  calc (conditions.vals.map yamlMapFromCondition).foldl yamlMapIntoConditions .empty
      = conditions.vals.foldl
          (fun cs condition => yamlMapIntoConditions cs (yamlMapFromCondition condition)) .empty :=
        List.foldl_map
    _ = OrderedSet.empty.addAll conditions := List.foldl_ext _ _ _ hadd
    _ = conditions := OrderedSet.addAll_empty conditions

def disabledNode (disabled : CfgDisabled) : YamlNode :=
  if disabled.conditions.size > 0 then
    .mapping [(.scalar "IF", .sequence (disabled.conditions.vals.map yamlMapFromCondition))]
  else .scalar ""

/-- A disabled head is put as it was written, whatever was there. -/
theorem intoDisableds_disabledNode {disabled : CfgDisabled}
    (h : ∀ condition ∈ disabled.conditions.vals, ConditionWritable condition)
    (disableds : Disableds) (nameDesc : String) :
    intoDisableds disableds nameDesc (disabledNode disabled) = disableds.put nameDesc disabled := by
  by_cases hsize : disabled.conditions.size > 0
  · have hread : yamlMapToDisabledCond (.mapping [(.scalar "IF",
        .sequence (disabled.conditions.vals.map yamlMapFromCondition))]) = some disabled := by
      have hget : (yamlMapToSpmap (some (.mapping [(.scalar "IF",
          .sequence (disabled.conditions.vals.map yamlMapFromCondition))]))).bind
            (fun m => m.get? "IF") =
          some (.sequence (disabled.conditions.vals.map yamlMapFromCondition)) := rfl
      rw [yamlMapToDisabledCond, hget, Option.bind_some, yamlSeqIntoCol, Option.bind_some,
        cfgDisabledInit, foldl_yamlMapIntoConditions_write h, if_neg (by omega)]
    rw [disabledNode, if_pos hsize, intoDisableds, hread]
    rfl
  · have hempty : disabled = cfgDisabledInit := by
      obtain ⟨conditions⟩ := disabled
      exact congrArg CfgDisabled.mk (eq_empty_of_size (by simpa using hsize))
    rw [disabledNode, if_neg hsize, hempty]
    rfl

theorem yamlMapIntoDisableds_write {disableds : Disableds}
    (hnames : ValidNameDescs disableds.keys)
    (hconditions : ∀ disabled ∈ disableds.vals, ∀ condition ∈ disabled.conditions.vals,
      ConditionWritable condition)
    (hsize : disableds.size ≠ 0) :
    ∃ pairs, yamlMapFromDisableds disableds = .mapping pairs ∧
      yamlMapIntoDisableds .empty (.mapping pairs) = disableds := by
  refine ⟨_, yamlMapFrom_eq disabledNode ?_ hsize,
    yamlMapIntoByNameDesc_write disabledNode hnames ?_⟩
  · intro e _
    have hplist : ∀ conditions : OrderedSet CfgCondition conditionEqual, conditions.size > 0 →
        yamlMapAddPlist "IF" conditions.vals yamlMapFromCondition =
          [(.scalar "IF", .sequence (conditions.vals.map yamlMapFromCondition))] := by
      intro conditions hpos
      rw [yamlMapAddPlist, if_neg]
      rw [List.isEmpty_iff]
      exact List.ne_nil_of_length_pos hpos
    by_cases hpos : e.2.conditions.size > 0
    · rw [if_pos hpos, hplist _ hpos, disabledNode, if_pos hpos]
      rfl
    · rw [if_neg hpos, disabledNode, if_neg hpos]
      rfl
  · intro e he m _
    exact intoDisableds_disabledNode (hconditions e.2 (List.mem_map_of_mem he)) m e.1

/-! ### Numbers that are left out when they are zero -/

omit [Platform] in
theorem near_toFloat_toFloat (q : ℚ) : Near (1 / 2 ^ 22) (toFloat (toFloat q)) q :=
  ((toFloat_near _).trans (by norm_num) (toFloat_near q)).mono (by norm_num)

omit [Platform] in
theorem sscanfFloat_sixDigits {val : Floating} (h : SixDigits val) :
    ∃ q, val = .number q ∧ sscanfFloat (snprintfFloat (toFloat q)) = some val := by
  obtain ⟨n, k, hlt, rfl | rfl⟩ := h
  · exact ⟨_, rfl, sscanfFloat_of_near hlt (near_toFloat_toFloat _)⟩
  · refine ⟨_, rfl, ?_⟩
    rw [toFloat_neg, toFloat_neg, sscanfFloat_of_near_neg hlt (near_toFloat_toFloat _), toFloat_neg]

omit [Platform] in
theorem toFloat_eq_zero {q : ℚ} (h : toFloat q = 0) : q = 0 := by
  by_contra hq
  exact (toFloat_near q).ne_zero (by norm_num) hq h

/-! ### Elements -/

section Element

variable {uc : Unmarshal} {element : CfgElement}

theorem foldl_pair_node (node : Option YamlNode) :
    (yamlMapAddNode (elementKey element) node).foldl Unmarshal.pair uc =
      node.elim uc (uc.element element) := by
  cases node with
  | none => rfl
  | some node =>
    show uc.pair (.scalar (elementKey element), node) = uc.element element node
    have hval : (yamlScalarToString (some (.scalar (elementKey element)))).bind cfgElementVal =
        some element := cfgElementVal_elementKey element
    rw [Unmarshal.pair, hval]

theorem foldl_pair_enum {α : Type} {val : Option α} {name : α → Option String}
    {valOf : String → Option α} (hnamed : ∀ a, val = some a → Named name valOf a)
    (set : Option α → Unmarshal) (hunset : set none = uc)
    (hread : ∀ s a, valOf s = some a → uc.element element (.scalar s) = set (some a)) :
    (yamlMapAddEnum (elementKey element) val name).foldl Unmarshal.pair uc = set val := by
  rw [yamlMapAddEnum_eq, foldl_pair_node]
  cases val with
  | none => exact hunset.symm
  | some a =>
    obtain ⟨s, hname, hval⟩ := hnamed a rfl
    rw [Option.bind_some, hname]
    exact hread s a hval

theorem foldl_pair_onOff {val : Option OnOff} (set : Option OnOff → Unmarshal)
    (hunset : set none = uc)
    (hread : ∀ node, uc.element element node =
      set (some (yamlScalarToOnOffDef .on (some node)))) :
    (yamlMapAddOnOff (elementKey element) val).foldl Unmarshal.pair uc = set val := by
  cases val with
  | none => exact hunset.symm
  | some val =>
    rw [yamlMapAddOnOff, Option.elim_some, yamlMapAddBool_eq, foldl_pair_node, Option.elim_some,
      hread, yamlScalarToOnOffDef_write]

theorem foldl_pair_sset {sset : Sset} (h : ValidNameDescs sset.vals) (set : Sset → Unmarshal)
    (hread : ∀ node, uc.element element node = set (yamlSeqIntoNameDescSset .empty node)) :
    (yamlMapAddSset (elementKey element) sset).foldl Unmarshal.pair uc = set sset := by
  have hnode : ∀ node, (yamlMapAddNode (elementKey element) (some node)).foldl Unmarshal.pair uc =
      set (yamlSeqIntoNameDescSset .empty node) := fun node =>
    (foldl_pair_node (some node)).trans (hread node)
  unfold yamlMapAddSset
  split
  · rename_i hsize
    refine (hnode (.scalar "")).trans ?_
    rw [eq_empty_of_size hsize]
    rfl
  · refine (hnode (.sequence (sset.vals.map YamlNode.scalar))).trans ?_
    rw [yamlSeqIntoNameDescSset_write h]

theorem foldl_pair_float {val : Floating} (h : SixDigits val) (set : Floating → Unmarshal)
    (hunset : set 0 = uc) {default : Floating}
    (hread : ∀ node, uc.element element node =
      set ((yamlScalarToFloat (some node)).getD default)) :
    (yamlMapAddFloatNz (elementKey element) val).foldl Unmarshal.pair uc = set val := by
  obtain ⟨q, rfl, hscan⟩ := sscanfFloat_sixDigits h
  rw [yamlMapAddFloatNz_number, foldl_pair_node]
  by_cases hzero : toFloat q = 0
  · rw [if_pos hzero, toFloat_eq_zero hzero]
    exact hunset.symm
  · have hval : yamlScalarToFloat (some (.scalar (snprintfFloat (toFloat q)))) =
        some (.number q) := hscan
    rw [if_neg hzero, Option.elim_some, hread, hval, Option.getD_some]

theorem foldl_pair_int {val : Int} (h : IsInt32 val) (set : Int → Unmarshal)
    (hunset : set 0 = uc) {default : Int}
    (hread : ∀ node, uc.element element node =
      set ((yamlScalarToInt (some node)).getD default)) :
    (yamlMapAddIntNz (elementKey element) val).foldl Unmarshal.pair uc = set val := by
  by_cases hzero : val = 0
  · rw [yamlMapAddIntNz, if_pos hzero, hzero]
    exact hunset.symm
  · rw [yamlMapAddIntNz, if_neg hzero, yamlMapAddInt_eq, foldl_pair_node, Option.elim_some, hread,
      yamlScalarToInt_snprintfInt h, Option.getD_some]

theorem foldl_pair_str {val : Option String} (set : Option String → Unmarshal)
    (hunset : set none = uc) (hread : ∀ s, uc.element element (.scalar s) = set (some s)) :
    (yamlMapAddStr (elementKey element) val).foldl Unmarshal.pair uc = set val := by
  rw [yamlMapAddStr_eq, foldl_pair_node]
  cases val with
  | none => exact hunset.symm
  | some s => exact hread s

theorem foldl_pair_scaleRoundTo {val : Nat} (h : val ∈ [0, 1, 2, 4, 8]) (set : Nat → Unmarshal)
    (hunset : set 0 = uc)
    (hread : ∀ node, uc.element element node = set (yamlScalarToScaleRoundTo (some node))) :
    (yamlMapAddEnum (elementKey element) (some val) scaleRoundToName).foldl Unmarshal.pair uc =
      set val := by
  rw [yamlMapAddEnum_eq, foldl_pair_node, Option.bind_some]
  rcases List.mem_cons.mp h with rfl | hnamed
  · exact hunset.symm
  · obtain ⟨name, hname, hval⟩ := exists_scaleRoundToName hnamed
    rw [hname, Option.map_some, Option.elim_some, hread, hval]

theorem foldl_pair_map {ν : Type} {map : OrderedMap String ν} {node : YamlNode}
    {into : OrderedMap String ν → YamlNode → OrderedMap String ν}
    (hempty : map.size = 0 → node = .scalar "")
    (hwrite : map.size ≠ 0 → ∃ pairs, node = .mapping pairs ∧ into .empty (.mapping pairs) = map)
    (set : OrderedMap String ν → Unmarshal)
    (hscalar : uc.element element (.scalar "") = set .empty)
    (hread : ∀ pairs, uc.element element (.mapping pairs) = set (into .empty (.mapping pairs))) :
    (yamlMapAddNode (elementKey element) (some node)).foldl Unmarshal.pair uc = set map := by
  rw [foldl_pair_node, Option.elim_some]
  by_cases hsize : map.size = 0
  · have hmap : map = .empty := OrderedMap.ext (List.length_eq_zero_iff.mp hsize)
    rw [hempty hsize, hscalar, hmap]
  · obtain ⟨pairs, hnode, hinto⟩ := hwrite hsize
    rw [hnode, hread, hinto]

end Element

/-! ### The configuration -/

/-- A configuration with one element of another. -/
def copyElement (from_ : Cfg) (element : CfgElement) (cfg : Cfg) : Cfg :=
  match element with
  | .arrange => { cfg with arrange := from_.arrange }
  | .align => { cfg with align := from_.align }
  | .order => { cfg with orderNameDesc := from_.orderNameDesc }
  | .scaling => { cfg with scaling := from_.scaling }
  | .autoScale => { cfg with autoScale := from_.autoScale }
  | .scale => { cfg with scales := from_.scales }
  | .scaleRoundTo => { cfg with scaleRoundTo := from_.scaleRoundTo }
  | .scaleRoundStrategy => { cfg with scaleRoundStrategy := from_.scaleRoundStrategy }
  | .mode => { cfg with modes := from_.modes }
  | .transform => { cfg with transforms := from_.transforms }
  | .vrrOff => { cfg with adaptiveSyncOff := from_.adaptiveSyncOff }
  | .callbackCmd => { cfg with callbackCmd := from_.callbackCmd }
  | .laptopLidMonitor => { cfg with laptopLidMonitor := from_.laptopLidMonitor }
  | .logThreshold => { cfg with logThreshold := from_.logThreshold }
  | .disabled =>
    { cfg with disableds := from_.disableds, disabledsEmpty := from_.disabledsEmpty }
  | .autoScaleDpi => { cfg with autoScaleDpi := from_.autoScaleDpi }
  | .autoScaleMin => { cfg with autoScaleMin := from_.autoScaleMin }
  | .autoScaleMax => { cfg with autoScaleMax := from_.autoScaleMax }
  | .laptopDisplayPrefix | .plugged | .unplugged | .arrangeAlign => cfg

def elementPairs (cfg : Cfg) (element : CfgElement) : List YamlPair :=
  match element with
  | .arrange => yamlMapAddEnum (elementKey .arrange) cfg.arrange arrangeName
  | .align => yamlMapAddEnum (elementKey .align) cfg.align alignName
  | .order => yamlMapAddSset (elementKey .order) cfg.orderNameDesc
  | .scaling => yamlMapAddOnOff (elementKey .scaling) cfg.scaling
  | .autoScale => yamlMapAddOnOff (elementKey .autoScale) cfg.autoScale
  | .scale => yamlMapAddNode (elementKey .scale) (some (yamlMapFromScales cfg.scales))
  | .scaleRoundTo =>
    yamlMapAddEnum (elementKey .scaleRoundTo) (some cfg.scaleRoundTo) scaleRoundToName
  | .scaleRoundStrategy =>
    yamlMapAddEnum (elementKey .scaleRoundStrategy) cfg.scaleRoundStrategy scaleRoundStrategyName
  | .mode => yamlMapAddNode (elementKey .mode) (some (yamlMapFromCfgModes cfg.modes))
  | .transform =>
    yamlMapAddNode (elementKey .transform) (some (yamlMapFromTransforms cfg.transforms))
  | .vrrOff => yamlMapAddSset (elementKey .vrrOff) cfg.adaptiveSyncOff
  | .callbackCmd => yamlMapAddStr (elementKey .callbackCmd) cfg.callbackCmd
  | .laptopLidMonitor => yamlMapAddOnOff (elementKey .laptopLidMonitor) cfg.laptopLidMonitor
  | .logThreshold => yamlMapAddEnum (elementKey .logThreshold) cfg.logThreshold logThresholdName
  | .disabled => yamlMapAddNode (elementKey .disabled) (some (yamlMapFromDisableds cfg.disableds))
  | .autoScaleDpi => yamlMapAddIntNz (elementKey .autoScaleDpi) cfg.autoScaleDpi
  | .autoScaleMin => yamlMapAddFloatNz (elementKey .autoScaleMin) cfg.autoScaleMin
  | .autoScaleMax => yamlMapAddFloatNz (elementKey .autoScaleMax) cfg.autoScaleMax
  | .laptopDisplayPrefix | .plugged | .unplugged | .arrangeAlign => []

/-- The elements in the order in which they are written. -/
def writtenElements : List CfgElement :=
  [.arrange, .align, .order, .scaling, .scaleRoundTo, .scaleRoundStrategy, .autoScale,
    .autoScaleDpi, .autoScaleMin, .autoScaleMax, .scale, .mode, .transform, .vrrOff, .callbackCmd,
    .laptopLidMonitor, .logThreshold, .disabled]

omit [Platform] in
theorem cfgPairs_eq (cfg : Cfg) : cfgPairs cfg = writtenElements.map (elementPairs cfg) := rfl

/-- Each element is read as it was written, as long as it is unset. -/
theorem foldl_pair_elementPairs {cfg : Cfg} (h : CfgWritable cfg) {uc : Unmarshal}
    {element : CfgElement} (hunset : copyElement cfgInit element uc.cfg = uc.cfg) :
    (elementPairs cfg element).foldl Unmarshal.pair uc =
      { uc with cfg := copyElement (remarked cfg) element uc.cfg } := by
  have hinit : { uc with cfg := copyElement cfgInit element uc.cfg } = uc := by rw [hunset]
  cases element with
  | arrange =>
    refine foldl_pair_enum (fun a _ => named_arrange a)
      (fun val => { uc with cfg := { uc.cfg with arrange := val } }) hinit fun s a hval => ?_
    show { uc with cfg := { uc.cfg with arrange := (arrangeValStart s).or (some .row) } } = _
    rw [hval]
    rfl
  | align =>
    refine foldl_pair_enum (fun a _ => named_align a)
      (fun val => { uc with cfg := { uc.cfg with align := val } }) hinit fun s a hval => ?_
    show { uc with cfg := { uc.cfg with align := (alignValStart s).or (some .top) } } = _
    rw [hval]
    rfl
  | order =>
    have hempty : uc.cfg.orderNameDesc = .empty := congrArg Cfg.orderNameDesc hunset.symm
    refine foldl_pair_sset h.orderNameDesc
      (fun val => { uc with cfg := { uc.cfg with orderNameDesc := val } }) fun node => ?_
    show { uc with cfg := { uc.cfg with
      orderNameDesc := yamlSeqIntoNameDescSset uc.cfg.orderNameDesc node } } = _
    rw [hempty]
  | scaling =>
    exact foldl_pair_onOff (fun val => { uc with cfg := { uc.cfg with scaling := val } }) hinit
      fun _ => rfl
  | autoScale =>
    exact foldl_pair_onOff (fun val => { uc with cfg := { uc.cfg with autoScale := val } }) hinit
      fun _ => rfl
  | laptopLidMonitor =>
    exact foldl_pair_onOff (fun val => { uc with cfg := { uc.cfg with laptopLidMonitor := val } })
      hinit fun _ => rfl
  | scaleRoundTo =>
    exact foldl_pair_scaleRoundTo h.scaleRoundTo
      (fun val => { uc with cfg := { uc.cfg with scaleRoundTo := val } }) hinit fun _ => rfl
  | scaleRoundStrategy =>
    refine foldl_pair_enum (fun a _ => named_scaleRoundStrategy a)
      (fun val => { uc with cfg := { uc.cfg with scaleRoundStrategy := val } }) hinit
      fun s a hval => ?_
    show { uc with cfg := { uc.cfg with
      scaleRoundStrategy := (scaleRoundStrategyVal s).or (some .nearest) } } = _
    rw [hval]
    rfl
  | logThreshold =>
    refine foldl_pair_enum (fun a _ => named_logThreshold a)
      (fun val => { uc with cfg := { uc.cfg with logThreshold := val } }) hinit fun s a hval => ?_
    show { uc with cfg := { uc.cfg with logThreshold := logThresholdVal s } } = _
    rw [hval]
  | autoScaleDpi =>
    exact foldl_pair_int h.autoScaleDpi
      (fun val => { uc with cfg := { uc.cfg with autoScaleDpi := val } }) hinit fun _ => rfl
  | autoScaleMin =>
    exact foldl_pair_float h.autoScaleMin
      (fun val => { uc with cfg := { uc.cfg with autoScaleMin := val } }) hinit fun _ => rfl
  | autoScaleMax =>
    exact foldl_pair_float h.autoScaleMax
      (fun val => { uc with cfg := { uc.cfg with autoScaleMax := val } }) hinit fun _ => rfl
  | vrrOff =>
    have hempty : uc.cfg.adaptiveSyncOff = .empty := congrArg Cfg.adaptiveSyncOff hunset.symm
    refine foldl_pair_sset h.adaptiveSyncOff
      (fun val => { uc with cfg := { uc.cfg with adaptiveSyncOff := val } }) fun node => ?_
    show { uc with cfg := { uc.cfg with
      adaptiveSyncOff := yamlSeqIntoNameDescSset uc.cfg.adaptiveSyncOff node } } = _
    rw [hempty]
  | callbackCmd =>
    exact foldl_pair_str (fun val => { uc with cfg := { uc.cfg with callbackCmd := val } }) hinit
      fun _ => rfl
  | scale =>
    have hempty : uc.cfg.scales = .empty := congrArg Cfg.scales hunset.symm
    refine foldl_pair_map (fun hsize => if_pos hsize)
      (yamlMapIntoScales_write h.scaleNames h.scales)
      (fun val => { uc with cfg := { uc.cfg with scales := val } }) hinit.symm fun pairs => ?_
    show { uc with cfg := { uc.cfg with
      scales := yamlMapIntoScales uc.cfg.scales (.mapping pairs) } } = _
    rw [hempty]
  | mode =>
    have hempty : uc.cfg.modes = .empty := congrArg Cfg.modes hunset.symm
    refine foldl_pair_map (fun hsize => if_pos hsize)
      (yamlMapIntoCfgModes_write h.modeNames h.modes)
      (fun val => { uc with cfg := { uc.cfg with modes := val } }) hinit.symm fun pairs => ?_
    show { uc with cfg := { uc.cfg with
      modes := yamlMapIntoCfgModes uc.cfg.modes (.mapping pairs) } } = _
    rw [hempty]
  | transform =>
    have hempty : uc.cfg.transforms = .empty := congrArg Cfg.transforms hunset.symm
    refine foldl_pair_map (fun hsize => if_pos hsize)
      (yamlMapIntoTransforms_write h.transformNames h.transforms)
      (fun val => { uc with cfg := { uc.cfg with transforms := val } }) hinit.symm fun pairs => ?_
    show { uc with cfg := { uc.cfg with
      transforms := yamlMapIntoTransforms uc.cfg.transforms (.mapping pairs) } } = _
    rw [hempty]
  | disabled =>
    have hempty : uc.cfg.disableds = .empty := congrArg Cfg.disableds hunset.symm
    refine foldl_pair_map (fun hsize => if_pos hsize)
      (yamlMapIntoDisableds_write h.disabledNames h.conditions)
      (fun val => { uc with cfg := { uc.cfg with
        disableds := val, disabledsEmpty := decide (val.size = 0) } }) ?_ fun pairs => ?_
    · show { uc with cfg := { uc.cfg with disabledsEmpty := true } } = _
      rw [← hempty]
      have hsize : decide (uc.cfg.disableds.size = 0) = true := by
        rw [hempty]
        rfl
      rw [hsize]
    · show { uc with cfg := { uc.cfg with
        disableds := yamlMapIntoDisableds uc.cfg.disableds (.mapping pairs)
        disabledsEmpty :=
          decide ((yamlMapIntoDisableds uc.cfg.disableds (.mapping pairs)).size = 0) } } = _
      rw [hempty]
  | laptopDisplayPrefix => rfl
  | plugged => rfl
  | unplugged => rfl
  | arrangeAlign => rfl

omit [Platform] in
theorem copyElement_comm {from_ init cfg : Cfg} {element other : CfgElement}
    (hne : element ≠ other) : copyElement init element (copyElement from_ other cfg) =
      copyElement from_ other (copyElement init element cfg) := by
  cases element <;> cases other <;> first | rfl | exact absurd rfl hne

/-- Distinct elements that are unset are read one after the other. -/
theorem foldl_pair_elements {cfg : Cfg} (h : CfgWritable cfg) {elements : List CfgElement}
    (hnodup : elements.Nodup) {uc : Unmarshal}
    (hunset : ∀ element ∈ elements, copyElement cfgInit element uc.cfg = uc.cfg) :
    (elements.map (elementPairs cfg)).flatten.foldl Unmarshal.pair uc =
      { uc with cfg :=
          elements.foldl (fun c element => copyElement (remarked cfg) element c) uc.cfg } := by
  induction elements generalizing uc with
  | nil => rfl
  | cons element elements ih =>
    obtain ⟨hnew, hnodup⟩ := List.nodup_cons.mp hnodup
    rw [List.map_cons, List.flatten_cons, List.foldl_append,
      foldl_pair_elementPairs h (hunset element List.mem_cons_self)]
    refine ih hnodup fun other hother => ?_
    have hne : other ≠ element := fun heq => hnew (heq ▸ hother)
    exact (copyElement_comm hne).trans
      (congrArg (copyElement (remarked cfg) element) (hunset other (List.mem_cons_of_mem _ hother)))

omit [Platform] in
theorem foldl_copyElement (from_ : Cfg) :
    writtenElements.foldl (fun c element => copyElement from_ element c) cfgInit = from_ := by
  cases from_
  simp only [writtenElements, List.foldl_cons, List.foldl_nil, copyElement]

omit [Platform] in
theorem unset_cfgInit (element : CfgElement) : copyElement cfgInit element cfgInit = cfgInit := by
  cases element <;> rfl

/-- What is written is read, but for the marker. -/
theorem yamlMapToCfg_yamlMapFromCfg {cfg : Cfg} (h : CfgWritable cfg) :
    yamlMapToCfg (yamlMapFromCfg cfg) = { unmarshalInit with cfg := remarked cfg } := by
  have hpairs : yamlMapToCfg (yamlMapFromCfg cfg) =
      (writtenElements.map (elementPairs cfg)).flatten.foldl Unmarshal.pair unmarshalInit := by
    rw [← cfgPairs_eq]
    rfl
  have hinit : unmarshalInit.cfg = cfgInit := rfl
  rw [hpairs, foldl_pair_elements h (by decide) (fun element _ => unset_cfgInit element), hinit,
    foldl_copyElement]

omit [Platform] in
theorem SixDigits.isNan {val : Floating} (h : SixDigits val) : val.isNan = false := by
  obtain ⟨n, k, -, rfl | rfl⟩ := h <;> rfl

theorem CfgWritable.nanFree {cfg : Cfg} (h : CfgWritable cfg) : NanFree cfg :=
  ⟨h.autoScaleMin.isNan, h.autoScaleMax.isNan⟩

omit [Platform] in
theorem cfgEqual_remarked {cfg : Cfg} (h : NanFree cfg) : cfgEqual (remarked cfg) cfg = true :=
  cfgEqual_iff.mpr { agree_self h with }

/-! ### Writing and loading -/

omit [Platform] in
/-- There are no defaults to apply to a valid configuration that comes with its marker. -/
theorem cfgApplyDefaults_remarked {cfg : Cfg} (h : CfgValid cfg) :
    cfgApplyDefaults (remarked cfg) = remarked cfg := by
  have hround : cfg.scaleRoundTo ≠ 0 := by
    intro hzero
    have hmem := h.scaleRoundTo
    rw [hzero] at hmem
    exact absurd hmem (by decide)
  have hdpi : cfg.autoScaleDpi ≠ 0 := by
    intro hzero
    have hmin := h.autoScaleDpi
    rw [hzero] at hmin
    exact absurd hmin (by decide)
  have hdisableds : (cfgApplyDefaults (remarked cfg)).disableds = cfg.disableds := by
    refine if_neg ?_
    rw [Bool.not_eq_true]
    exact Bool.not_and_self _
  have hdefaults : cfgApplyDefaults (remarked cfg) = { remarked cfg with
      arrange := cfg.arrange.or (some .row)
      align := cfg.align.or (some .top)
      scaling := cfg.scaling.or (some .on)
      autoScale := cfg.autoScale.or (some .on)
      scaleRoundTo := if cfg.scaleRoundTo = 0 then scaleRoundToDefault else cfg.scaleRoundTo
      scaleRoundStrategy := cfg.scaleRoundStrategy.or (some .nearest)
      autoScaleDpi := if cfg.autoScaleDpi = 0 then autoScaleDpiDefault else cfg.autoScaleDpi
      autoScaleMin := if cfg.autoScaleMin = 0 then 1 else cfg.autoScaleMin
      autoScaleMax := if cfg.autoScaleMax = 0 then -1 else cfg.autoScaleMax
      callbackCmd := cfg.callbackCmd.or (some callbackCmdDefault)
      laptopLidMonitor := cfg.laptopLidMonitor.or (some .on)
      disableds := (cfgApplyDefaults (remarked cfg)).disableds } := rfl
  rw [hdefaults, hdisableds, Option.or_of_isSome h.arrange, Option.or_of_isSome h.align,
    Option.or_of_isSome h.scaling, Option.or_of_isSome h.autoScale, if_neg hround,
    Option.or_of_isSome h.scaleRoundStrategy, if_neg hdpi, if_neg h.autoScaleMin,
    if_neg h.autoScaleMax, Option.or_of_isSome h.callbackCmd,
    Option.or_of_isSome h.laptopLidMonitor]
  rfl

omit [Platform] in
theorem valid_remarked {cfg : Cfg} (h : CfgValid cfg) : CfgValid (remarked cfg) :=
  { h with }

/-- Nothing that is written is migrated. -/
theorem yamlRootToCfg_yamlMapFromCfg {cfg : Cfg} (h : CfgWritable cfg) :
    yamlRootToCfg (some (yamlMapFromCfg cfg)) = some (remarked cfg) := by
  have hread := yamlMapToCfg_yamlMapFromCfg h
  have hroot : yamlRootToCfg (some (yamlMapFromCfg cfg)) =
      some (yamlMapToCfg (yamlMapFromCfg cfg)).migrated := rfl
  rw [hroot, hread]
  rfl

/-- A configuration arrives as it was sent, in its order; written to the file and loaded again,
a valid one is left as it is. -/
theorem cfg_roundTrips {cfg : Cfg} (h : CfgWritable cfg) :
    (yamlMapToCfg (yamlMapFromCfg cfg)).cfg = remarked cfg ∧
      cfgEqual (yamlMapToCfg (yamlMapFromCfg cfg)).cfg cfg = true ∧
      (CfgValid cfg → gCfgFileReloadYaml cfg (some (yamlMapFromCfg cfg)) = remarked cfg) := by
  have hread : (yamlMapToCfg (yamlMapFromCfg cfg)).cfg = remarked cfg :=
    congrArg Unmarshal.cfg (yamlMapToCfg_yamlMapFromCfg h)
  refine ⟨hread, ?_, fun hvalid => ?_⟩
  · rw [hread]
    exact cfgEqual_remarked h.nanFree
  · rw [gCfgFileReloadYaml, yamlRootToCfg_yamlMapFromCfg h, Option.elim_some,
      cfgApplyDefaults_remarked hvalid, cfgValidateFix_eq (valid_remarked hvalid)]

end Codec

/-- A dock: a scaled display, and a laptop display that is disabled while the dock is plugged and
the lid closed. -/
def dockCfg : Cfg :=
  cfgValidateFix (cfgApplyDefaults { cfgInit with
    orderNameDesc := OrderedSet.empty.add "DP-1"
    scales := OrderedMap.empty.put "DP-1" 1250
    modes := OrderedMap.empty.put "DP-1" (sizedMode 3840 2160 59997)
    transforms := OrderedMap.empty.put "DP-1" .rot90
    disableds := OrderedMap.empty.put "eDP-1"
      ⟨OrderedSet.empty.add ⟨OrderedSet.empty.add "DP-1", .empty, some .closed⟩⟩ })

theorem cfg_roundTrips_dock :
    let _ : Platform := plainPlatform
    gCfgFileReloadYaml dockCfg (some (yamlMapFromCfg dockCfg)) = remarked dockCfg := by
  intro _
  have hdisableds : dockCfg.disableds.vals =
      [⟨OrderedSet.empty.add ⟨OrderedSet.empty.add "DP-1", .empty, some .closed⟩⟩] := rfl
  have hconditions : ∀ disabled ∈ dockCfg.disableds.vals,
      ∀ condition ∈ disabled.conditions.vals, ConditionWritable condition := by
    rw [hdisableds]
    intro disabled hdisabled condition hcondition
    obtain rfl := List.mem_singleton.mp hdisabled
    obtain rfl := List.mem_singleton.mp hcondition
    exact ⟨by decide +kernel, by decide +kernel, Or.inl (by decide)⟩
  have hwritable : CfgWritable dockCfg :=
    { orderNameDesc := by decide +kernel
      scaleRoundTo := by decide +kernel
      autoScaleDpi := by
        have hdpi : dockCfg.autoScaleDpi = 96 := rfl
        rw [hdpi]
        exact ⟨by decide, by decide⟩
      autoScaleMin := ⟨1, 0, by decide, Or.inl (by decide +kernel)⟩
      autoScaleMax := ⟨1, 0, by decide, Or.inr (by decide +kernel)⟩
      scaleNames := by decide +kernel
      scales := by decide +kernel
      modeNames := by decide +kernel
      modes := by
        intro mode hmode
        obtain rfl := List.mem_singleton.mp hmode
        exact Or.inr (Or.inr ⟨3840, 2160, 59997, ⟨by decide, by decide⟩, ⟨by decide, by decide⟩,
          Or.inr ⟨by decide, by decide⟩, rfl⟩)
      transformNames := by decide +kernel
      transforms := by decide +kernel
      adaptiveSyncOff := by decide +kernel
      disabledNames := by decide +kernel
      conditions := hconditions }
  refine (cfg_roundTrips hwritable).2.2 (valid_loaded ⟨by decide, ?_⟩)
  intro disabled hdisabled condition hcondition
  exact (hconditions disabled hdisabled condition hcondition).nontrivial

end WayDisplays.Yaml.CfgCodec
