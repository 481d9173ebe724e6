/- Documents of version 1, and what they have in common with their version 2. -/

import WayDisplays.Model.Desire
import WayDisplays.Model.Unmarshal
import WayDisplays.Yaml.Scalars

set_option autoImplicit false
set_option relaxedAutoImplicit false

namespace WayDisplays.Yaml.Migration

open Lib (OrderedMap OrderedSet)
open Model Scalars

/-! ### Version 2 of a document -/

def itemName : YamlNode → Option String
  | .scalar value => some value
  | .mapping pairs => (yamlMapToSpmap (some (.mapping pairs))).bind
      (fun m => yamlScalarToString (m.get? "NAME_DESC"))
  | .sequence _ => none

def itemGet (key : String) (item : YamlNode) : Option YamlNode :=
  (yamlMapToSpmap (some item)).bind (fun m => m.get? key)

/-- An item without its name or description. -/
def itemRest : YamlNode → YamlNode
  | .mapping pairs => .mapping (pairs.filter
      (fun pair => decide (yamlScalarToString (some pair.1) ≠ some "NAME_DESC")))
  | .scalar value => .scalar value
  | .sequence items => .sequence items

/-- What an item becomes; a value that is missing is empty. -/
def valueV2 (element : CfgElement) (item : YamlNode) : YamlNode :=
  match element with
  | .scale => (itemGet "SCALE" item).getD (.scalar "")
  | .transform => (itemGet "TRANSFORM" item).getD (.scalar "")
  | .mode => itemRest item
  | _ => if (itemGet "IF" item).isSome then itemRest item else .scalar ""

theorem valueV2_disabled (item : YamlNode) : valueV2 .disabled item =
    if (itemGet "IF" item).isSome then itemRest item else .scalar "" := rfl

def entryV2 (element : CfgElement) (item : YamlNode) : String × YamlNode :=
  ((itemName item).getD "", valueV2 element item)

/-- The map of the items by their names or descriptions, in their order. -/
def nodeV2 (element : CfgElement) (items : List YamlNode) : YamlNode :=
  .mapping ((items.map (entryV2 element)).map (fun e => (YamlNode.scalar e.1, e.2)))

/-- The elements that are arrays in version 1. -/
def arrayElements : List CfgElement := [.scale, .mode, .transform, .disabled]

def elementOf (pair : YamlPair) : Option CfgElement :=
  (yamlScalarToString (some pair.1)).bind cfgElementVal

/-- The array of a pair, unless it is empty. -/
def arrayOf (pair : YamlPair) : Option (CfgElement × List YamlNode) :=
  match elementOf pair, pair.2 with
  | some element, .sequence (item :: items) =>
    if element ∈ arrayElements then some (element, item :: items) else none
  | _, _ => none

def pairV2 (pair : YamlPair) : YamlPair :=
  (arrayOf pair).elim pair (fun array => (pair.1, nodeV2 array.1 array.2))

def documentV2 (pairs : List YamlPair) : List YamlPair := pairs.map pairV2

/-! ### Version 1 of a document -/

section V1

variable [Platform]

/-- Items that have valid names, all different; the conditions of a disabled one are an array
with a valid condition. -/
structure ArrayV1 (element : CfgElement) (items : List YamlNode) : Prop where
  named : ∀ item ∈ items, ∃ nameDesc, itemName item = some nameDesc ∧
    yamlValidNameDesc nameDesc = true
  maps : element ≠ .disabled → ∀ item ∈ items, ∃ pairs, item = .mapping pairs
  distinct : (items.map itemName).Nodup
  conditional : element = .disabled → ∀ item ∈ items, ∀ node, itemGet "IF" item = some node →
    ∃ maps, node = .sequence maps ∧ ∃ map ∈ maps, (yamlMapToCondition map).isSome = true

/-- There is an array, and no prefix for laptop displays. -/
structure DocumentV1 (pairs : List YamlPair) : Prop where
  noLaptopDisplayPrefix : ∀ pair ∈ pairs, elementOf pair ≠ some .laptopDisplayPrefix
  arrays : ∀ pair ∈ pairs, ∀ array, arrayOf pair = some array → ArrayV1 array.1 array.2
  present : ∃ pair ∈ pairs, (arrayOf pair).isSome = true

def namesOf : YamlNode → List String
  | .mapping pairs => pairs.filterMap (fun pair => yamlScalarToString (some pair.1))
  | .sequence items => items.filterMap itemName
  | .scalar _ => []

/-- No array of disabled heads names what an element before it has named. -/
def DisabledApart (pairs : List YamlPair) : Prop :=
  pairs.Pairwise (fun before pair => elementOf before = some .disabled →
    ∀ items, arrayOf pair = some (.disabled, items) →
      ∀ nameDesc ∈ items.filterMap itemName, nameDesc ∉ namesOf before.2)

/-- The configuration with the condition that a migration adds. -/
def withLidCondition (cfg : Cfg) : Cfg :=
  { cfg with
    disableds := cfgDisabledAddLidCondition cfg.disableds disabledLaptopDisplayNameDescDefault }

/-- A configuration up to the marker of an empty DISABLED map. -/
def unmarked (cfg : Cfg) : Cfg := { cfg with disabledsEmpty := false }

def loaded (cfg : Cfg) : Cfg := cfgValidateFix (cfgApplyDefaults cfg)

/-- Both versions yield the same, up to the condition for the lid and the marker, and heads are
desired the same with both. -/
def KeepsMeaning (pairs : List YamlPair) : Prop :=
  ∃ cfg cfg', yamlRootToCfg (some (.mapping pairs)) = some cfg ∧
    yamlRootToCfg (some (.mapping (documentV2 pairs))) = some cfg' ∧
    unmarked cfg = unmarked (withLidCondition cfg') ∧
    ∀ lid heads, (desire (loaded cfg) lid heads).2 =
      (desire (loaded (withLidCondition cfg')) lid heads).2

/-! ### Items -/

omit [Platform] in
theorem itemGet_itemRest {key : String} (hkey : key ≠ "NAME_DESC") (item : YamlNode) :
    itemGet key (itemRest item) = itemGet key item := by
  cases item with
  | scalar value => rfl
  | sequence items => rfl
  | mapping pairs =>
    have hfold : ∀ (pairs : List YamlPair) (m m' : YamlMap), m.get? key = m'.get? key →
        ((pairs.filter (fun pair =>
          decide (yamlScalarToString (some pair.1) ≠ some "NAME_DESC"))).foldl
            spmapPutPair m).get? key = (pairs.foldl spmapPutPair m').get? key := by
      intro pairs
      induction pairs with
      | nil => exact fun m m' h => h
      | cons pair pairs ih =>
        intro m m' h
        have hput : (spmapPutPair m pair).get? key = (spmapPutPair m' pair).get? key := by
          unfold spmapPutPair
          split
          · rename_i k _
            by_cases hk : key = k
            · rw [hk, OrderedMap.get?_put_self, OrderedMap.get?_put_self]
            · rw [OrderedMap.get?_put_ne m _ hk, OrderedMap.get?_put_ne m' _ hk, h]
          · exact h
        by_cases hname : yamlScalarToString (some pair.1) = some "NAME_DESC"
        · rw [List.filter_cons_of_neg (by simp [hname]), List.foldl_cons]
          apply ih
          rw [h, spmapPutPair, hname]
          exact (OrderedMap.get?_put_ne m' _ hkey).symm
        · rw [List.filter_cons_of_pos (by simp [hname]), List.foldl_cons, List.foldl_cons]
          exact ih _ _ hput
    exact hfold pairs .empty .empty rfl

/-- Conditions are never taken away again. -/
theorem size_foldl_yamlMapIntoConditions (maps : List YamlNode)
    (conditions : OrderedSet CfgCondition conditionEqual)
    (h : conditions.size ≠ 0 ∨ ∃ map ∈ maps, (yamlMapToCondition map).isSome = true) :
    (maps.foldl yamlMapIntoConditions conditions).size ≠ 0 := by
  induction maps generalizing conditions with
  | nil => exact h.resolve_right (by simp)
  | cons map maps ih =>
    apply ih
    have hadd : ∀ condition, (conditions.add condition).size ≠ 0 := by
      intro condition
      unfold OrderedSet.add
      split
      · rename_i hcontains
        intro hzero
        rw [OrderedSet.contains, List.length_eq_zero_iff.mp hzero] at hcontains
        exact absurd hcontains (by simp)
      · simp [OrderedSet.size]
    rcases h with h | ⟨map', hmap', hsome⟩
    · left
      unfold yamlMapIntoConditions
      cases yamlMapToCondition map with
      | none => exact h
      | some condition => exact hadd condition
    · rcases List.mem_cons.mp hmap' with rfl | hmap'
      · left
        obtain ⟨condition, hcondition⟩ := Option.isSome_iff_exists.mp hsome
        rw [yamlMapIntoConditions, hcondition]
        exact hadd condition
      · exact Or.inr ⟨map', hmap', hsome⟩

theorem itemV1_mapping {pairs : List YamlPair} {nameDesc : String}
    (hname : itemName (.mapping pairs) = some nameDesc)
    (hvalid : yamlValidNameDesc nameDesc = true) :
    itemV1 (.mapping pairs) = some (nameDesc, pairs.foldl spmapPutPair .empty) := by
  have hscalar : yamlScalarToString
      ((pairs.foldl spmapPutPair OrderedMap.empty).get? "NAME_DESC") = some nameDesc := hname
  simp only [itemV1, yamlMapToSpmap, Option.bind_some, yamlScalarToNameDesc, hscalar,
    Option.filter_some, hvalid, if_true, Option.map_some]

/-- An item of DISABLED whose name is new: both versions put the same. -/
theorem yamlNodeIntoDisabledsV1_eq {item : YamlNode} {nameDesc : String}
    (hname : itemName item = some nameDesc) (hvalid : yamlValidNameDesc nameDesc = true)
    (hconditional : ∀ node, itemGet "IF" item = some node →
      ∃ maps, node = .sequence maps ∧ ∃ map ∈ maps, (yamlMapToCondition map).isSome = true)
    {disableds : Disableds} (hnew : nameDesc ∉ disableds.keys) :
    ∃ disabled, yamlNodeIntoDisabledsV1 disableds item = disableds.put nameDesc disabled ∧
      intoDisableds disableds nameDesc (valueV2 .disabled item) =
        disableds.put nameDesc disabled := by
  have hget : disableds.get? nameDesc = none := OrderedMap.get?_eq_none_iff.mpr hnew
  cases item with
  | sequence items => exact absurd hname (by simp [itemName])
  | scalar value =>
    obtain rfl : value = nameDesc := Option.some.inj hname
    refine ⟨cfgDisabledInit, ?_, rfl⟩
    have hcontains : disableds.contains value = false := decide_eq_false hnew
    simp only [yamlNodeIntoDisabledsV1, yamlScalarToNameDesc, yamlScalarToString,
      Option.filter_some, hvalid, if_true, Option.elim_some, putIfAbsent, hcontains,
      Bool.false_eq_true, if_false]
  | mapping pairs =>
    have hitem := itemV1_mapping hname hvalid
    simp only [yamlNodeIntoDisabledsV1, hitem, Option.elim_some, hget, Option.getD_none]
    have hif : itemGet "IF" (.mapping pairs) =
        (pairs.foldl spmapPutPair OrderedMap.empty).get? "IF" := rfl
    cases hnode : (pairs.foldl spmapPutPair OrderedMap.empty).get? "IF" with
    | none =>
      refine ⟨cfgDisabledInit, rfl, ?_⟩
      rw [valueV2_disabled, hif, hnode]
      rfl
    | some node =>
      obtain ⟨maps, rfl, hvalidMap⟩ := hconditional node (hif.trans hnode)
      refine ⟨⟨maps.foldl yamlMapIntoConditions cfgDisabledInit.conditions⟩, rfl, ?_⟩
      have hsize : (maps.foldl yamlMapIntoConditions cfgDisabledInit.conditions).size ≠ 0 :=
        size_foldl_yamlMapIntoConditions maps _ (Or.inr hvalidMap)
      have hrest : (yamlMapToSpmap (some (itemRest (.mapping pairs)))).bind
          (fun m => m.get? "IF") = some (.sequence maps) := by
        have hkept : itemGet "IF" (itemRest (.mapping pairs)) = itemGet "IF" (.mapping pairs) :=
          itemGet_itemRest (by decide) (.mapping pairs)
        rw [itemGet] at hkept
        rw [hkept, hif, hnode]
      have hcond : yamlMapToDisabledCond (itemRest (.mapping pairs)) =
          some ⟨maps.foldl yamlMapIntoConditions cfgDisabledInit.conditions⟩ := by
        rw [yamlMapToDisabledCond, hrest]
        simp only [Option.bind_some, yamlSeqIntoCol, if_neg hsize]
      rw [valueV2_disabled, hif, hnode, Option.isSome_some, if_pos rfl]
      show putNonNull disableds nameDesc (yamlMapToDisabledCond (itemRest (.mapping pairs))) = _
      rw [hcond]
      rfl

/-! ### Arrays -/

section Array

variable {element : CfgElement} {items : List YamlNode} (h : ArrayV1 element items)

include h

theorem yamlMapIntoByNameDesc_nodeV2 {γ : Type} (into : γ → String → YamlNode → γ) (col : γ) :
    yamlMapIntoByNameDesc into col (nodeV2 element items) =
      items.foldl (fun col item =>
        into col ((itemName item).getD "") (valueV2 element item)) col := by
  have hname : ∀ item ∈ items, itemName item = some ((itemName item).getD "") := by
    intro item hitem
    obtain ⟨nameDesc, hnameDesc, -⟩ := h.named item hitem
    rw [hnameDesc, Option.getD_some]
  have hnodup : ((items.map (entryV2 element)).map Prod.fst).Nodup := by
    have hdistinct := h.distinct
    have hsome : items.map itemName = ((items.map (entryV2 element)).map Prod.fst).map some := by
      simp only [List.map_map]
      exact List.map_congr_left hname
    rw [hsome] at hdistinct
    exact List.Nodup.of_map _ hdistinct
  rw [yamlMapIntoByNameDesc, nodeV2, yamlMapToSpmap_of_nodup _ hnodup, Option.elim_some,
    List.foldl_map]
  refine List.foldl_ext _ _ col fun col item hitem => ?_
  obtain ⟨nameDesc, hnameDesc, hvalid⟩ := h.named item hitem
  rw [intoByNameDesc, if_pos]
  · rfl
  · rwa [entryV2, hnameDesc, Option.getD_some]

/-- An item that is a map has its name, and the rest of what it says. -/
theorem itemV1_eq (helement : element ≠ .disabled) {item : YamlNode} (hitem : item ∈ items) :
    ∃ m, itemV1 item = some ((itemName item).getD "", m) ∧
      yamlMapToSpmap (some item) = some m := by
  obtain ⟨pairs, rfl⟩ := h.maps helement item hitem
  obtain ⟨nameDesc, hnameDesc, hvalid⟩ := h.named _ hitem
  refine ⟨pairs.foldl spmapPutPair .empty, ?_, rfl⟩
  rw [hnameDesc, Option.getD_some]
  exact itemV1_mapping hnameDesc hvalid

/-- Items that put what the entries of their map put. -/
theorem foldl_itemsV1 (helement : element ≠ .disabled) {γ : Type}
    {intoV1 : γ → YamlNode → γ} {into : γ → String → YamlNode → γ}
    (hsame : ∀ item m col, itemV1 item = some ((itemName item).getD "", m) →
      yamlMapToSpmap (some item) = some m →
        intoV1 col item = into col ((itemName item).getD "") (valueV2 element item)) (col : γ) :
    items.foldl intoV1 col = yamlMapIntoByNameDesc into col (nodeV2 element items) := by
  rw [yamlMapIntoByNameDesc_nodeV2 h]
  refine List.foldl_ext _ _ col fun col item hitem => ?_
  obtain ⟨m, hitemV1, hm⟩ := itemV1_eq h helement hitem
  exact hsame item m col hitemV1 hm

theorem foldl_scalesV1 (helement : element = .scale) (scales : OrderedMap String Nat) :
    items.foldl yamlMapIntoScalesV1 scales = yamlMapIntoScales scales (nodeV2 element items) := by
  refine foldl_itemsV1 h (by rw [helement]; decide) (fun item m scales hitemV1 hm => ?_) scales
  rw [yamlMapIntoScalesV1, hitemV1, Option.elim_some, intoScales, helement, valueV2, itemGet, hm,
    Option.bind_some]
  congr 1
  cases m.get? "SCALE" with
  | none => decide +kernel
  | some node => rfl

theorem foldl_transformsV1 (helement : element = .transform)
    (transforms : OrderedMap String Transform) :
    items.foldl yamlMapIntoTransformsV1 transforms =
      yamlMapIntoTransforms transforms (nodeV2 element items) := by
  refine foldl_itemsV1 h (by rw [helement]; decide) (fun item m transforms hitemV1 hm => ?_)
    transforms
  rw [yamlMapIntoTransformsV1, hitemV1, Option.elim_some, intoTransforms, helement, valueV2,
    itemGet, hm, Option.bind_some]
  congr 1
  cases m.get? "TRANSFORM" with
  | none => decide +kernel
  | some node => rfl

omit [Platform] h in
theorem cfgModeOf_congr {m m' : YamlMap}
    (hget : ∀ key, key ≠ "NAME_DESC" → m.get? key = m'.get? key) :
    cfgModeOf m = cfgModeOf m' := by
  rw [cfgModeOf, cfgModeOf, hget "WIDTH" (by decide), hget "HEIGHT" (by decide),
    hget "HZ" (by decide), hget "MAX" (by decide), hget "MAX_PREFERRED_REFRESH" (by decide)]

theorem foldl_cfgModesV1 (helement : element = .mode) (modes : OrderedMap String Mode) :
    items.foldl yamlMapIntoCfgModesV1 modes =
      yamlMapIntoCfgModes modes (nodeV2 element items) := by
  refine foldl_itemsV1 h (by rw [helement]; decide) (fun item m modes hitemV1 hm => ?_) modes
  rw [yamlMapIntoCfgModesV1, hitemV1, Option.elim_some, intoCfgModes, helement, valueV2]
  congr 1
  cases item with
  | scalar value => exact absurd hm (by simp [yamlMapToSpmap])
  | sequence items => exact absurd hm (by simp [yamlMapToSpmap])
  | mapping pairs =>
    refine cfgModeOf_congr fun key hkey => ?_
    have hrest := itemGet_itemRest hkey (.mapping pairs)
    rw [itemGet, itemGet, hm, Option.bind_some] at hrest
    exact hrest.symm

/-- An array of DISABLED with names that are new. -/
theorem foldl_disabledsV1 (helement : element = .disabled) {disableds : Disableds}
    (hnew : ∀ nameDesc ∈ items.filterMap itemName, nameDesc ∉ disableds.keys) :
    items.foldl yamlNodeIntoDisabledsV1 disableds =
      yamlMapIntoDisableds disableds (nodeV2 element items) := by
  rw [yamlMapIntoDisableds, yamlMapIntoByNameDesc_nodeV2 h]
  obtain ⟨hnamed, -, hdistinct, hconditional⟩ := h
  replace hconditional := hconditional helement
  subst helement
  induction items generalizing disableds with
  | nil => rfl
  | cons item items ih =>
    obtain ⟨nameDesc, hname, hvalid⟩ := hnamed item List.mem_cons_self
    rw [List.map_cons, List.nodup_cons] at hdistinct
    obtain ⟨disabled, hv1, hv2⟩ := yamlNodeIntoDisabledsV1_eq hname hvalid
      (hconditional item List.mem_cons_self)
      (hnew nameDesc (by simp [hname]))
    rw [List.foldl_cons, List.foldl_cons, hname, Option.getD_some, hv1, hv2]
    refine ih ?_ (fun item hitem => hnamed item (List.mem_cons_of_mem _ hitem)) hdistinct.2
      (fun item hitem => hconditional item (List.mem_cons_of_mem _ hitem))
    intro other hother hmem
    rcases OrderedMap.mem_keys_put.mp hmem with rfl | hmem
    · obtain ⟨item', hitem', hname'⟩ := List.mem_filterMap.mp hother
      exact hdistinct.1 (hname.trans hname'.symm ▸ List.mem_map_of_mem hitem')
    · refine hnew other ?_ hmem
      rw [List.filterMap_cons_some hname]
      exact List.mem_cons_of_mem _ hother

end Array

/-! ### Names that are given -/

omit [Platform] in
theorem mem_keys_spmap {pairs : List YamlPair} {m : YamlMap} {key : String}
    (h : key ∈ (pairs.foldl spmapPutPair m).keys) :
    key ∈ m.keys ∨ key ∈ namesOf (.mapping pairs) := by
  induction pairs generalizing m with
  | nil => exact Or.inl h
  | cons pair pairs ih =>
    rw [namesOf]
    rcases ih h with hput | hpairs
    · unfold spmapPutPair at hput
      split at hput
      · rename_i k hk
        rcases OrderedMap.mem_keys_put.mp hput with rfl | hm
        · exact Or.inr (List.mem_filterMap.mpr ⟨pair, List.mem_cons_self, hk⟩)
        · exact Or.inl hm
      · exact Or.inl hput
    · refine Or.inr ?_
      obtain ⟨pair', hpair', hk⟩ := List.mem_filterMap.mp hpairs
      exact List.mem_filterMap.mpr ⟨pair', List.mem_cons_of_mem _ hpair', hk⟩

theorem mem_keys_intoDisableds {disableds : Disableds} {nameDesc key : String}
    {node : YamlNode} (h : key ∈ (intoDisableds disableds nameDesc node).keys) :
    key = nameDesc ∨ key ∈ disableds.keys := by
  cases node with
  | scalar value => exact OrderedMap.mem_keys_put.mp h
  | sequence items => exact Or.inr h
  | mapping pairs =>
    simp only [intoDisableds, putNonNull] at h
    split at h
    · exact OrderedMap.mem_keys_put.mp h
    · exact Or.inr h

theorem mem_keys_yamlMapIntoDisableds {disableds : Disableds} {pairs : List YamlPair}
    {key : String} (h : key ∈ (yamlMapIntoDisableds disableds (.mapping pairs)).keys) :
    key ∈ disableds.keys ∨ key ∈ namesOf (.mapping pairs) := by
  have hentries : ∀ e ∈ (pairs.foldl spmapPutPair OrderedMap.empty).entries,
      e.1 ∈ namesOf (.mapping pairs) := by
    intro e he
    have hkey : e.1 ∈ (pairs.foldl spmapPutPair OrderedMap.empty).keys := List.mem_map_of_mem he
    exact (mem_keys_spmap hkey).resolve_left (by simp)
  revert h
  refine List.foldlRecOn
    (motive := fun d : Disableds => key ∈ d.keys → key ∈ disableds.keys ∨
      key ∈ namesOf (.mapping pairs)) _ _ Or.inl fun d ih e he h => ?_
  unfold intoByNameDesc at h
  split at h
  · rcases mem_keys_intoDisableds h with rfl | h
    · exact Or.inr (hentries e he)
    · exact ih h
  · exact ih h

theorem mem_keys_yamlNodeIntoDisabledsV1 {disableds : Disableds} {item : YamlNode} {key : String}
    (h : key ∈ (yamlNodeIntoDisabledsV1 disableds item).keys) :
    key ∈ disableds.keys ∨ itemName item = some key := by
  cases item with
  | sequence items => exact Or.inl h
  | scalar value =>
    simp only [yamlNodeIntoDisabledsV1] at h
    cases hname : yamlScalarToNameDesc (some (.scalar value)) with
    | none =>
      rw [hname] at h
      exact Or.inl h
    | some nameDesc =>
      rw [hname, Option.elim_some, putIfAbsent] at h
      obtain ⟨hvalue, -⟩ := Option.filter_eq_some_iff.mp hname
      split at h
      · exact Or.inl h
      · rcases OrderedMap.mem_keys_put.mp h with rfl | h
        · exact Or.inr hvalue
        · exact Or.inl h
  | mapping pairs =>
    simp only [yamlNodeIntoDisabledsV1] at h
    cases hitem : itemV1 (.mapping pairs) with
    | none =>
      rw [hitem] at h
      exact Or.inl h
    | some item =>
      rw [hitem, Option.elim_some] at h
      rcases OrderedMap.mem_keys_put.mp h with rfl | h
      · obtain ⟨m, hm, hname⟩ := Option.bind_eq_some_iff.mp hitem
        obtain ⟨nameDesc, hnameDesc, rfl⟩ := Option.map_eq_some_iff.mp hname
        obtain ⟨hscalar, -⟩ := Option.filter_eq_some_iff.mp hnameDesc
        right
        rw [itemName, hm, Option.bind_some, hscalar]
      · exact Or.inl h

theorem mem_keys_foldl_disabledsV1 {disableds : Disableds} {items : List YamlNode} {key : String}
    (h : key ∈ (items.foldl yamlNodeIntoDisabledsV1 disableds).keys) :
    key ∈ disableds.keys ∨ key ∈ namesOf (.sequence items) := by
  revert h
  refine List.foldlRecOn
    (motive := fun d : Disableds => key ∈ d.keys → key ∈ disableds.keys ∨
      key ∈ namesOf (.sequence items)) _ _ Or.inl fun d ih item hitem h => ?_
  rcases mem_keys_yamlNodeIntoDisabledsV1 h with h | hname
  · exact ih h
  · exact Or.inr (List.mem_filterMap.mpr ⟨item, hitem, hname⟩)

/-- An element gives disabled heads no names but its own. -/
theorem mem_keys_pair {uc : Unmarshal} {pair : YamlPair} {key : String}
    (h : key ∈ (uc.pair pair).cfg.disableds.keys) : key ∈ uc.cfg.disableds.keys ∨
      (elementOf pair = some .disabled ∧ key ∈ namesOf pair.2) := by
  unfold Unmarshal.pair at h
  split at h
  · rename_i element helement
    obtain ⟨keyNode, node⟩ := pair
    cases element with
    | disabled =>
      cases node with
      | scalar value => exact Or.inl h
      | sequence items => exact (mem_keys_foldl_disabledsV1 h).imp_right fun h => ⟨helement, h⟩
      | mapping pairs => exact (mem_keys_yamlMapIntoDisableds h).imp_right fun h => ⟨helement, h⟩
    | scale => cases node <;> exact Or.inl h
    | mode => cases node <;> exact Or.inl h
    | transform => cases node <;> exact Or.inl h
    | _ => exact Or.inl h
  · exact Or.inl h

/-! ### Elements -/

omit [Platform] in
theorem eq_of_unmarked_eq {cfg cfg' : Cfg} (h : unmarked cfg = unmarked cfg') :
    cfg' = { cfg with disabledsEmpty := cfg'.disabledsEmpty } := by
  cases cfg
  cases cfg'
  simp only [unmarked, Cfg.mk.injEq] at h ⊢
  simp only [h, and_self]

theorem unmarked_element {uc uc' : Unmarshal} (h : unmarked uc.cfg = unmarked uc'.cfg)
    (element : CfgElement) (node : YamlNode) :
    unmarked (uc.element element node).cfg = unmarked (uc'.element element node).cfg := by
  obtain ⟨cfg, present, laptopDisplay⟩ := uc
  obtain ⟨cfg', present', laptopDisplay'⟩ := uc'
  have hcfg := eq_of_unmarked_eq h
  generalize cfg'.disabledsEmpty = marker at hcfg
  subst hcfg
  cases element <;> first | rfl | (cases node <;> rfl)

theorem unmarked_nodeV2 {element : CfgElement} (helement : element ∈ arrayElements)
    {items : List YamlNode} (h : ArrayV1 element items) {uc : Unmarshal}
    (hnew : element = .disabled → ∀ nameDesc ∈ items.filterMap itemName,
      nameDesc ∉ uc.cfg.disableds.keys) :
    unmarked (uc.element element (.sequence items)).cfg =
      unmarked (uc.element element (nodeV2 element items)).cfg := by
  simp only [arrayElements, List.mem_cons, List.not_mem_nil, or_false] at helement
  rcases helement with rfl | rfl | rfl | rfl
  · show unmarked { uc.cfg with scales := items.foldl yamlMapIntoScalesV1 uc.cfg.scales } = _
    rw [foldl_scalesV1 h rfl]
    rfl
  · show unmarked { uc.cfg with modes := items.foldl yamlMapIntoCfgModesV1 uc.cfg.modes } = _
    rw [foldl_cfgModesV1 h rfl]
    rfl
  · show unmarked
      { uc.cfg with transforms := items.foldl yamlMapIntoTransformsV1 uc.cfg.transforms } = _
    rw [foldl_transformsV1 h rfl]
    rfl
  · show unmarked
      { uc.cfg with disableds := items.foldl yamlNodeIntoDisabledsV1 uc.cfg.disableds } = _
    rw [foldl_disabledsV1 h rfl (hnew rfl)]
    rfl

omit [Platform] in
theorem arrayOf_eq_some {pair : YamlPair} {element : CfgElement} {items : List YamlNode}
    (h : arrayOf pair = some (element, items)) :
    elementOf pair = some element ∧ element ∈ arrayElements ∧ pair.2 = .sequence items ∧
      items.isEmpty = false := by
  unfold arrayOf at h
  split at h
  · rename_i e item rest helement hnode
    split at h
    · rename_i hmem
      obtain ⟨rfl, rfl⟩ := Prod.mk.inj (Option.some.inj h)
      exact ⟨helement, hmem, hnode, rfl⟩
    · exact absurd h (by simp)
  · exact absurd h (by simp)

/-- The flag of version 1 is set by arrays. -/
theorem v1Present_pair (uc : Unmarshal) (pair : YamlPair) :
    (uc.pair pair).v1Present = (uc.v1Present || (arrayOf pair).isSome) := by
  obtain ⟨key, node⟩ := pair
  unfold Unmarshal.pair arrayOf elementOf
  cases (yamlScalarToString (some key)).bind cfgElementVal with
  | none => simp
  | some element =>
    cases node with
    | scalar value => cases element <;> simp [Unmarshal.element]
    | mapping pairs => cases element <;> simp [Unmarshal.element]
    | sequence items =>
      cases items with
      | nil => cases element <;> simp [Unmarshal.element, Unmarshal.flagV1]
      | cons item items =>
        cases element <;> simp [Unmarshal.element, Unmarshal.flagV1, arrayElements]

theorem v1LaptopDisplayPrefix_pair (uc : Unmarshal) {pair : YamlPair}
    (h : elementOf pair ≠ some .laptopDisplayPrefix) :
    (uc.pair pair).v1LaptopDisplayPrefix = uc.v1LaptopDisplayPrefix := by
  obtain ⟨key, node⟩ := pair
  unfold elementOf at h
  unfold Unmarshal.pair
  cases helement : (yamlScalarToString (some key)).bind cfgElementVal with
  | none => rfl
  | some element =>
    rw [helement] at h
    cases element with
    | laptopDisplayPrefix => exact absurd rfl h
    | scale => cases node <;> rfl
    | mode => cases node <;> rfl
    | transform => cases node <;> rfl
    | disabled => cases node <;> rfl
    | _ => rfl

omit [Platform] in
theorem elementOf_pairV2 (pair : YamlPair) : elementOf (pairV2 pair) = elementOf pair := by
  unfold pairV2
  cases arrayOf pair <;> rfl

omit [Platform] in
theorem arrayOf_pairV2 (pair : YamlPair) : arrayOf (pairV2 pair) = none := by
  unfold pairV2
  cases harray : arrayOf pair with
  | none => exact harray
  | some array =>
    unfold arrayOf
    split
    · rename_i hnode
      exact absurd hnode (by simp [nodeV2])
    · rfl

theorem unmarked_pairV2 {uc uc' : Unmarshal} (h : unmarked uc.cfg = unmarked uc'.cfg)
    {pair : YamlPair} (harrays : ∀ array, arrayOf pair = some array → ArrayV1 array.1 array.2)
    (hnew : ∀ items, arrayOf pair = some (.disabled, items) →
      ∀ nameDesc ∈ items.filterMap itemName, nameDesc ∉ uc.cfg.disableds.keys) :
    unmarked (uc.pair pair).cfg = unmarked (uc'.pair (pairV2 pair)).cfg := by
  have hpair : ∀ (uc : Unmarshal) (pair : YamlPair), uc.pair pair =
      (elementOf pair).elim uc (fun element => uc.element element pair.2) := by
    intro uc pair
    unfold Unmarshal.pair elementOf
    cases (yamlScalarToString (some pair.1)).bind cfgElementVal <;> rfl
  rw [hpair, hpair, elementOf_pairV2]
  cases harray : arrayOf pair with
  | none =>
    have hsame : pairV2 pair = pair := by rw [pairV2, harray, Option.elim_none]
    rw [hsame]
    cases elementOf pair with
    | none => exact h
    | some element => exact unmarked_element h element pair.2
  | some array =>
    obtain ⟨element, items⟩ := array
    obtain ⟨helement, hmem, hnode, -⟩ := arrayOf_eq_some harray
    have hmap : (pairV2 pair).2 = nodeV2 element items := by
      rw [pairV2, harray, Option.elim_some]
    rw [helement, Option.elim_some, Option.elim_some, hnode, hmap]
    refine (unmarked_nodeV2 hmem (harrays _ harray) ?_).trans (unmarked_element h element _)
    rintro rfl
    exact hnew items harray

/-! ### Documents -/

/-- Both versions of a document, element by element. -/
theorem unmarked_documentV2 {pairs : List YamlPair} {uc uc' : Unmarshal}
    (h : unmarked uc.cfg = unmarked uc'.cfg)
    (harrays : ∀ pair ∈ pairs, ∀ array, arrayOf pair = some array → ArrayV1 array.1 array.2)
    (hapart : DisabledApart pairs)
    (hnew : ∀ pair ∈ pairs, ∀ items, arrayOf pair = some (.disabled, items) →
      ∀ nameDesc ∈ items.filterMap itemName, nameDesc ∉ uc.cfg.disableds.keys) :
    unmarked (pairs.foldl Unmarshal.pair uc).cfg =
      unmarked ((documentV2 pairs).foldl Unmarshal.pair uc').cfg := by
  induction pairs generalizing uc uc' with
  | nil => exact h
  | cons pair pairs ih =>
    obtain ⟨hhead, hapart⟩ := List.pairwise_cons.mp hapart
    refine ih (unmarked_pairV2 h (harrays pair List.mem_cons_self)
      (hnew pair List.mem_cons_self)) (fun p hp => harrays p (List.mem_cons_of_mem _ hp))
      hapart ?_
    intro p hp items hitems nameDesc hname hmem
    rcases mem_keys_pair hmem with hold | ⟨helement, hgiven⟩
    · exact hnew p (List.mem_cons_of_mem _ hp) items hitems nameDesc hname hold
    · exact hhead p hp helement items hitems nameDesc hname hgiven

theorem v1Present_foldl (pairs : List YamlPair) (uc : Unmarshal) :
    (pairs.foldl Unmarshal.pair uc).v1Present =
      (uc.v1Present || pairs.any (fun pair => (arrayOf pair).isSome)) := by
  induction pairs generalizing uc with
  | nil => simp
  | cons pair pairs ih => rw [List.foldl_cons, ih, v1Present_pair, List.any_cons, Bool.or_assoc]

theorem v1LaptopDisplayPrefix_foldl {pairs : List YamlPair} (uc : Unmarshal)
    (h : ∀ pair ∈ pairs, elementOf pair ≠ some .laptopDisplayPrefix) :
    (pairs.foldl Unmarshal.pair uc).v1LaptopDisplayPrefix = uc.v1LaptopDisplayPrefix := by
  induction pairs generalizing uc with
  | nil => rfl
  | cons pair pairs ih =>
    rw [List.foldl_cons, ih _ (fun p hp => h p (List.mem_cons_of_mem _ hp)),
      v1LaptopDisplayPrefix_pair uc (h pair List.mem_cons_self)]

/-! ### The marker -/

omit [Platform] in
/-- The marker is without consequence once something is disabled. -/
theorem loaded_unmarked {cfg : Cfg} (h : cfg.disableds.size ≠ 0) :
    loaded (unmarked cfg) = unmarked (loaded cfg) := by
  have hkept : ∀ c : Cfg, c.disableds.size ≠ 0 → (cfgApplyDefaults c).disableds = c.disableds := by
    intro c hc
    simp only [cfgApplyDefaults, hc, decide_false, Bool.and_false, Bool.false_eq_true, if_false]
  have hdefaults : cfgApplyDefaults (unmarked cfg) = unmarked (cfgApplyDefaults cfg) := by
    have hrest : cfgApplyDefaults (unmarked cfg) = { unmarked (cfgApplyDefaults cfg) with
        disableds := (cfgApplyDefaults (unmarked cfg)).disableds } := rfl
    have hsame : (cfgApplyDefaults (unmarked cfg)).disableds = (cfgApplyDefaults cfg).disableds :=
      (hkept (unmarked cfg) h).trans (hkept cfg h).symm
    rw [hrest, hsame]
    rfl
  rw [loaded, hdefaults]
  rfl

theorem headFindMode_unmarked (cfg : Cfg) (head : Head) :
    headFindMode (unmarked cfg) head =
      (unmarked (headFindMode cfg head).1, (headFindMode cfg head).2) := by
  unfold headFindMode
  split
  · rfl
  · dsimp only [unmarked]
    cases cfg.modes.find? (fun key _ => headNameDescMatchesHead key head) with
    | none => rfl
    | some e =>
      rw [Option.bind_some]
      cases headUserMode e.2 (headModePref head) head.modes with
      | none =>
        dsimp only
        split_ifs <;> rfl
      | some mode => rfl

theorem desireMode_unmarked (cfg : Cfg) (head : Head) :
    desireMode (unmarked cfg) head =
      (unmarked (desireMode cfg head).1, (desireMode cfg head).2) := by
  unfold desireMode
  rw [headFindMode_unmarked]
  split
  · rfl
  · obtain ⟨cfg', head', zmode⟩ := headFindMode cfg head
    cases zmode <;> rfl

theorem desireHead_unmarked (lid : Option Lid) (cfg : Cfg) (heads : Heads) (head : Head) :
    desireHead lid (unmarked cfg) heads head =
      (unmarked (desireHead lid cfg heads head).1, (desireHead lid cfg heads head).2) := by
  have henabled : ∀ head, desireEnabled (unmarked cfg) lid heads head =
      desireEnabled cfg lid heads head := fun _ => rfl
  unfold desireHead
  dsimp only
  rw [henabled, desireMode_unmarked]
  rfl

/-- The heads do not depend on the marker. -/
theorem desire_unmarked (cfg : Cfg) (lid : Option Lid) (heads : Heads) :
    (desire (unmarked cfg) lid heads).2 = (desire cfg lid heads).2 := by
  unfold desire
  rw [OrderedMap.forEach_state (desireHead_unmarked lid)]
  rfl

/-- Configurations that differ in the marker want the same of the heads. -/
theorem desire_loaded_congr {cfg cfg' : Cfg} (h : unmarked cfg = unmarked cfg')
    (hsize : cfg.disableds.size ≠ 0) (lid : Option Lid) (heads : Heads) :
    (desire (loaded cfg) lid heads).2 = (desire (loaded cfg') lid heads).2 := by
  have hsize' : cfg'.disableds.size ≠ 0 := by
    have hdisableds := congrArg Cfg.disableds h
    rw [unmarked, unmarked] at hdisableds
    rwa [← hdisableds]
  calc (desire (loaded cfg) lid heads).2
      = (desire (unmarked (loaded cfg)) lid heads).2 := (desire_unmarked _ lid heads).symm
    _ = (desire (unmarked (loaded cfg')) lid heads).2 := by
        rw [← loaded_unmarked hsize, h, loaded_unmarked hsize']
    _ = (desire (loaded cfg') lid heads).2 := desire_unmarked _ lid heads

/-! ### The migration -/

omit [Platform] in
theorem size_cfgDisabledAddLidCondition (disableds : Disableds) (nameDesc : String) :
    (cfgDisabledAddLidCondition disableds nameDesc).size ≠ 0 := by
  have hkey : nameDesc ∈ (cfgDisabledAddLidCondition disableds nameDesc).keys := by
    unfold cfgDisabledAddLidCondition
    split
    · rename_i hcontains
      exact of_decide_eq_true hcontains
    · exact OrderedMap.mem_keys_put.mpr (Or.inl rfl)
  intro hzero
  rw [OrderedMap.keys, List.length_eq_zero_iff.mp hzero] at hkey
  exact List.not_mem_nil hkey

theorem migrated_eq_withLidCondition {pairs : List YamlPair}
    (hnoLaptop : ∀ pair ∈ pairs, elementOf pair ≠ some .laptopDisplayPrefix)
    (hpresent : ∃ pair ∈ pairs, (arrayOf pair).isSome = true) :
    (yamlMapToCfg (.mapping pairs)).migrated =
      withLidCondition (yamlMapToCfg (.mapping pairs)).cfg := by
  have hflag : (yamlMapToCfg (.mapping pairs)).v1Present = true := by
    rw [yamlMapToCfg, YamlNode.pairs, v1Present_foldl]
    obtain ⟨pair, hpair, harray⟩ := hpresent
    exact Bool.or_eq_true_iff.mpr (Or.inr (List.any_eq_true.mpr ⟨pair, hpair, harray⟩))
  have hnone : (yamlMapToCfg (.mapping pairs)).v1LaptopDisplayPrefix = "" :=
    v1LaptopDisplayPrefix_foldl unmarshalInit hnoLaptop
  rw [Unmarshal.migrated, hflag, hnone, Bool.true_or, if_pos rfl, if_pos rfl]
  rfl

theorem migrated_documentV2 {pairs : List YamlPair}
    (hnoLaptop : ∀ pair ∈ pairs, elementOf pair ≠ some .laptopDisplayPrefix) :
    (yamlMapToCfg (.mapping (documentV2 pairs))).migrated =
      (yamlMapToCfg (.mapping (documentV2 pairs))).cfg := by
  have hflag : (yamlMapToCfg (.mapping (documentV2 pairs))).v1Present = false := by
    rw [yamlMapToCfg, YamlNode.pairs, v1Present_foldl, Bool.or_eq_false_iff]
    refine ⟨rfl, List.any_eq_false.mpr fun pair hpair => ?_⟩
    obtain ⟨pair', -, rfl⟩ := List.mem_map.mp hpair
    simp [arrayOf_pairV2]
  have hnone : (yamlMapToCfg (.mapping (documentV2 pairs))).v1LaptopDisplayPrefix = "" := by
    refine v1LaptopDisplayPrefix_foldl unmarshalInit fun pair hpair => ?_
    obtain ⟨pair', hpair', rfl⟩ := List.mem_map.mp hpair
    rw [elementOf_pairV2]
    exact hnoLaptop pair' hpair'
  rw [Unmarshal.migrated, hflag, hnone]
  rfl

omit [Platform] in
theorem unmarked_withLidCondition {cfg cfg' : Cfg} (h : unmarked cfg = unmarked cfg') :
    unmarked (withLidCondition cfg) = unmarked (withLidCondition cfg') := by
  rw [eq_of_unmarked_eq h]
  rfl

/-- A document of version 1 keeps its meaning, unless heads that are disabled by a map or an
array already are named again by an array. -/
theorem keepsMeaning {pairs : List YamlPair} (h : DocumentV1 pairs)
    (hapart : DisabledApart pairs) : KeepsMeaning pairs := by
  have hmigrated := migrated_eq_withLidCondition h.noLaptopDisplayPrefix h.present
  have hsame : unmarked (yamlMapToCfg (.mapping pairs)).cfg =
      unmarked (yamlMapToCfg (.mapping (documentV2 pairs))).cfg :=
    unmarked_documentV2 rfl h.arrays hapart (by simp [unmarshalInit, cfgInit])
  have hmeaning : unmarked (yamlMapToCfg (.mapping pairs)).migrated =
      unmarked (withLidCondition (yamlMapToCfg (.mapping (documentV2 pairs))).cfg) := by
    rw [hmigrated]
    exact unmarked_withLidCondition hsame
  refine ⟨_, _, rfl, congrArg some (migrated_documentV2 h.noLaptopDisplayPrefix), hmeaning, ?_⟩
  intro lid heads
  refine desire_loaded_congr hmeaning ?_ lid heads
  rw [hmigrated]
  exact size_cfgDisabledAddLidCondition _ _

omit [Platform] in
theorem arrayOf_sequence {key : YamlNode} {element : CfgElement} {items : List YamlNode}
    (helement : elementOf (key, .sequence items) = some element)
    (hmem : element ∈ arrayElements) (hitems : items ≠ []) :
    arrayOf (key, .sequence items) = some (element, items) := by
  obtain ⟨item, rest, rfl⟩ := List.exists_cons_of_ne_nil hitems
  rw [arrayOf, helement]
  exact if_pos hmem

end V1

/-- A display that is disabled while the lid is open. -/
def disabledOpen : YamlPair :=
  (.scalar "DISABLED", .sequence [.mapping [(.scalar "NAME_DESC", .scalar "DP-1"),
    (.scalar "IF", .sequence [.mapping [(.scalar "LID", .scalar "OPEN")]])]])

/-- The same display, disabled without a condition, under the key in another case. -/
def disabledAlways : YamlPair := (.scalar "Disabled", .sequence [.scalar "DP-1"])

private theorem arrayOf_disabledOpen : arrayOf disabledOpen =
    some (.disabled, [.mapping [(.scalar "NAME_DESC", .scalar "DP-1"),
      (.scalar "IF", .sequence [.mapping [(.scalar "LID", .scalar "OPEN")]])]]) :=
  arrayOf_sequence (by decide +kernel) (by decide) (List.cons_ne_nil _ _)

private theorem arrayOf_disabledAlways :
    arrayOf disabledAlways = some (.disabled, [.scalar "DP-1"]) :=
  arrayOf_sequence (by decide +kernel) (by decide) (List.cons_ne_nil _ _)

private theorem arrayV1_disabledOpen :
    let _ : Platform := plainPlatform
    ∀ array, arrayOf disabledOpen = some array → ArrayV1 array.1 array.2 := by
  intro _ array harray
  obtain rfl := Option.some.inj (arrayOf_disabledOpen.symm.trans harray)
  refine ⟨?_, fun h => absurd rfl h, List.nodup_singleton _, ?_⟩
  · intro item hitem
    obtain rfl := List.mem_singleton.mp hitem
    exact ⟨"DP-1", by decide +kernel, by decide +kernel⟩
  · intro _ item hitem node hnode
    obtain rfl := List.mem_singleton.mp hitem
    obtain rfl := Option.some.inj hnode
    exact ⟨_, rfl, _, List.mem_singleton_self _, by decide +kernel⟩

theorem keepsMeaning_disabledOpen :
    let _ : Platform := plainPlatform
    KeepsMeaning [disabledOpen] := by
  intro _
  refine keepsMeaning ⟨?_, ?_, ?_⟩ (List.pairwise_singleton _ _)
  · intro pair hpair
    obtain rfl := List.mem_singleton.mp hpair
    rw [(arrayOf_eq_some arrayOf_disabledOpen).1]
    decide
  · intro pair hpair
    obtain rfl := List.mem_singleton.mp hpair
    exact arrayV1_disabledOpen
  · exact ⟨disabledOpen, List.mem_singleton_self _, by rw [arrayOf_disabledOpen]; rfl⟩

private theorem documentV1_disabledAgain :
    let _ : Platform := plainPlatform
    DocumentV1 [disabledOpen, disabledAlways] := by
  intro _
  refine ⟨?_, ?_, ?_⟩
  · intro pair hpair
    simp only [List.mem_cons, List.not_mem_nil, or_false] at hpair
    rcases hpair with rfl | rfl
    · rw [(arrayOf_eq_some arrayOf_disabledOpen).1]
      decide
    · rw [(arrayOf_eq_some arrayOf_disabledAlways).1]
      decide
  · intro pair hpair
    simp only [List.mem_cons, List.not_mem_nil, or_false] at hpair
    rcases hpair with rfl | rfl
    · exact arrayV1_disabledOpen
    · intro array harray
      obtain rfl := Option.some.inj (arrayOf_disabledAlways.symm.trans harray)
      refine ⟨?_, fun h => absurd rfl h, List.nodup_singleton _, ?_⟩
      · intro item hitem
        obtain rfl := List.mem_singleton.mp hitem
        exact ⟨"DP-1", rfl, by decide +kernel⟩
      · intro _ item hitem node hnode
        obtain rfl := List.mem_singleton.mp hitem
        exact absurd hnode (by simp [itemGet, yamlMapToSpmap])
  · exact ⟨disabledOpen, List.mem_cons_self, by rw [arrayOf_disabledOpen]; rfl⟩

/-- An array leaves the condition that there is, its map overwrites it. -/
theorem disabled_again_overwrites :
    let _ : Platform := plainPlatform
    ¬ ∀ pairs, DocumentV1 pairs → KeepsMeaning pairs := by
  intro _ h
  obtain ⟨cfg, cfg', hcfg, hcfg', hsame, -⟩ :=
    h [disabledOpen, disabledAlways] documentV1_disabledAgain
  have hkept : ((yamlRootToCfg (some (.mapping [disabledOpen, disabledAlways]))).map
      (fun cfg => (cfg.disableds.get? "DP-1").map (fun d => d.conditions.size))) =
        some (some 1) := by
    decide +kernel
  have hoverwritten : ((yamlRootToCfg
      (some (.mapping (documentV2 [disabledOpen, disabledAlways])))).map
        (fun cfg => ((withLidCondition cfg).disableds.get? "DP-1").map
          (fun d => d.conditions.size))) = some (some 0) := by
    decide +kernel
  rw [hcfg, Option.map_some] at hkept
  rw [hcfg', Option.map_some] at hoverwritten
  have hdisableds := congrArg Cfg.disableds hsame
  rw [unmarked, unmarked] at hdisableds
  rw [hdisableds, hoverwritten] at hkept
  exact absurd hkept (by decide)

end WayDisplays.Yaml.Migration
