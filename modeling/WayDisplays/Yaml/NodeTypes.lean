/- What is accessed while a document is read: the data of a node of that very type, but for a
configuration in a message. -/

import WayDisplays.Model.Decode

set_option autoImplicit false
set_option relaxedAutoImplicit false

namespace WayDisplays.Yaml.NodeTypes

open Lib (OrderedMap OrderedSet Traced)
open Lib.Traced (Returns)
open Model

/-- A decoder reads what the model has it read, by accesses of the type of each node. -/
abbrev Reads {α : Type} (x : Decode.Decoder α) (a : α) : Prop := Returns Access.OfType x a

/-! ### Primitives -/

theorem scalarValue_reads (value : String) : Reads (Decode.scalarValue (.scalar value)) value :=
  ⟨rfl, Traced.all_emit.mpr rfl⟩

theorem sequenceItems_reads (items : List YamlNode) :
    Reads (Decode.sequenceItems (.sequence items)) items := ⟨rfl, Traced.all_emit.mpr rfl⟩

theorem mappingPairs_reads (pairs : List YamlPair) :
    Reads (Decode.mappingPairs (.mapping pairs)) pairs := ⟨rfl, Traced.all_emit.mpr rfl⟩

theorem yamlScalarTo_reads {α : Type} (read : String → Option α) (scalar : Option YamlNode) :
    Reads (Decode.yamlScalarTo read scalar) ((yamlScalarToString scalar).bind read) := by
  rcases scalar with _ | value | items | pairs
  · exact .pure none
  · refine (scalarValue_reads value).bind ?_
    change Reads _ (read value)
    cases read value with
    | some val => exact .pure (some val)
    | none => exact (scalarValue_reads value).map (fun _ => none)
  · exact .pure none
  · exact .pure none

theorem yamlScalarToString_reads (scalar : Option YamlNode) :
    Reads (Decode.yamlScalarToString scalar) (yamlScalarToString scalar) := by
  have h := yamlScalarTo_reads some scalar
  rwa [Option.bind_fun_some] at h

theorem yamlScalarToInt_reads (scalar : Option YamlNode) :
    Reads (Decode.yamlScalarToInt scalar) (yamlScalarToInt scalar) := yamlScalarTo_reads _ scalar

theorem yamlScalarToFloat_reads (scalar : Option YamlNode) :
    Reads (Decode.yamlScalarToFloat scalar) (yamlScalarToFloat scalar) :=
  yamlScalarTo_reads _ scalar

theorem yamlScalarToEnum_reads {α : Type} (val : String → Option α) (scalar : Option YamlNode) :
    Reads (Decode.yamlScalarToEnum val scalar) (yamlScalarToEnum val scalar) :=
  yamlScalarTo_reads _ scalar

theorem yamlScalarToBoolean_reads (scalar : Option YamlNode) :
    Reads (Decode.yamlScalarToBoolean scalar) (yamlScalarToBoolean scalar) := by
  unfold yamlScalarToBoolean
  rw [Option.map_bind]
  exact yamlScalarTo_reads _ scalar

theorem yamlScalarToOnOffDef_reads (default : OnOff) (scalar : Option YamlNode) :
    Reads (Decode.yamlScalarToOnOffDef default scalar) (yamlScalarToOnOffDef default scalar) :=
  (yamlScalarToBoolean_reads scalar).map _

theorem yamlSeqIntoCol_reads {γ : Type} {fn : γ → YamlNode → Decode.Decoder γ}
    {fn' : γ → YamlNode → γ} (h : ∀ col node, Reads (fn col node) (fn' col node)) (col : γ)
    (seq : Option YamlNode) :
    Reads (Decode.yamlSeqIntoCol fn col seq) (yamlSeqIntoCol fn' col seq) := by
  rcases seq with _ | value | items | pairs
  · exact .pure none
  · exact .pure none
  · exact (sequenceItems_reads items).bind ((Returns.foldlM h items col).map some)
  · exact .pure none

theorem yamlMapToSpmap_reads (map : Option YamlNode) :
    Reads (Decode.yamlMapToSpmap map) (yamlMapToSpmap map) := by
  have hput : ∀ nodes pair, Reads (Decode.spmapPutPair nodes pair) (spmapPutPair nodes pair) := by
    intro nodes pair
    have h := (yamlScalarToString_reads (some pair.1)).map
      (fun key => key.elim nodes (fun key => nodes.put key pair.2))
    unfold spmapPutPair
    cases hkey : yamlScalarToString (some pair.1) <;> rwa [hkey] at h
  rcases map with _ | value | items | pairs
  · exact .pure none
  · exact .pure none
  · exact .pure none
  · exact (mappingPairs_reads pairs).bind ((Returns.foldlM hput pairs _).map some)

section NameDesc

variable [Platform]

theorem yamlScalarToNameDesc_reads (scalar : Option YamlNode) :
    Reads (Decode.yamlScalarToNameDesc scalar) (yamlScalarToNameDesc scalar) :=
  (yamlScalarToString_reads scalar).map _

theorem yamlSeqIntoNameDescSset_reads (sset : Sset) (seq : YamlNode) :
    Reads (Decode.yamlSeqIntoNameDescSset sset seq) (yamlSeqIntoNameDescSset sset seq) := by
  rcases seq with value | items | pairs
  · exact .pure sset
  · exact (sequenceItems_reads items).bind
      (Returns.foldlM (fun sset scalar => (yamlScalarToNameDesc_reads (some scalar)).map _)
        items sset)
  · exact .pure sset

/-! ### Elements by name or description -/

omit [Platform] in
theorem scalarOr_reads {α : Type} {read : Option YamlNode → Decode.Decoder (Option α)}
    {read' : Option YamlNode → Option α} (h : ∀ scalar, Reads (read scalar) (read' scalar))
    (default : α) (scalar : Option YamlNode) :
    Reads (Decode.scalarOr read default scalar) (scalarOr read' default scalar) := by
  cases scalar with
  | none => exact .pure (some default)
  | some scalar => exact h (some scalar)

omit [Platform] in
theorem cfgModeOf_reads (m : YamlMap) : Reads (Decode.cfgModeOf m) (cfgModeOf m) :=
  (scalarOr_reads yamlScalarToInt_reads _ _).andThen fun _ =>
  (scalarOr_reads yamlScalarToInt_reads _ _).andThen fun _ =>
  (scalarOr_reads (fun scalar => (yamlScalarToFloat_reads scalar).map _) _ _).andThen fun _ =>
  (scalarOr_reads yamlScalarToBoolean_reads _ _).andThen fun _ =>
  (scalarOr_reads yamlScalarToBoolean_reads _ _).map _

omit [Platform] in
theorem yamlMapToCfgMode_reads (map : YamlNode) :
    Reads (Decode.yamlMapToCfgMode map) (yamlMapToCfgMode map) :=
  (yamlMapToSpmap_reads (some map)).andThen cfgModeOf_reads

theorem yamlMapIntoByNameDesc_reads {γ : Type} {into : γ → String → YamlNode → Decode.Decoder γ}
    {into' : γ → String → YamlNode → γ}
    (h : ∀ col nameDesc node, Reads (into col nameDesc node) (into' col nameDesc node)) (col : γ)
    (map : YamlNode) :
    Reads (Decode.yamlMapIntoByNameDesc into col map) (yamlMapIntoByNameDesc into' col map) := by
  have hinto : ∀ col e, Reads (Decode.intoByNameDesc into col e) (intoByNameDesc into' col e) := by
    intro col e
    unfold Decode.intoByNameDesc intoByNameDesc
    split_ifs
    · exact h col e.1 e.2
    · exact .pure col
  refine (yamlMapToSpmap_reads (some map)).bind ?_
  unfold yamlMapIntoByNameDesc
  cases yamlMapToSpmap (some map) with
  | none => exact .pure col
  | some m => exact Returns.foldlM hinto m.entries col

theorem yamlMapIntoCfgModes_reads (modes : OrderedMap String Mode) (map : YamlNode) :
    Reads (Decode.yamlMapIntoCfgModes modes map) (yamlMapIntoCfgModes modes map) :=
  yamlMapIntoByNameDesc_reads (fun _ _ node => (yamlMapToCfgMode_reads node).map _) modes map

omit [Platform] in
theorem milliscaleOf_reads (scalar : Option YamlNode) :
    Reads (Decode.milliscaleOf scalar) (milliscaleOf scalar) := by
  have hmodel : milliscaleOf scalar = (yamlScalarToFloat scalar).bind (fun scale =>
      if scale.nonpositive then none else some (toMilliscale scale)) := by
    unfold milliscaleOf
    cases yamlScalarToFloat scalar with
    | none => rfl
    | some scale => by_cases hscale : scale.nonpositive = true <;> simp [hscale, Option.filter]
  rw [hmodel]
  rcases scalar with _ | value | items | pairs
  · exact .pure none
  · refine (yamlScalarToFloat_reads (some (.scalar value))).andThen fun scale => ?_
    split_ifs
    · exact (scalarValue_reads value).map (fun _ => none)
    · exact .pure _
  · exact .pure none
  · exact .pure none

theorem yamlMapIntoScales_reads (scales : OrderedMap String Nat) (map : YamlNode) :
    Reads (Decode.yamlMapIntoScales scales map) (yamlMapIntoScales scales map) :=
  yamlMapIntoByNameDesc_reads (fun _ _ node => (milliscaleOf_reads (some node)).map _) scales map

theorem yamlMapIntoTransforms_reads (transforms : OrderedMap String Transform) (map : YamlNode) :
    Reads (Decode.yamlMapIntoTransforms transforms map) (yamlMapIntoTransforms transforms map) :=
  yamlMapIntoByNameDesc_reads
    (fun _ _ node => (yamlScalarToEnum_reads transformVal (some node)).map _) transforms map

/-! ### Disabled heads -/

theorem nameDescSset_reads (node : Option YamlNode) :
    Reads (Decode.nameDescSset node) (nameDescSset node) := by
  cases node with
  | none => exact .pure _
  | some node => exact yamlSeqIntoNameDescSset_reads .empty node

theorem yamlMapToCondition_reads (map : YamlNode) :
    Reads (Decode.yamlMapToCondition map) (yamlMapToCondition map) :=
  (yamlMapToSpmap_reads (some map)).andThen fun m =>
    (nameDescSset_reads (m.get? "PLUGGED")).bind
      ((nameDescSset_reads (m.get? "UNPLUGGED")).bind
        ((scalarOr_reads (fun scalar =>
          (yamlScalarToEnum_reads conditionLidVal scalar).map _) _ _).map _))

theorem yamlMapIntoConditions_reads (conditions : OrderedSet CfgCondition conditionEqual)
    (map : YamlNode) :
    Reads (Decode.yamlMapIntoConditions conditions map) (yamlMapIntoConditions conditions map) :=
  (yamlMapToCondition_reads map).map _

theorem yamlMapToDisabledCond_reads (map : YamlNode) :
    Reads (Decode.yamlMapToDisabledCond map) (yamlMapToDisabledCond map) := by
  have hif : ((yamlMapToSpmap (some map)).bind (fun m => m.get? "IF")).bind (fun nodeIf =>
      yamlSeqIntoCol yamlMapIntoConditions cfgDisabledInit.conditions (some nodeIf)) = _ :=
    Option.bind_assoc _ _ _
  rw [yamlMapToDisabledCond, hif]
  refine Returns.andThen ((yamlMapToSpmap_reads (some map)).andThen fun m => ?_)
    (fun conditions => .pure _)
  cases m.get? "IF" with
  | none => exact .pure none
  | some nodeIf => exact yamlSeqIntoCol_reads yamlMapIntoConditions_reads _ (some nodeIf)

theorem intoDisableds_reads (disableds : Disableds) (nameDesc : String) (node : YamlNode) :
    Reads (Decode.intoDisableds disableds nameDesc node)
      (intoDisableds disableds nameDesc node) := by
  rcases node with value | items | pairs
  · exact .pure _
  · exact .pure _
  · exact (yamlMapToDisabledCond_reads (.mapping pairs)).map _

theorem yamlMapIntoDisableds_reads (disableds : Disableds) (map : YamlNode) :
    Reads (Decode.yamlMapIntoDisableds disableds map) (yamlMapIntoDisableds disableds map) :=
  yamlMapIntoByNameDesc_reads intoDisableds_reads disableds map

/-! ### Version 1 -/

theorem itemV1_reads (map : YamlNode) : Reads (Decode.itemV1 map) (itemV1 map) :=
  (yamlMapToSpmap_reads (some map)).andThen fun m =>
    (yamlScalarToNameDesc_reads (m.get? "NAME_DESC")).map _

theorem itemIntoV1_reads {γ ν : Type} {read : YamlMap → Decode.Decoder (Option ν)}
    {read' : YamlMap → Option ν} (h : ∀ m, Reads (read m) (read' m))
    (put : γ → String → Option ν → γ) (col : γ) (map : YamlNode) :
    Reads (Decode.itemIntoV1 read put col map)
      ((itemV1 map).elim col (fun item => put col item.1 (read' item.2))) := by
  refine (itemV1_reads map).bind ?_
  cases itemV1 map with
  | none => exact .pure col
  | some item => exact (h item.2).map (put col item.1)

theorem yamlMapIntoCfgModesV1_reads (modes : OrderedMap String Mode) (map : YamlNode) :
    Reads (Decode.yamlMapIntoCfgModesV1 modes map) (yamlMapIntoCfgModesV1 modes map) :=
  itemIntoV1_reads cfgModeOf_reads putIfAbsent modes map

theorem yamlMapIntoScalesV1_reads (scales : OrderedMap String Nat) (map : YamlNode) :
    Reads (Decode.yamlMapIntoScalesV1 scales map) (yamlMapIntoScalesV1 scales map) :=
  itemIntoV1_reads (fun m => milliscaleOf_reads (m.get? "SCALE")) putIfAbsent scales map

theorem yamlMapIntoTransformsV1_reads (transforms : OrderedMap String Transform)
    (map : YamlNode) :
    Reads (Decode.yamlMapIntoTransformsV1 transforms map)
      (yamlMapIntoTransformsV1 transforms map) :=
  itemIntoV1_reads (fun m => yamlScalarToEnum_reads transformVal (m.get? "TRANSFORM"))
    putIfAbsent transforms map

theorem yamlNodeIntoDisabledsV1_reads (disableds : Disableds) (node : YamlNode) :
    Reads (Decode.yamlNodeIntoDisabledsV1 disableds node)
      (yamlNodeIntoDisabledsV1 disableds node) := by
  rcases node with value | items | pairs
  · exact (yamlScalarToNameDesc_reads (some (.scalar value))).map _
  · exact .pure disableds
  · refine (itemV1_reads (.mapping pairs)).bind ?_
    change Reads _ ((itemV1 (.mapping pairs)).elim disableds (fun item =>
      disableds.put item.1
        ⟨(yamlSeqIntoCol yamlMapIntoConditions
          ((disableds.get? item.1).getD cfgDisabledInit).conditions (item.2.get? "IF")).getD
            ((disableds.get? item.1).getD cfgDisabledInit).conditions⟩))
    cases itemV1 (.mapping pairs) with
    | none => exact .pure disableds
    | some item => exact (yamlSeqIntoCol_reads yamlMapIntoConditions_reads _ _).map _

/-! ### The configuration -/

omit [Platform] in
theorem yamlScalarToScaleRoundTo_reads (scalar : YamlNode) :
    Reads (Decode.yamlScalarToScaleRoundTo scalar) (yamlScalarToScaleRoundTo (some scalar)) := by
  rcases scalar with value | items | pairs
  · refine (yamlScalarToFloat_reads (some (.scalar value))).bind ?_
    unfold yamlScalarToScaleRoundTo
    cases yamlScalarToFloat (some (.scalar value)) with
    | none => exact .pure _
    | some val =>
      dsimp only [Option.map_some, Option.getD_some]
      split_ifs
      · exact (scalarValue_reads value).map (fun _ => scaleRoundToDefault)
      · exact .pure _
  · exact .pure _
  · exact .pure _

theorem element_reads (uc : Unmarshal) (element : CfgElement) (node : YamlNode) :
    Reads (Decode.element uc element node) (uc.element element node) := by
  cases element with
  | arrange => exact (yamlScalarToEnum_reads _ _).map _
  | align => exact (yamlScalarToEnum_reads _ _).map _
  | order => exact (yamlSeqIntoNameDescSset_reads _ _).map _
  | scaling => exact (yamlScalarToOnOffDef_reads _ _).map _
  | autoScale => exact (yamlScalarToOnOffDef_reads _ _).map _
  | scale =>
    rcases node with value | items | pairs
    · exact .pure uc
    · exact (yamlSeqIntoCol_reads yamlMapIntoScalesV1_reads _ _).map _
    · exact (yamlMapIntoScales_reads _ _).map _
  | scaleRoundTo => exact (yamlScalarToScaleRoundTo_reads _).map _
  | scaleRoundStrategy => exact (yamlScalarToEnum_reads _ _).map _
  | mode =>
    rcases node with value | items | pairs
    · exact .pure uc
    · exact (yamlSeqIntoCol_reads yamlMapIntoCfgModesV1_reads _ _).map _
    · exact (yamlMapIntoCfgModes_reads _ _).map _
  | transform =>
    rcases node with value | items | pairs
    · exact .pure uc
    · exact (yamlSeqIntoCol_reads yamlMapIntoTransformsV1_reads _ _).map _
    · exact (yamlMapIntoTransforms_reads _ _).map _
  | vrrOff => exact (yamlSeqIntoNameDescSset_reads _ _).map _
  | callbackCmd => exact (yamlScalarToString_reads _).map _
  | laptopDisplayPrefix => exact (yamlScalarToString_reads _).map _
  | laptopLidMonitor => exact (yamlScalarToOnOffDef_reads _ _).map _
  | logThreshold => exact (yamlScalarToEnum_reads _ _).map _
  | disabled =>
    rcases node with value | items | pairs
    · exact .pure _
    · exact (yamlSeqIntoCol_reads yamlNodeIntoDisabledsV1_reads _ _).map _
    · exact (yamlMapIntoDisableds_reads _ _).map _
  | autoScaleDpi => exact (yamlScalarToInt_reads _).map _
  | autoScaleMin => exact (yamlScalarToFloat_reads _).map _
  | autoScaleMax => exact (yamlScalarToFloat_reads _).map _
  | plugged => exact .pure uc
  | unplugged => exact .pure uc
  | arrangeAlign => exact .pure uc

theorem pair_reads (uc : Unmarshal) (pair : YamlPair) :
    Reads (Decode.pair uc pair) (uc.pair pair) := by
  obtain ⟨value | items | pairs, node⟩ := pair
  · refine (scalarValue_reads value).bind ?_
    have hname : (yamlScalarToString (some (.scalar value))).bind cfgElementVal =
        cfgElementVal value := rfl
    rw [Unmarshal.pair, hname]
    cases cfgElementVal value with
    | none => exact (scalarValue_reads value).map (fun _ => uc)
    | some element => exact element_reads uc element node
  · exact .pure uc
  · exact .pure uc

/-- A mapping is read as one, and so is anything else. -/
theorem val_yamlMapToCfg (map : YamlNode) : (Decode.yamlMapToCfg map).val = yamlMapToCfg map := by
  rw [yamlMapToCfg, Decode.yamlMapToCfg, Traced.val_bind]
  exact (Returns.foldlM pair_reads map.pairs unmarshalInit).val

theorem all_yamlMapToCfg (map : YamlNode) :
    (Decode.yamlMapToCfg map).All Access.OfType ↔ map.type = .mapping := by
  rw [Decode.yamlMapToCfg, Traced.all_bind, Decode.mappingPairs, Traced.all_emit]
  exact and_iff_left (Returns.foldlM pair_reads map.pairs unmarshalInit).all

theorem yamlRootToCfg_reads (root : Option YamlNode) :
    Reads (Decode.yamlRootToCfg root) (yamlRootToCfg root) := by
  rcases root with _ | value | items | pairs
  · exact .pure none
  · exact .pure none
  · exact .pure none
  · have h : Reads (Decode.yamlMapToCfg (.mapping pairs)) (yamlMapToCfg (.mapping pairs)) :=
      ⟨val_yamlMapToCfg _, (all_yamlMapToCfg _).mpr rfl⟩
    exact h.map _

end NameDesc

/-! ### Heads -/

theorem yamlMapToHeadMode_reads (map : Option YamlNode) :
    Reads (Decode.yamlMapToHeadMode map) (yamlMapToHeadMode map) := by
  unfold yamlMapToHeadMode
  rw [Option.map_eq_bind]
  exact (yamlMapToSpmap_reads map).andThen fun m =>
    (yamlScalarToInt_reads (m.get? "WIDTH")).bind
      ((yamlScalarToInt_reads (m.get? "HEIGHT")).bind
        ((yamlScalarToInt_reads (m.get? "REFRESH_MHZ")).bind (.pure _)))

theorem yamlMapIntoHeadModes_reads (allocated : Nat) (modes : Modes) (map : YamlNode) :
    Reads (Decode.yamlMapIntoHeadModes allocated modes map)
      (yamlMapIntoHeadModes allocated modes map) :=
  (yamlMapToHeadMode_reads (some map)).map _

theorem yamlMapToZmode_reads (head : Head) (map : Option YamlNode) :
    Reads (Decode.yamlMapToZmode head map)
      ((yamlMapToHeadMode map).map (fun _ => yamlMapToZmode head map)) := by
  have h := (yamlMapToHeadMode_reads map).map (fun mode => mode.map (fun mode =>
    (firstKey head.modes mode).or (firstKey head.modesFailed mode)))
  unfold yamlMapToZmode
  cases hmode : yamlMapToHeadMode map <;> rwa [hmode] at h

section Heads

variable [Platform]

theorem yamlMapIntoHeadState_reads (headState : HeadState) (head : Head)
    (map : Option YamlNode) :
    Reads (Decode.yamlMapIntoHeadState headState head map)
      (yamlMapIntoHeadState headState head map) := by
  refine (yamlMapToSpmap_reads map).bind ?_
  unfold yamlMapIntoHeadState
  cases yamlMapToSpmap map with
  | none => exact .pure headState
  | some m =>
    exact (yamlScalarToBoolean_reads (m.get? "ENABLED")).bind
      ((yamlScalarToInt_reads (m.get? "X")).bind
        ((yamlScalarToInt_reads (m.get? "Y")).bind
          ((yamlScalarToEnum_reads transformVal (m.get? "TRANSFORM")).bind
            ((yamlScalarToFloat_reads (m.get? "SCALE")).bind
              ((yamlScalarToBoolean_reads (m.get? "VRR")).bind
                ((yamlMapToZmode_reads head (m.get? "MODE")).bind (.pure _)))))))

theorem yamlMapToHead_reads (m : YamlMap) : Reads (Decode.yamlMapToHead m) (yamlMapToHead m) := by
  have hlisted : Reads (Decode.yamlMapToHeadListed m) _ :=
    (yamlScalarToString_reads (m.get? "NAME")).bind
      ((yamlScalarToString_reads (m.get? "DESCRIPTION")).bind
        ((yamlScalarToString_reads (m.get? "MAKE")).bind
          ((yamlScalarToString_reads (m.get? "MODEL")).bind
            ((yamlScalarToString_reads (m.get? "SERIAL_NUMBER")).bind
              ((yamlScalarToInt_reads (m.get? "WIDTH_MM")).bind
                ((yamlScalarToInt_reads (m.get? "HEIGHT_MM")).bind
                  ((yamlSeqIntoCol_reads (yamlMapIntoHeadModes_reads 0) _ (m.get? "MODES")).bind
                    ((yamlSeqIntoCol_reads (yamlMapIntoHeadModes_reads _) _
                      (m.get? "MODES_FAILED")).bind (.pure _)))))))))
  have hpref (listed : Head) : ((yamlMapToHeadMode (m.get? "MODE_PREFERRED")).map
      (fun _ => yamlMapToZmode listed (m.get? "MODE_PREFERRED"))).join =
        yamlMapToZmode listed (m.get? "MODE_PREFERRED") := by
    unfold yamlMapToZmode
    cases yamlMapToHeadMode (m.get? "MODE_PREFERRED") <;> rfl
  refine hlisted.bind ((yamlMapToZmode_reads _ (m.get? "MODE_PREFERRED")).bind ?_)
  rw [hpref]
  exact (yamlMapIntoHeadState_reads _ _ (m.get? "CURRENT")).bind
    ((yamlMapIntoHeadState_reads _ _ (m.get? "DESIRED")).bind
      (((yamlMapToSpmap_reads (m.get? "OVERRIDES")).andThen fun mo =>
        yamlScalarToBoolean_reads (mo.get? "DISABLED")).bind (.pure _)))

theorem yamlMapIntoHeads_reads (heads : List Head) (map : YamlNode) :
    Reads (Decode.yamlMapIntoHeads heads map) (yamlMapIntoHeads heads map) := by
  refine (yamlMapToSpmap_reads (some map)).bind ?_
  unfold yamlMapIntoHeads
  cases yamlMapToSpmap (some map) with
  | none => exact .pure heads
  | some m => exact (yamlMapToHead_reads m).map _

/-! ### Messages -/

theorem all_cfgValue (cfg : Option YamlNode) :
    (Decode.cfgValue cfg).All Access.OfType ↔ ∀ map, cfg = some map → map.type = .mapping := by
  cases cfg with
  | none => exact iff_of_true (Traced.all_pure none) (fun _ h => absurd h (by simp))
  | some map =>
    rw [Decode.cfgValue, Traced.all_map, all_yamlMapToCfg]
    exact ⟨fun h map' hmap => Option.some.inj hmap ▸ h, fun h => h map rfl⟩

omit [Platform] in
/-- CFG, where it is there, is a mapping. -/
def CfgMapping (m : YamlMap) : Prop := ∀ cfg, m.get? "CFG" = some cfg → cfg.type = .mapping

omit [Platform] in
def RequestCfg (root : YamlNode) : Prop :=
  ∀ m, yamlMapToSpmap (some root) = some m → ∀ command,
    yamlScalarToEnum ipcCommandVal (m.get? "OP") = some command → CfgMapping m

omit [Platform] in
def ResponseCfg (map : YamlNode) : Prop :=
  ∀ m, yamlMapToSpmap (some map) = some m →
    ∀ done, yamlScalarToBoolean (m.get? "DONE") = some done →
    ∀ rc, yamlScalarToInt (m.get? "RC") = some rc → CfgMapping m

theorem all_yamlRootToIpcRequest (root : YamlNode) :
    (Decode.yamlRootToIpcRequest (some root)).All Access.OfType ↔ RequestCfg root := by
  rw [Decode.yamlRootToIpcRequest, Traced.all_andThen, (yamlMapToSpmap_reads _).val,
    and_iff_right (yamlMapToSpmap_reads _).all]
  refine forall_congr' fun m => imp_congr_right fun _ => ?_
  rw [Traced.all_andThen, (yamlScalarToEnum_reads _ _).val,
    and_iff_right (yamlScalarToEnum_reads _ _).all]
  refine forall_congr' fun command => imp_congr_right fun _ => ?_
  rw [Traced.all_bind, and_iff_right (yamlScalarToEnum_reads _ _).all, Traced.all_bind,
    and_iff_left (Traced.all_pure _)]
  exact all_cfgValue _

omit [Platform] in
/-- The status is read by accesses of the right type, and is there if both values are. -/
theorem yamlMapToStatus_reads (m : YamlMap) :
    Reads (Decode.yamlMapToStatus m)
      ((yamlScalarToBoolean (m.get? "DONE")).bind (fun done =>
        (yamlScalarToInt (m.get? "RC")).map (fun rc => (done, rc)))) := by
  unfold Decode.yamlMapToStatus
  rcases m.get? "DONE" with _ | done
  · exact .pure none
  · rcases m.get? "RC" with _ | rc
    · cases yamlScalarToBoolean (some done) <;> exact .pure none
    · exact (yamlScalarToBoolean_reads (some done)).andThen fun _ =>
        (yamlScalarToInt_reads (some rc)).map _

theorem all_yamlMapToState (state : Option YamlNode) :
    (Decode.yamlMapToState state).All Access.OfType := by
  rw [Decode.yamlMapToState, Traced.all_bind]
  refine ⟨(yamlMapToSpmap_reads state).all, ?_⟩
  cases (Decode.yamlMapToSpmap state).val with
  | none => exact Traced.all_pure _
  | some ms =>
    have hlid : (Decode.yamlMapToLid (ms.get? "LID")).All Access.OfType :=
      Traced.all_andThen.mpr ⟨(yamlMapToSpmap_reads _).all, fun m _ =>
        Traced.all_bind.mpr ⟨(yamlScalarToString_reads _).all,
          Traced.all_map.mpr (yamlScalarToBoolean_reads _).all⟩⟩
    exact Traced.all_bind.mpr ⟨hlid, Traced.all_bind.mpr
      ⟨(yamlSeqIntoCol_reads yamlMapIntoHeads_reads _ _).all, Traced.all_pure _⟩⟩

omit [Platform] in
theorem yamlMapIntoLogCapLines_reads (logCapLines : List LogCapLine) (map : YamlNode) :
    Reads (Decode.yamlMapIntoLogCapLines logCapLines map)
      (Decode.yamlMapIntoLogCapLines logCapLines map).val := by
  refine ⟨rfl, Traced.all_bind.mpr ⟨(yamlMapToSpmap_reads _).all, ?_⟩⟩
  cases (Decode.yamlMapToSpmap (some map)).val with
  | none => exact Traced.all_pure _
  | some m =>
    refine (Traced.all_foldlM (Q := fun _ => True) (fun lines e _ => iff_of_true ?_ trivial)
      logCapLines).mpr (fun _ _ => trivial)
    exact Traced.all_map.mpr (yamlScalarToString_reads _).all

theorem all_yamlMapToIpcResponse (m : YamlMap) :
    (Decode.yamlMapToIpcResponse m).All Access.OfType ↔
      ∀ done, yamlScalarToBoolean (m.get? "DONE") = some done →
        ∀ rc, yamlScalarToInt (m.get? "RC") = some rc → CfgMapping m := by
  rw [Decode.yamlMapToIpcResponse, Traced.all_andThen, (yamlMapToStatus_reads m).val,
    and_iff_right (yamlMapToStatus_reads m).all]
  simp only [Traced.all_bind, all_yamlMapToState, Traced.all_pure,
    (yamlSeqIntoCol_reads yamlMapIntoLogCapLines_reads _ _).all, all_cfgValue, and_true]
  constructor
  · intro h done hdone rc hrc
    exact h (done, rc) (by rw [hdone, hrc]; rfl)
  · intro h status hstatus
    obtain ⟨done, hdone, hrc⟩ := Option.bind_eq_some_iff.mp hstatus
    obtain ⟨rc, hrc, -⟩ := Option.map_eq_some_iff.mp hrc
    exact h done hdone rc hrc

theorem all_yamlMapIntoIpcResponses (ipcResponses : List Decode.IpcResponseRead)
    (map : YamlNode) :
    (Decode.yamlMapIntoIpcResponses ipcResponses map).All Access.OfType ↔ ResponseCfg map := by
  rw [Decode.yamlMapIntoIpcResponses, Traced.all_map, Traced.all_andThen,
    (yamlMapToSpmap_reads _).val, and_iff_right (yamlMapToSpmap_reads _).all]
  exact forall_congr' fun m => imp_congr_right fun _ => all_yamlMapToIpcResponse m

omit [Platform] in
/-- The nodes of a document that are read as responses. -/
def responsesOf : YamlNode → List YamlNode
  | .scalar _ => []
  | .sequence items => items
  | .mapping pairs => [.mapping pairs]

theorem all_yamlRootToIpcResponsePlist (root : YamlNode) :
    (Decode.yamlRootToIpcResponsePlist (some root)).All Access.OfType ↔
      ∀ map ∈ responsesOf root, ResponseCfg map := by
  rw [Decode.yamlRootToIpcResponsePlist, Traced.all_map]
  rcases root with value | items | pairs
  · exact iff_of_true (Traced.all_pure []) (fun _ h => absurd h List.not_mem_nil)
  · refine (Traced.all_bind.trans (and_iff_right (sequenceItems_reads items).all)).trans ?_
    exact Traced.all_foldlM (fun ipcResponses map _ =>
      all_yamlMapIntoIpcResponses ipcResponses map) []
  · refine (all_yamlMapIntoIpcResponses [] (.mapping pairs)).trans ?_
    exact (List.forall_mem_singleton).symm

/-! ### Safety of a document -/

/-- Whatever a document is given as, only the data of a node's own type is accessed, and a
configuration that is not a mapping is not taken for one. -/
structure NodeTypesSafe (root : YamlNode) : Prop where
  cfg : (Decode.yamlRootToCfg (some root)).All Access.OfType
  request : (Decode.yamlRootToIpcRequest (some root)).All Access.OfType
  response : (Decode.yamlRootToIpcResponsePlist (some root)).All Access.OfType
  rejectedRoot : root.type ≠ .mapping → (Decode.yamlRootToCfg (some root)).val = none
  rejectedCfg : ∀ m, yamlMapToSpmap (some root) = some m → ∀ cfg, m.get? "CFG" = some cfg →
    cfg.type ≠ .mapping →
      ((Decode.yamlRootToIpcRequest (some root)).val.bind (fun request => request.cfg)) = none

theorem val_yamlRootToIpcRequest (root : YamlNode) :
    (Decode.yamlRootToIpcRequest (some root)).val = yamlRootToIpcRequest (some root) := by
  have hcfg : ∀ cfg : Option YamlNode, (Decode.cfgValue cfg).val =
      cfg.map (fun cfg => (yamlMapToCfg cfg).cfg) := by
    intro cfg
    cases cfg with
    | none => rfl
    | some map => exact congrArg (fun uc => some uc.cfg) (val_yamlMapToCfg map)
  rw [Decode.yamlRootToIpcRequest, yamlRootToIpcRequest, Traced.val_andThen,
    (yamlMapToSpmap_reads _).val]
  refine congrArg _ (funext fun m => ?_)
  rw [Traced.val_andThen, (yamlScalarToEnum_reads _ _).val, Option.map_eq_bind]
  refine congrArg _ (funext fun command => ?_)
  rw [Traced.val_bind, Traced.val_bind, Traced.val_pure, hcfg, (yamlScalarToEnum_reads _ _).val]
  rfl

/-- All three readers are safe exactly on documents where no message has a configuration that
is not a mapping. -/
theorem nodeTypesSafe_iff (root : YamlNode) :
    NodeTypesSafe root ↔ RequestCfg root ∧ ∀ map ∈ responsesOf root, ResponseCfg map := by
  constructor
  · exact fun h => ⟨(all_yamlRootToIpcRequest root).mp h.request,
      (all_yamlRootToIpcResponsePlist root).mp h.response⟩
  · rintro ⟨hrequest, hresponse⟩
    refine ⟨(yamlRootToCfg_reads (some root)).all, (all_yamlRootToIpcRequest root).mpr hrequest,
      (all_yamlRootToIpcResponsePlist root).mpr hresponse, fun hroot => ?_,
      fun m hm cfg hcfg hnot => ?_⟩
    · rw [(yamlRootToCfg_reads (some root)).val]
      rcases root with value | items | pairs
      · rfl
      · rfl
      · exact absurd rfl hroot
    · rw [val_yamlRootToIpcRequest, yamlRootToIpcRequest, hm, Option.bind_some]
      cases hcommand : yamlScalarToEnum ipcCommandVal (m.get? "OP") with
      | none => rfl
      | some command => exact absurd (hrequest m hm command hcommand cfg hcfg) hnot

end Heads

/-! ### A request with a sequence for its configuration -/

def listCfg : YamlNode :=
  .mapping [(.scalar "OP", .scalar "CFG_SET"),
    (.scalar "CFG", .sequence [.scalar "SCALING", .scalar "FALSE"])]

theorem listCfg_unsafe : ¬ @NodeTypesSafe plainPlatform listCfg := by
  let _ : Platform := plainPlatform
  intro h
  have hcfg := (@all_yamlRootToIpcRequest plainPlatform listCfg).mp h.request
  exact absurd (hcfg _ rfl .cfgSet (by decide) _ rfl) (by decide)

end WayDisplays.Yaml.NodeTypes
