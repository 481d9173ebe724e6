/- The configuration is valid from the first read on, whatever files and clients say. -/

import WayDisplays.Lib.Run
import WayDisplays.Model.Unmarshal

set_option autoImplicit false
set_option relaxedAutoImplicit false

namespace WayDisplays.CfgFile.Validity

open Lib (OrderedMap OrderedSet)
open Model

/-! ### What a valid configuration is -/

def AlignAdmissible (arrange : Option Arrange) (align : Option Align) : Prop :=
  match arrange with
  | some .col => align = some .left ∨ align = some .middle ∨ align = some .right
  | _ => align = some .top ∨ align = some .middle ∨ align = some .bottom

/-- Something is plugged, unplugged, or the lid is asked for. -/
def Nontrivial (condition : CfgCondition) : Prop :=
  condition.plugged.size > 0 ∨ condition.unplugged.size > 0 ∨ condition.lid ≠ none

def ConditionsNontrivial (disableds : Disableds) : Prop :=
  ∀ disabled ∈ disableds.vals, ∀ condition ∈ disabled.conditions.vals, Nontrivial condition

/-- The elements that a merge does not need to fix. -/
structure CfgComplete (cfg : Cfg) : Prop where
  arrange : cfg.arrange.isSome
  scaling : cfg.scaling.isSome
  autoScale : cfg.autoScale.isSome
  scaleRoundTo : cfg.scaleRoundTo ∈ [1, 2, 4, 8]
  scaleRoundStrategy : cfg.scaleRoundStrategy.isSome
  autoScaleMin : cfg.autoScaleMin ≠ 0
  autoScaleMax : cfg.autoScaleMax ≠ 0
  callbackCmd : cfg.callbackCmd.isSome
  laptopLidMonitor : cfg.laptopLidMonitor.isSome
  conditions : ConditionsNontrivial cfg.disableds

/-- Every element with a default is set, to a value that suits. -/
structure CfgValid (cfg : Cfg) : Prop extends CfgComplete cfg where
  align : cfg.align.isSome
  alignAdmissible : AlignAdmissible cfg.arrange cfg.align
  autoScaleDpi : cfg.autoScaleDpi > autoScaleDpiMin
  modes : ∀ mode ∈ cfg.modes.vals, modeIsInvalid mode = false

theorem align_cfgValidateFix {cfg : Cfg} (h : AlignAdmissible cfg.arrange cfg.align) :
    (cfgValidateFix cfg).align = cfg.align := by
  unfold AlignAdmissible at h
  simp only [cfgValidateFix]
  split <;> simp_all

theorem cfgValidateFix_of {cfg : Cfg} (halign : AlignAdmissible cfg.arrange cfg.align)
    (hdpi : cfg.autoScaleDpi > autoScaleDpiMin)
    (hmodes : ∀ mode ∈ cfg.modes.vals, modeIsInvalid mode = false) : cfgValidateFix cfg = cfg := by
  have hfixedDpi : (cfgValidateFix cfg).autoScaleDpi = cfg.autoScaleDpi := if_neg (not_le.mpr hdpi)
  have hfixedModes : (cfgValidateFix cfg).modes = cfg.modes := by
    apply OrderedMap.ext
    refine List.filter_eq_self.mpr fun e he => ?_
    have hvalid := hmodes e.2 (List.mem_map_of_mem he)
    simp [hvalid]
  have hfix : cfgValidateFix cfg = { cfg with
      align := (cfgValidateFix cfg).align, autoScaleDpi := (cfgValidateFix cfg).autoScaleDpi,
      modes := (cfgValidateFix cfg).modes } := rfl
  rw [hfix, align_cfgValidateFix halign, hfixedDpi, hfixedModes]

theorem cfgValidateFix_eq {cfg : Cfg} (h : CfgValid cfg) : cfgValidateFix cfg = cfg :=
  cfgValidateFix_of h.alignAdmissible h.autoScaleDpi h.modes

theorem alignAdmissible_cfgValidateFix (cfg : Cfg) :
    AlignAdmissible (cfgValidateFix cfg).arrange (cfgValidateFix cfg).align := by
  have harrange : (cfgValidateFix cfg).arrange = cfg.arrange := rfl
  rw [harrange]
  simp only [cfgValidateFix, AlignAdmissible]
  rcases cfg.arrange with _ | _ | _
  all_goals
    dsimp only
    split_ifs with halign
    · exact halign
    · exact Or.inl rfl

theorem AlignAdmissible.isSome {arrange : Option Arrange} {align : Option Align}
    (h : AlignAdmissible arrange align) : align.isSome := by
  unfold AlignAdmissible at h
  split at h <;> rcases h with rfl | rfl | rfl <;> rfl

theorem autoScaleDpi_cfgValidateFix (cfg : Cfg) :
    (cfgValidateFix cfg).autoScaleDpi > autoScaleDpiMin := by
  simp only [cfgValidateFix]
  split
  · decide
  · rename_i hdpi
    exact not_le.mp hdpi

theorem modes_cfgValidateFix (cfg : Cfg) :
    ∀ mode ∈ (cfgValidateFix cfg).modes.vals, modeIsInvalid mode = false := by
  intro mode hmode
  obtain ⟨e, he, rfl⟩ := List.mem_map.mp hmode
  simpa using (List.mem_filter.mp he).2

theorem valid_cfgValidateFix {cfg : Cfg} (h : CfgComplete cfg) : CfgValid (cfgValidateFix cfg) where
  toCfgComplete :=
    { arrange := h.arrange, scaling := h.scaling, autoScale := h.autoScale,
      scaleRoundTo := h.scaleRoundTo, scaleRoundStrategy := h.scaleRoundStrategy,
      autoScaleMin := h.autoScaleMin, autoScaleMax := h.autoScaleMax,
      callbackCmd := h.callbackCmd, laptopLidMonitor := h.laptopLidMonitor,
      conditions := h.conditions }
  align := (alignAdmissible_cfgValidateFix cfg).isSome
  alignAdmissible := alignAdmissible_cfgValidateFix cfg
  autoScaleDpi := autoScaleDpi_cfgValidateFix cfg
  modes := modes_cfgValidateFix cfg

/-! ### Conditions -/

theorem nontrivial_put {disableds : Disableds} (h : ConditionsNontrivial disableds)
    (nameDesc : String) {disabled : CfgDisabled}
    (hnew : ∀ condition ∈ disabled.conditions.vals, Nontrivial condition) :
    ConditionsNontrivial (disableds.put nameDesc disabled) := by
  intro d hd
  rcases OrderedMap.mem_vals_put hd with rfl | hd
  · exact hnew
  · exact h d hd

theorem nontrivial_addLidCondition {disableds : Disableds} (h : ConditionsNontrivial disableds)
    (nameDesc : String) :
    ConditionsNontrivial (cfgDisabledAddLidCondition disableds nameDesc) := by
  unfold cfgDisabledAddLidCondition
  split
  · exact h
  · refine nontrivial_put h nameDesc fun condition hcondition => ?_
    rcases OrderedSet.mem_vals_add hcondition with rfl | hnone
    · exact Or.inr (Or.inr (by simp))
    · exact absurd hnone List.not_mem_nil

/-! ### What is read -/

/-- What any document makes of an element, valid or not. -/
structure Read (cfg : Cfg) : Prop where
  scaleRoundTo : cfg.scaleRoundTo ∈ [0, 1, 2, 4, 8]
  conditions : ConditionsNontrivial cfg.disableds

theorem complete_cfgApplyDefaults {cfg : Cfg} (h : Read cfg) :
    CfgComplete (cfgApplyDefaults cfg) where
  arrange := by cases harrange : cfg.arrange <;> simp [cfgApplyDefaults, harrange]
  scaling := by cases hscaling : cfg.scaling <;> simp [cfgApplyDefaults, hscaling]
  autoScale := by cases hauto : cfg.autoScale <;> simp [cfgApplyDefaults, hauto]
  scaleRoundTo := by
    have hread := h.scaleRoundTo
    simp only [cfgApplyDefaults]
    split_ifs with hzero
    · decide
    · simp_all
  scaleRoundStrategy := by
    cases hstrategy : cfg.scaleRoundStrategy <;> simp [cfgApplyDefaults, hstrategy]
  autoScaleMin := by
    simp only [cfgApplyDefaults]
    split_ifs with hzero
    · decide
    · exact hzero
  autoScaleMax := by
    simp only [cfgApplyDefaults]
    split_ifs with hzero
    · decide
    · exact hzero
  callbackCmd := by cases hcmd : cfg.callbackCmd <;> simp [cfgApplyDefaults, hcmd]
  laptopLidMonitor := by
    cases hmonitor : cfg.laptopLidMonitor <;> simp [cfgApplyDefaults, hmonitor]
  conditions := by
    have hlid : ConditionsNontrivial
        (cfgDisabledAddLidCondition cfg.disableds disabledLaptopDisplayNameDescDefault) :=
      nontrivial_addLidCondition h.conditions _
    simp only [cfgApplyDefaults]
    split_ifs
    · exact hlid
    · exact h.conditions

/-- A base that has a name. -/
theorem mem_of_valName_scaleRoundTos {ret : Nat} (h : (valName scaleRoundTos ret).isSome = true) :
    ret ∈ [0, 1, 2, 4, 8] := by
  obtain ⟨name, hname⟩ := Option.isSome_iff_exists.mp h
  obtain ⟨nv, hfind, -⟩ := Option.map_eq_some_iff.mp hname
  have hval := List.find?_some hfind
  have hmem := List.mem_of_find?_eq_some hfind
  rw [of_decide_eq_true hval]
  simp only [scaleRoundTos, List.mem_cons, List.not_mem_nil, or_false] at hmem
  rcases hmem with rfl | rfl | rfl | rfl <;> decide

theorem scaleRoundToVal_mem (scaleRoundTo : Lib.Floating) :
    scaleRoundToVal scaleRoundTo ∈ [0, 1, 2, 4, 8] := by
  cases scaleRoundTo with
  | number q =>
    unfold scaleRoundToVal
    dsimp only
    split_ifs with hzero hnamed
    · decide
    · exact mem_of_valName_scaleRoundTos hnamed
    · decide
  | infinity => exact List.mem_cons_self
  | nan => exact List.mem_cons_self

theorem yamlScalarToScaleRoundTo_mem (scalar : Option YamlNode) :
    yamlScalarToScaleRoundTo scalar ∈ [0, 1, 2, 4, 8] := by
  unfold yamlScalarToScaleRoundTo
  dsimp only
  split
  · decide
  · cases yamlScalarToFloat scalar with
    | none => decide
    | some val => exact scaleRoundToVal_mem val

section Read

variable [Platform]

/-- A condition without anything is never read. -/
theorem nontrivial_yamlMapToCondition {map : YamlNode} {condition : CfgCondition}
    (h : yamlMapToCondition map = some condition) : Nontrivial condition := by
  obtain ⟨m, -, h⟩ := Option.bind_eq_some_iff.mp h
  obtain ⟨lid, -, h⟩ := Option.bind_eq_some_iff.mp h
  dsimp only at h
  split at h
  · exact absurd h (by simp)
  · rename_i hsome
    obtain rfl := Option.some.inj h
    by_contra htrivial
    apply hsome
    simp only [Nontrivial, not_or, not_lt, Nat.le_zero, not_not] at htrivial
    exact htrivial

theorem nontrivial_yamlMapIntoConditions {conditions : OrderedSet CfgCondition conditionEqual}
    (h : ∀ condition ∈ conditions.vals, Nontrivial condition) (map : YamlNode) :
    ∀ condition ∈ (yamlMapIntoConditions conditions map).vals, Nontrivial condition := by
  unfold yamlMapIntoConditions
  cases hread : yamlMapToCondition map with
  | none => exact h
  | some condition =>
    intro c hc
    rcases OrderedSet.mem_vals_add hc with rfl | hc
    · exact nontrivial_yamlMapToCondition hread
    · exact h c hc

theorem nontrivial_yamlSeqIntoCol {conditions conditions' : OrderedSet CfgCondition conditionEqual}
    (h : ∀ condition ∈ conditions.vals, Nontrivial condition) {seq : Option YamlNode}
    (hread : yamlSeqIntoCol yamlMapIntoConditions conditions seq = some conditions') :
    ∀ condition ∈ conditions'.vals, Nontrivial condition := by
  unfold yamlSeqIntoCol at hread
  split at hread
  · obtain rfl := Option.some.inj hread
    refine List.foldlRecOn
      (motive := fun cs : OrderedSet CfgCondition conditionEqual => ∀ c ∈ cs.vals, Nontrivial c)
      _ _ h fun cs h map _ => ?_
    exact nontrivial_yamlMapIntoConditions h map
  · exact absurd hread (by simp)

theorem nontrivial_intoDisableds {disableds : Disableds} (h : ConditionsNontrivial disableds)
    (nameDesc : String) (node : YamlNode) :
    ConditionsNontrivial (intoDisableds disableds nameDesc node) := by
  cases node with
  | scalar value => exact nontrivial_put h nameDesc (by simp [cfgDisabledInit, OrderedSet.empty])
  | sequence items => exact h
  | mapping pairs =>
    simp only [intoDisableds, putNonNull]
    split
    · rename_i disabled hread
      obtain ⟨conditions, hseq, hdisabled⟩ := Option.bind_eq_some_iff.mp hread
      obtain ⟨nodeIf, -, hseq⟩ := Option.bind_eq_some_iff.mp hseq
      split at hdisabled
      · exact absurd hdisabled (by simp)
      · obtain rfl := Option.some.inj hdisabled
        refine nontrivial_put h nameDesc (nontrivial_yamlSeqIntoCol ?_ hseq)
        simp [cfgDisabledInit, OrderedSet.empty]
    · exact h

theorem nontrivial_yamlMapIntoDisableds {disableds : Disableds}
    (h : ConditionsNontrivial disableds) (map : YamlNode) :
    ConditionsNontrivial (yamlMapIntoDisableds disableds map) := by
  unfold yamlMapIntoDisableds yamlMapIntoByNameDesc
  cases yamlMapToSpmap (some map) with
  | none => exact h
  | some m =>
    refine List.foldlRecOn _ _ h fun disableds h e _ => ?_
    unfold intoByNameDesc
    split
    · exact nontrivial_intoDisableds h e.1 e.2
    · exact h

theorem nontrivial_yamlNodeIntoDisabledsV1 {disableds : Disableds}
    (h : ConditionsNontrivial disableds) (node : YamlNode) :
    ConditionsNontrivial (yamlNodeIntoDisabledsV1 disableds node) := by
  cases node with
  | scalar value =>
    simp only [yamlNodeIntoDisabledsV1]
    cases yamlScalarToNameDesc (some (.scalar value)) with
    | none => exact h
    | some nameDesc =>
      simp only [Option.elim_some, putIfAbsent]
      split
      · exact h
      · exact nontrivial_put h nameDesc (by simp [cfgDisabledInit, OrderedSet.empty])
  | sequence items => exact h
  | mapping pairs =>
    simp only [yamlNodeIntoDisabledsV1]
    cases itemV1 (.mapping pairs) with
    | none => exact h
    | some item =>
      have hold : ∀ condition ∈ ((disableds.get? item.1).getD cfgDisabledInit).conditions.vals,
          Nontrivial condition := by
        cases hget : disableds.get? item.1 with
        | none => simp [cfgDisabledInit, OrderedSet.empty]
        | some disabled => exact h disabled (OrderedMap.mem_vals_of_get? hget)
      refine nontrivial_put h item.1 ?_
      cases hread : yamlSeqIntoCol yamlMapIntoConditions
          ((disableds.get? item.1).getD cfgDisabledInit).conditions (item.2.get? "IF") with
      | none => exact hold
      | some conditions => exact nontrivial_yamlSeqIntoCol hold hread

/-- One element: none but two of them touch what is asked for. -/
theorem read_element {uc : Unmarshal} (h : Read uc.cfg) (element : CfgElement) (node : YamlNode) :
    Read (uc.element element node).cfg := by
  obtain ⟨hround, hconditions⟩ := h
  cases element with
  | scaleRoundTo => exact ⟨yamlScalarToScaleRoundTo_mem (some node), hconditions⟩
  | disabled =>
    cases node with
    | scalar value => exact ⟨hround, hconditions⟩
    | sequence items =>
      refine ⟨hround, List.foldlRecOn _ _ hconditions fun disableds h node _ => ?_⟩
      exact nontrivial_yamlNodeIntoDisabledsV1 h node
    | mapping pairs => exact ⟨hround, nontrivial_yamlMapIntoDisableds hconditions _⟩
  | scale => cases node <;> exact ⟨hround, hconditions⟩
  | mode => cases node <;> exact ⟨hround, hconditions⟩
  | transform => cases node <;> exact ⟨hround, hconditions⟩
  | _ => exact ⟨hround, hconditions⟩

theorem read_yamlMapToCfg (map : YamlNode) : Read (yamlMapToCfg map).cfg := by
  have hinit : Read unmarshalInit.cfg := ⟨by decide, by simp [unmarshalInit, cfgInit,
    ConditionsNontrivial, OrderedMap.vals, OrderedMap.empty]⟩
  refine List.foldlRecOn (motive := fun uc : Unmarshal => Read uc.cfg) _ _ hinit
    fun uc h pair _ => ?_
  unfold Unmarshal.pair
  split
  · exact read_element h _ _
  · exact h

theorem read_yamlRootToCfg {root : Option YamlNode} {cfg : Cfg}
    (h : yamlRootToCfg root = some cfg) : Read cfg := by
  unfold yamlRootToCfg at h
  split at h
  · rename_i pairs
    obtain rfl := Option.some.inj h
    have hread := read_yamlMapToCfg (.mapping pairs)
    unfold Unmarshal.migrated
    split
    · exact ⟨hread.scaleRoundTo, nontrivial_addLidCondition hread.conditions _⟩
    · exact hread
  · exact absurd h (by simp)

end Read

/-! ### What is merged -/

theorem complete_cfgMergeSet {cfg from_ : Cfg} (h : CfgComplete cfg)
    (hfrom : ConditionsNontrivial from_.disableds) : CfgComplete (cfgMergeSet cfg from_) :=
  { h with
    arrange := by
      simp only [cfgMergeSet]
      cases from_.arrange with
      | none => exact h.arrange
      | some arrange => rfl
    scaling := by
      simp only [cfgMergeSet]
      cases from_.scaling with
      | none => exact h.scaling
      | some scaling => rfl
    autoScale := by
      simp only [cfgMergeSet]
      cases from_.autoScale with
      | none => exact h.autoScale
      | some autoScale => rfl
    callbackCmd := by
      simp only [cfgMergeSet]
      cases from_.callbackCmd with
      | none => exact h.callbackCmd
      | some callbackCmd => rfl
    conditions := by
      intro disabled hdisabled
      rcases OrderedMap.mem_vals_putAll hdisabled with hdisabled | hdisabled
      · exact h.conditions disabled hdisabled
      · exact hfrom disabled hdisabled }

theorem complete_cfgMergeDel {cfg : Cfg} (h : CfgComplete cfg) (from_ : Cfg) :
    CfgComplete (cfgMergeDel cfg from_) :=
  { h with
    callbackCmd := by
      simp only [cfgMergeDel]
      cases from_.callbackCmd with
      | none => exact h.callbackCmd
      | some callbackCmd => rfl
    conditions := fun disabled hdisabled =>
      h.conditions disabled (OrderedMap.mem_vals_removeAll hdisabled) }

theorem isSome_onOffInvert (val : Option OnOff) : (onOffInvert val).isSome := by
  unfold onOffInvert
  split <;> rfl

theorem complete_cfgMergeToggle {cfg from_ : Cfg} (h : CfgComplete cfg)
    (hfrom : ConditionsNontrivial from_.disableds) : CfgComplete (cfgMergeToggle cfg from_) :=
  { h with
    scaling := by
      simp only [cfgMergeToggle]
      split
      · exact isSome_onOffInvert cfg.scaling
      · exact h.scaling
    autoScale := by
      simp only [cfgMergeToggle]
      split
      · exact isSome_onOffInvert cfg.autoScale
      · exact h.autoScale
    conditions := by
      refine List.foldlRecOn (motive := ConditionsNontrivial) _ _ h.conditions
        fun disableds h e he => ?_
      split
      · exact fun disabled hdisabled => h disabled (OrderedMap.mem_vals_remove hdisabled)
      · exact nontrivial_put h e.1 (hfrom e.2 (List.mem_map_of_mem he)) }

theorem valid_cfgMerge {cfg merged : Cfg} (h : CfgComplete cfg) {from_ : Option Cfg}
    (hfrom : ∀ f, from_ = some f → ConditionsNontrivial f.disableds)
    {command : Option IpcCommand} (hmerge : cfgMerge cfg from_ command = some merged) :
    CfgValid merged := by
  obtain ⟨fixed, hfixed, hmerge⟩ := Option.bind_eq_some_iff.mp hmerge
  obtain ⟨complete, hcomplete, rfl⟩ := Option.map_eq_some_iff.mp hfixed
  obtain ⟨f, hf, hcomplete⟩ := Option.bind_eq_some_iff.mp hcomplete
  split at hmerge
  · exact absurd hmerge (by simp)
  · obtain rfl := Option.some.inj hmerge
    apply valid_cfgValidateFix
    split at hcomplete
    · obtain rfl := Option.some.inj hcomplete
      exact complete_cfgMergeDel h f
    · obtain rfl := Option.some.inj hcomplete
      exact complete_cfgMergeToggle h (hfrom f hf)
    · obtain rfl := Option.some.inj hcomplete
      exact complete_cfgMergeSet h (hfrom f hf)
    · exact absurd hcomplete (by simp)

theorem valid_gCfgProcessIpcRequest {s : Server} {request : IpcRequest} (h : CfgValid s.gCfg)
    (hrequest : ∀ f, request.cfg = some f → ConditionsNontrivial f.disableds) :
    CfgValid (gCfgProcessIpcRequest s request).1.gCfg := by
  cases hmerge : cfgMerge s.gCfg request.cfg request.command with
  | none =>
    simp only [gCfgProcessIpcRequest, hmerge]
    split
    all_goals exact h
  | some merged =>
    have hmerged : CfgValid merged := valid_cfgMerge h.toCfgComplete hrequest hmerge
    simp only [gCfgProcessIpcRequest, hmerge]
    split
    · exact hmerged
    · exact hmerged
    · exact hmerged
    all_goals exact h

/-- The filter of the server only drops entries of the request. -/
theorem nontrivial_ipcRequestFilter [Platform] (gCfg : Cfg) (heads : Heads) {request : IpcRequest}
    (h : ∀ f, request.cfg = some f → ConditionsNontrivial f.disableds) :
    ∀ f, (ipcRequestFilter gCfg heads request).2.cfg = some f →
      ConditionsNontrivial f.disableds := by
  intro f hf
  unfold ipcRequestFilter at hf
  split at hf
  · rename_i hnone
    exact absurd (hnone.symm.trans hf) (by simp)
  · rename_i cfg hcfg
    obtain rfl := Option.some.inj hf
    intro disabled hdisabled
    refine h cfg hcfg disabled ?_
    exact OrderedMap.mem_vals_removeAll (OrderedMap.mem_vals_filter hdisabled)

/-! ### Runs -/

theorem valid_loaded {cfg : Cfg} (h : Read cfg) :
    CfgValid (cfgValidateFix (cfgApplyDefaults cfg)) :=
  valid_cfgValidateFix (complete_cfgApplyDefaults h)

theorem valid_gCfgFileInitRead [Platform] (root : Option YamlNode) :
    CfgValid (gCfgFileInitRead root) := by
  apply valid_loaded
  cases hread : yamlRootToCfg root with
  | none =>
    exact ⟨by decide, by simp [cfgInit, ConditionsNontrivial, OrderedMap.vals, OrderedMap.empty]⟩
  | some cfg => exact read_yamlRootToCfg hread

theorem valid_serverMessage [Platform] {gCfg : Cfg} (h : CfgValid gCfg) (server : Server)
    (root : Option YamlNode) : CfgValid (serverMessage gCfg server root) := by
  unfold serverMessage
  cases hread : yamlRootToIpcRequest root with
  | none => exact h
  | some request =>
    obtain ⟨m, -, hrequest⟩ := Option.bind_eq_some_iff.mp hread
    obtain ⟨command, -, rfl⟩ := Option.map_eq_some_iff.mp hrequest
    refine valid_gCfgProcessIpcRequest h (nontrivial_ipcRequestFilter _ _ ?_)
    intro f hf
    obtain ⟨node, -, rfl⟩ := Option.map_eq_some_iff.mp hf
    exact (read_yamlMapToCfg node).conditions

theorem valid_warnNoMode {cfg : Cfg} (h : CfgValid cfg) (nameDesc : String) :
    CfgValid (cfg.warnNoMode nameDesc) :=
  { h with
    modes := by
      intro mode hmode
      obtain ⟨e, he, rfl⟩ := List.mem_map.mp hmode
      obtain ⟨e', he', rfl⟩ := List.mem_map.mp he
      have hvalid := h.modes e'.2 (List.mem_map_of_mem he')
      dsimp only
      split
      · exact hvalid
      · exact hvalid }

theorem valid_step [Platform] {cfg cfg' : Cfg} (h : CfgValid cfg) {event : CfgEvent}
    (hstep : cfg.step event = some cfg') : CfgValid cfg' := by
  cases event with
  | reload root =>
    obtain rfl := Option.some.inj hstep
    unfold gCfgFileReloadYaml
    cases hread : yamlRootToCfg root with
    | none => exact h
    | some cfg => exact valid_loaded (read_yamlRootToCfg hread)
  | message server root =>
    obtain rfl := Option.some.inj hstep
    exact valid_serverMessage h server root
  | warnNoMode nameDesc =>
    obtain rfl := Option.some.inj hstep
    exact valid_warnNoMode h nameDesc

/-- After each step of a run that starts by reading the file, the configuration is valid, and
there is nothing to fix. -/
theorem always_valid [Platform] (root : Option YamlNode) (events : List CfgEvent) :
    Lib.Run.Always Cfg.step (fun cfg => CfgValid cfg ∧ cfgValidateFix cfg = cfg)
      (gCfgFileInitRead root) events := by
  have hvalid : Lib.Run.Always Cfg.step CfgValid (gCfgFileInitRead root) events :=
    Lib.Run.always_of_along (C := fun _ _ => True) (fun _ _ _ h _ hstep => valid_step h hstep)
      (valid_gCfgFileInitRead root) (Lib.Run.along_of_forall (fun _ _ => trivial) _ _)
  exact hvalid.mono fun cfg h => ⟨h, cfgValidateFix_eq h⟩

end WayDisplays.CfgFile.Validity
