/- The decoders once more, with each access to the data of a node. -/

import WayDisplays.Lib.Traced
import WayDisplays.Model.Ipc
import WayDisplays.Model.Unmarshal

set_option autoImplicit false
set_option relaxedAutoImplicit false

namespace WayDisplays.Model

/-- `yaml_node_type_t` -/
inductive NodeType
  | scalar | sequence | mapping
  deriving DecidableEq, Repr

def YamlNode.type : YamlNode → NodeType
  | .scalar _ => .scalar
  | .sequence _ => .sequence
  | .mapping _ => .mapping

/-- The member of the union that is accessed, and the node it is a part of. -/
structure Access where
  member : NodeType
  node : YamlNode

def Access.OfType (access : Access) : Prop := access.node.type = access.member

namespace Decode

open Lib (Floating OrderedMap OrderedSet Traced)

abbrev Decoder (α : Type) := Traced Access α

/-! ### The data of a node

What is there, whatever the node is. -/

/-- `data.scalar.value` -/
def scalarValue (node : YamlNode) : Decoder String :=
  Traced.emit ⟨.scalar, node⟩ (match node with | .scalar value => value | _ => "")

/-- `data.sequence.items` -/
def sequenceItems (node : YamlNode) : Decoder (List YamlNode) :=
  Traced.emit ⟨.sequence, node⟩ (match node with | .sequence items => items | _ => [])

/-- `data.mapping.pairs` -/
def mappingPairs (node : YamlNode) : Decoder (List YamlPair) :=
  Traced.emit ⟨.mapping, node⟩ node.pairs

/-! ### Primitives -/

def yamlCheckNodeType (node : Option YamlNode) (type : NodeType) : Bool :=
  node.any (fun node => node.type == type)

/-- A scalar as what its text means; text that means nothing is logged. -/
def yamlScalarTo {α : Type} (read : String → Option α) (scalar : Option YamlNode) :
    Decoder (Option α) :=
  match scalar with
  | none => pure none
  | some scalar =>
    if yamlCheckNodeType (some scalar) .scalar then do
      let value ← scalarValue scalar
      match read value with
      | some val => pure (some val)
      | none => (fun _ => none) <$> scalarValue scalar
    else pure none

def yamlScalarToString (scalar : Option YamlNode) : Decoder (Option String) :=
  yamlScalarTo some scalar

def yamlScalarToInt (scalar : Option YamlNode) : Decoder (Option Int) :=
  yamlScalarTo sscanfInt scalar

def yamlScalarToFloat (scalar : Option YamlNode) : Decoder (Option Floating) :=
  yamlScalarTo sscanfFloat scalar

def yamlScalarToEnum {α : Type} (val : String → Option α) (scalar : Option YamlNode) :
    Decoder (Option α) :=
  yamlScalarTo val scalar

def yamlScalarToBoolean (scalar : Option YamlNode) : Decoder (Option Bool) :=
  yamlScalarTo (fun value => (onOffVal value).map (fun val => decide (val = .on))) scalar

def yamlScalarToOnOffDef (default : OnOff) (scalar : Option YamlNode) : Decoder OnOff :=
  (fun val => (val.map (fun val => if val then OnOff.on else OnOff.off)).getD default) <$>
    yamlScalarToBoolean scalar

def yamlSeqIntoCol {γ : Type} (fn : γ → YamlNode → Decoder γ) (col : γ)
    (seq : Option YamlNode) : Decoder (Option γ) :=
  match seq with
  | none => pure none
  | some seq =>
    if yamlCheckNodeType (some seq) .sequence then do
      let items ← sequenceItems seq
      some <$> items.foldlM fn col
    else pure none

def spmapPutPair (nodes : YamlMap) (pair : YamlPair) : Decoder YamlMap :=
  (fun key => key.elim nodes (fun key => nodes.put key pair.2)) <$>
    yamlScalarToString (some pair.1)

def yamlMapToSpmap (map : Option YamlNode) : Decoder (Option YamlMap) :=
  match map with
  | none => pure none
  | some map =>
    if yamlCheckNodeType (some map) .mapping then do
      let pairs ← mappingPairs map
      some <$> pairs.foldlM spmapPutPair .empty
    else pure none

section NameDesc

variable [Platform]

def yamlScalarToNameDesc (scalar : Option YamlNode) : Decoder (Option String) :=
  (fun nameDesc => nameDesc.filter yamlValidNameDesc) <$> yamlScalarToString scalar

def addNameDesc (sset : Sset) (scalar : YamlNode) : Decoder Sset :=
  (fun nameDesc => nameDesc.elim sset sset.add) <$> yamlScalarToNameDesc (some scalar)

def yamlSeqIntoNameDescSset (sset : Sset) (seq : YamlNode) : Decoder Sset :=
  if yamlCheckNodeType (some seq) .scalar || !yamlCheckNodeType (some seq) .sequence then pure sset
  else do
    let items ← sequenceItems seq
    items.foldlM addNameDesc sset

/-! ### Elements by name or description -/

def scalarOr {α : Type} (read : Option YamlNode → Decoder (Option α)) (default : α)
    (scalar : Option YamlNode) : Decoder (Option α) :=
  match scalar with
  | some scalar => read (some scalar)
  | none => pure (some default)

def cfgModeOf (m : YamlMap) : Decoder (Option Mode) :=
  (scalarOr yamlScalarToInt modeInit.width (m.get? "WIDTH")).andThen (fun width =>
  (scalarOr yamlScalarToInt modeInit.height (m.get? "HEIGHT")).andThen (fun height =>
  (scalarOr (fun scalar => (fun hz => hz.map mhzOfHz) <$> yamlScalarToFloat scalar)
    modeInit.refreshMhz (m.get? "HZ")).andThen (fun refreshMhz =>
  (scalarOr yamlScalarToBoolean modeInit.max (m.get? "MAX")).andThen (fun max =>
  (fun maxPreferredRefresh => maxPreferredRefresh.map (fun maxPreferredRefresh =>
      { width := width, height := height, refreshMhz := refreshMhz, max := max,
        maxPreferredRefresh := maxPreferredRefresh, warnedNoMode := false })) <$>
    scalarOr yamlScalarToBoolean modeInit.maxPreferredRefresh
      (m.get? "MAX_PREFERRED_REFRESH")))))

def yamlMapToCfgMode (map : YamlNode) : Decoder (Option Mode) :=
  (yamlMapToSpmap (some map)).andThen cfgModeOf

def intoByNameDesc {γ : Type} (into : γ → String → YamlNode → Decoder γ) (col : γ)
    (e : String × YamlNode) : Decoder γ :=
  if yamlValidNameDesc e.1 then into col e.1 e.2 else pure col

def yamlMapIntoByNameDesc {γ : Type} (into : γ → String → YamlNode → Decoder γ) (col : γ)
    (map : YamlNode) : Decoder γ := do
  match ← yamlMapToSpmap (some map) with
  | some m => m.entries.foldlM (intoByNameDesc into) col
  | none => pure col

def yamlMapIntoCfgModes (modes : OrderedMap String Mode) (map : YamlNode) :
    Decoder (OrderedMap String Mode) :=
  yamlMapIntoByNameDesc
    (fun modes nameDesc node => putIfAbsent modes nameDesc <$> yamlMapToCfgMode node) modes map

/-- A scale that is no positive number is logged with its text. -/
def milliscaleOf (scalar : Option YamlNode) : Decoder (Option Nat) :=
  (yamlScalarToFloat scalar).andThen (fun scale =>
    if scale.nonpositive then
      match scalar with
      | some scalar => (fun _ => none) <$> scalarValue scalar
      | none => pure none
    else pure (some (toMilliscale scale)))

def yamlMapIntoScales (scales : OrderedMap String Nat) (map : YamlNode) :
    Decoder (OrderedMap String Nat) :=
  yamlMapIntoByNameDesc
    (fun scales nameDesc node => putIfAbsent scales nameDesc <$> milliscaleOf (some node))
    scales map

def yamlMapIntoTransforms (transforms : OrderedMap String Transform) (map : YamlNode) :
    Decoder (OrderedMap String Transform) :=
  yamlMapIntoByNameDesc
    (fun transforms nameDesc node =>
      putIfAbsent transforms nameDesc <$> yamlScalarToEnum transformVal (some node))
    transforms map

/-! ### Disabled heads -/

def nameDescSset (node : Option YamlNode) : Decoder Sset :=
  match node with
  | some node => yamlSeqIntoNameDescSset .empty node
  | none => pure .empty

def yamlMapToCondition (map : YamlNode) : Decoder (Option CfgCondition) :=
  (yamlMapToSpmap (some map)).andThen (fun m => do
    let plugged ← nameDescSset (m.get? "PLUGGED")
    let unplugged ← nameDescSset (m.get? "UNPLUGGED")
    (fun lid => lid.bind (fun lid =>
        if plugged.size = 0 ∧ unplugged.size = 0 ∧ lid = none then none
        else some { plugged := plugged, unplugged := unplugged, lid := lid })) <$>
      scalarOr (fun scalar => (fun lid => lid.map some) <$> yamlScalarToEnum conditionLidVal scalar)
        none (m.get? "LID"))

def yamlMapIntoConditions (conditions : OrderedSet CfgCondition conditionEqual)
    (map : YamlNode) : Decoder (OrderedSet CfgCondition conditionEqual) :=
  (fun condition => condition.elim conditions conditions.add) <$> yamlMapToCondition map

def yamlMapToDisabledCond (map : YamlNode) : Decoder (Option CfgDisabled) :=
  ((yamlMapToSpmap (some map)).andThen (fun m =>
    match m.get? "IF" with
    | some nodeIf =>
      yamlSeqIntoCol yamlMapIntoConditions cfgDisabledInit.conditions (some nodeIf)
    | none => pure none)).andThen (fun conditions =>
      pure (if conditions.size = 0 then none else some ⟨conditions⟩))

def intoDisableds (disableds : Disableds) (nameDesc : String) (node : YamlNode) :
    Decoder Disableds :=
  match node.type with
  | .scalar => pure (putNonNull disableds nameDesc (some cfgDisabledInit))
  | .mapping => putNonNull disableds nameDesc <$> yamlMapToDisabledCond node
  | .sequence => pure disableds

def yamlMapIntoDisableds (disableds : Disableds) (map : YamlNode) : Decoder Disableds :=
  yamlMapIntoByNameDesc intoDisableds disableds map

/-! ### Version 1 -/

def itemV1 (map : YamlNode) : Decoder (Option (String × YamlMap)) :=
  (yamlMapToSpmap (some map)).andThen (fun m =>
    (fun nameDesc => nameDesc.map (fun nameDesc => (nameDesc, m))) <$>
      yamlScalarToNameDesc (m.get? "NAME_DESC"))

/-- What an item of version 1 adds to a collection. -/
def itemIntoV1 {γ ν : Type} (read : YamlMap → Decoder (Option ν))
    (put : γ → String → Option ν → γ) (col : γ) (map : YamlNode) : Decoder γ := do
  match ← itemV1 map with
  | some item => put col item.1 <$> read item.2
  | none => pure col

def yamlMapIntoCfgModesV1 (modes : OrderedMap String Mode) (map : YamlNode) :
    Decoder (OrderedMap String Mode) :=
  itemIntoV1 cfgModeOf putIfAbsent modes map

def yamlMapIntoScalesV1 (scales : OrderedMap String Nat) (map : YamlNode) :
    Decoder (OrderedMap String Nat) :=
  itemIntoV1 (fun m => milliscaleOf (m.get? "SCALE")) putIfAbsent scales map

def yamlMapIntoTransformsV1 (transforms : OrderedMap String Transform) (map : YamlNode) :
    Decoder (OrderedMap String Transform) :=
  itemIntoV1 (fun m => yamlScalarToEnum transformVal (m.get? "TRANSFORM")) putIfAbsent
    transforms map

def yamlNodeIntoDisabledsV1 (disableds : Disableds) (node : YamlNode) : Decoder Disableds :=
  match node.type with
  | .scalar =>
    (fun nameDesc => nameDesc.elim disableds
        (fun nameDesc => putIfAbsent disableds nameDesc (some cfgDisabledInit))) <$>
      yamlScalarToNameDesc (some node)
  | .mapping => do
    match ← itemV1 node with
    | some item =>
      let disabled := (disableds.get? item.1).getD cfgDisabledInit
      (fun conditions => disableds.put item.1 ⟨conditions.getD disabled.conditions⟩) <$>
        yamlSeqIntoCol yamlMapIntoConditions disabled.conditions (item.2.get? "IF")
    | none => pure disableds
  | .sequence => pure disableds

/-! ### The configuration -/

def yamlScalarIntoLaptopDisplayPrefixV1 (uc : Unmarshal) (node : YamlNode) : Decoder Unmarshal :=
  (fun laptopDisplayPrefix =>
      { uc with
        v1LaptopDisplayPrefix := laptopDisplayPrefix.elim uc.v1LaptopDisplayPrefix
          (fun value => String.ofList (takeBytes 15 value.toList)) }) <$>
    yamlScalarToString (some node)

/-- A number that is not the inverse of a base is logged with its text. -/
def yamlScalarToScaleRoundTo (scalar : YamlNode) : Decoder Nat := do
  match ← yamlScalarToFloat (some scalar) with
  | some val =>
    if scaleRoundToVal val = 0 then (fun _ => scaleRoundToDefault) <$> scalarValue scalar
    else pure (scaleRoundToVal val)
  | none => pure scaleRoundToDefault

/-- A map for version 2, a sequence of items for version 1. -/
def byVersion {γ : Type} (uc : Unmarshal) (node : YamlNode) (col : γ)
    (put : Unmarshal → γ → Unmarshal) (into intoV1 : γ → YamlNode → Decoder γ) :
    Decoder Unmarshal :=
  match node with
  | .mapping _ => put uc <$> into col node
  | .sequence items =>
    (fun col' => put (uc.flagV1 items) (col'.getD col)) <$> yamlSeqIntoCol intoV1 col (some node)
  | .scalar _ => pure uc

def element (uc : Unmarshal) (element : CfgElement) (node : YamlNode) : Decoder Unmarshal :=
  let cfg := uc.cfg
  match element with
  | .arrange =>
    (fun arrange => { uc with cfg := { cfg with arrange := arrange.or (some .row) } }) <$>
      yamlScalarToEnum arrangeValStart (some node)
  | .align =>
    (fun align => { uc with cfg := { cfg with align := align.or (some .top) } }) <$>
      yamlScalarToEnum alignValStart (some node)
  | .order =>
    (fun order => { uc with cfg := { cfg with orderNameDesc := order } }) <$>
      yamlSeqIntoNameDescSset cfg.orderNameDesc node
  | .scaling =>
    (fun scaling => { uc with cfg := { cfg with scaling := some scaling } }) <$>
      yamlScalarToOnOffDef .on (some node)
  | .autoScale =>
    (fun autoScale => { uc with cfg := { cfg with autoScale := some autoScale } }) <$>
      yamlScalarToOnOffDef .on (some node)
  | .scale =>
    byVersion uc node cfg.scales (fun uc scales => { uc with cfg := { cfg with scales := scales } })
      yamlMapIntoScales yamlMapIntoScalesV1
  | .scaleRoundTo =>
    (fun scaleRoundTo => { uc with cfg := { cfg with scaleRoundTo := scaleRoundTo } }) <$>
      yamlScalarToScaleRoundTo node
  | .scaleRoundStrategy =>
    (fun strategy =>
        { uc with cfg := { cfg with scaleRoundStrategy := strategy.or (some .nearest) } }) <$>
      yamlScalarToEnum scaleRoundStrategyVal (some node)
  | .mode =>
    byVersion uc node cfg.modes (fun uc modes => { uc with cfg := { cfg with modes := modes } })
      yamlMapIntoCfgModes yamlMapIntoCfgModesV1
  | .transform =>
    byVersion uc node cfg.transforms
      (fun uc transforms => { uc with cfg := { cfg with transforms := transforms } })
      yamlMapIntoTransforms yamlMapIntoTransformsV1
  | .vrrOff =>
    (fun vrrOff => { uc with cfg := { cfg with adaptiveSyncOff := vrrOff } }) <$>
      yamlSeqIntoNameDescSset cfg.adaptiveSyncOff node
  | .callbackCmd =>
    (fun callbackCmd =>
        { uc with cfg := { cfg with callbackCmd := callbackCmd.or (some callbackCmdDefault) } }) <$>
      yamlScalarToString (some node)
  | .laptopDisplayPrefix => yamlScalarIntoLaptopDisplayPrefixV1 uc node
  | .laptopLidMonitor =>
    (fun monitor => { uc with cfg := { cfg with laptopLidMonitor := some monitor } }) <$>
      yamlScalarToOnOffDef .on (some node)
  | .logThreshold =>
    (fun threshold => { uc with cfg := { cfg with logThreshold := threshold } }) <$>
      yamlScalarToEnum logThresholdVal (some node)
  | .disabled => match node with
    | .mapping _ =>
      (fun disableds => { uc with cfg := { cfg with
          disableds := disableds, disabledsEmpty := decide (disableds.size = 0) } }) <$>
        yamlMapIntoDisableds cfg.disableds node
    | .sequence items =>
      (fun disableds => { uc.flagV1 items with cfg :=
          { cfg with disableds := disableds.getD cfg.disableds } }) <$>
        yamlSeqIntoCol yamlNodeIntoDisabledsV1 cfg.disableds (some node)
    | .scalar _ => pure { uc with cfg := { cfg with disabledsEmpty := true } }
  | .autoScaleDpi =>
    (fun dpi => { uc with cfg := { cfg with autoScaleDpi := dpi.getD autoScaleDpiDefault } }) <$>
      yamlScalarToInt (some node)
  | .autoScaleMin =>
    (fun val => { uc with cfg := { cfg with autoScaleMin := val.getD 1 } }) <$>
      yamlScalarToFloat (some node)
  | .autoScaleMax =>
    (fun val => { uc with cfg := { cfg with autoScaleMax := val.getD (-1) } }) <$>
      yamlScalarToFloat (some node)
  | .plugged | .unplugged | .arrangeAlign => pure uc

/-- A key that names no element is logged with its text. -/
def pair (uc : Unmarshal) (pair : YamlPair) : Decoder Unmarshal :=
  if yamlCheckNodeType (some pair.1) .scalar then do
    let elementName ← scalarValue pair.1
    match cfgElementVal elementName with
    | some elementVal => element uc elementVal pair.2
    | none => (fun _ => uc) <$> scalarValue pair.1
  else pure uc

/-- It does not check what kind of a node it is given. -/
def yamlMapToCfg (map : YamlNode) : Decoder Unmarshal := do
  let pairs ← mappingPairs map
  pairs.foldlM pair unmarshalInit

def yamlRootToCfg (root : Option YamlNode) : Decoder (Option Cfg) :=
  match root with
  | none => pure none
  | some root =>
    if yamlCheckNodeType (some root) .mapping then
      (fun uc => some uc.migrated) <$> yamlMapToCfg root
    else pure none

/-- A value that is there, read as a configuration. -/
def cfgValue (cfg : Option YamlNode) : Decoder (Option Cfg) :=
  match cfg with
  | some cfg => (fun uc => some uc.cfg) <$> yamlMapToCfg cfg
  | none => pure none

def yamlRootToIpcRequest (root : Option YamlNode) : Decoder (Option IpcRequest) :=
  (yamlMapToSpmap root).andThen (fun m =>
    (yamlScalarToEnum ipcCommandVal (m.get? "OP")).andThen (fun command => do
      let logThreshold ← yamlScalarToEnum logThresholdVal (m.get? "LOG_THRESHOLD")
      let cfg ← cfgValue (m.get? "CFG")
      pure (some { ipcRequestInit (some command) with logThreshold := logThreshold, cfg := cfg })))

end NameDesc

/-! ### Heads -/

def yamlMapToHeadMode (map : Option YamlNode) : Decoder (Option Mode) :=
  (yamlMapToSpmap map).andThen (fun m => do
    let width ← yamlScalarToInt (m.get? "WIDTH")
    let height ← yamlScalarToInt (m.get? "HEIGHT")
    let refreshMhz ← yamlScalarToInt (m.get? "REFRESH_MHZ")
    pure (some { modeInit with
      width := width.getD modeInit.width
      height := height.getD modeInit.height
      refreshMhz := refreshMhz.getD modeInit.refreshMhz }))

def yamlMapIntoHeadModes (allocated : Nat) (modes : Modes) (map : YamlNode) : Decoder Modes :=
  (fun mode => mode.elim modes (fun mode => modes.put ⟨allocated + modes.size⟩ mode)) <$>
    yamlMapToHeadMode (some map)

/-- The mode in the map, and its key among those of the head. -/
def yamlMapToZmode (head : Head) (map : Option YamlNode) : Decoder (Option (Option ZMode)) :=
  (fun mode => mode.map (fun mode =>
      (firstKey head.modes mode).or (firstKey head.modesFailed mode))) <$>
    yamlMapToHeadMode map

section Heads

variable [Platform]

def yamlMapIntoHeadState (headState : HeadState) (head : Head) (map : Option YamlNode) :
    Decoder HeadState := do
  match ← yamlMapToSpmap map with
  | none => pure headState
  | some m =>
    let enabled ← yamlScalarToBoolean (m.get? "ENABLED")
    let x ← yamlScalarToInt (m.get? "X")
    let y ← yamlScalarToInt (m.get? "Y")
    let transform ← yamlScalarToEnum transformVal (m.get? "TRANSFORM")
    let scale ← yamlScalarToFloat (m.get? "SCALE")
    let vrr ← yamlScalarToBoolean (m.get? "VRR")
    let zmode ← yamlMapToZmode head (m.get? "MODE")
    pure
      { enabled := enabled.getD headState.enabled
        x := x.getD headState.x
        y := y.getD headState.y
        transform := transform.getD .normal
        scale := (scale.map fixedOfScale).getD headState.scale
        adaptiveSync := (vrr.map
          (fun vrr => if vrr then AdaptiveSync.enabled else AdaptiveSync.disabled)).getD
          headState.adaptiveSync
        zmode := zmode.getD headState.zmode }

/-- The fields of a head but its references to modes. -/
def yamlMapToHeadListed (m : YamlMap) : Decoder Head := do
  let name ← yamlScalarToString (m.get? "NAME")
  let description ← yamlScalarToString (m.get? "DESCRIPTION")
  let make ← yamlScalarToString (m.get? "MAKE")
  let model ← yamlScalarToString (m.get? "MODEL")
  let serialNumber ← yamlScalarToString (m.get? "SERIAL_NUMBER")
  let widthMm ← yamlScalarToInt (m.get? "WIDTH_MM")
  let heightMm ← yamlScalarToInt (m.get? "HEIGHT_MM")
  let modes ← yamlSeqIntoCol (yamlMapIntoHeadModes 0) .empty (m.get? "MODES")
  let modesFailed ← yamlSeqIntoCol (yamlMapIntoHeadModes (modes.getD .empty).size) .empty
    (m.get? "MODES_FAILED")
  pure
    { headInit with
      name := name, description := description, make := make, model := model,
      serialNumber := serialNumber, widthMm := widthMm.getD headInit.widthMm,
      heightMm := heightMm.getD headInit.heightMm, modes := modes.getD .empty,
      modesFailed := modesFailed.getD .empty }

def yamlMapToHead (m : YamlMap) : Decoder Head := do
  let listed ← yamlMapToHeadListed m
  let zmodePref ← yamlMapToZmode listed (m.get? "MODE_PREFERRED")
  let cur ← yamlMapIntoHeadState listed.cur listed (m.get? "CURRENT")
  let des ← yamlMapIntoHeadState listed.des listed (m.get? "DESIRED")
  let disabled ← (yamlMapToSpmap (m.get? "OVERRIDES")).andThen
    (fun mo => yamlScalarToBoolean (mo.get? "DISABLED"))
  pure
    { listed with
      zmodePref := zmodePref.join, cur := cur, des := des,
      overridedEnabled := disabled.elim listed.overridedEnabled
        (fun disabled => if disabled then .overrideFalse else .overrideTrue) }

def yamlMapIntoHeads (heads : List Head) (map : YamlNode) : Decoder (List Head) := do
  match ← yamlMapToSpmap (some map) with
  | some m => (fun head => heads ++ [head]) <$> yamlMapToHead m
  | none => pure heads

/-! ### Responses -/

/-- A response as a client reads it. -/
structure IpcResponseRead where
  done : Bool
  rc : Int
  cfg : Option Cfg
  lid : Option Lid
  heads : List Head
  logCapLines : List LogCapLine

def yamlMapToLid (map : Option YamlNode) : Decoder (Option Lid) :=
  (yamlMapToSpmap map).andThen (fun m => do
    let _ ← yamlScalarToString (m.get? "DEVICE_PATH")
    (fun closed => some ⟨closed.getD false⟩) <$> yamlScalarToBoolean (m.get? "CLOSED"))

/-- A line under a key that is a threshold. -/
def intoLogCapLines (logCapLines : List LogCapLine) (e : String × YamlNode) :
    Decoder (List LogCapLine) :=
  (fun line => match logThresholdVal e.1, line with
    | some threshold, some line => logCapLines ++ [⟨threshold, line⟩]
    | _, _ => logCapLines) <$>
    yamlScalarToString (some e.2)

def yamlMapIntoLogCapLines (logCapLines : List LogCapLine) (map : YamlNode) :
    Decoder (List LogCapLine) := do
  match ← yamlMapToSpmap (some map) with
  | some m => m.entries.foldlM intoLogCapLines logCapLines
  | none => pure logCapLines

/-- STATE: the lid and the heads. -/
def yamlMapToState (state : Option YamlNode) : Decoder (Option Lid × List Head) := do
  match ← yamlMapToSpmap state with
  | some ms =>
    let lid ← yamlMapToLid (ms.get? "LID")
    let heads ← yamlSeqIntoCol yamlMapIntoHeads [] (ms.get? "HEADS")
    pure (lid, heads.getD [])
  | none => pure (none, [])

/-- The status, which has to be there. -/
def yamlMapToStatus (m : YamlMap) : Decoder (Option (Bool × Int)) :=
  match m.get? "DONE", m.get? "RC" with
  | some done, some rc =>
    (yamlScalarToBoolean (some done)).andThen (fun done =>
      (fun rc => rc.map (fun rc => (done, rc))) <$> yamlScalarToInt (some rc))
  | _, _ => pure none

def yamlMapToIpcResponse (m : YamlMap) : Decoder (Option IpcResponseRead) :=
  (yamlMapToStatus m).andThen (fun status => do
    let cfg ← cfgValue (m.get? "CFG")
    let state ← yamlMapToState (m.get? "STATE")
    let messages ← yamlSeqIntoCol yamlMapIntoLogCapLines [] (m.get? "MESSAGES")
    pure (some
      { done := status.1, rc := status.2, cfg := cfg, lid := state.1, heads := state.2,
        logCapLines := messages.getD [] }))

def yamlMapIntoIpcResponses (ipcResponses : List IpcResponseRead) (map : YamlNode) :
    Decoder (List IpcResponseRead) :=
  (fun ipcResponse => ipcResponses ++ ipcResponse.toList) <$>
    (yamlMapToSpmap (some map)).andThen yamlMapToIpcResponse

/-- A sequence of responses, or one; not none at all. -/
def yamlRootToIpcResponsePlist (root : Option YamlNode) :
    Decoder (Option (List IpcResponseRead)) :=
  match root with
  | none => pure none
  | some root =>
    (fun ipcResponses => if ipcResponses.isEmpty then none else some ipcResponses) <$>
      if yamlCheckNodeType (some root) .sequence then do
        let items ← sequenceItems root
        items.foldlM yamlMapIntoIpcResponses []
      else if yamlCheckNodeType (some root) .mapping then yamlMapIntoIpcResponses [] root
      else pure []

end Heads

end Decode

end WayDisplays.Model
