/- Configurations, requests and heads as they are read from YAML. -/

import WayDisplays.Model.Yaml

set_option autoImplicit false
set_option relaxedAutoImplicit false

namespace WayDisplays.Model

open Lib (Floating OrderedMap OrderedSet)

/-- What is put under a key that has no value yet; `none`, a null, is never put. -/
def putIfAbsent {ν : Type} (map : OrderedMap String ν) (key : String) (val : Option ν) :
    OrderedMap String ν :=
  match val with
  | some val => if map.contains key then map else map.put key val
  | none => map

/-- `spmap_put`, which puts no null either. -/
def putNonNull {ν : Type} (map : OrderedMap String ν) (key : String) (val : Option ν) :
    OrderedMap String ν :=
  match val with
  | some val => map.put key val
  | none => map

section NameDesc

variable [Platform]

/-- A leading `!` marks the rest as a pattern, which has to compile. -/
def yamlValidNameDesc (pattern : String) : Bool :=
  match pattern.toList with
  | '!' :: c :: cs => (Platform.regcomp (String.ofList (c :: cs))).isSome
  | _ => true

def yamlScalarToNameDesc (scalar : Option YamlNode) : Option String :=
  (yamlScalarToString scalar).filter yamlValidNameDesc

def addNameDesc (sset : Sset) (scalar : YamlNode) : Sset :=
  (yamlScalarToNameDesc (some scalar)).elim sset sset.add

/-- A scalar stands for an empty sequence. -/
def yamlSeqIntoNameDescSset (sset : Sset) (seq : YamlNode) : Sset :=
  (yamlSeqIntoCol addNameDesc sset (some seq)).getD sset

/-! ### Elements by name or description -/

def mhzOfHz (hz : Floating) : Int := lroundMhz toFloat hz

/-- A value that is there has to be read; none leaves what was there. -/
def scalarOr {α : Type} (read : Option YamlNode → Option α) (default : α)
    (scalar : Option YamlNode) : Option α :=
  match scalar with
  | some scalar => read (some scalar)
  | none => some default

/-- The mode that the keys of a map describe, for either version. -/
def cfgModeOf (m : YamlMap) : Option Mode :=
  (scalarOr yamlScalarToInt modeInit.width (m.get? "WIDTH")).bind (fun width =>
  (scalarOr yamlScalarToInt modeInit.height (m.get? "HEIGHT")).bind (fun height =>
  (scalarOr (fun scalar => (yamlScalarToFloat scalar).map mhzOfHz) modeInit.refreshMhz
    (m.get? "HZ")).bind (fun refreshMhz =>
  (scalarOr yamlScalarToBoolean modeInit.max (m.get? "MAX")).bind (fun max =>
  (scalarOr yamlScalarToBoolean modeInit.maxPreferredRefresh
    (m.get? "MAX_PREFERRED_REFRESH")).map (fun maxPreferredRefresh =>
      { width := width, height := height, refreshMhz := refreshMhz, max := max,
        maxPreferredRefresh := maxPreferredRefresh, warnedNoMode := false })))))

def yamlMapToCfgMode (map : YamlNode) : Option Mode :=
  (yamlMapToSpmap (some map)).bind cfgModeOf

/-- One entry of a map by name or description, whose name has to be valid. -/
def intoByNameDesc {γ : Type} (into : γ → String → YamlNode → γ) (col : γ)
    (e : String × YamlNode) : γ :=
  if yamlValidNameDesc e.1 then into col e.1 e.2 else col

/-- Every entry of a map by name or description. -/
def yamlMapIntoByNameDesc {γ : Type} (into : γ → String → YamlNode → γ) (col : γ)
    (map : YamlNode) : γ :=
  (yamlMapToSpmap (some map)).elim col
    (fun m => m.entries.foldl (intoByNameDesc into) col)

def intoCfgModes (modes : OrderedMap String Mode) (nameDesc : String) (node : YamlNode) :
    OrderedMap String Mode :=
  putIfAbsent modes nameDesc (yamlMapToCfgMode node)

def yamlMapIntoCfgModes (modes : OrderedMap String Mode) (map : YamlNode) :
    OrderedMap String Mode :=
  yamlMapIntoByNameDesc intoCfgModes modes map

/-- A positive scale as a milliscale. -/
def milliscaleOf (scalar : Option YamlNode) : Option Nat :=
  ((yamlScalarToFloat scalar).filter (fun scale => !scale.nonpositive)).map toMilliscale

def intoScales (scales : OrderedMap String Nat) (nameDesc : String) (node : YamlNode) :
    OrderedMap String Nat :=
  putIfAbsent scales nameDesc (milliscaleOf (some node))

def yamlMapIntoScales (scales : OrderedMap String Nat) (map : YamlNode) :
    OrderedMap String Nat :=
  yamlMapIntoByNameDesc intoScales scales map

def intoTransforms (transforms : OrderedMap String Transform) (nameDesc : String)
    (node : YamlNode) : OrderedMap String Transform :=
  putIfAbsent transforms nameDesc (yamlScalarToEnum transformVal (some node))

def yamlMapIntoTransforms (transforms : OrderedMap String Transform) (map : YamlNode) :
    OrderedMap String Transform :=
  yamlMapIntoByNameDesc intoTransforms transforms map

/-! ### Disabled heads -/

def cfgDisabledInit : CfgDisabled := { conditions := .empty }

def nameDescSset (node : Option YamlNode) : Sset :=
  node.elim .empty (yamlSeqIntoNameDescSset .empty)

/-- A condition with a lid that is none, or with nothing at all, is dropped. -/
def yamlMapToCondition (map : YamlNode) : Option CfgCondition :=
  (yamlMapToSpmap (some map)).bind (fun m =>
  (scalarOr (fun scalar => (yamlScalarToEnum conditionLidVal scalar).map some) none
    (m.get? "LID")).bind (fun lid =>
      let condition : CfgCondition :=
        { plugged := nameDescSset (m.get? "PLUGGED")
          unplugged := nameDescSset (m.get? "UNPLUGGED")
          lid := lid }
      if condition.plugged.size = 0 ∧ condition.unplugged.size = 0 ∧ lid = none then none
      else some condition))

def yamlMapIntoConditions (conditions : OrderedSet CfgCondition conditionEqual)
    (map : YamlNode) : OrderedSet CfgCondition conditionEqual :=
  (yamlMapToCondition map).elim conditions conditions.add

/-- There has to be a condition. -/
def yamlMapToDisabledCond (map : YamlNode) : Option CfgDisabled :=
  (((yamlMapToSpmap (some map)).bind (fun m => m.get? "IF")).bind (fun nodeIf =>
    yamlSeqIntoCol yamlMapIntoConditions cfgDisabledInit.conditions (some nodeIf))).bind
      (fun conditions => if conditions.size = 0 then none else some ⟨conditions⟩)

/-- A map for conditions, an empty scalar for none. -/
def intoDisableds (disableds : Disableds) (nameDesc : String) : YamlNode → Disableds
  | .scalar _ => putNonNull disableds nameDesc (some cfgDisabledInit)
  | .mapping pairs => putNonNull disableds nameDesc (yamlMapToDisabledCond (.mapping pairs))
  | .sequence _ => disableds

def yamlMapIntoDisableds (disableds : Disableds) (map : YamlNode) : Disableds :=
  yamlMapIntoByNameDesc intoDisableds disableds map

/-! ### Version 1: sequences with the name or description in each item -/

/-- An item with a valid name or description. -/
def itemV1 (map : YamlNode) : Option (String × YamlMap) :=
  (yamlMapToSpmap (some map)).bind (fun m =>
    (yamlScalarToNameDesc (m.get? "NAME_DESC")).map (fun nameDesc => (nameDesc, m)))

def yamlMapIntoCfgModesV1 (modes : OrderedMap String Mode) (map : YamlNode) :
    OrderedMap String Mode :=
  (itemV1 map).elim modes (fun item => putIfAbsent modes item.1 (cfgModeOf item.2))

def yamlMapIntoScalesV1 (scales : OrderedMap String Nat) (map : YamlNode) :
    OrderedMap String Nat :=
  (itemV1 map).elim scales
    (fun item => putIfAbsent scales item.1 (milliscaleOf (item.2.get? "SCALE")))

def yamlMapIntoTransformsV1 (transforms : OrderedMap String Transform) (map : YamlNode) :
    OrderedMap String Transform :=
  (itemV1 map).elim transforms
    (fun item => putIfAbsent transforms item.1
      (yamlScalarToEnum transformVal (item.2.get? "TRANSFORM")))

/-- An item adds its conditions to those of an entry there is already. -/
def yamlNodeIntoDisabledsV1 (disableds : Disableds) : YamlNode → Disableds
  | .scalar value =>
    (yamlScalarToNameDesc (some (.scalar value))).elim disableds
      (fun nameDesc => putIfAbsent disableds nameDesc (some cfgDisabledInit))
  | .mapping pairs =>
    (itemV1 (.mapping pairs)).elim disableds (fun item =>
      let disabled := (disableds.get? item.1).getD cfgDisabledInit
      let conditions := (yamlSeqIntoCol yamlMapIntoConditions disabled.conditions
        (item.2.get? "IF")).getD disabled.conditions
      disableds.put item.1 ⟨conditions⟩)
  | .sequence _ => disableds

/-! ### The configuration -/

/-- The configuration so far, and what version 1 elements were met. -/
structure Unmarshal where
  cfg : Cfg
  v1Present : Bool
  v1LaptopDisplayPrefix : String

def unmarshalInit : Unmarshal :=
  { cfg := cfgInit, v1Present := false, v1LaptopDisplayPrefix := "" }

/-- The characters that fit into a number of bytes. -/
def takeBytes : Nat → List Char → List Char
  | _, [] => []
  | n, c :: cs => if c.utf8Size ≤ n then c :: takeBytes (n - c.utf8Size) cs else []

/-- A sequence of version 1 items, each of which sets the flag. -/
def Unmarshal.flagV1 (uc : Unmarshal) (items : List YamlNode) : Unmarshal :=
  { uc with v1Present := uc.v1Present || !items.isEmpty }

def yamlScalarToScaleRoundTo (scalar : Option YamlNode) : Nat :=
  let ret := ((yamlScalarToFloat scalar).map scaleRoundToVal).getD 0
  if ret = 0 then scaleRoundToDefault else ret

/-- One element of the configuration. -/
def Unmarshal.element (uc : Unmarshal) (element : CfgElement) (node : YamlNode) : Unmarshal :=
  let cfg := uc.cfg
  match element with
  | .arrange =>
    { uc with cfg := { cfg with
        arrange := (yamlScalarToEnum arrangeValStart (some node)).or (some .row) } }
  | .align =>
    { uc with cfg := { cfg with
        align := (yamlScalarToEnum alignValStart (some node)).or (some .top) } }
  | .order =>
    { uc with cfg := { cfg with
        orderNameDesc := yamlSeqIntoNameDescSset cfg.orderNameDesc node } }
  | .scaling =>
    { uc with cfg := { cfg with scaling := some (yamlScalarToOnOffDef .on (some node)) } }
  | .autoScale =>
    { uc with cfg := { cfg with autoScale := some (yamlScalarToOnOffDef .on (some node)) } }
  | .scale => match node with
    | .mapping pairs =>
      { uc with cfg := { cfg with scales := yamlMapIntoScales cfg.scales (.mapping pairs) } }
    | .sequence items =>
      { uc.flagV1 items with cfg :=
          { cfg with scales := items.foldl yamlMapIntoScalesV1 cfg.scales } }
    | .scalar _ => uc
  | .scaleRoundTo =>
    { uc with cfg := { cfg with scaleRoundTo := yamlScalarToScaleRoundTo (some node) } }
  | .scaleRoundStrategy =>
    { uc with cfg := { cfg with
        scaleRoundStrategy :=
          (yamlScalarToEnum scaleRoundStrategyVal (some node)).or (some .nearest) } }
  | .mode => match node with
    | .mapping pairs =>
      { uc with cfg := { cfg with modes := yamlMapIntoCfgModes cfg.modes (.mapping pairs) } }
    | .sequence items =>
      { uc.flagV1 items with cfg :=
          { cfg with modes := items.foldl yamlMapIntoCfgModesV1 cfg.modes } }
    | .scalar _ => uc
  | .transform => match node with
    | .mapping pairs =>
      { uc with cfg := { cfg with
          transforms := yamlMapIntoTransforms cfg.transforms (.mapping pairs) } }
    | .sequence items =>
      { uc.flagV1 items with cfg :=
          { cfg with transforms := items.foldl yamlMapIntoTransformsV1 cfg.transforms } }
    | .scalar _ => uc
  | .vrrOff =>
    { uc with cfg := { cfg with
        adaptiveSyncOff := yamlSeqIntoNameDescSset cfg.adaptiveSyncOff node } }
  | .callbackCmd =>
    { uc with cfg := { cfg with
        callbackCmd := (yamlScalarToString (some node)).or (some callbackCmdDefault) } }
  | .laptopDisplayPrefix =>
    { uc with
      v1LaptopDisplayPrefix := (yamlScalarToString (some node)).elim uc.v1LaptopDisplayPrefix
        (fun value => String.ofList (takeBytes 15 value.toList)) }
  | .laptopLidMonitor =>
    { uc with cfg := { cfg with
        laptopLidMonitor := some (yamlScalarToOnOffDef .on (some node)) } }
  | .logThreshold =>
    { uc with cfg := { cfg with
        logThreshold := yamlScalarToEnum logThresholdVal (some node) } }
  | .disabled => match node with
    | .mapping pairs =>
      let disableds := yamlMapIntoDisableds cfg.disableds (.mapping pairs)
      { uc with cfg := { cfg with
          disableds := disableds, disabledsEmpty := decide (disableds.size = 0) } }
    | .sequence items =>
      { uc.flagV1 items with cfg :=
          { cfg with disableds := items.foldl yamlNodeIntoDisabledsV1 cfg.disableds } }
    | .scalar _ => { uc with cfg := { cfg with disabledsEmpty := true } }
  | .autoScaleDpi =>
    { uc with cfg := { cfg with
        autoScaleDpi := (yamlScalarToInt (some node)).getD autoScaleDpiDefault } }
  | .autoScaleMin =>
    { uc with cfg := { cfg with
        autoScaleMin := (yamlScalarToFloat (some node)).getD 1 } }
  | .autoScaleMax =>
    { uc with cfg := { cfg with
        autoScaleMax := (yamlScalarToFloat (some node)).getD (-1) } }
  | .plugged | .unplugged | .arrangeAlign => uc

/-- One pair of the document, ignored unless its key names an element. -/
def Unmarshal.pair (uc : Unmarshal) (pair : YamlPair) : Unmarshal :=
  match (yamlScalarToString (some pair.1)).bind cfgElementVal with
  | some element => uc.element element pair.2
  | none => uc

/-- Two items that follow each other, as a pair; an odd one out has no value. -/
def itemPairs : List YamlNode → List YamlPair
  | key :: value :: items => (key, value) :: itemPairs items
  | _ => []

/-- The pairs of a node, whatever it is: those of a mapping share their memory with the items
of a sequence. -/
def YamlNode.pairs : YamlNode → List YamlPair
  | .mapping pairs => pairs
  | .sequence items => itemPairs items
  | .scalar _ => []

def yamlMapToCfg (map : YamlNode) : Unmarshal := map.pairs.foldl Unmarshal.pair unmarshalInit

/-- Always add a condition for the lid of a laptop display. -/
def cfgMigrateV1 (cfg : Cfg) (v1LaptopDisplayPrefix : Option String) : Cfg :=
  { cfg with
    disableds := cfgDisabledAddLidCondition cfg.disableds
      (v1LaptopDisplayPrefix.elim disabledLaptopDisplayNameDescDefault
        (fun laptopDisplayPrefix => "!^" ++ laptopDisplayPrefix)) }

/-- The configuration, with version 1 elements migrated. -/
def Unmarshal.migrated (uc : Unmarshal) : Cfg :=
  if uc.v1Present || uc.v1LaptopDisplayPrefix != "" then
    cfgMigrateV1 uc.cfg
      (if uc.v1LaptopDisplayPrefix = "" then none else some uc.v1LaptopDisplayPrefix)
  else uc.cfg

def yamlRootToCfg : Option YamlNode → Option Cfg
  | some (.mapping pairs) => some (yamlMapToCfg (.mapping pairs)).migrated
  | _ => none

/-- A request has to say what it is about. -/
def yamlRootToIpcRequest (root : Option YamlNode) : Option IpcRequest :=
  (yamlMapToSpmap root).bind (fun m =>
    (yamlScalarToEnum ipcCommandVal (m.get? "OP")).map (fun command =>
      { ipcRequestInit (some command) with
        logThreshold := yamlScalarToEnum logThresholdVal (m.get? "LOG_THRESHOLD")
        cfg := (m.get? "CFG").map (fun cfg => (yamlMapToCfg cfg).cfg) }))

/-! ### The configuration file -/

/-- At startup: a document without a configuration, or none, is as good as an empty one. -/
def gCfgFileInitRead (root : Option YamlNode) : Cfg :=
  cfgValidateFix (cfgApplyDefaults ((yamlRootToCfg root).getD cfgInit))

/-- A document without a configuration changes nothing. -/
def gCfgFileReloadYaml (gCfg : Cfg) (root : Option YamlNode) : Cfg :=
  (yamlRootToCfg root).elim gCfg (fun cfg => cfgValidateFix (cfgApplyDefaults cfg))

/-- A message of a client, with all else that the server knows. -/
def serverMessage (gCfg : Cfg) (server : Server) (root : Option YamlNode) : Cfg :=
  (yamlRootToIpcRequest root).elim gCfg
    (fun request => (serverRequest { server with gCfg := gCfg } request).1.gCfg)

/-- What changes the configuration of a server that runs: its file, a message, and the flag of
a mode that was not found. -/
inductive CfgEvent
  | reload (root : Option YamlNode)
  | message (server : Server) (root : Option YamlNode)
  | warnNoMode (nameDesc : String)

def Cfg.step (gCfg : Cfg) : CfgEvent → Option Cfg
  | .reload root => some (gCfgFileReloadYaml gCfg root)
  | .message server root => some (serverMessage gCfg server root)
  | .warnNoMode nameDesc => some (gCfg.warnNoMode nameDesc)

end NameDesc

/-! ### Heads -/

def yamlMapToHeadMode (map : Option YamlNode) : Option Mode :=
  (yamlMapToSpmap map).map (fun m =>
    { modeInit with
      width := (yamlScalarToInt (m.get? "WIDTH")).getD modeInit.width
      height := (yamlScalarToInt (m.get? "HEIGHT")).getD modeInit.height
      refreshMhz := (yamlScalarToInt (m.get? "REFRESH_MHZ")).getD modeInit.refreshMhz })

/-- A mode is its own key: a new one, after `allocated` others. -/
def yamlMapIntoHeadModes (allocated : Nat) (modes : Modes) (map : YamlNode) : Modes :=
  (yamlMapToHeadMode (some map)).elim modes
    (fun mode => modes.put ⟨allocated + modes.size⟩ mode)

def firstKey (modes : Modes) (mode : Mode) : Option ZMode :=
  (modes.find? (fun _ val => modeEqual val mode)).map Prod.fst

def yamlMapToZmode (head : Head) (map : Option YamlNode) : Option ZMode :=
  (yamlMapToHeadMode map).bind
    (fun mode => (firstKey head.modes mode).or (firstKey head.modesFailed mode))

/-- `wl_fixed_from_double`, which is a conversion to an `int` of what is no number. -/
def fixedOfScale [Platform] : Floating → Int
  | .number scale => Platform.wlFixedFromDouble scale
  | _ => -(2 ^ 31)

def yamlMapIntoHeadState [Platform] (headState : HeadState) (head : Head)
    (map : Option YamlNode) : HeadState :=
  match yamlMapToSpmap map with
  | none => headState
  | some m =>
    { enabled := (yamlScalarToBoolean (m.get? "ENABLED")).getD headState.enabled
      x := (yamlScalarToInt (m.get? "X")).getD headState.x
      y := (yamlScalarToInt (m.get? "Y")).getD headState.y
      transform := (yamlScalarToEnum transformVal (m.get? "TRANSFORM")).getD .normal
      scale := ((yamlScalarToFloat (m.get? "SCALE")).map fixedOfScale).getD headState.scale
      adaptiveSync := ((yamlScalarToBoolean (m.get? "VRR")).map
        (fun vrr => if vrr then AdaptiveSync.enabled else AdaptiveSync.disabled)).getD
        headState.adaptiveSync
      zmode := ((yamlMapToHeadMode (m.get? "MODE")).map
        (fun _ => yamlMapToZmode head (m.get? "MODE"))).getD headState.zmode }

/-- A head, with its references to modes found among those that came with it. -/
def yamlMapToHead [Platform] (m : YamlMap) : Head :=
  let modes := (yamlSeqIntoCol (yamlMapIntoHeadModes 0) .empty (m.get? "MODES")).getD .empty
  let modesFailed := (yamlSeqIntoCol (yamlMapIntoHeadModes modes.size) .empty
    (m.get? "MODES_FAILED")).getD .empty
  let listed : Head :=
    { headInit with
      name := yamlScalarToString (m.get? "NAME")
      description := yamlScalarToString (m.get? "DESCRIPTION")
      make := yamlScalarToString (m.get? "MAKE")
      model := yamlScalarToString (m.get? "MODEL")
      serialNumber := yamlScalarToString (m.get? "SERIAL_NUMBER")
      widthMm := (yamlScalarToInt (m.get? "WIDTH_MM")).getD headInit.widthMm
      heightMm := (yamlScalarToInt (m.get? "HEIGHT_MM")).getD headInit.heightMm
      modes := modes
      modesFailed := modesFailed }
  let disabled := (yamlMapToSpmap (m.get? "OVERRIDES")).bind
    (fun mo => yamlScalarToBoolean (mo.get? "DISABLED"))
  { listed with
    zmodePref := yamlMapToZmode listed (m.get? "MODE_PREFERRED")
    cur := yamlMapIntoHeadState listed.cur listed (m.get? "CURRENT")
    des := yamlMapIntoHeadState listed.des listed (m.get? "DESIRED")
    overridedEnabled := disabled.elim listed.overridedEnabled
      (fun disabled => if disabled then .overrideFalse else .overrideTrue) }

def yamlMapIntoHeads [Platform] (heads : List Head) (map : YamlNode) : List Head :=
  (yamlMapToSpmap (some map)).elim heads (fun m => heads ++ [yamlMapToHead m])

end WayDisplays.Model
