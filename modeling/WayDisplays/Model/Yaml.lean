/- YAML nodes, the names of the enumerations, and what becomes of scalars in both directions. -/

import WayDisplays.Lib.Decimal
import WayDisplays.Model.CfgMerge

set_option autoImplicit false
set_option relaxedAutoImplicit false

namespace WayDisplays.Model

open Lib (Floating OrderedMap OrderedSet)

/-- A node of a document, `yaml_node_t`. -/
inductive YamlNode
  | scalar (value : String)
  | sequence (items : List YamlNode)
  | mapping (pairs : List (YamlNode × YamlNode))

abbrev YamlPair := YamlNode × YamlNode

/-- The pairs of a mapping with the keys that are scalars. -/
abbrev YamlMap := OrderedMap String YamlNode

/-! ### Numbers -/

/-- A `float` that is a number: 24 significant bits. Its range is left out. -/
def toFloat (q : ℚ) : ℚ := Lib.Rounding.significant 2 24 q

/-- A `double`: 53 significant bits. -/
def toDouble (q : ℚ) : ℚ := Lib.Rounding.significant 2 53 q

/-- The low 32 bits of an integer, as an `int32_t`. -/
def toInt32 (n : Int) : Int := n.bmod (2 ^ 32)

def IsInt32 (n : Int) : Prop := -(2 ^ 31) ≤ n ∧ n < 2 ^ 31

def isSpace (c : Char) : Bool := c.isWhitespace || c == '\x0b' || c == '\x0c'

/-- `sscanf` of a `%d`: a `long`, of which the low bits are kept. -/
def sscanfInt (s : String) : Option Int :=
  (Lib.Decimal.readInt (s.toList.dropWhile isSpace)).map
    (fun n => toInt32 (max (-(2 ^ 63)) (min n (2 ^ 63 - 1))))

/-- Where a `%f` gives up a word that it has begun to read: one that is not "infinity" after all,
and the prefix of a hexadecimal number without the number. -/
def unscannable (cs : List Char) : Bool :=
  let unsigned := if cs.head? = some '-' ∨ cs.head? = some '+' then cs.tail else cs
  (Floating.startsWith "infi" unsigned && !Floating.startsWith "infinity" unsigned) ||
    (Floating.startsWith "0x" unsigned &&
      !(unsigned.drop 2).head?.any (fun c => Floating.isHexDigit c || c == '.'))

/-- `sscanf` of a `%f`. -/
def sscanfFloat (s : String) : Option Floating :=
  let cs := s.toList.dropWhile isSpace
  if unscannable cs then none else (Floating.readFloating cs).map (Floating.map toFloat)

def snprintfInt (n : Int) : String := String.ofList (Lib.Decimal.writeInt n)

/-- A `%g` of a number. -/
def snprintfFloat (q : ℚ) : String := String.ofList (Lib.Decimal.writeGeneral 6 q)

/-- A `%g`. -/
def snprintfFloating : Floating → String
  | .number q => snprintfFloat q
  | .infinity negative => if negative then "-inf" else "inf"
  | .nan negative => if negative then "-nan" else "nan"

/-! What x86-64 makes of the conversions of an infinity or a NaN, which C leaves undefined. -/

/-- A scale as the milliscale of a `size_t`. -/
def toMilliscale : Floating → Nat
  | .number scale => (roundNearest (toFloat (scale * 1000))).toNat
  | .infinity _ => 0
  | .nan _ => 2 ^ 63

/-- `lround` of the millihertz, of which an `int32_t` keeps the low bits. -/
def lroundMhz (round : ℚ → ℚ) : Floating → Int
  | .number hz => toInt32 (roundNearest (round (hz * 1000)))
  | _ => 0

/-! ### Names of enumerations -/

section NameVal

variable {α : Type}

def strcasecmpEqual (a b : String) : Bool :=
  a.toList.map Char.toLower == b.toList.map Char.toLower

/-- The value of a name up to case, `_val`. -/
def nameVal (nameVals : List (String × α)) (name : String) : Option α :=
  (nameVals.find? (fun nv => strcasecmpEqual nv.1 name)).map Prod.snd

/-- The value of the first name that starts so up to case, `_val_start`. -/
def nameValStart (nameVals : List (String × α)) (name : String) : Option α :=
  if name = "" then none
  else
    (nameVals.find? (fun nv =>
      (name.toList.map Char.toLower).isPrefixOf (nv.1.toList.map Char.toLower))).map Prod.snd

/-- The first name of a value, `_name`. -/
def valName [DecidableEq α] (nameVals : List (String × α)) (val : α) : Option String :=
  (nameVals.find? (fun nv => decide (val = nv.2))).map Prod.fst

end NameVal

def cfgElements : List (String × CfgElement) :=
  [("ARRANGE", .arrange), ("ALIGN", .align), ("ORDER", .order), ("SCALING", .scaling),
    ("AUTO_SCALE", .autoScale), ("SCALE", .scale), ("SCALE_ROUND_TO", .scaleRoundTo),
    ("SCALE_ROUND_STRATEGY", .scaleRoundStrategy), ("MODE", .mode), ("VRR_OFF", .vrrOff),
    ("CALLBACK_CMD", .callbackCmd), ("LAPTOP_DISPLAY_PREFIX", .laptopDisplayPrefix),
    ("LAPTOP_LID_MONITOR", .laptopLidMonitor), ("TRANSFORM", .transform),
    ("LOG_THRESHOLD", .logThreshold), ("DISABLED", .disabled), ("PLUGGED", .plugged),
    ("UNPLUGGED", .unplugged), ("ARRANGE_ALIGN", .arrangeAlign),
    ("AUTO_SCALE_DPI", .autoScaleDpi), ("AUTO_SCALE_MIN", .autoScaleMin),
    ("AUTO_SCALE_MAX", .autoScaleMax)]

def arranges : List (String × Arrange) := [("ROW", .row), ("COLUMN", .col)]

def aligns : List (String × Align) :=
  [("TOP", .top), ("MIDDLE", .middle), ("BOTTOM", .bottom), ("LEFT", .left), ("RIGHT", .right)]

def onOffs : List (String × OnOff) :=
  [("ON", .on), ("OFF", .off), ("TRUE", .on), ("FALSE", .off), ("YES", .on), ("NO", .off)]

def ipcCommands : List (String × IpcCommand) :=
  [("GET", .get), ("LIST", .list), ("REAPPLY", .reapply), ("CFG_SET", .cfgSet),
    ("CFG_DEL", .cfgDel), ("CFG_WRITE", .cfgWrite), ("CFG_TOGGLE", .cfgToggle)]

/-- The normal transform has no name. -/
def transforms : List (String × Transform) :=
  [("90", .rot90), ("180", .rot180), ("270", .rot270), ("FLIPPED", .flipped),
    ("FLIPPED-90", .flipped90), ("FLIPPED-180", .flipped180), ("FLIPPED-270", .flipped270)]

def logThresholds : List (String × LogThreshold) :=
  [("DEBUG", .debug), ("INFO", .info), ("WARNING", .warning), ("ERROR", .error),
    ("FATAL", .fatal)]

def conditionLids : List (String × ConditionLid) :=
  [("OPEN", .open), ("CLOSED", .closed), ("NOT_PRESENT", .notPresent)]

def scaleRoundStrategies : List (String × ScaleRoundStrategy) :=
  [("NEAREST", .nearest), ("UP", .up), ("DOWN", .down)]

def scaleRoundTos : List (String × Nat) := [("0.125", 8), ("0.25", 4), ("0.5", 2), ("1", 1)]

def cfgElementVal (name : String) : Option CfgElement := nameVal cfgElements name

def cfgElementName (element : CfgElement) : Option String := valName cfgElements element

def arrangeValStart (name : String) : Option Arrange := nameValStart arranges name

def arrangeName (arrange : Arrange) : Option String := valName arranges arrange

def alignValStart (name : String) : Option Align := nameValStart aligns name

def alignName (align : Align) : Option String := valName aligns align

def onOffVal (name : String) : Option OnOff := nameVal onOffs name

def ipcCommandVal (name : String) : Option IpcCommand := nameVal ipcCommands name

def transformVal (name : String) : Option Transform := nameVal transforms name

def transformName (transform : Transform) : Option String := valName transforms transform

def logThresholdVal (name : String) : Option LogThreshold := nameVal logThresholds name

def logThresholdName (threshold : LogThreshold) : Option String := valName logThresholds threshold

def conditionLidVal (name : String) : Option ConditionLid := nameVal conditionLids name

def conditionLidName (lid : ConditionLid) : Option String := valName conditionLids lid

def scaleRoundStrategyVal (name : String) : Option ScaleRoundStrategy :=
  nameVal scaleRoundStrategies name

def scaleRoundStrategyName (strategy : ScaleRoundStrategy) : Option String :=
  valName scaleRoundStrategies strategy

/-- The inverse of a scale, as long as it has a name; zero otherwise. -/
def scaleRoundToVal : Floating → Nat
  | .number scaleRoundTo =>
    if scaleRoundTo = 0 then 0
    else
      let ret := (truncate (toFloat (1 / scaleRoundTo)) % 2 ^ 32).toNat
      if (valName scaleRoundTos ret).isSome then ret else 0
  | _ => 0

def scaleRoundToName (scaleRoundTo : Nat) : Option String := valName scaleRoundTos scaleRoundTo

/-! ### Reading scalars -/

/-- No node stands for a missing one. -/
def yamlScalarToString : Option YamlNode → Option String
  | some (.scalar value) => some value
  | _ => none

def yamlScalarToInt (scalar : Option YamlNode) : Option Int :=
  (yamlScalarToString scalar).bind sscanfInt

def yamlScalarToFloat (scalar : Option YamlNode) : Option Floating :=
  (yamlScalarToString scalar).bind sscanfFloat

def yamlScalarToEnum {α : Type} (val : String → Option α) (scalar : Option YamlNode) : Option α :=
  (yamlScalarToString scalar).bind val

def yamlScalarToBoolean (scalar : Option YamlNode) : Option Bool :=
  ((yamlScalarToString scalar).bind onOffVal).map (fun val => decide (val = .on))

def yamlScalarToOnOffDef (default : OnOff) (scalar : Option YamlNode) : OnOff :=
  ((yamlScalarToBoolean scalar).map (fun val => if val then OnOff.on else OnOff.off)).getD default

/-- The collection after each item, unless the node is no sequence. -/
def yamlSeqIntoCol {γ : Type} (fn : γ → YamlNode → γ) (col : γ) : Option YamlNode → Option γ
  | some (.sequence items) => some (items.foldl fn col)
  | _ => none

/-- A later pair takes the place of an earlier one with its key. -/
def spmapPutPair (nodes : YamlMap) (pair : YamlPair) : YamlMap :=
  match yamlScalarToString (some pair.1) with
  | some key => nodes.put key pair.2
  | none => nodes

def yamlMapToSpmap : Option YamlNode → Option YamlMap
  | some (.mapping pairs) => some (pairs.foldl spmapPutPair .empty)
  | _ => none

/-! ### Writing scalars

The pairs that each call adds to a mapping. -/

def yamlMapAddNode (key : String) (node : Option YamlNode) : List YamlPair :=
  node.toList.map (fun node => (.scalar key, node))

def yamlMapAddStr (key : String) (str : Option String) : List YamlPair :=
  yamlMapAddNode key (str.map YamlNode.scalar)

def yamlMapAddInt (key : String) (val : Int) : List YamlPair :=
  yamlMapAddStr key (some (snprintfInt val))

def yamlMapAddIntNz (key : String) (val : Int) : List YamlPair :=
  if val = 0 then [] else yamlMapAddInt key val

def yamlMapAddFloatNz (key : String) (val : Floating) : List YamlPair :=
  if val.map toFloat = 0 then []
  else yamlMapAddStr key (some (snprintfFloating (val.map toFloat)))

def yamlMapAddBool (key : String) (val : Bool) : List YamlPair :=
  yamlMapAddStr key (some (if val then "TRUE" else "FALSE"))

def yamlMapAddEnum {α : Type} (key : String) (val : Option α) (name : α → Option String) :
    List YamlPair :=
  yamlMapAddStr key (val.bind name)

/-- `yaml_map_add_enum` with `on_off_name`, which it writes as a boolean. -/
def yamlMapAddOnOff (key : String) (val : Option OnOff) : List YamlPair :=
  val.elim [] (fun val => yamlMapAddBool key (decide (val = .on)))

def yamlMapAddPlist {α : Type} (key : String) (plist : List α) (fn : α → YamlNode) :
    List YamlPair :=
  if plist.isEmpty then [] else [(.scalar key, .sequence (plist.map fn))]

/-- An empty set is written as an empty scalar. -/
def yamlMapAddSset (key : String) (sset : Sset) : List YamlPair :=
  if sset.size = 0 then yamlMapAddStr key (some "")
  else [(.scalar key, .sequence (sset.vals.map YamlNode.scalar))]

end WayDisplays.Model
