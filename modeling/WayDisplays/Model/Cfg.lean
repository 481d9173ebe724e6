/- The configuration: its elements, the conditions of a disabled head, and equality. -/

import WayDisplays.Lib.Floating
import WayDisplays.Lib.OrderedSet
import WayDisplays.Model.Mode

set_option autoImplicit false
set_option relaxedAutoImplicit false

namespace WayDisplays.Model

open Lib (Floating OrderedMap OrderedSet)

inductive Arrange
  | row | col
  deriving DecidableEq, Repr

inductive Align
  | top | middle | bottom | left | right
  deriving DecidableEq, Repr

inductive OnOff
  | on | off
  deriving DecidableEq, Repr

inductive ConditionLid
  | closed | open | notPresent
  deriving DecidableEq, Repr

inductive ScaleRoundStrategy
  | nearest | up | down
  deriving DecidableEq, Repr

inductive LogThreshold
  | debug | info | warning | error | fatal
  deriving DecidableEq, Repr

/-- The value of the enumeration: zero is left for an unset threshold. -/
def LogThreshold.val : LogThreshold → Nat
  | .debug => 1
  | .info => 2
  | .warning => 3
  | .error => 4
  | .fatal => 5

inductive Transform
  | normal | rot90 | rot180 | rot270 | flipped | flipped90 | flipped180 | flipped270
  deriving DecidableEq, Repr

def Transform.val : Transform → Nat
  | .normal => 0
  | .rot90 => 1
  | .rot180 => 2
  | .rot270 => 3
  | .flipped => 4
  | .flipped90 => 5
  | .flipped180 => 6
  | .flipped270 => 7

inductive ManualOverride
  | noOverride | overrideTrue | overrideFalse
  deriving DecidableEq, Repr

inductive CfgElement
  | arrange | align | order | scaling | autoScale | scale | mode | transform | vrrOff
  | callbackCmd | laptopDisplayPrefix | laptopLidMonitor | logThreshold | disabled
  | plugged | unplugged | arrangeAlign | autoScaleDpi | autoScaleMin | autoScaleMax
  | scaleRoundTo | scaleRoundStrategy
  deriving DecidableEq, Repr

/-- A set of strings compared by `strcmp`. -/
abbrev Sset := OrderedSet String (fun a b => a == b)

structure CfgCondition where
  plugged : Sset
  unplugged : Sset
  lid : Option ConditionLid

def conditionEqual (a b : CfgCondition) : Bool :=
  a.lid == b.lid && a.plugged.equal b.plugged && a.unplugged.equal b.unplugged

/-- A head is disabled while one of the conditions is met, always when there are none. -/
structure CfgDisabled where
  conditions : OrderedSet CfgCondition conditionEqual

def disabledEqual (a b : CfgDisabled) : Bool := a.conditions.equal b.conditions

abbrev Disableds := OrderedMap String CfgDisabled

/-- An enumerated element is `none` when unset; a number is zero when unset. -/
structure Cfg where
  arrange : Option Arrange
  align : Option Align
  orderNameDesc : Sset
  scaling : Option OnOff
  scaleRoundStrategy : Option ScaleRoundStrategy
  scaleRoundTo : Nat
  autoScale : Option OnOff
  autoScaleDpi : Int
  autoScaleMin : Floating
  autoScaleMax : Floating
  /-- Milliscales by name or description. -/
  scales : OrderedMap String Nat
  modes : OrderedMap String Mode
  transforms : OrderedMap String Transform
  adaptiveSyncOff : Sset
  callbackCmd : Option String
  laptopLidMonitor : Option OnOff
  logThreshold : Option LogThreshold
  disableds : Disableds
  disabledsEmpty : Bool

def scaleRoundToDefault : Nat := 8

def autoScaleDpiDefault : Int := 96

def callbackCmdDefault : String :=
  "notify-send \"way-displays $\x7bCALLBACK_LEVEL\x7d\" \"$\x7bCALLBACK_MSG\x7d\""

def disabledLaptopDisplayNameDescDefault : String := "!^eDP-[0-9]"

def cfgInit : Cfg :=
  { arrange := none, align := none, orderNameDesc := .empty, scaling := none,
    scaleRoundStrategy := none, scaleRoundTo := 0, autoScale := none, autoScaleDpi := 0,
    autoScaleMin := 0, autoScaleMax := 0, scales := .empty, modes := .empty,
    transforms := .empty, adaptiveSyncOff := .empty, callbackCmd := none,
    laptopLidMonitor := none, logThreshold := none, disableds := .empty,
    disabledsEmpty := false }

/-- Disable a laptop display while its lid is closed, unless it has an entry. -/
def cfgDisabledAddLidCondition (disableds : Disableds) (nameDesc : String) : Disableds :=
  if disableds.contains nameDesc then disableds
  else
    let condition : CfgCondition := { plugged := .empty, unplugged := .empty, lid := some .closed }
    disableds.put nameDesc { conditions := OrderedSet.empty.add condition }

/-- Defaults for the elements that are unset. -/
def cfgApplyDefaults (cfg : Cfg) : Cfg :=
  { cfg with
    arrange := cfg.arrange.or (some .row)
    align := cfg.align.or (some .top)
    scaling := cfg.scaling.or (some .on)
    autoScale := cfg.autoScale.or (some .on)
    scaleRoundTo := if cfg.scaleRoundTo = 0 then scaleRoundToDefault else cfg.scaleRoundTo
    scaleRoundStrategy := cfg.scaleRoundStrategy.or (some .nearest)
    autoScaleDpi := if cfg.autoScaleDpi = 0 then autoScaleDpiDefault else cfg.autoScaleDpi
    autoScaleMin := if cfg.autoScaleMin = 0 then 1 else cfg.autoScaleMin
    autoScaleMax := if cfg.autoScaleMax = 0 then -1 else cfg.autoScaleMax
    callbackCmd := cfg.callbackCmd.or (some callbackCmdDefault)
    laptopLidMonitor := cfg.laptopLidMonitor.or (some .on)
    disableds :=
      if !cfg.disabledsEmpty && cfg.disableds.size = 0 then
        cfgDisabledAddLidCondition cfg.disableds disabledLaptopDisplayNameDescDefault
      else cfg.disableds }

/-- Every element but the marker of an empty DISABLED map. -/
def cfgEqual (a b : Cfg) : Bool :=
  a.align == b.align && a.arrange == b.arrange && a.autoScale == b.autoScale &&
    a.autoScaleDpi == b.autoScaleDpi && a.autoScaleMax.equal b.autoScaleMax &&
    a.autoScaleMin.equal b.autoScaleMin && a.laptopLidMonitor == b.laptopLidMonitor &&
    a.logThreshold == b.logThreshold && a.scaleRoundStrategy == b.scaleRoundStrategy &&
    a.scaleRoundTo == b.scaleRoundTo && a.scaling == b.scaling &&
    a.callbackCmd == b.callbackCmd && a.disableds.equal disabledEqual b.disableds &&
    a.modes.equal modeEqual b.modes && a.scales.equal (fun x y => x == y) b.scales &&
    a.transforms.equal (fun x y => x == y) b.transforms &&
    a.adaptiveSyncOff.equal b.adaptiveSyncOff && a.orderNameDesc.equal b.orderNameDesc

/-- A laptop lid found at startup. -/
structure Lid where
  closed : Bool
  deriving DecidableEq, Repr

end WayDisplays.Model
