/- Merges on the heap: which objects are allocated, shared, written to and freed. -/

import WayDisplays.Lib.Owned
import WayDisplays.Model.CfgMerge

set_option autoImplicit false
set_option relaxedAutoImplicit false

namespace WayDisplays.Model.CfgHeap

open Lib (Floating OrderedMap OrderedSet Owned Touch Traced)

/-- Whose object it is: of the configuration merged into, of the request, or of the result. -/
inductive Holder
  | to_ | from_ | merged
  deriving DecidableEq, Repr

/-! ### Objects -/

structure ConditionObject where
  plugged : Owned Holder Sset
  unplugged : Owned Holder Sset
  lid : Option ConditionLid

def ConditionObject.condition (c : ConditionObject) : CfgCondition :=
  { plugged := c.plugged.val, unplugged := c.unplugged.val, lid := c.lid }

def conditionEqual (a b : Owned Holder ConditionObject) : Bool :=
  Model.conditionEqual a.val.condition b.val.condition

structure DisabledObject where
  conditions : Owned Holder (OrderedSet (Owned Holder ConditionObject) conditionEqual)

def DisabledObject.disabled (d : DisabledObject) : CfgDisabled :=
  ⟨⟨d.conditions.val.vals.map (fun c => c.val.condition), by
    rw [List.pairwise_map]
    exact d.conditions.val.distinct⟩⟩

/-- A configuration with pointers to its strings, sets and maps. The strings that a set or map
allocates for itself are of one object with it, as are its numbers. -/
structure CfgObject where
  arrange : Option Arrange
  align : Option Align
  orderNameDesc : Owned Holder Sset
  scaling : Option OnOff
  scaleRoundStrategy : Option ScaleRoundStrategy
  scaleRoundTo : Nat
  autoScale : Option OnOff
  autoScaleDpi : Int
  autoScaleMin : Floating
  autoScaleMax : Floating
  scales : Owned Holder (OrderedMap String Nat)
  modes : Owned Holder (OrderedMap String (Owned Holder Mode))
  transforms : Owned Holder (OrderedMap String Transform)
  adaptiveSyncOff : Owned Holder Sset
  callbackCmd : Option (Owned Holder String)
  laptopLidMonitor : Option OnOff
  logThreshold : Option LogThreshold
  disableds : Owned Holder (OrderedMap String (Owned Holder DisabledObject))
  disabledsEmpty : Bool

/-- The configuration that is read by following the pointers. -/
def CfgObject.cfg (o : CfgObject) : Cfg :=
  { arrange := o.arrange, align := o.align, orderNameDesc := o.orderNameDesc.val
    scaling := o.scaling, scaleRoundStrategy := o.scaleRoundStrategy
    scaleRoundTo := o.scaleRoundTo, autoScale := o.autoScale, autoScaleDpi := o.autoScaleDpi
    autoScaleMin := o.autoScaleMin, autoScaleMax := o.autoScaleMax
    scales := o.scales.val.mapVals (fun _ milliscale => milliscale)
    modes := o.modes.val.mapVals (fun _ mode => mode.val)
    transforms := o.transforms.val.mapVals (fun _ transform => transform)
    adaptiveSyncOff := o.adaptiveSyncOff.val, callbackCmd := o.callbackCmd.map Owned.val
    laptopLidMonitor := o.laptopLidMonitor, logThreshold := o.logThreshold
    disableds := o.disableds.val.mapVals (fun _ disabled => disabled.val.disabled)
    disabledsEmpty := o.disabledsEmpty }

abbrev Heap := Traced (Touch Holder)

/-! ### Clones, for the result -/

def strdup (str : Owned Holder String) : Owned Holder String := ⟨.merged, str.val⟩

def ssetClone (from_ : Owned Holder Sset) : Owned Holder Sset :=
  ⟨.merged, OrderedSet.empty.addAll from_.val⟩

def cfgConditionClone (from_ : Owned Holder ConditionObject) : Owned Holder ConditionObject :=
  ⟨.merged,
    { plugged := ssetClone from_.val.plugged
      unplugged := ssetClone from_.val.unplugged
      lid := from_.val.lid }⟩

def cfgConditionFree (condition : Owned Holder ConditionObject) : Heap Unit := do
  condition.val.plugged.free
  condition.val.unplugged.free
  condition.free

def cfgDisabledClone (from_ : Owned Holder DisabledObject) : Owned Holder DisabledObject :=
  ⟨.merged, ⟨.merged, from_.val.conditions.val.vals.foldl
    (fun conditions c => conditions.add (cfgConditionClone c)) .empty⟩⟩

def cfgDisabledFree (disabled : Owned Holder DisabledObject) : Heap Unit := do
  disabled.val.conditions.val.vals.foldlM (fun _ => cfgConditionFree) ()
  disabled.val.conditions.free
  disabled.free

def cfgDisabledSpmap : Owned.Handling Holder (Owned Holder DisabledObject) where
  clone := fun _ => cfgDisabledClone
  free := cfgDisabledFree

def modeSpmap : Owned.Handling Holder (Owned Holder Mode) := .single

/-- The pointers are copied with the rest, then each is replaced. -/
def cfgClone (from_ : Owned Holder CfgObject) : Heap (Owned Holder CfgObject) := do
  let to_ : Owned Holder CfgObject := ⟨.merged, from_.val⟩
  let to_ ← to_.write { to_.val with callbackCmd := from_.val.callbackCmd.map strdup }
  let to_ ← to_.write { to_.val with adaptiveSyncOff := ssetClone from_.val.adaptiveSyncOff }
  let to_ ← to_.write { to_.val with orderNameDesc := ssetClone from_.val.orderNameDesc }
  let to_ ← to_.write { to_.val with
    disableds := from_.val.disableds.cloneDeep cfgDisabledSpmap .merged }
  let to_ ← to_.write { to_.val with modes := from_.val.modes.cloneDeep modeSpmap .merged }
  let to_ ← to_.write { to_.val with scales := from_.val.scales.cloneDeep .inPlace .merged }
  to_.write { to_.val with transforms := from_.val.transforms.cloneDeep .inPlace .merged }

def cfgFree (cfg : Owned Holder CfgObject) : Heap Unit := do
  cfg.val.callbackCmd.elim (pure ()) Owned.free
  cfg.val.disableds.freeVals cfgDisabledSpmap
  cfg.val.modes.freeVals modeSpmap
  cfg.val.scales.free
  cfg.val.transforms.free
  cfg.val.adaptiveSyncOff.free
  cfg.val.orderNameDesc.free
  cfg.free

/-! ### Merges -/

/-- Assign members of a configuration. -/
def assignIf (p : Prop) [Decidable p] (cfg : Owned Holder CfgObject) (o : CfgObject) :
    Heap (Owned Holder CfgObject) := if p then cfg.write o else pure cfg

def replaceCallbackCmd (merged : Owned Holder CfgObject) (callbackCmd : Owned Holder String) :
    Heap (Owned Holder CfgObject) := do
  merged.val.callbackCmd.elim (pure ()) Owned.free
  merged.write { merged.val with callbackCmd := some callbackCmd }

def cfgMergeSet (to_ from_ : Owned Holder CfgObject) : Heap (Owned Holder CfgObject) := do
  let merged ← cfgClone to_
  let merged ← merged.write { merged.val with align := from_.val.align.or merged.val.align }
  let merged ← merged.write { merged.val with arrange := from_.val.arrange.or merged.val.arrange }
  let merged ← merged.write
    { merged.val with autoScale := from_.val.autoScale.or merged.val.autoScale }
  let merged ← merged.write { merged.val with scaling := from_.val.scaling.or merged.val.scaling }
  let merged ← from_.val.callbackCmd.elim (pure merged)
    (fun callbackCmd => replaceCallbackCmd merged (strdup callbackCmd))
  let disableds ← merged.val.disableds.putAllCloneFree cfgDisabledSpmap .merged
    from_.val.disableds.val.entries
  let merged := { merged with val := { merged.val with disableds := disableds } }
  let modes ← merged.val.modes.putAllCloneFree modeSpmap .merged from_.val.modes.val.entries
  let merged := { merged with val := { merged.val with modes := modes } }
  let scales ← merged.val.scales.putAllCloneFree .inPlace .merged from_.val.scales.val.entries
  let merged := { merged with val := { merged.val with scales := scales } }
  let transforms ← merged.val.transforms.putAllCloneFree .inPlace .merged
    from_.val.transforms.val.entries
  let merged := { merged with val := { merged.val with transforms := transforms } }
  let adaptiveSyncOff ← merged.val.adaptiveSyncOff.addAll from_.val.adaptiveSyncOff.val.vals
  let merged := { merged with val := { merged.val with adaptiveSyncOff := adaptiveSyncOff } }
  if from_.val.orderNameDesc.val.size > 0 then
    merged.val.orderNameDesc.free
    merged.write { merged.val with orderNameDesc := ssetClone from_.val.orderNameDesc }
  else
    pure merged

def cfgMergeDel (to_ from_ : Owned Holder CfgObject) : Heap (Owned Holder CfgObject) := do
  let merged ← cfgClone to_
  let disableds ← merged.val.disableds.removeInFree cfgDisabledSpmap
    from_.val.disableds.val.keys
  let merged := { merged with val := { merged.val with disableds := disableds } }
  let modes ← merged.val.modes.removeInFree modeSpmap from_.val.modes.val.keys
  let merged := { merged with val := { merged.val with modes := modes } }
  let scales ← merged.val.scales.removeInFree .inPlace from_.val.scales.val.keys
  let merged := { merged with val := { merged.val with scales := scales } }
  let transforms ← merged.val.transforms.removeInFree .inPlace from_.val.transforms.val.keys
  let merged := { merged with val := { merged.val with transforms := transforms } }
  let adaptiveSyncOff ← merged.val.adaptiveSyncOff.removeIn from_.val.adaptiveSyncOff.val.vals
  let merged := { merged with val := { merged.val with adaptiveSyncOff := adaptiveSyncOff } }
  from_.val.callbackCmd.elim (pure merged)
    (fun _ => replaceCallbackCmd merged ⟨.merged, ""⟩)

def cfgMergeToggle (to_ from_ : Owned Holder CfgObject) : Heap (Owned Holder CfgObject) := do
  let merged ← cfgClone to_
  let merged ← assignIf (from_.val.scaling = some .on) merged
    { merged.val with scaling := onOffInvert merged.val.scaling }
  let merged ← assignIf (from_.val.autoScale = some .on) merged
    { merged.val with autoScale := onOffInvert merged.val.autoScale }
  let adaptiveSyncOff ← from_.val.adaptiveSyncOff.val.vals.foldlM
    (fun set val => if set.val.contains val then set.remove val else set.add val)
    merged.val.adaptiveSyncOff
  let merged := { merged with val := { merged.val with adaptiveSyncOff := adaptiveSyncOff } }
  let disableds ← from_.val.disableds.val.entries.foldlM
    (fun disableds e => if disableds.val.contains e.1
      then disableds.removeFree cfgDisabledSpmap e.1
      else disableds.putCloneFree cfgDisabledSpmap .merged e)
    merged.val.disableds
  pure { merged with val := { merged.val with disableds := disableds } }

/-- An iterator frees every value that is there and invalid, and takes it out. -/
def cfgValidateFix (cfg : Owned Holder CfgObject) : Heap (Owned Holder CfgObject) := do
  let align := (Model.cfgValidateFix cfg.val.cfg).align
  let cfg ← assignIf (align ≠ cfg.val.align) cfg { cfg.val with align := align }
  let cfg ← assignIf (cfg.val.autoScaleDpi ≤ autoScaleDpiMin) cfg
    { cfg.val with autoScaleDpi := autoScaleDpiDefault }
  let modes ← cfg.val.modes.removeInFree modeSpmap
    (cfg.val.modes.val.filter (fun _ mode => modeIsInvalid mode.val)).keys
  pure { cfg with val := { cfg.val with modes := modes } }

def mergeBy (command : Option IpcCommand) (to_ from_ : Owned Holder CfgObject) :
    Heap (Option (Owned Holder CfgObject)) :=
  match command with
  | some .cfgDel => some <$> cfgMergeDel to_ from_
  | some .cfgToggle => some <$> cfgMergeToggle to_ from_
  | some .cfgSet => some <$> cfgMergeSet to_ from_
  | _ => pure none

/-- The result of the merge, freed again if it equals what it was merged into. -/
def cfgMerge (to_ : Owned Holder CfgObject) (from_ : Option (Owned Holder CfgObject))
    (command : Option IpcCommand) : Heap (Option (Owned Holder CfgObject)) :=
  match from_ with
  | none => pure none
  | some from_ => (mergeBy command to_ from_).andThen (fun merged => do
    let merged ← cfgValidateFix merged
    if cfgEqual merged.val.cfg to_.val.cfg then
      cfgFree merged
      pure none
    else
      pure (some merged))

end WayDisplays.Model.CfgHeap
