/- The desired state of every head, computed afresh from the configuration and the lid. -/

import WayDisplays.Model.Head

set_option autoImplicit false
set_option relaxedAutoImplicit false

namespace WayDisplays.Model

open Lib (OrderedMap OrderedSet)

variable [Platform]

/-! ### Conditions -/

/-- Every subcondition holds; `failLidClosed` fails the closed lid whatever its position. -/
def cfgConditionMet (heads : Heads) (lid : Option Lid) (failLidClosed : Bool)
    (condition : CfgCondition) : Bool :=
  condition.plugged.vals.all
      (fun nameDesc => (heads.find? (fun _ head => headMatchesNameDesc head nameDesc)).isSome) &&
    condition.unplugged.vals.all
      (fun nameDesc => (heads.find? (fun _ head => headMatchesNameDesc head nameDesc)).isNone) &&
    match condition.lid with
    | some .closed => !failLidClosed && lid.any (fun l => l.closed)
    | some .open => lid.any (fun l => !l.closed)
    | some .notPresent => lid.isNone
    | none => true

omit [Platform] in
/-- The subconditions joined by AND, `none` when there are none. -/
def cfgConditionStr (condition : CfgCondition) : Option String :=
  let parts := condition.plugged.vals.map (fun val => val ++ " plugged") ++
    condition.unplugged.vals.map (fun val => val ++ " unplugged") ++
    match condition.lid with
    | some .closed => ["lid closed"]
    | some .open => ["lid open"]
    | some .notPresent => ["lid not present"]
    | none => []
  if parts.isEmpty then none else some (String.intercalate " AND " parts)

/-- Whether one of the entries applies, with the description of the condition that is met. -/
def cfgDisabledAppliesToHead (heads : Heads) (lid : Option Lid) (disableds : Disableds)
    (head : Head) (failLidClosed : Bool) : Head × Bool :=
  let applies : Option (Option String) := disableds.entries.findSome? (fun e =>
    if headNameDescMatchesHead e.1 head then
      if e.2.conditions.size = 0 then some none
      else (e.2.conditions.vals.find? (cfgConditionMet heads lid failLidClosed)).map
        cfgConditionStr
    else none)
  ({ head with disabledConditionDesc := applies.join }, applies.isSome)

/-! ### Steps of one head -/

def desireEnabled (cfg : Cfg) (lid : Option Lid) (heads : Heads) (head : Head) : Head :=
  let (head, disabled) :=
    cfgDisabledAppliesToHead heads lid cfg.disableds head (decide (heads.size = 1))
  let enabled := !disabled
  let overridedEnabled :=
    if head.overridedEnabled ≠ .noOverride ∧
        enabled = decide (head.overridedEnabled = .overrideTrue)
    then ManualOverride.noOverride else head.overridedEnabled
  let desEnabled := match overridedEnabled with
    | .noOverride => enabled
    | .overrideTrue => true
    | .overrideFalse => false
  { head with
    overridedEnabled := overridedEnabled
    des := { head.des with enabled := desEnabled } }

def desireMode (cfg : Cfg) (head : Head) : Cfg × Head :=
  if !head.des.enabled then (cfg, head)
  else
    match headFindMode cfg head with
    | (cfg, head, some zmode) => (cfg, { head with des := { head.des with zmode := some zmode } })
    | (cfg, head, none) =>
      (cfg, { head with warnedNoMode := true, des := { head.des with enabled := false } })

def desireScale (cfg : Cfg) (head : Head) : Head :=
  if !head.des.enabled then head
  else
    let scale :=
      if cfg.scaling = some .off then headGetFixedScale cfg 1
      else
        match cfg.scales.find? (fun key _ => headNameDescMatchesHead key head) with
        | some (_, milliscale) => headGetFixedScale cfg ((milliscale : ℚ) / 1000)
        | none =>
          if cfg.autoScale = some .on then
            -- what is no number is converted to the least `long`, which bounds nothing
            headAutoScale cfg head (cfg.autoScaleMin.numberOr 0) (cfg.autoScaleMax.numberOr 0)
          else headGetFixedScale cfg 1
    { head with des := { head.des with scale := scale } }

def desireTransform (cfg : Cfg) (head : Head) : Head :=
  if !head.des.enabled then head
  else
    let transform :=
      match cfg.transforms.find? (fun key _ => headNameDescMatchesHead key head) with
      | some (_, transform) => transform
      | none => .normal
    { head with des := { head.des with transform := transform } }

def desireAdaptiveSync (cfg : Cfg) (head : Head) : Head :=
  if !head.des.enabled then head
  else if head.adaptiveSyncFailed then head
  else
    let off := cfg.adaptiveSyncOff.vals.any
      (fun nameDesc => headNameDescMatchesHead nameDesc head)
    { head with
      des := { head.des with adaptiveSync := if off then .disabled else .enabled } }

omit [Platform] in
/-- A length in pixels over the desired scale, by way of the rounding base. -/
def desiredScaledLength (cfg : Cfg) (head : Head) (length : Int) : Int :=
  let b := cfg.scalingBase
  let f := truncate ((head.des.scale : ℚ) / 256 * b + 1 / 2)
  ⌊(length : ℚ) * b / f⌋

omit [Platform] in
def desireScaledDimensions (cfg : Cfg) (head : Head) : Head :=
  if head.des.scale = 0 then head
  else
    match head.des.zmode.bind head.modes.get? with
    | none => head
    | some modeDes =>
      let (width, height) := if head.des.transform.val % 2 = 0
        then (modeDes.width, modeDes.height) else (modeDes.height, modeDes.width)
      { head with
        scaled := ⟨desiredScaledLength cfg head width, desiredScaledLength cfg head height⟩ }

omit [Platform] in
def desireReapply (head : Head) : Head :=
  if head.reapplyRequired then { head with des := { head.des with enabled := false } } else head

def desireHead (lid : Option Lid) (cfg : Cfg) (heads : Heads) (head : Head) : Cfg × Head :=
  let head := { head with des := head.cur }
  let head := desireEnabled cfg lid heads head
  let (cfg, head) := desireMode cfg head
  let head := desireScale cfg head
  let head := desireTransform cfg head
  let head := desireAdaptiveSync cfg head
  let head := desireScaledDimensions cfg head
  (cfg, desireReapply head)

/-! ### Order and positions -/

omit [Platform] in
/-- Move the candidates that match a bucket's key to the end of the bucket. -/
def fillOrderBuckets (pred : Head → String → Bool) :
    List (String × List ZHead) → List (ZHead × Head) →
      List (String × List ZHead) × List (ZHead × Head)
  | [], candidates => ([], candidates)
  | (key, val) :: buckets, candidates =>
    let matching := candidates.filter (fun c => pred c.2 key)
    let remaining := candidates.filter (fun c => !pred c.2 key)
    let (buckets, remaining) := fillOrderBuckets pred buckets remaining
    ((key, val ++ matching.map Prod.fst) :: buckets, remaining)

/-- Exact, then regex, then fuzzy matches of each name, then the heads that match none. -/
def desireOrder (orderNameDesc : Sset) (heads : Heads) : List ZHead :=
  let buckets := orderNameDesc.vals.map (fun nameDesc => (nameDesc, ([] : List ZHead)))
  let candidates := heads.entries
  let (buckets, candidates) := fillOrderBuckets headMatchesNameDescExact buckets candidates
  let (buckets, candidates) := fillOrderBuckets headMatchesNameDescRegex buckets candidates
  let (buckets, candidates) := fillOrderBuckets headMatchesNameDescFuzzy buckets candidates
  (buckets.map Prod.snd).flatten ++ candidates.map Prod.fst

omit [Platform] in
/-- Heads without a desired mode, or desired disabled, take no place. -/
def headPlaced (head : Head) : Bool := head.des.zmode.isSome && head.des.enabled

omit [Platform] in
/-- The position of one head when the next free place is `x, y`, with the place after it. -/
def desirePosition (cfg : Cfg) (tallest widest : Int) (place : Int × Int) (head : Head) :
    (Int × Int) × Head :=
  if !headPlaced head then (place, head)
  else
    match cfg.arrange with
    | some .col =>
      -- the half pixel of MIDDLE is added before the double is truncated
      let x := match cfg.align with
        | some .right => widest - head.scaled.width
        | some .middle => truncate (((widest - head.scaled.width : Int) : ℚ) / 2 + 1 / 2)
        | _ => 0
      ((place.1, place.2 + head.scaled.height),
        { head with des := { head.des with x := x, y := place.2 } })
    | _ =>
      let y := match cfg.align with
        | some .bottom => tallest - head.scaled.height
        | some .middle => truncate (((tallest - head.scaled.height : Int) : ℚ) / 2 + 1 / 2)
        | _ => 0
      ((place.1 + head.scaled.width, place.2),
        { head with des := { head.des with x := place.1, y := y } })

omit [Platform] in
def greatestPlaced (measure : Head → Int) (headsSorted : List ZHead) (heads : Heads) : Int :=
  (headsSorted.filterMap heads.get?).foldl
    (fun best head => if headPlaced head && measure head > best then measure head else best) 0

omit [Platform] in
def desirePositions (cfg : Cfg) (headsSorted : List ZHead) (heads : Heads) : Heads :=
  let tallest := greatestPlaced (fun head => head.scaled.height) headsSorted heads
  let widest := greatestPlaced (fun head => head.scaled.width) headsSorted heads
  (OrderedMap.forEach (fun place _ head => desirePosition cfg tallest widest place head)
    headsSorted (0, 0) heads).2

def desire (cfg : Cfg) (lid : Option Lid) (heads : Heads) : Cfg × Heads :=
  let (cfg, heads) := OrderedMap.forEach (desireHead lid) heads.keys cfg heads
  (cfg, desirePositions cfg (desireOrder cfg.orderNameDesc heads) heads)

end WayDisplays.Model
