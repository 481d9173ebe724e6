/- Heads: name matching, scales, the choice of a mode, mode release and reapply. -/

import Mathlib.Data.List.Infix
import Mathlib.Data.Rat.Floor
import WayDisplays.Model.Cfg

set_option autoImplicit false
set_option relaxedAutoImplicit false

namespace WayDisplays.Model

open Lib (OrderedMap OrderedSet)

/-- What the C library and the Wayland headers provide: `regcomp` yields the matcher of a
pattern that compiles, `wlFixedFromDouble` the fixed point number nearest to a double. -/
class Platform where
  regcomp : String → Option (String → Bool)
  wlFixedFromDouble : ℚ → Int

/-- The compositor's handle of a head, `zwlr_output_head_v1`. -/
structure ZHead where
  id : Nat
  deriving DecidableEq, Repr, Inhabited

inductive AdaptiveSync
  | disabled | enabled
  deriving DecidableEq, Repr

@[ext] structure HeadState where
  zmode : Option ZMode
  scale : Int
  enabled : Bool
  x : Int
  y : Int
  transform : Transform
  adaptiveSync : AdaptiveSync
  deriving DecidableEq, Repr

structure Scaled where
  width : Int
  height : Int
  deriving DecidableEq, Repr

structure Head where
  modes : Modes
  /-- Moved out of `modes`. -/
  modesFailed : Modes
  /-- Key to `modes` or `modesFailed`. -/
  zmodePref : Option ZMode
  name : Option String
  description : Option String
  widthMm : Int
  heightMm : Int
  make : Option String
  model : Option String
  serialNumber : Option String
  scaled : Scaled
  cur : HeadState
  des : HeadState
  overridedEnabled : ManualOverride
  disabledConditionDesc : Option String
  reapplyRequired : Bool
  adaptiveSyncFailed : Bool
  warnedNoPreferred : Bool
  warnedNoMode : Bool

abbrev Heads := OrderedMap ZHead Head

def headStateInit : HeadState :=
  { zmode := none, scale := 0, enabled := false, x := 0, y := 0,
    transform := .normal, adaptiveSync := .disabled }

def headInit : Head :=
  { modes := .empty, modesFailed := .empty, zmodePref := none, name := none,
    description := none, widthMm := 0, heightMm := 0, make := none, model := none,
    serialNumber := none, scaled := ⟨0, 0⟩, cur := headStateInit, des := headStateInit,
    overridedEnabled := .noOverride, disabledConditionDesc := none, reapplyRequired := false,
    adaptiveSyncFailed := false, warnedNoPreferred := false, warnedNoMode := false }

def headDummyInit (head : Head) : Head :=
  { headInit with
    name := some (head.name.getD "???"), description := some (head.description.getD "???") }

/-! ### Mutation -/

def headReleaseMode (head : Head) (zmode : ZMode) : Head :=
  { head with
    modes := head.modes.remove zmode
    zmodePref := if head.zmodePref = some zmode then none else head.zmodePref
    cur := { head.cur with
      zmode := if head.cur.zmode = some zmode then none else head.cur.zmode }
    des := { head.des with
      zmode := if head.des.zmode = some zmode then none else head.des.zmode } }

/-- Strip every leading "(null) ", of which `fuel` bounds the number. -/
def stripNull : Nat → List Char → List Char
  | 0, cs => cs
  | fuel + 1, cs =>
    if "(null) ".toList.isPrefixOf cs then stripNull fuel (cs.drop 7) else cs

def headSetDescription (head : Head) (description : Option String) : Head :=
  { head with
    description := description.map
      (fun d => String.ofList (stripNull d.toList.length d.toList)) }

/-- Keep the first preferred mode while it and the new one are both available. -/
def headSetModePref (head : Head) (zmode : ZMode) : Head :=
  let modeCurPref := head.zmodePref.bind head.modes.get?
  let modeNewPref := head.modes.get? zmode
  if modeCurPref.isSome && modeNewPref.isSome && head.zmodePref != some zmode then head
  else { head with zmodePref := some zmode }

/-- Put the failed modes back, forget the current one and flag the head. -/
def headReapply (head : Head) : Head :=
  { head with
    modes := head.modes.putAll head.modesFailed.entries
    modesFailed := .empty
    reapplyRequired := true
    cur := { head.cur with zmode := none } }

def headsReapply (heads : Heads) : Heads := heads.mapVals (fun _ head => headReapply head)

/-! ### Difference between current and desired -/

def headCurrentNotDesired (head : Head) : Bool :=
  head.reapplyRequired || head.des.zmode != head.cur.zmode ||
    head.des.scale != head.cur.scale || head.des.enabled != head.cur.enabled ||
    head.des.x != head.cur.x || head.des.y != head.cur.y ||
    head.des.transform != head.cur.transform ||
    head.des.adaptiveSync != head.cur.adaptiveSync

def headCurrentModeNotDesired (head : Head) : Bool := head.des.zmode != head.cur.zmode

def headCurrentAdaptiveSyncNotDesired (head : Head) : Bool :=
  head.des.adaptiveSync != head.cur.adaptiveSync

def headReapplyRequired (head : Head) : Bool := head.reapplyRequired

section Matching

variable [Platform]

def regexMatches (string pattern : String) : Bool :=
  match Platform.regcomp pattern with
  | some matcher => matcher string
  | none => false

/-- Whether the needle occurs in the haystack, up to the case of ASCII letters. -/
def strcasestr (haystack needle : String) : Bool :=
  decide (needle.toList.map Char.toLower <:+: haystack.toList.map Char.toLower)

def headMatchesNameDescExact (head : Head) (nameDesc : String) : Bool :=
  head.name == some nameDesc || head.description == some nameDesc

/-- A leading `!` marks the rest of the name as a pattern. -/
def headMatchesNameDescRegex (head : Head) (nameDesc : String) : Bool :=
  match nameDesc.toList with
  | '!' :: c :: cs =>
    let pattern := String.ofList (c :: cs)
    head.name.any (fun name => regexMatches name pattern) ||
      head.description.any (fun description => regexMatches description pattern)
  | _ => false

def headMatchesNameDescFuzzy (head : Head) (nameDesc : String) : Bool :=
  nameDesc.toList.head? != some '!' &&
    (head.name.any (fun name => strcasestr name nameDesc) ||
      head.description.any (fun description => strcasestr description nameDesc))

def headMatchesNameDesc (head : Head) (nameDesc : String) : Bool :=
  headMatchesNameDescExact head nameDesc || headMatchesNameDescRegex head nameDesc ||
    headMatchesNameDescFuzzy head nameDesc

def headNameDescMatchesHead (nameDesc : String) (head : Head) : Bool :=
  headMatchesNameDesc head nameDesc

end Matching

/-! ### Scale -/

/-- `round`: to the nearest integer, halves away from zero. -/
def roundNearest (q : ℚ) : Int := if 0 ≤ q then ⌊q + 1 / 2⌋ else ⌈q - 1 / 2⌉

/-- Conversion of a double to an integer type: towards zero. -/
def truncate (q : ℚ) : Int := if 0 ≤ q then ⌊q⌋ else ⌈q⌉

def Cfg.scalingBase (cfg : Cfg) : Int :=
  if cfg.scaleRoundTo = 0 then scaleRoundToDefault else cfg.scaleRoundTo

def Cfg.dpiBase (cfg : Cfg) : Int :=
  if cfg.autoScaleDpi = 0 then autoScaleDpiDefault else cfg.autoScaleDpi

section Scale

variable [Platform]

/-- Quantise to multiples of the rounding base, in the direction of the strategy. -/
def headGetFixedScale (cfg : Cfg) (scale : ℚ) : Int :=
  let b := cfg.scalingBase
  let q : ℚ := (Platform.wlFixedFromDouble scale : ℚ) / 256 * b
  let rounded := match cfg.scaleRoundStrategy with
    | some .down => ⌊q⌋
    | some .up => ⌈q⌉
    | _ => roundNearest q
  truncate ((rounded : ℚ) * (256 / b))

def headAutoScale (cfg : Cfg) (head : Head) (min max : ℚ) : Int :=
  let scalingBase := cfg.scalingBase
  let dpiBase := cfg.dpiBase
  match head.des.zmode with
  | none => headGetFixedScale cfg 1
  | some zmode =>
    let dpi := modeDpi (head.modes.get? zmode) head.widthMm head.heightMm
    if dpi = 0 then headGetFixedScale cfg 1
    else
      let dpiStep := dpiBase.tdiv scalingBase
      let dpiMin := dpiStep * ⌈min * scalingBase⌉
      let dpiMax := dpiStep * truncate (max * scalingBase)
      let dpiMin := if dpiMin < dpiStep then dpiStep else dpiMin
      let dpiClamped : ℚ :=
        if dpi < dpiMin then dpiMin
        else if dpiMin ≤ dpiMax ∧ dpi > dpiMax then dpiMax
        else dpi
      headGetFixedScale cfg (dpiClamped / dpiBase)

/-- Scales as the Wayland headers convert them, where no name matches a pattern: the platform
of the runs on fixed inputs, which name no head like a laptop display. -/
abbrev plainPlatform : Platform :=
  { regcomp := fun _ => some (fun _ => false)
    wlFixedFromDouble := fun scale => roundNearest (scale * 256) }

end Scale

/-! ### Choice of a mode -/

/-- Flag a user mode as reported unavailable. -/
def Cfg.warnNoMode (cfg : Cfg) (key : String) : Cfg :=
  { cfg with modes := cfg.modes.modify key (fun m => { m with warnedNoMode := true }) }

/-- Match res/refresh or max, then the highest refresh of the preferred resolution. -/
def headUserMode (cfgMode : Mode) (modePref : Option ModeEntry) (modes : Modes) :
    Option ModeEntry :=
  match modeBestSatisfying cfgMode modes with
  | some mode => some mode
  | none =>
    match modePref with
    | some pref => if cfgMode.maxPreferredRefresh then modeMaxRefresh pref.2 modes else none
    | none => none

/-- The preferred mode, while it is available. -/
def headModePref (head : Head) : Option ModeEntry :=
  head.zmodePref.bind (fun zmode => (head.modes.get? zmode).map (fun mode => (zmode, mode)))

/-- The mode for a head, with the flags of what was reported on the way: a user mode that is
not available flags the configuration, the lack of a preferred one flags the head. -/
def headFindMode [Platform] (cfg : Cfg) (head : Head) : Cfg × Head × Option ZMode :=
  if head.modes.size = 0 then (cfg, head, none)
  else
    let modePref := headModePref head
    let cfgEntry := cfg.modes.find? (fun key _ => headNameDescMatchesHead key head)
    let mode := cfgEntry.bind (fun e => headUserMode e.2 modePref head.modes)
    let cfg := match cfgEntry, mode with
      | some (key, cfgMode), none => if cfgMode.warnedNoMode then cfg else cfg.warnNoMode key
      | _, _ => cfg
    let mode := mode.or modePref
    let head := if mode.isNone && !head.warnedNoPreferred
      then { head with warnedNoPreferred := true } else head
    let mode := mode.or (modeMax head.modes)
    (cfg, head, mode.map Prod.fst)

end WayDisplays.Model
