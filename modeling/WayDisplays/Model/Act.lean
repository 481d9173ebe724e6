/- The display, its compositor listeners and the staged application of changes. -/

import WayDisplays.Model.Desire

set_option autoImplicit false
set_option relaxedAutoImplicit false

namespace WayDisplays.Model

open Lib (OrderedMap)

inductive DisplState
  | idle | succeeded | outstanding | cancelled | failed
  deriving DecidableEq, Repr

/-- What the configuration in flight changes. A `Head` pointer is named by the handle it was
allocated for, and is valid while that handle is a key of the heads. -/
structure DisplDelta where
  element : Option CfgElement
  head : Option ZHead
  zmode : Option ZMode
  deriving DecidableEq, Repr

structure Displ where
  heads : Heads
  headsArrived : List ZHead
  headsDeparted : List Head
  state : DisplState
  delta : DisplDelta

/-- The globals of the server that are not about its clients. -/
structure Server where
  gCfg : Cfg
  gDispl : Displ
  gLid : Option Lid
  gCancellationRetries : Nat

/-- How an `act` stops short: the exit on failed changes, or the read of a freed head. -/
inductive Halt
  | exitFailure | useAfterFree
  deriving DecidableEq, Repr

def displDeltaNone : DisplDelta := { element := none, head := none, zmode := none }

def displInit : Displ :=
  { heads := .empty, headsArrived := [], headsDeparted := [], state := .idle,
    delta := displDeltaNone }

def displDeltaDestroy (displ : Displ) : Displ := { displ with delta := displDeltaNone }

def displAddHead (displ : Displ) (zhead : ZHead) : Displ :=
  { displ with
    heads := displ.heads.put zhead headInit
    headsArrived := displ.headsArrived ++ [zhead] }

/-- Remove and free a head, leaving a dummy to print. -/
def displFinishedHead (displ : Displ) (zhead : ZHead) : Displ :=
  match displ.heads.get? zhead with
  | none => displ
  | some head =>
    { displ with
      heads := displ.heads.remove zhead
      headsArrived := displ.headsArrived.erase zhead
      headsDeparted := displ.headsDeparted ++ [headDummyInit head] }

/-! ### Listeners -/

inductive HeadEvent
  | name (name : String)
  | description (description : String)
  | physicalSize (width height : Int)
  | mode (zmode : ZMode)
  | enabled (enabled : Bool)
  | currentMode (zmode : ZMode)
  | position (x y : Int)
  | transform (transform : Transform)
  | scale (scale : Int)
  | make (make : String)
  | model (model : String)
  | serialNumber (serialNumber : String)
  | adaptiveSync (state : AdaptiveSync)
  deriving DecidableEq

inductive ModeEvent
  | size (width height : Int)
  | refresh (refreshMhz : Int)
  | preferred
  | finished
  deriving DecidableEq

inductive Reply
  | succeeded | failed | cancelled
  deriving DecidableEq, Repr

/-- The events of the output management protocol; those of a mode reach the head whose
listener announced it. -/
inductive WlEvent
  | managerHead (zhead : ZHead)
  | head (zhead : ZHead) (event : HeadEvent)
  | headFinished (zhead : ZHead)
  | mode (zhead : ZHead) (zmode : ZMode) (event : ModeEvent)
  | configuration (reply : Reply)
  deriving DecidableEq

def headListener (head : Head) : HeadEvent → Head
  | .name name => { head with name := some name }
  | .description description => headSetDescription head (some description)
  | .physicalSize width height => { head with widthMm := width, heightMm := height }
  | .mode zmode => { head with modes := head.modes.put zmode modeInit }
  | .enabled enabled => { head with cur := { head.cur with enabled := enabled } }
  | .currentMode zmode => { head with cur := { head.cur with zmode := some zmode } }
  | .position x y => { head with cur := { head.cur with x := x, y := y } }
  | .transform transform => { head with cur := { head.cur with transform := transform } }
  | .scale scale => { head with cur := { head.cur with scale := scale } }
  | .make make => { head with make := some make }
  | .model model => { head with model := some model }
  | .serialNumber serialNumber => { head with serialNumber := some serialNumber }
  | .adaptiveSync state => { head with cur := { head.cur with adaptiveSync := state } }

def modeListener (head : Head) (zmode : ZMode) : ModeEvent → Head
  | .size width height =>
    { head with
      modes := head.modes.modify zmode (fun m => { m with width := width, height := height }) }
  | .refresh refreshMhz =>
    { head with
      modes := head.modes.modify zmode (fun m => { m with refreshMhz := refreshMhz }) }
  | .preferred => headSetModePref head zmode
  | .finished => headReleaseMode head zmode

def Reply.state : Reply → DisplState
  | .succeeded => .succeeded
  | .failed => .failed
  | .cancelled => .cancelled

/-- Dispatch of one event to its listener. -/
def displListener (displ : Displ) : WlEvent → Displ
  | .managerHead zhead => displAddHead displ zhead
  | .head zhead event =>
    { displ with heads := displ.heads.modify zhead (fun head => headListener head event) }
  | .headFinished zhead => displFinishedHead displ zhead
  | .mode zhead zmode event =>
    { displ with heads := displ.heads.modify zhead (fun head => modeListener head zmode event) }
  | .configuration reply => { displ with state := reply.state }

/-! ### Configurations sent to the compositor -/

inductive HeadChange
  | setMode (zmode : Option ZMode)
  | setAdaptiveSync (state : AdaptiveSync)
  | setScale (scale : Int)
  | setPosition (x y : Int)
  | setTransform (transform : Transform)
  deriving DecidableEq, Repr

inductive HeadConfig
  | disable
  | enable (changes : List HeadChange)
  deriving DecidableEq, Repr

/-- The requests made of one configuration object, in order. -/
abbrev Configuration := List (ZHead × HeadConfig)

def headConfig (head : Head) : HeadConfig :=
  if head.des.enabled then
    .enable [.setScale head.des.scale, .setPosition head.des.x head.des.y,
      .setTransform head.des.transform]
  else .disable

/-- Apply one change, in stages: a reapply, a mode, an adaptive sync, then all the rest. -/
def actApply (displ : Displ) : Displ × Option Configuration :=
  let displ := displDeltaDestroy displ
  let headsChanging := displ.heads.filter (fun _ head => headCurrentNotDesired head)
  if headsChanging.size = 0 then (displ, none)
  else
    let displ := { displ with state := .outstanding }
    match headsChanging.find? (fun _ head => headReapplyRequired head) with
    | some (zhead, _) =>
      ({ displ with
          delta := { element := none, head := some zhead, zmode := none }
          heads := displ.heads.modify zhead (fun head => { head with reapplyRequired := false }) },
        some [(zhead, .disable)])
    | none =>
      match headsChanging.find? (fun _ head => headCurrentModeNotDesired head) with
      | some (zhead, head) =>
        ({ displ with
            delta := { element := some .mode, head := some zhead, zmode := head.des.zmode } },
          some [(zhead, .enable [.setMode head.des.zmode])])
      | none =>
        match headsChanging.find? (fun _ head => headCurrentAdaptiveSyncNotDesired head) with
        | some (zhead, head) =>
          ({ displ with
              delta := { element := some .vrrOff, head := some zhead, zmode := none } },
            some [(zhead, .enable [.setAdaptiveSync head.des.adaptiveSync])])
        | none =>
          ({ displ with delta := displDeltaNone },
            some (headsChanging.mapVals (fun _ head => headConfig head)).entries)

/-! ### The outcome of a configuration -/

def maxCancellationRetries : Nat := 5

/-- Read the head a delta points to. -/
def derefHead (displ : Displ) (zhead : ZHead) : Except Halt Head :=
  match displ.heads.get? zhead with
  | some head => .ok head
  | none => .error .useAfterFree

/-- Move the mode to the failed ones; the current mode may be misreported. -/
def headFailMode (head : Head) (zmode : Option ZMode) : Head :=
  { head with
    modes := match zmode with
      | some z => head.modes.remove z
      | none => head.modes
    modesFailed := match zmode with
      | some z => match head.modes.get? z with
        | some mode => head.modesFailed.put z mode
        | none => head.modesFailed
      | none => head.modesFailed
    cur := { head.cur with zmode := none } }

def actHandleFailure (displ : Displ) : Except Halt Displ := do
  match displ.delta.element with
  | some .mode =>
    match displ.delta.head with
    | none => .ok (displDeltaDestroy displ)
    | some zhead =>
      let head ← derefHead displ zhead
      let heads := displ.heads.put zhead (headFailMode head displ.delta.zmode)
      .ok (displDeltaDestroy { displ with heads := heads })
  | some .vrrOff =>
    match displ.delta.head with
    | none => .ok (displDeltaDestroy displ)
    | some zhead =>
      let head ← derefHead displ zhead
      -- river reports adaptive sync failure as failure
      let heads := if headCurrentAdaptiveSyncNotDesired head
        then displ.heads.put zhead { head with adaptiveSyncFailed := true } else displ.heads
      .ok (displDeltaDestroy { displ with heads := heads })
  | _ => .error .exitFailure

def actHandleSuccess (displ : Displ) : Except Halt Displ := do
  match displ.delta.head with
  | none => .ok (displDeltaDestroy displ)
  | some zhead =>
    match displ.delta.element with
    | some .mode =>
      -- successful mode change is not always reported
      let head ← derefHead displ zhead
      let heads := displ.heads.put zhead
        { head with cur := { head.cur with zmode := displ.delta.zmode } }
      .ok (displDeltaDestroy { displ with heads := heads })
    | some .vrrOff =>
      -- sway reports adaptive sync failure as success
      let head ← derefHead displ zhead
      if headCurrentAdaptiveSyncNotDesired head then actHandleFailure displ
      else .ok (displDeltaDestroy displ)
    | _ => .ok (displDeltaDestroy displ)

/-- Desire afresh and apply what differs. -/
def desireApply [Platform] (s : Server) : Server × Option Configuration :=
  let (cfg, heads) := desire s.gCfg s.gLid s.gDispl.heads
  let (displ, configuration) := actApply { s.gDispl with heads := heads }
  ({ s with gCfg := cfg, gDispl := displ }, configuration)

/-- One call of `act`: the server after it and the configuration it applied, if any. -/
def act [Platform] (s : Server) : Except Halt (Server × Option Configuration) := do
  let displ := { s.gDispl with headsArrived := [], headsDeparted := [] }
  let s := { s with gDispl := displ }
  match displ.state with
  | .succeeded =>
    let displ ← actHandleSuccess displ
    .ok (desireApply
      { s with gDispl := { displ with state := .idle }, gCancellationRetries := 0 })
  | .outstanding => .ok (s, none)
  | .failed =>
    let displ ← actHandleFailure displ
    .ok (desireApply { s with gDispl := { displ with state := .idle } })
  | .cancelled =>
    let s := { s with
      gDispl := { displ with state := .idle }
      gCancellationRetries := s.gCancellationRetries + 1 }
    if s.gCancellationRetries ≤ maxCancellationRetries then .ok (desireApply s) else .ok (s, none)
  | .idle => .ok (desireApply s)

end WayDisplays.Model
