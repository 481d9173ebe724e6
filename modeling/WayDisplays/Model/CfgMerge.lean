/- Requests of clients: manual overrides, the merge of configurations and its validation. -/

import WayDisplays.Model.Act

set_option autoImplicit false
set_option relaxedAutoImplicit false

namespace WayDisplays.Model

open Lib (OrderedMap OrderedSet)

inductive IpcCommand
  | get | list | reapply | cfgSet | cfgDel | cfgWrite | cfgToggle
  deriving DecidableEq, Repr

/-- A request as the server holds it: no command stands for the zero of a rejected message. -/
structure IpcRequest where
  command : Option IpcCommand
  logThreshold : Option LogThreshold
  cfg : Option Cfg
  bad : Bool

def ipcRequestInit (command : Option IpcCommand) : IpcRequest :=
  { command := command, logThreshold := none, cfg := none, bad := false }

/-! ### Validation -/

def modeIsInvalid (mode : Mode) : Bool :=
  if mode.width ≠ -1 ∧ mode.width ≤ 0 then true
  else if mode.height ≠ -1 ∧ mode.height ≤ 0 then true
  else if mode.refreshMhz ≠ -1 ∧ mode.refreshMhz ≤ 0 then true
  else if !mode.max && !mode.maxPreferredRefresh then
    mode.width == -1 || mode.height == -1
  else false

def autoScaleDpiMin : Int := scaleRoundToDefault

/-- Replace an alignment that does not suit the arrangement, a DPI too low and bad modes. -/
def cfgValidateFix (cfg : Cfg) : Cfg :=
  { cfg with
    align := match cfg.arrange with
      | some .col =>
        if cfg.align = some .left ∨ cfg.align = some .middle ∨ cfg.align = some .right
        then cfg.align else some .left
      | _ =>
        if cfg.align = some .top ∨ cfg.align = some .middle ∨ cfg.align = some .bottom
        then cfg.align else some .top
    autoScaleDpi := if cfg.autoScaleDpi ≤ autoScaleDpiMin then autoScaleDpiDefault
      else cfg.autoScaleDpi
    modes := cfg.modes.filter (fun _ mode => !modeIsInvalid mode) }

/-! ### Merge -/

/-- Only the elements that a client may set. -/
def cfgMergeSet (to_ from_ : Cfg) : Cfg :=
  { to_ with
    align := from_.align.or to_.align
    arrange := from_.arrange.or to_.arrange
    autoScale := from_.autoScale.or to_.autoScale
    scaling := from_.scaling.or to_.scaling
    callbackCmd := from_.callbackCmd.or to_.callbackCmd
    disableds := to_.disableds.putAll from_.disableds.entries
    modes := to_.modes.putAll from_.modes.entries
    scales := to_.scales.putAll from_.scales.entries
    transforms := to_.transforms.putAll from_.transforms.entries
    adaptiveSyncOff := to_.adaptiveSyncOff.addAll from_.adaptiveSyncOff
    orderNameDesc :=
      if from_.orderNameDesc.size > 0 then from_.orderNameDesc else to_.orderNameDesc }

def cfgMergeDel (to_ from_ : Cfg) : Cfg :=
  { to_ with
    disableds := to_.disableds.removeAll from_.disableds.keys
    modes := to_.modes.removeAll from_.modes.keys
    scales := to_.scales.removeAll from_.scales.keys
    transforms := to_.transforms.removeAll from_.transforms.keys
    adaptiveSyncOff := to_.adaptiveSyncOff.removeIn from_.adaptiveSyncOff
    callbackCmd := from_.callbackCmd.elim to_.callbackCmd (fun _ => some "") }

def onOffInvert (val : Option OnOff) : Option OnOff :=
  if val = some .on then some .off else some .on

/-- The request passes ON for what is to be inverted, whatever its state. -/
def cfgMergeToggle (to_ from_ : Cfg) : Cfg :=
  { to_ with
    scaling := if from_.scaling = some .on then onOffInvert to_.scaling else to_.scaling
    autoScale := if from_.autoScale = some .on then onOffInvert to_.autoScale else to_.autoScale
    adaptiveSyncOff := from_.adaptiveSyncOff.vals.foldl
      (fun set val => if set.contains val then set.remove val else set.add val)
      to_.adaptiveSyncOff
    disableds := from_.disableds.entries.foldl
      (fun disableds e => if disableds.contains e.1 then disableds.remove e.1
        else disableds.put e.1 e.2)
      to_.disableds }

/-- The merged configuration, unless it equals the one it was merged into. -/
def cfgMerge (to_ : Cfg) (from_ : Option Cfg) (command : Option IpcCommand) : Option Cfg :=
  let merged := from_.bind (fun from_ => match command with
    | some .cfgDel => some (cfgMergeDel to_ from_)
    | some .cfgToggle => some (cfgMergeToggle to_ from_)
    | some .cfgSet => some (cfgMergeSet to_ from_)
    | _ => none)
  (merged.map cfgValidateFix).bind (fun merged => if cfgEqual merged to_ then none else some merged)

/-! ### Overrides -/

/-- Set an override against the current state, or reset the one there is. -/
def headApplyDisabledToggle (head : Head) : Head :=
  { head with
    overridedEnabled :=
      if head.overridedEnabled = .noOverride then
        if head.cur.enabled then .overrideFalse else .overrideTrue
      else .noOverride }

section Matching

variable [Platform]

def cfgDisabledConditionallyForHead (nameDesc : String) (disabled : CfgDisabled)
    (head : Head) : Bool :=
  decide (disabled.conditions.size > 0) && headMatchesNameDesc head nameDesc

/-- Apply a request to a head that a condition may disable, with the entries it used up. -/
def headOverrideIpcDisableds (gCfg : Cfg) (head : Head) (request : IpcRequest) :
    Head × Disableds :=
  match request.cfg with
  | none => (head, .empty)
  | some cfg =>
    let req := cfg.disableds.filter (fun key _ => headNameDescMatchesHead key head)
    let active := gCfg.disableds.filter
      (fun key disabled => cfgDisabledConditionallyForHead key disabled head)
    -- the nested loops record an entry of either side once the other has one too
    let disabledsReq := if active.size > 0 then req else .empty
    let disabledsCfg := if req.size > 0 then active else .empty
    let head :=
      if disabledsCfg.size > 0 then
        match request.command with
        | some .cfgToggle => headApplyDisabledToggle head
        | some .cfgDel => if !head.cur.enabled then headApplyDisabledToggle head else head
        | some .cfgSet => if head.cur.enabled then headApplyDisabledToggle head else head
        | _ => head
      else head
    (head, disabledsReq)

def cfgDisabledCondWithNameDesc (a : String) (aDisabled : CfgDisabled) (b : String) : Bool :=
  if aDisabled.conditions.size = 0 then false
  else if strcasestr a b || strcasestr b a then true
  else if decide (a.utf8ByteSize > 2) && a.toList.head? == some '!' &&
      regexMatches b (String.ofList (a.toList.drop 1)) then true
  else decide (b.utf8ByteSize > 2) && b.toList.head? == some '!' &&
    regexMatches a (String.ofList (b.toList.drop 1))

/-- Drop the requested entries that clash with a conditional one of the configuration. -/
def cfgDisabledFilterConditionalClashes (gCfg : Cfg) (disableds : Disableds) : Disableds :=
  disableds.filter (fun key _ =>
    !gCfg.disableds.entries.any (fun e => cfgDisabledCondWithNameDesc e.1 e.2 key))

/-- Carry out the disabled entries as overrides where conditions are in play; the request
keeps the others. -/
def ipcRequestFilter (gCfg : Cfg) (heads : Heads) (request : IpcRequest) :
    Heads × IpcRequest :=
  match request.cfg with
  | none => (heads, request)
  | some cfg =>
    let allOverridden := heads.entries.foldl
      (fun (all : Disableds) e => all.putAll (headOverrideIpcDisableds gCfg e.2 request).2.entries)
      .empty
    let disableds := cfg.disableds.removeAll allOverridden.keys
    (heads.mapVals (fun _ head => (headOverrideIpcDisableds gCfg head request).1),
      { request with
        cfg := some { cfg with disableds := cfgDisabledFilterConditionalClashes gCfg disableds } })

end Matching

/-! ### Processing -/

/-- Carry out a request; the result is whether it is complete. -/
def gCfgProcessIpcRequest (s : Server) (request : IpcRequest) : Server × Bool :=
  match request.command with
  | some .cfgDel | some .cfgSet | some .cfgToggle =>
    match cfgMerge s.gCfg request.cfg request.command with
    | some cfgMerged => ({ s with gCfg := cfgMerged }, false)
    | none => (s, true)
  | some .reapply =>
    ({ s with gDispl := { s.gDispl with heads := headsReapply s.gDispl.heads } }, false)
  | some .cfgWrite | some .list | some .get | none => (s, true)

/-- Filter and process, as the server does with every request it executes. -/
def serverRequest [Platform] (s : Server) (request : IpcRequest) : Server × Bool :=
  let (heads, request) := ipcRequestFilter s.gCfg s.gDispl.heads request
  gCfgProcessIpcRequest { s with gDispl := { s.gDispl with heads := heads } } request

end WayDisplays.Model
