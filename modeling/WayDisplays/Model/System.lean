/- The server against a compositor that follows the output management protocol. -/

import WayDisplays.Lib.Run
import WayDisplays.Model.CfgMerge

set_option autoImplicit false
set_option relaxedAutoImplicit false

namespace WayDisplays.Model

open Lib (OrderedMap)

/-- A mode as the compositor described it, for the head that has it. -/
structure AnnouncedMode where
  zhead : ZHead
  mode : Mode
  finished : Bool
  deriving DecidableEq

/-- The compositor's side: live and departed heads, the modes it announced and the
configuration it has yet to answer. -/
structure Compositor where
  heads : List ZHead
  departed : List ZHead
  modes : OrderedMap ZMode AnnouncedMode
  outstanding : Option Configuration

def compositorInit : Compositor :=
  { heads := [], departed := [], modes := .empty, outstanding := none }

/-- A mode of a live head that has not finished. -/
def Compositor.hasMode (c : Compositor) (zhead : ZHead) (zmode : ZMode) : Bool :=
  decide (zhead ∈ c.heads) &&
    (c.modes.get? zmode).any (fun a => a.zhead == zhead && !a.finished)

/-- Handles are never used twice, events reach live objects, and an answer needs a
configuration to answer. -/
def Compositor.admits (c : Compositor) : WlEvent → Bool
  | .managerHead zhead => decide (zhead ∉ c.heads) && decide (zhead ∉ c.departed)
  | .head zhead (.mode zmode) => decide (zhead ∈ c.heads) && (c.modes.get? zmode).isNone
  | .head zhead (.currentMode zmode) => c.hasMode zhead zmode
  | .head zhead _ => decide (zhead ∈ c.heads)
  | .headFinished zhead => decide (zhead ∈ c.heads)
  | .mode zhead zmode _ => c.hasMode zhead zmode
  | .configuration _ => c.outstanding.isSome

def AnnouncedMode.update (a : AnnouncedMode) : ModeEvent → AnnouncedMode
  | .size width height => { a with mode := { a.mode with width := width, height := height } }
  | .refresh refreshMhz => { a with mode := { a.mode with refreshMhz := refreshMhz } }
  | .preferred => a
  | .finished => { a with finished := true }

/-- The compositor after it sent an event. -/
def Compositor.sends (c : Compositor) : WlEvent → Compositor
  | .managerHead zhead => { c with heads := c.heads ++ [zhead] }
  | .head zhead (.mode zmode) =>
    { c with modes := c.modes.put zmode ⟨zhead, modeInit, false⟩ }
  | .head _ _ => c
  | .headFinished zhead =>
    { c with heads := c.heads.erase zhead, departed := c.departed ++ [zhead] }
  | .mode _ zmode event => { c with modes := c.modes.modify zmode (fun a => a.update event) }
  | .configuration _ => { c with outstanding := none }

def Compositor.receives (c : Compositor) (configuration : Option Configuration) : Compositor :=
  { c with outstanding := configuration.or c.outstanding }

/-- What may happen between two waits for events, in any order. -/
inductive Event
  | dispatch (event : WlEvent)
  | act
  | request (request : IpcRequest)
  | reload (cfg : Cfg)
  | lid (closed : Bool)

structure System where
  server : Server
  compositor : Compositor
  halted : Option Halt

def systemInit (cfg : Cfg) (lid : Option Lid) : System :=
  { server := { gCfg := cfg, gDispl := displInit, gLid := lid, gCancellationRetries := 0 }
    compositor := compositorInit
    halted := none }

/-- A lid is looked for once, unless the configuration read at startup is not to monitor it. -/
def gLidInit (gCfg : Cfg) (device : Option Lid) : Option Lid :=
  if gCfg.laptopLidMonitor = some .off then none else device

/-- The lid is followed only while it is monitored. -/
def gLidUpdate (s : Server) (closed : Bool) : Server :=
  if s.gCfg.laptopLidMonitor = some .on then { s with gLid := s.gLid.map (fun _ => ⟨closed⟩) }
  else s

theorem gLidUpdate_gDispl (s : Server) (closed : Bool) :
    (gLidUpdate s closed).gDispl = s.gDispl := by
  unfold gLidUpdate
  split <;> rfl

def System.dispatch (sys : System) (event : WlEvent) : System :=
  { sys with
    server := { sys.server with gDispl := displListener sys.server.gDispl event }
    compositor := sys.compositor.sends event }

variable [Platform]

def System.act (sys : System) : System :=
  match Model.act sys.server with
  | .error halt => { sys with halted := some halt }
  | .ok (server, configuration) =>
    { sys with server := server, compositor := sys.compositor.receives configuration }

/-- No step is taken once halted, nor an event that the protocol does not admit. -/
def System.step (sys : System) (event : Event) : Option System :=
  if sys.halted.isSome then none
  else match event with
    | .dispatch event =>
      if sys.compositor.admits event then some (sys.dispatch event) else none
    | .act => some sys.act
    | .request request => some { sys with server := (serverRequest sys.server request).1 }
    | .reload cfg => some { sys with server := { sys.server with gCfg := cfg } }
    | .lid closed => some { sys with server := gLidUpdate sys.server closed }

/-- The configuration a step sends. -/
def System.sent (sys : System) : Event → List Configuration
  | .act => match Model.act sys.server with
    | .ok (_, some configuration) => [configuration]
    | _ => []
  | _ => []

abbrev System.Reachable (cfg : Cfg) (lid : Option Lid) (sys : System) : Prop :=
  Lib.Run.Reachable System.step (systemInit cfg lid) sys

theorem System.step_dispatch {sys sys' : System} {event : WlEvent}
    (h : sys.step (.dispatch event) = some sys') :
    sys.compositor.admits event = true ∧ sys' = sys.dispatch event := by
  simp only [System.step] at h
  split at h
  · exact absurd h (by simp)
  · split at h
    · rename_i hadmits
      exact ⟨hadmits, (Option.some.inj h).symm⟩
    · exact absurd h (by simp)

theorem System.not_halted {sys sys' : System} {event : Event}
    (h : sys.step event = some sys') : sys.halted = none := by
  simp only [System.step] at h
  split at h
  · exact absurd h (by simp)
  · rename_i hhalted
    simpa using hhalted

theorem System.step_act {sys sys' : System} (h : sys.step .act = some sys') :
    sys' = sys.act := by
  simpa [System.step, System.not_halted h] using h.symm

theorem System.step_request {sys sys' : System} {request : IpcRequest}
    (h : sys.step (.request request) = some sys') :
    sys' = { sys with server := (serverRequest sys.server request).1 } := by
  simpa [System.step, System.not_halted h] using h.symm

theorem System.step_reload {sys sys' : System} {cfg : Cfg}
    (h : sys.step (.reload cfg) = some sys') :
    sys' = { sys with server := { sys.server with gCfg := cfg } } := by
  simpa [System.step, System.not_halted h] using h.symm

theorem System.step_lid {sys sys' : System} {closed : Bool}
    (h : sys.step (.lid closed) = some sys') :
    sys' = { sys with server := gLidUpdate sys.server closed } := by
  simpa [System.step, System.not_halted h] using h.symm

end WayDisplays.Model
