/- The loop of the server: connections of clients, the operation in progress, `act`. -/

import WayDisplays.Model.Ipc
import WayDisplays.Model.System

set_option autoImplicit false
set_option relaxedAutoImplicit false

namespace WayDisplays.Model

open Lib (OrderedMap)

/-- The open sockets with the connections behind them, numbered as they were accepted. -/
structure Sockets where
  connections : OrderedMap Nat Nat
  accepted : Nat

def socketsInit : Sockets := { connections := .empty, accepted := 0 }

def Sockets.accept (sockets : Sockets) (socket : Nat) : Sockets :=
  { connections := sockets.connections.put socket sockets.accepted
    accepted := sockets.accepted + 1 }

def Sockets.close (sockets : Sockets) (socket : Nat) : Sockets :=
  { sockets with connections := sockets.connections.remove socket }

/-- Who is at the other end of a socket, if it is a client at all. -/
def Sockets.peer (sockets : Sockets) (socket : Nat) : Option Nat :=
  sockets.connections.get? socket

/-- What passes between the server and its clients. -/
inductive Io
  | received (connection : Nat) (yaml : String)
  | answered (peer : Option Nat) (response : IpcResponse) (delivery : Delivery)
  | closed (peer : Option Nat)

/-- What `accept` and the read after it yield; a message that is read is not empty. -/
inductive Arrival
  | failed (logged : List LogCapLine)
  | unread (socket : Nat) (logged : List LogCapLine)
  | message (socket : Nat) (yaml : String)

/-- The descriptor of the connection, once it is accepted. -/
def Arrival.socket : Arrival → Option Nat
  | .failed _ => none
  | .unread socket _ | .message socket _ => some socket

structure Loop where
  system : System
  ipcOperation : Option IpcOperation
  sockets : Sockets

def loopInit (cfg : Cfg) (lid : Option Lid) : Loop :=
  { system := systemInit cfg lid, ipcOperation := none, sockets := socketsInit }

/-- The operation in progress is the only one that captures. -/
def Loop.log (l : Loop) (lines : List LogCapLine) : Loop :=
  { l with ipcOperation := l.ipcOperation.map (fun operation => operation.captureLines lines) }

/-- A connection once its message was read, if there was one. -/
structure Receipt where
  request : Option IpcReceived
  sockets : Sockets
  logged : List LogCapLine
  io : List Io

section Receive

variable [Codec]

def ipcReceiveRequest (sockets : Sockets) : Arrival → Receipt
  | .failed logged => { request := none, sockets := sockets, logged := logged, io := [] }
  | .unread socket logged =>
    let accepted := sockets.accept socket
    { request := none
      sockets := accepted.close socket
      logged := logged
      io := [.closed (accepted.peer socket)] }
  | .message socket yaml =>
    { request := match Codec.unmarshal yaml with
        | none => some { ipcRequestInit none with socketClient := 0 }
        | some request => some { request with socketClient := socket }
      sockets := sockets.accept socket
      logged := requestLine yaml :: Codec.unmarshalLog yaml
      io := [.received sockets.accepted yaml] }

/-- Turn away a request while another is in progress. -/
def handleIpcInProgress (l : Loop) (arrival : Arrival) (delivery : Delivery) :
    Loop × List Io :=
  let receipt := ipcReceiveRequest l.sockets arrival
  let received := { l with sockets := receipt.sockets }.log receipt.logged
  match receipt.request with
  | none => (received.log (logError "Failed to read IPC request"), receipt.io)
  | some request =>
    let operation : IpcOperation :=
      { request := request.toIpcRequest, socketClient := request.socketClient, done := true,
        rc := IpcRc.requestInProgress.val, sendState := false, logCapLines := [],
        capturing := false }
    let sent := ipcSendOperation l.system.server operation delivery
    let peer := receipt.sockets.peer operation.socketClient
    ({ received.log sent.logged with
        sockets := receipt.sockets.close operation.socketClient },
      receipt.io ++ [.answered peer sent.response delivery, .closed peer])

def notifyIpcOperation (l : Loop) (delivery : Delivery) : Loop × List Io :=
  match l.ipcOperation with
  | none => (l, [])
  | some operation =>
    let sent := ipcSendOperation l.system.server operation delivery
    let peer := l.sockets.peer operation.socketClient
    if sent.operation.done then
      ({ l with ipcOperation := none, sockets := l.sockets.close operation.socketClient },
        [.answered peer sent.response delivery, .closed peer])
    else ({ l with ipcOperation := some sent.operation }, [.answered peer sent.response delivery])

end Receive

variable [Platform] [Codec]

/-- Begin an operation: capturing starts before the request is read, and the lines of its
processing come from anywhere in the server. -/
def receiveIpcRequest (l : Loop) (arrival : Arrival) (processed : List LogCapLine)
    (delivery : Delivery) : Loop × List Io :=
  match l.ipcOperation with
  | some _ => handleIpcInProgress l arrival delivery
  | none =>
    let receipt := ipcReceiveRequest l.sockets arrival
    match receipt.request with
    | none => ({ l with sockets := receipt.sockets }, receipt.io)
    | some request =>
      let operation : IpcOperation :=
        { request := request.toIpcRequest, socketClient := request.socketClient, done := true,
          rc := IpcRc.success.val, sendState := true, logCapLines := receipt.logged,
          capturing := true }
      let begun :=
        if request.bad then
          { l with
            sockets := receipt.sockets
            ipcOperation := some
              { operation with rc := IpcRc.badRequest.val, sendState := false } }
        else
          let result := serverRequest l.system.server request.toIpcRequest
          { system := { l.system with server := result.1 }
            sockets := receipt.sockets
            ipcOperation := some
              ({ operation with
                request := (ipcRequestFilter l.system.server.gCfg
                  l.system.server.gDispl.heads request.toIpcRequest).2
                done := result.2 }.captureLines processed) }
      let notified := notifyIpcOperation begun delivery
      (notified.1, receipt.io ++ notified.2)

/-- Make changes, then inform the client, unless the server is gone. -/
def Loop.act (l : Loop) (delivery : Delivery) : Loop × List Io :=
  let acted := { l with system := l.system.act }
  if acted.system.halted.isSome then (acted, [])
  else
    notifyIpcOperation
      { acted with
        ipcOperation := acted.ipcOperation.map (fun operation =>
          { operation with done := acted.system.server.gDispl.state == .idle }) }
      delivery

/-- What reaches the server from elsewhere than its clients. -/
inductive Upkeep
  | dispatch (event : WlEvent)
  | reload (cfg : Cfg)
  | lid (closed : Bool)

def Upkeep.event : Upkeep → Event
  | .dispatch event => .dispatch event
  | .reload cfg => .reload cfg
  | .lid closed => .lid closed

/-- What the loop meets with, in any order and number. -/
inductive LoopEvent
  | log (lines : List LogCapLine)
  | upkeep (upkeep : Upkeep)
  | ipc (arrival : Arrival) (processed : List LogCapLine) (delivery : Delivery)
  | act (delivery : Delivery)

/-- The descriptor of a new connection is none of those in use. -/
def Sockets.admits (sockets : Sockets) (arrival : Arrival) : Bool :=
  !arrival.socket.any sockets.connections.contains

def Loop.handle (l : Loop) (event : LoopEvent) : Option (Loop × List Io) :=
  if l.system.halted.isSome then none
  else match event with
    | .log lines => some (l.log lines, [])
    | .upkeep upkeep =>
      (l.system.step upkeep.event).map (fun system => ({ l with system := system }, []))
    | .ipc arrival processed delivery =>
      if l.sockets.admits arrival then some (receiveIpcRequest l arrival processed delivery)
      else none
    | .act delivery => some (l.act delivery)

def Loop.step (l : Loop) (event : LoopEvent) : Option Loop := (l.handle event).map Prod.fst

def Loop.io (l : Loop) (event : LoopEvent) : List Io := (l.handle event).elim [] Prod.snd

/-- All that passed between the server and its clients in a run. -/
abbrev Loop.trace (l : Loop) (events : List LoopEvent) : List Io :=
  Lib.Run.outputs Loop.step Loop.io l events

section Handle

variable {l l' : Loop} {io : List Io}

theorem Loop.handle_log {lines : List LogCapLine}
    (h : l.handle (.log lines) = some (l', io)) : l' = l.log lines ∧ io = [] := by
  unfold Loop.handle at h
  split at h
  · contradiction
  · exact ⟨(Prod.mk.inj (Option.some.inj h)).1.symm, (Prod.mk.inj (Option.some.inj h)).2.symm⟩

theorem Loop.handle_upkeep {upkeep : Upkeep}
    (h : l.handle (.upkeep upkeep) = some (l', io)) :
    ∃ system, l.system.step upkeep.event = some system ∧
      l' = { l with system := system } ∧ io = [] := by
  unfold Loop.handle at h
  split at h
  · contradiction
  · obtain ⟨system, hsystem, hnext⟩ := Option.map_eq_some_iff.mp h
    exact ⟨system, hsystem, (Prod.mk.inj hnext).1.symm, (Prod.mk.inj hnext).2.symm⟩

theorem Loop.handle_ipc {arrival : Arrival} {processed : List LogCapLine} {delivery : Delivery}
    (h : l.handle (.ipc arrival processed delivery) = some (l', io)) :
    l.sockets.admits arrival = true ∧
      receiveIpcRequest l arrival processed delivery = (l', io) := by
  unfold Loop.handle at h
  split at h
  · contradiction
  · obtain ⟨hadmits, hnext⟩ := Option.ite_none_right_eq_some.mp h
    exact ⟨hadmits, Option.some.inj hnext⟩

theorem Loop.handle_act {delivery : Delivery} (h : l.handle (.act delivery) = some (l', io)) :
    l.act delivery = (l', io) := by
  unfold Loop.handle at h
  split at h
  · contradiction
  · exact Option.some.inj h

/-- Either the server is gone, or the client is informed. -/
theorem Loop.act_cases (l : Loop) (delivery : Delivery) :
    l.act delivery = ({ l with system := l.system.act }, []) ∨
      l.act delivery = notifyIpcOperation
        { l with
          system := l.system.act
          ipcOperation := l.ipcOperation.map (fun operation =>
            { operation with done := l.system.act.server.gDispl.state == .idle }) }
        delivery := by
  by_cases hhalted : l.system.act.halted.isSome = true
  · exact Or.inl (if_pos hhalted)
  · exact Or.inr (if_neg hhalted)

theorem Loop.handle_not_halted {event : LoopEvent} (h : l.handle event = some (l', io)) :
    l.system.halted = none := by
  unfold Loop.handle at h
  split at h
  · contradiction
  · rename_i hhalted
    simpa using hhalted

end Handle

end WayDisplays.Model
