/- What a client is told, from its request until it is left: all that is logged meanwhile. -/

import WayDisplays.Ipc.Interference

set_option autoImplicit false
set_option relaxedAutoImplicit false

namespace WayDisplays.Ipc.Service

open Lib (OrderedMap)
open Lib.Run
open Model
open Interference (Gone Numbered)
open Messages
open Routing

def toward (connection : Nat) : Io → Option IpcResponse
  | .answered peer response _ => if peer = some connection then some response else none
  | _ => none

/-- The operation in progress is that of a client, which has a descriptor of its own, not that
of the standard input. -/
structure Serving (connection : Nat) (operation : IpcOperation) (l : Loop) : Prop where
  serves : l.ipcOperation = some operation
  capturing : operation.capturing = true
  socket : operation.socketClient ≠ 0
  peer : l.sockets.peer operation.socketClient = some connection
  numbered : Numbered l.sockets

/-- Responses that the server sends by itself are written. -/
def Written : LoopEvent → Prop
  | .act delivery => delivery = .written
  | _ => True

theorem captures_captures (lines : List LogCapLine) :
    captures (lines.map Traffic.capture) = lines := by
  induction lines with
  | nil => rfl
  | cons line lines ih => exact congrArg (line :: ·) ih

theorem captures_append (first second : List Traffic) :
    captures (first ++ second) = captures first ++ captures second :=
  List.filterMap_append

theorem Serving.log {connection : Nat} {operation : IpcOperation} {l : Loop}
    (h : Serving connection operation l) (lines : List LogCapLine) :
    Serving connection (operation.captureLines lines) (l.log lines) := by
  refine ⟨?_, ?_, ?_, ?_, h.numbered⟩
  · rw [Loop.log, h.serves, Option.map_some]
  · rw [IpcOperation.captureLines, if_pos h.capturing]
    exact h.capturing
  · rw [captureLines_socketClient]
    exact h.socket
  · rw [captureLines_socketClient]
    exact h.peer

theorem Serving.sockets {connection : Nat} {operation : IpcOperation} {l : Loop}
    (h : Serving connection operation l) {sockets : Sockets}
    (hpeer : sockets.peer operation.socketClient = some connection) (hnumbered : Numbered sockets) :
    Serving connection operation { l with sockets := sockets } :=
  ⟨h.serves, h.capturing, h.socket, hpeer, hnumbered⟩

theorem Serving.other {connection : Nat} {operation : IpcOperation} {l : Loop}
    (h : Serving connection operation l) {arrival : Arrival} {socket : Nat}
    (harrival : arrival.socket = some socket) (hadmits : l.sockets.admits arrival = true) :
    operation.socketClient ≠ socket := by
  have hfree := free_of_admits harrival hadmits
  have hnone : l.sockets.peer socket = none :=
    OrderedMap.get?_eq_none_iff.mpr (of_decide_eq_false hfree)
  rintro rfl
  rw [h.peer] at hnone
  contradiction

section Serve

variable [Codec]

/-- What an operation sees of the message that begins it: a rejected request is not processed. -/
def opening (yaml : String) (processed : List LogCapLine) : List LogCapLine :=
  requestLine yaml :: Codec.unmarshalLog yaml ++ if (requestOf yaml).bad then [] else processed

/-- What the operation in progress sees of an event, or the one that begins with it. -/
def noticed (l : Loop) : LoopEvent → List LogCapLine
  | .log lines => lines
  | .upkeep _ => []
  | .ipc (.failed logged) _ _ => logged ++ logError "Failed to read IPC request"
  | .ipc (.unread _ logged) _ _ => logged ++ logError "Failed to read IPC request"
  | .ipc (.message _ yaml) processed delivery =>
    if l.ipcOperation.isNone then opening yaml processed
    else refusalLog yaml (requestOf yaml) delivery
  | .act _ => []

theorem foldl_operate_captures {operation : IpcOperation} (h : operation.capturing = true)
    (lines : List LogCapLine) :
    (lines.map Traffic.capture).foldl operate operation = operation.captureLines lines := by
  induction lines generalizing operation with
  | nil => simp [IpcOperation.captureLines]
  | cons line lines ih =>
    have hfirst : operate operation (.capture line) = operation.captureLines [line] := by
      rw [IpcOperation.captureLines, if_pos h]
      rfl
    rw [List.map_cons, List.foldl_cons, ih (by exact h), hfirst, captureLines_append]
    rfl

end Serve

variable [Platform] [Codec]

/-- Another client that comes is turned away, and noticed. -/
theorem Serving.refuse {connection : Nat} {operation : IpcOperation} {l : Loop}
    (h : Serving connection operation l) {arrival : Arrival} (processed : List LogCapLine)
    (delivery : Delivery) (hadmits : l.sockets.admits arrival = true) :
    Serving connection (operation.captureLines (noticed l (.ipc arrival processed delivery)))
        (receiveIpcRequest l arrival processed delivery).1 ∧
      (receiveIpcRequest l arrival processed delivery).2.filterMap (toward connection) = [] := by
  rw [receiveIpcRequest_busy arrival processed delivery h.serves]
  cases arrival with
  | failed logged =>
    have hlog := h.log (noticed l (.ipc (.failed logged) processed delivery))
    rw [noticed, ← log_log] at hlog
    exact ⟨hlog, rfl⟩
  | unread socket logged =>
    have hne := h.other (show (Arrival.unread socket logged).socket = some socket from rfl) hadmits
    have hpeer : ((l.sockets.accept socket).close socket).peer operation.socketClient =
        some connection := by
      rw [Interference.peer_close_ne _ hne, Interference.peer_accept_ne _ hne]
      exact h.peer
    have hlog := (h.sockets hpeer ((h.numbered.accept socket).close socket)).log
      (noticed l (.ipc (.unread socket logged) processed delivery))
    rw [noticed, ← log_log] at hlog
    exact ⟨hlog, rfl⟩
  | message socket yaml =>
    have hne := h.other (show (Arrival.message socket yaml).socket = some socket from rfl) hadmits
    have hnot : operation.socketClient ≠ socketOf socket yaml := by
      unfold socketOf
      split
      · exact hne
      · exact h.socket
    have haccepted : (l.sockets.accept socket).peer operation.socketClient = some connection := by
      rw [Interference.peer_accept_ne _ hne]
      exact h.peer
    have hpeer : ((l.sockets.accept socket).close (socketOf socket yaml)).peer
        operation.socketClient = some connection := by
      rw [Interference.peer_close_ne _ hnot]
      exact haccepted
    have hrefused : (l.sockets.accept socket).peer (socketOf socket yaml) ≠ some connection :=
      fun hpeer => hnot ((h.numbered.accept socket).unique _ _ connection haccepted hpeer)
    have hnoticed : noticed l (.ipc (.message socket yaml) processed delivery) =
        refusalLog yaml (requestOf yaml) delivery := by
      simp [noticed, h.serves]
    rw [handleIpcInProgress_message, hnoticed]
    refine ⟨(h.sockets hpeer ((h.numbered.accept socket).close _)).log _, ?_⟩
    simp [toward, hrefused]

/-! ### A step -/

/-- What the operation in progress goes through in a step. -/
def traffic (l : Loop) : LoopEvent → List Traffic
  | .act _ =>
    if l.system.act.halted.isSome then []
    else [.send l.system.act.server (l.system.act.server.gDispl.state == .idle)]
  | event => (noticed l event).map .capture

theorem captures_traffic (l : Loop) (event : LoopEvent) :
    captures (traffic l event) = noticed l event := by
  cases event with
  | log lines => exact captures_captures _
  | upkeep upkeep => exact captures_captures _
  | ipc arrival processed delivery => exact captures_captures _
  | act delivery =>
    by_cases hhalted : l.system.act.halted.isSome = true
    · rw [traffic, if_pos hhalted]
      rfl
    · rw [traffic, if_neg hhalted]
      rfl

/-- The operation goes on, or it is over and the client is left. -/
inductive Served (connection : Nat) (operation : IpcOperation) (l : Loop) : List Traffic → Prop
  | goesOn {traffic : List Traffic} :
      (∀ server, .send server true ∉ traffic) →
      Serving connection (traffic.foldl operate operation) l → Served connection operation l traffic
  | ended {server : Server} :
      l.ipcOperation = none → Gone connection l.sockets →
      Served connection operation l [.send server true]

omit [Platform] in
theorem Serving.notify {connection : Nat} {operation : IpcOperation} {done : Bool} {l : Loop}
    (h : Serving connection { operation with done := done } l) :
    (notifyIpcOperation l .written).2.filterMap (toward connection) =
        responses operation [.send l.system.server done] ∧
      Served connection operation (notifyIpcOperation l .written).1
        [.send l.system.server done] := by
  have hsent : ipcSendOperation l.system.server { operation with done := done } .written =
      sendWritten operation l.system.server done := rfl
  have hoperation := sendWritten_operation operation l.system.server done
  cases done with
  | true =>
    have hnotify : notifyIpcOperation l .written =
        ({ l with ipcOperation := none, sockets := l.sockets.close operation.socketClient },
          [.answered (some connection)
            (sendWritten operation l.system.server true).response .written,
            .closed (some connection)]) := by
      simp only [notifyIpcOperation, h.serves, hsent, hoperation, h.peer, if_true]
    rw [hnotify]
    exact ⟨by simp [toward, responses], .ended rfl (h.numbered.gone h.peer)⟩
  | false =>
    have hnotify : notifyIpcOperation l .written =
        ({ l with ipcOperation := some (sendWritten operation l.system.server false).operation },
          [.answered (some connection)
            (sendWritten operation l.system.server false).response .written]) := by
      simp only [notifyIpcOperation, h.serves, hsent, hoperation, h.peer, Bool.false_eq_true,
        if_false]
    rw [hnotify]
    refine ⟨by simp [toward, responses], .goesOn (by simp) ?_⟩
    rw [List.foldl_cons, List.foldl_nil, operate]
    refine ⟨rfl, ?_, ?_, ?_, h.numbered⟩
    · rw [hoperation]
      exact h.capturing
    · rw [hoperation]
      exact h.socket
    · rw [hoperation]
      exact h.peer

theorem Serving.act {connection : Nat} {operation : IpcOperation} {l : Loop}
    (h : Serving connection operation l) :
    (l.act .written).2.filterMap (toward connection) =
        responses operation (traffic l (.act .written)) ∧
      Served connection operation (l.act .written).1 (traffic l (.act .written)) := by
  by_cases hhalted : l.system.act.halted.isSome = true
  · rw [traffic, if_pos hhalted, Loop.act, if_pos hhalted]
    exact ⟨rfl, .goesOn (by simp) ⟨h.serves, h.capturing, h.socket, h.peer, h.numbered⟩⟩
  · rw [traffic, if_neg hhalted, Loop.act, if_neg hhalted]
    simp only [h.serves, Option.map_some]
    let done := l.system.act.server.gDispl.state == .idle
    have hacted : Serving connection { operation with done := done }
        { l with system := l.system.act, ipcOperation := some { operation with done := done } } :=
      ⟨rfl, h.capturing, h.socket, h.peer, h.numbered⟩
    exact hacted.notify

/-- Every step serves the client with the responses of its traffic. -/
theorem Serving.step {connection : Nat} {operation : IpcOperation} {l l' : Loop}
    {event : LoopEvent} {io : List Io} (h : Serving connection operation l)
    (hwritten : Written event) (hhandle : l.handle event = some (l', io)) :
    io.filterMap (toward connection) = responses operation (traffic l event) ∧
      Served connection operation l' (traffic l event) := by
  have hon {lines : List LogCapLine}
      (hserving : Serving connection (operation.captureLines lines) l') :
      Served connection operation l' (lines.map .capture) := by
    refine .goesOn (by simp) ?_
    rwa [foldl_operate_captures h.capturing]
  cases event with
  | log lines =>
    obtain ⟨rfl, rfl⟩ := Loop.handle_log hhandle
    exact ⟨(responses_capture operation lines).symm, hon (h.log lines)⟩
  | upkeep upkeep =>
    obtain ⟨system, -, rfl, rfl⟩ := Loop.handle_upkeep hhandle
    exact ⟨rfl, .goesOn (by simp [traffic, noticed])
      ⟨h.serves, h.capturing, h.socket, h.peer, h.numbered⟩⟩
  | ipc arrival processed delivery =>
    obtain ⟨hadmits, hreceive⟩ := Loop.handle_ipc hhandle
    obtain ⟨hserving, hnone⟩ := h.refuse processed delivery hadmits
    rw [hreceive] at hserving hnone
    exact ⟨hnone.trans (responses_capture operation _).symm, hon hserving⟩
  | act delivery =>
    obtain rfl := hwritten
    obtain ⟨hresponses, hserved⟩ := h.act
    rw [Loop.handle_act hhandle] at hresponses hserved
    exact ⟨hresponses, hserved⟩

/-! ### Runs -/

/-- What an operation sees, from some event on, until it is over. -/
def captured (l : Loop) : List LoopEvent → List LogCapLine
  | [] => []
  | event :: events =>
    noticed l event ++
      (l.step event).elim []
        (fun l' => if l'.ipcOperation.isNone then [] else captured l' events)

omit [Platform] [Codec] in
theorem toClient_eq (connection : Nat) (io : Io) : Interference.toClient connection io =
    (toward connection io).map (fun response => (response.messages, response.rc)) := by
  cases io with
  | received other yaml => rfl
  | closed peer => rfl
  | answered peer response delivery =>
    simp only [Interference.toClient, toward]
    split <;> rfl

theorem trace_gone {l : Loop} {connection : Nat} (h : Gone connection l.sockets)
    (events : List LoopEvent) : (l.trace events).filterMap (toward connection) = [] := by
  have hnone := Interference.trace_gone h events
  rw [List.filterMap_eq_nil_iff] at hnone ⊢
  intro io hio
  have hio := hnone io hio
  rw [toClient_eq, Option.map_eq_none_iff] at hio
  exact hio

theorem trace_cons {l l' : Loop} {event : LoopEvent} {io : List Io}
    (hhandle : l.handle event = some (l', io)) (events : List LoopEvent) :
    l.trace (event :: events) = io ++ l'.trace events := by
  have hstep : l.step event = some l' := by rw [Loop.step, hhandle, Option.map_some]
  have hio : l.io event = io := by rw [Loop.io, hhandle, Option.elim_some]
  rw [Loop.trace, outputs_cons hstep, hio]

/-- The responses of an operation to the end of it: the last is the only one that says so, and
these are the lines that it captured before. -/
def Told (operation : IpcOperation) (told : List IpcResponse) (lines : List LogCapLine) : Prop :=
  ∃ before server, told = responses operation (before ++ [.send server true]) ∧
    (∀ server, .send server true ∉ before) ∧ captures before = lines

omit [Platform] in
theorem responses_going {operation : IpcOperation} {before : List Traffic}
    (h : ∀ server, .send server true ∉ before) :
    ∀ response ∈ responses operation before, response.done = false := by
  induction before generalizing operation with
  | nil => exact fun _ hmem => absurd hmem List.not_mem_nil
  | cons t before ih =>
    have hrest := @ih (operate operation t)
      (fun server hmem => h server (List.mem_cons_of_mem t hmem))
    cases t with
    | capture capLine => exact hrest
    | send server done =>
      have hdone : done = false := by
        cases done with
        | true => exact absurd List.mem_cons_self (h server)
        | false => rfl
      intro response hmem
      rcases List.mem_cons.mp hmem with rfl | hmem
      · exact hdone
      · exact hrest response hmem

/-- The last response of an operation, and those before it. -/
structure Concludes (operation : IpcOperation) (going : List IpcResponse) (last : IpcResponse)
    (lines : List LogCapLine) : Prop where
  pending : ∀ response ∈ going, response.done = false
  done : last.done = true
  rc : last.rc = highest operation.rc lines
  rising : ∀ response ∈ going ++ [last], response.rc ≤ last.rc
  messages : (going ++ [last]).flatMap IpcResponse.messages = lines.filter operation.request.wants

omit [Platform] in
theorem Told.concludes {operation : IpcOperation} {told : List IpcResponse}
    {lines : List LogCapLine} (h : Told operation told lines) :
    ∃ going last, told = going ++ [last] ∧
      Concludes operation going last (operation.logCapLines ++ lines) := by
  obtain ⟨before, server, rfl, hbefore, rfl⟩ := h
  let last := (sendWritten (before.foldl operate operation) server true).response
  have hsplit : responses operation (before ++ [.send server true]) =
      responses operation before ++ [last] := by
    rw [responses_append]
    rfl
  have hwaiting := messages_waiting operation (before ++ [.send server true])
  have hkept : ((before ++ [Traffic.send server true]).foldl operate operation).logCapLines =
      [] := by
    rw [List.foldl_append, List.foldl_cons, List.foldl_nil, operate, sendWritten_operation]
  have hcaptures : captures (before ++ [Traffic.send server true]) = captures before := by
    rw [captures_append]
    exact List.append_nil _
  rw [hkept, hcaptures, hsplit] at hwaiting
  refine ⟨responses operation before, last, hsplit, responses_going hbefore, rfl, ?_, ?_, ?_⟩
  · rw [← foldl_operate_highest]
    exact sendWritten_rc _ server true
  · have hsorted := responses_rc_sorted operation (before ++ [.send server true])
    rw [hsplit, List.pairwise_append] at hsorted
    intro response hmem
    rcases List.mem_append.mp hmem with hmem | hmem
    · exact hsorted.2.2 response hmem last List.mem_cons_self
    · exact le_of_eq (congrArg IpcResponse.rc (List.mem_singleton.mp hmem))
  · rw [List.filter_nil, List.append_nil] at hwaiting
    exact hwaiting

/-- After a step that serves a client, whatever it is told until it is left comes on top. -/
theorem Served.follow {connection : Nat} {operation : IpcOperation} {l : Loop}
    {steps : List Traffic} {events : List LoopEvent} (h : Served connection operation l steps)
    (hrest : ∀ operation', Serving connection operation' l →
      Told operation' ((l.trace events).filterMap (toward connection)) (captured l events)) :
    Told operation (responses operation steps ++ (l.trace events).filterMap (toward connection))
      (captures steps ++ if l.ipcOperation.isNone then [] else captured l events) := by
  cases h with
  | goesOn hlast hserving =>
    obtain ⟨before, server, htrace, hbefore, hcaptures⟩ := hrest _ hserving
    refine ⟨steps ++ before, server, ?_, ?_, ?_⟩
    · rw [htrace, ← responses_append, List.append_assoc]
    · intro server hmem
      rcases List.mem_append.mp hmem with hmem | hmem
      · exact hlast server hmem
      · exact hbefore server hmem
    · rw [captures_append, hcaptures, hserving.serves]
      rfl
  | @ended server hnone hleft =>
    refine ⟨[], server, ?_, fun _ => List.not_mem_nil, ?_⟩
    · rw [trace_gone hleft events, List.append_nil, List.nil_append]
    · rw [hnone]
      rfl

/-- A client that was left was told all that its operation saw. -/
theorem trace_served {connection : Nat} {operation : IpcOperation} {l l' : Loop}
    {events : List LoopEvent} (h : Serving connection operation l)
    (hwritten : ∀ event ∈ events, Written event) (hrun : run Loop.step l events = some l')
    (hgone : Gone connection l'.sockets) :
    Told operation ((l.trace events).filterMap (toward connection)) (captured l events) := by
  induction events generalizing l operation with
  | nil =>
    obtain rfl := Option.some.inj hrun
    exact absurd h.peer (hgone.closed _)
  | cons event events ih =>
    obtain ⟨next, hstep, hrest⟩ := run_cons_eq_some.mp hrun
    obtain ⟨⟨next', io⟩, hhandle, hnext⟩ := Option.map_eq_some_iff.mp hstep
    obtain rfl : next' = next := hnext
    obtain ⟨hresponses, hserved⟩ := h.step (hwritten event List.mem_cons_self) hhandle
    rw [trace_cons hhandle, List.filterMap_append, hresponses, captured, hstep, Option.elim_some,
      ← captures_traffic]
    exact hserved.follow (fun operation' hserving =>
      ih hserving (fun e he => hwritten e (List.mem_cons_of_mem event he)) hrest)

/-! ### From the request on -/

def openingRc (request : IpcRequest) : Int :=
  if request.bad then IpcRc.badRequest.val else IpcRc.success.val

omit [Codec] in
theorem ipcRequestFilter_logThreshold (gCfg : Cfg) (heads : Heads) (request : IpcRequest) :
    (ipcRequestFilter gCfg heads request).2.logThreshold = request.logThreshold := by
  unfold ipcRequestFilter
  split <;> rfl

theorem begin_serving {l : Loop} {socket : Nat} {yaml : String} {request : IpcRequest}
    (processed : List LogCapLine) (hsocket : socket ≠ 0)
    (hrequest : Codec.unmarshal yaml = some request) (hnumbered : Numbered l.sockets) :
    ∃ operation, Serving l.sockets.accepted operation (begin l socket yaml processed) ∧
      operation.logCapLines = opening yaml processed ∧ operation.rc = openingRc request ∧
      operation.request.logThreshold = request.logThreshold := by
  have hof : requestOf yaml = request := by rw [requestOf, hrequest, Option.getD_some]
  have hown : socketOf socket yaml = socket := by rw [socketOf, hrequest]; rfl
  have hserving (operation : IpcOperation) (server : Server)
      (hcapturing : operation.capturing = true) (hclient : operation.socketClient = socket) :
      Serving l.sockets.accepted operation
        { system := { l.system with server := server }
          sockets := l.sockets.accept socket
          ipcOperation := some operation } := by
    refine ⟨rfl, hcapturing, by rwa [hclient], ?_, hnumbered.accept socket⟩
    rw [hclient]
    exact peer_accept _ _
  cases hbad : request.bad with
  | true =>
    have hbegin : begin l socket yaml processed =
        { l with
          sockets := l.sockets.accept socket
          ipcOperation := some
            { request := request, socketClient := socket, done := true,
              rc := IpcRc.badRequest.val, sendState := false,
              logCapLines := requestLine yaml :: Codec.unmarshalLog yaml,
              capturing := true } } := by
      simp only [begin, hof, hown, hbad, if_true]
    rw [hbegin]
    refine ⟨_, hserving _ l.system.server rfl rfl, ?_, ?_, rfl⟩
    · simp [opening, hof, hbad]
    · simp [openingRc, hbad]
  | false =>
    let result := serverRequest l.system.server request
    have hbegin : begin l socket yaml processed =
        { system := { l.system with server := result.1 }
          sockets := l.sockets.accept socket
          ipcOperation := some
            { request :=
                (ipcRequestFilter l.system.server.gCfg l.system.server.gDispl.heads request).2
              socketClient := socket, done := result.2, rc := IpcRc.success.val,
              sendState := true,
              logCapLines := requestLine yaml :: Codec.unmarshalLog yaml ++ processed,
              capturing := true } } := by
      simp only [begin, hof, hown, hbad, Bool.false_eq_true, if_false]
      rfl
    rw [hbegin]
    refine ⟨_, hserving _ result.1 rfl rfl, ?_, ?_, ipcRequestFilter_logThreshold _ _ _⟩
    · simp [opening, hof, hbad]
    · simp [openingRc, hbad]

/-- A request that a loop accepts, and what it meets with after that. -/
structure Session where
  loop : Loop
  socket : Nat
  yaml : String
  request : IpcRequest
  processed : List LogCapLine
  after : List LoopEvent

namespace Session

def events (session : Session) : List LoopEvent :=
  .ipc (.message session.socket session.yaml) session.processed .written :: session.after

def connection (session : Session) : Nat := session.loop.sockets.accepted

def told (session : Session) : List IpcResponse :=
  (session.loop.trace session.events).filterMap (toward session.connection)

def lines (session : Session) : List LogCapLine := captured session.loop session.events

/-- The session of a client with a descriptor of its own, on a server that has no operation in
progress, up to where it is left. -/
structure Ended (session : Session) : Prop where
  idle : session.loop.ipcOperation = none
  numbered : Numbered session.loop.sockets
  socket : session.socket ≠ 0
  request : Codec.unmarshal session.yaml = some session.request
  written : ∀ event ∈ session.after, Written event
  left : ∃ l, run Loop.step session.loop session.events = some l ∧
    Gone session.connection l.sockets

/-- A client is told of all that its operation saw, once it is left. -/
theorem Ended.concludes {session : Session} (h : session.Ended) :
    ∃ operation going last, session.told = going ++ [last] ∧
      Concludes operation going last session.lines ∧
      operation.rc = openingRc session.request ∧
      operation.request.logThreshold = session.request.logThreshold := by
  obtain ⟨l', hrun, hgone⟩ := h.left
  obtain ⟨l, socket, yaml, request, processed, after⟩ := session
  obtain ⟨hidle, hnumbered, hsocket, hrequest, hwritten, -⟩ := h
  obtain ⟨next, hstep, hrest⟩ := run_cons_eq_some.mp hrun
  obtain ⟨⟨next', io⟩, hhandle, hnext⟩ := Option.map_eq_some_iff.mp hstep
  obtain rfl : next' = next := hnext
  obtain ⟨operation, hserving, hlogged, hrc, hthreshold⟩ :=
    begin_serving processed hsocket hrequest hnumbered
  obtain ⟨hresponses, hserved⟩ := @Serving.notify _ _ operation operation.done _ hserving
  have hreceive := (Loop.handle_ipc hhandle).2
  rw [receiveIpcRequest_message processed .written hidle] at hreceive
  obtain ⟨hloop, hio⟩ := Prod.mk.inj hreceive
  rw [hloop] at hserved
  have hnoticed : noticed l (.ipc (.message socket yaml) processed .written) =
      operation.logCapLines := by
    rw [hlogged, noticed, hidle]
    rfl
  have hfirst : io.filterMap (toward l.sockets.accepted) =
      responses operation [.send (begin l socket yaml processed).system.server operation.done] := by
    rw [← hio, ← hresponses]
    rfl
  have htold := hserved.follow (fun _ hserving => trace_served hserving hwritten hrest hgone)
  rw [← hfirst, ← List.filterMap_append, ← trace_cons hhandle] at htold
  obtain ⟨going, last, hsplit, hconcludes⟩ := htold.concludes
  refine ⟨operation, going, last, hsplit, ?_, hrc, hthreshold⟩
  rw [Session.lines, Session.events, captured, hstep, Option.elim_some, hnoticed]
  exact hconcludes

end Session

end WayDisplays.Ipc.Service
