/- What a client sees of another one that is refused meanwhile. -/

import WayDisplays.Ipc.InProgress
import WayDisplays.Ipc.Messages

set_option autoImplicit false
set_option relaxedAutoImplicit false

namespace WayDisplays.Ipc.Interference

open Lib (OrderedMap)
open Lib.Run
open Model
open Messages
open Routing

/-! ### Lines that go unnoticed -/

/-- Neither wanted by the request nor worse than what was captured before. -/
def Spares (operation : IpcOperation) (capLine : LogCapLine) : Prop :=
  operation.request.wants capLine = false ∧
    ∀ code ∈ severity capLine, code ≤ highest operation.rc operation.logCapLines

/-- What a response that does not get through logs. -/
def troubles : Delivery → List LogCapLine
  | .written => []
  | .writeFailed reason => logError ("Socket write failed: " ++ reason)
  | .notMarshalled logged => logged

/-- Operations that differ by such lines only. -/
structure Alike (a b : IpcOperation) : Prop where
  fields : a = { b with logCapLines := a.logCapLines }
  wanted : a.logCapLines.filter a.request.wants = b.logCapLines.filter b.request.wants
  code : highest a.rc a.logCapLines = highest b.rc b.logCapLines

theorem Alike.refl (a : IpcOperation) : Alike a a := ⟨rfl, rfl, rfl⟩

theorem highest_eq_self {rc : Int} {capLines : List LogCapLine}
    (h : ∀ capLine ∈ capLines, ∀ code ∈ severity capLine, code ≤ rc) :
    highest rc capLines = rc := by
  induction capLines with
  | nil => rfl
  | cons capLine capLines ih =>
    have hrest := ih (fun l hl => h l (List.mem_cons_of_mem _ hl))
    have hhead := h capLine List.mem_cons_self
    rw [show capLine :: capLines = [capLine] ++ capLines from rfl, highest_append]
    cases hseverity : severity capLine with
    | none => simpa [highest, hseverity] using hrest
    | some code =>
      have hmax : max rc code = rc := max_eq_left (hhead code hseverity)
      simpa [highest, hseverity, hmax] using hrest

theorem Alike.capture {a b : IpcOperation} (h : Alike a b) (lines : List LogCapLine) :
    Alike (a.captureLines lines) (b.captureLines lines) := by
  obtain ⟨hfields, hwanted, hcode⟩ := h
  have hrequest : a.request = b.request := by rw [hfields]
  by_cases hcapturing : b.capturing = true
  · have hcapturing' : a.capturing = true := by rw [hfields]; exact hcapturing
    refine ⟨?_, ?_, ?_⟩
    · rw [IpcOperation.captureLines, IpcOperation.captureLines, if_pos hcapturing,
        if_pos hcapturing', hfields]
    · simp only [IpcOperation.captureLines, if_pos hcapturing, if_pos hcapturing',
        List.filter_append, hwanted]
      rw [hrequest]
    · simp only [IpcOperation.captureLines, if_pos hcapturing, if_pos hcapturing',
        highest_append, hcode]
  · have hcapturing' : ¬ a.capturing = true := by rw [hfields]; exact hcapturing
    rw [IpcOperation.captureLines, IpcOperation.captureLines, if_neg hcapturing,
      if_neg hcapturing']
    exact ⟨hfields, hwanted, hcode⟩

theorem Alike.spare {a b : IpcOperation} (h : Alike a b) {lines : List LogCapLine}
    (hspares : ∀ capLine ∈ lines, Spares a capLine) : Alike (a.captureLines lines) b := by
  obtain ⟨hfields, hwanted, hcode⟩ := h
  by_cases hcapturing : a.capturing = true
  · have hnone : lines.filter a.request.wants = [] :=
      List.filter_eq_nil_iff.mpr fun capLine hmem => by simp [(hspares capLine hmem).1]
    rw [IpcOperation.captureLines, if_pos hcapturing]
    refine ⟨?_, ?_, ?_⟩
    · rw [hfields]
    · simp only [List.filter_append, hnone, List.append_nil, hwanted]
    · simp only [highest_append]
      rw [highest_eq_self (fun capLine hmem => (hspares capLine hmem).2), hcode]
  · rw [IpcOperation.captureLines, if_neg hcapturing]
    exact ⟨hfields, hwanted, hcode⟩

theorem Alike.setDone {a b : IpcOperation} (h : Alike a b) (done : Bool) :
    Alike { a with done := done } { b with done := done } := by
  obtain ⟨hfields, hwanted, hcode⟩ := h
  exact ⟨by rw [hfields], hwanted, hcode⟩

/-- The difference is gone with the next response. -/
theorem Alike.send [Codec] {a b : IpcOperation} (h : Alike a b) (s : Server)
    (delivery : Delivery) : ipcSendOperation s a delivery = ipcSendOperation s b delivery := by
  obtain ⟨hfields, hwanted, hcode⟩ := h
  let updated (x : IpcOperation) : IpcOperation := { x with rc := highest x.rc x.logCapLines }
  let cleared (x : IpcOperation) : IpcOperation := { updated x with logCapLines := [] }
  have hsend (x : IpcOperation) : ipcSendOperation s x delivery =
      { operation :=
          { (cleared x).captureLines delivery.errors with
            done := ((cleared x).captureLines delivery.errors).done || delivery.failed }
        response := yamlRootFromIpcOperation s (updated x)
        logged := delivery.dump (yamlRootFromIpcOperation s (updated x)) ++ delivery.errors } := by
    have hrc := foldl_updateRc x.rc x.logCapLines
    by_cases hcapturing : x.capturing = true
    · simp [ipcSendOperation, ipcOperationUpdateRc, IpcOperation.captureLines, hrc, hcapturing,
        updated, cleared]
    · simp [ipcSendOperation, ipcOperationUpdateRc, IpcOperation.captureLines, hrc, hcapturing,
        updated, cleared]
  have hcleared : cleared a = cleared b := by
    simp only [cleared, updated, hcode]
    rw [hfields]
  have hresponse : yamlRootFromIpcOperation s (updated a) =
      yamlRootFromIpcOperation s (updated b) := by
    simp only [updated, yamlRootFromIpcOperation, yamlSeqFromMessages, hwanted, hcode]
    rw [hfields]
  rw [hsend, hsend, hcleared, hresponse]

/-! ### Sockets -/

/-- Connections have numbers of their own. -/
structure Numbered (sockets : Sockets) : Prop where
  lt : ∀ socket n, sockets.peer socket = some n → n < sockets.accepted
  unique : ∀ socket socket' n, sockets.peer socket = some n → sockets.peer socket' = some n →
    socket = socket'

theorem peer_accept_ne (sockets : Sockets) {socket other : Nat} (h : other ≠ socket) :
    (sockets.accept socket).peer other = sockets.peer other :=
  OrderedMap.get?_put_ne _ _ h

theorem peer_close_self (sockets : Sockets) (socket : Nat) :
    (sockets.close socket).peer socket = none :=
  OrderedMap.get?_remove_self _ _

theorem peer_close_ne (sockets : Sockets) {socket other : Nat} (h : other ≠ socket) :
    (sockets.close socket).peer other = sockets.peer other :=
  OrderedMap.get?_remove_ne _ h

theorem peer_of_close {sockets : Sockets} {socket other n : Nat}
    (h : (sockets.close socket).peer other = some n) : sockets.peer other = some n := by
  by_cases hsame : other = socket
  · rw [hsame, peer_close_self] at h
    contradiction
  · rwa [peer_close_ne sockets hsame] at h

theorem numbered_init : Numbered socketsInit :=
  ⟨fun _ _ h => absurd h (by simp [socketsInit, Sockets.peer]),
    fun _ _ _ h => absurd h (by simp [socketsInit, Sockets.peer])⟩

theorem Numbered.accept {sockets : Sockets} (h : Numbered sockets) (socket : Nat) :
    Numbered (sockets.accept socket) := by
  have hcases (other n : Nat) (hpeer : (sockets.accept socket).peer other = some n) :
      (other = socket ∧ n = sockets.accepted) ∨
        (other ≠ socket ∧ sockets.peer other = some n ∧ n < sockets.accepted) := by
    by_cases hsame : other = socket
    · rw [hsame, peer_accept] at hpeer
      exact .inl ⟨hsame, (Option.some.inj hpeer).symm⟩
    · rw [peer_accept_ne sockets hsame] at hpeer
      exact .inr ⟨hsame, hpeer, h.lt other n hpeer⟩
  constructor
  · intro other n hpeer
    change n < sockets.accepted + 1
    rcases hcases other n hpeer with ⟨-, rfl⟩ | ⟨-, -, hlt⟩ <;> omega
  · intro other other' n hpeer hpeer'
    rcases hcases other n hpeer with ⟨rfl, rfl⟩ | ⟨-, hold, hlt⟩ <;>
      rcases hcases other' _ hpeer' with ⟨rfl, hn⟩ | ⟨-, hold', hlt'⟩
    · rfl
    · omega
    · omega
    · exact h.unique other other' n hold hold'

theorem Numbered.close {sockets : Sockets} (h : Numbered sockets) (socket : Nat) :
    Numbered (sockets.close socket) :=
  ⟨fun other n hpeer => h.lt other n (peer_of_close hpeer),
    fun other other' n hpeer hpeer' =>
      h.unique other other' n (peer_of_close hpeer) (peer_of_close hpeer')⟩

structure Gone (connection : Nat) (sockets : Sockets) : Prop where
  lt : connection < sockets.accepted
  closed : ∀ socket, sockets.peer socket ≠ some connection

theorem Gone.accept {connection : Nat} {sockets : Sockets} (h : Gone connection sockets)
    (socket : Nat) : Gone connection (sockets.accept socket) := by
  refine ⟨Nat.lt_succ_of_lt h.lt, fun other hpeer => ?_⟩
  by_cases hsame : other = socket
  · rw [hsame, peer_accept] at hpeer
    have hlt := h.lt
    have heq := Option.some.inj hpeer
    omega
  · rw [peer_accept_ne sockets hsame] at hpeer
    exact h.closed other hpeer

theorem Gone.close {connection : Nat} {sockets : Sockets} (h : Gone connection sockets)
    (socket : Nat) : Gone connection (sockets.close socket) :=
  ⟨h.lt, fun other hpeer => h.closed other (peer_of_close hpeer)⟩

theorem Numbered.gone {sockets : Sockets} (h : Numbered sockets) {socket connection : Nat}
    (hpeer : sockets.peer socket = some connection) : Gone connection (sockets.close socket) := by
  refine ⟨h.lt socket connection hpeer, fun other hother => ?_⟩
  have hsame := h.unique other socket connection (peer_of_close hother) hpeer
  rw [hsame, peer_close_self] at hother
  contradiction

/-! ### Two runs -/

/-- The same operation in progress in two runs, the first of which may have heard more and
lost more sockets. -/
structure Paired (connection : Nat) (l₁ l₂ : Loop) : Prop where
  system : l₁.system = l₂.system
  serving : ∃ a b, l₁.ipcOperation = some a ∧ l₂.ipcOperation = some b ∧ Alike a b ∧
    l₁.sockets.peer a.socketClient = some connection ∧
    l₂.sockets.peer a.socketClient = some connection
  fewer : ∀ socket, l₁.sockets.connections.contains socket = false →
    l₂.sockets.connections.contains socket = false
  numbered₁ : Numbered l₁.sockets
  numbered₂ : Numbered l₂.sockets

theorem Alike.socketClient {a b : IpcOperation} (h : Alike a b) :
    b.socketClient = a.socketClient := by rw [h.fields]

theorem Paired.log {connection : Nat} {l₁ l₂ : Loop} (h : Paired connection l₁ l₂)
    (lines : List LogCapLine) : Paired connection (l₁.log lines) (l₂.log lines) := by
  obtain ⟨a, b, ha, hb, halike, hpeer₁, hpeer₂⟩ := h.serving
  refine ⟨h.system, ⟨a.captureLines lines, b.captureLines lines, ?_, ?_, halike.capture lines,
    ?_, ?_⟩, h.fewer, h.numbered₁, h.numbered₂⟩
  · simp only [Loop.log, ha, Option.map_some]
  · simp only [Loop.log, hb, Option.map_some]
  · rw [captureLines_socketClient]
    exact hpeer₁
  · rw [captureLines_socketClient]
    exact hpeer₂

/-- Two runs that go on side by side, or have both left the client. -/
def Abreast (connection : Nat) (l₁ l₂ : Loop) : Prop :=
  Paired connection l₁ l₂ ∨ (Gone connection l₁.sockets ∧ Gone connection l₂.sockets)

/-! ### What a client gets -/

/-- The messages and the code of a response to a client. -/
def toClient (connection : Nat) : Io → Option (List LogCapLine × Int)
  | .answered peer response _ =>
    if peer = some connection then some (response.messages, response.rc) else none
  | _ => none

section Steps

variable [Platform] [Codec]

omit [Platform] in
theorem notify_gone {l : Loop} {connection : Nat} (h : Gone connection l.sockets)
    (delivery : Delivery) :
    Gone connection (notifyIpcOperation l delivery).1.sockets ∧
      (notifyIpcOperation l delivery).2.filterMap (toClient connection) = [] := by
  unfold notifyIpcOperation
  split
  · exact ⟨h, rfl⟩
  · rename_i operation _
    have hpeer := h.closed operation.socketClient
    dsimp only
    split
    · exact ⟨h.close _, by simp [toClient, hpeer]⟩
    · exact ⟨h, by simp [toClient, hpeer]⟩

theorem receive_gone {l : Loop} {connection : Nat} (h : Gone connection l.sockets)
    (arrival : Arrival) (processed : List LogCapLine) (delivery : Delivery) :
    Gone connection (receiveIpcRequest l arrival processed delivery).1.sockets ∧
      (receiveIpcRequest l arrival processed delivery).2.filterMap (toClient connection) = [] := by
  cases hoperation : l.ipcOperation with
  | some operation =>
    rw [receiveIpcRequest_busy arrival processed delivery hoperation]
    cases arrival with
    | failed logged => exact ⟨h, rfl⟩
    | unread socket logged => exact ⟨(h.accept socket).close socket, rfl⟩
    | message socket yaml =>
      rw [handleIpcInProgress_message]
      have hpeer := (h.accept socket).closed (socketOf socket yaml)
      exact ⟨(h.accept socket).close _, by simp [toClient, hpeer]⟩
  | none =>
    cases arrival with
    | failed logged =>
      rw [receiveIpcRequest_unread processed delivery hoperation rfl]
      exact ⟨h, rfl⟩
    | unread socket logged =>
      rw [receiveIpcRequest_unread processed delivery hoperation rfl]
      exact ⟨(h.accept socket).close socket, rfl⟩
    | message socket yaml =>
      rw [receiveIpcRequest_message processed delivery hoperation]
      obtain ⟨-, -, -, -, hsockets⟩ := begin_operation l socket yaml processed
      have hbegun : Gone connection (begin l socket yaml processed).sockets := by
        rw [hsockets]
        exact h.accept socket
      obtain ⟨hgone, hnone⟩ := notify_gone hbegun delivery
      exact ⟨hgone, by simpa [toClient] using hnone⟩

theorem act_gone {l : Loop} {connection : Nat} (h : Gone connection l.sockets)
    (delivery : Delivery) :
    Gone connection (l.act delivery).1.sockets ∧
      (l.act delivery).2.filterMap (toClient connection) = [] := by
  rcases l.act_cases delivery with hact | hact
  · rw [hact]
    exact ⟨h, rfl⟩
  · rw [hact]
    exact notify_gone (by exact h) delivery

theorem handle_gone {l l' : Loop} {connection : Nat} {event : LoopEvent} {io : List Io}
    (h : Gone connection l.sockets) (hhandle : l.handle event = some (l', io)) :
    Gone connection l'.sockets ∧ io.filterMap (toClient connection) = [] := by
  cases event with
  | log lines =>
    obtain ⟨rfl, rfl⟩ := Loop.handle_log hhandle
    exact ⟨h, rfl⟩
  | upkeep upkeep =>
    obtain ⟨system, -, rfl, rfl⟩ := Loop.handle_upkeep hhandle
    exact ⟨h, rfl⟩
  | ipc arrival processed delivery =>
    have hgone := receive_gone h arrival processed delivery
    rwa [(Loop.handle_ipc hhandle).2] at hgone
  | act delivery =>
    have hgone := act_gone h delivery
    rwa [Loop.handle_act hhandle] at hgone

/-- A client that was left gets nothing more. -/
theorem trace_gone {l : Loop} {connection : Nat} (h : Gone connection l.sockets)
    (events : List LoopEvent) : (l.trace events).filterMap (toClient connection) = [] := by
  induction events generalizing l with
  | nil => rfl
  | cons event events ih =>
    cases hhandle : l.handle event with
    | none => simp [Loop.trace, outputs, Loop.step, hhandle]
    | some next =>
      obtain ⟨l', io⟩ := next
      obtain ⟨hgone, hnone⟩ := handle_gone h hhandle
      have htrace : l.trace (event :: events) = io ++ l'.trace events := by
        simp [Loop.trace, outputs, Loop.step, Loop.io, hhandle]
      rw [htrace, List.filterMap_append, hnone, ih hgone, List.append_nil]

omit [Platform] in
theorem Paired.notify {connection : Nat} {l₁ l₂ : Loop} (h : Paired connection l₁ l₂)
    (delivery : Delivery) :
    Abreast connection (notifyIpcOperation l₁ delivery).1 (notifyIpcOperation l₂ delivery).1 ∧
      (notifyIpcOperation l₁ delivery).2.filterMap (toClient connection) =
        (notifyIpcOperation l₂ delivery).2.filterMap (toClient connection) := by
  obtain ⟨a, b, ha, hb, halike, hpeer₁, hpeer₂⟩ := h.serving
  have hsent : ipcSendOperation l₂.system.server b delivery =
      ipcSendOperation l₁.system.server a delivery := by
    rw [h.system, halike.send]
  have hsocket := send_socketClient l₁.system.server a delivery
  simp only [notifyIpcOperation, ha, hb, hsent, halike.socketClient, hpeer₁, hpeer₂]
  split
  · exact ⟨.inr ⟨h.numbered₁.gone hpeer₁, h.numbered₂.gone hpeer₂⟩, rfl⟩
  · refine ⟨.inl ⟨h.system, ⟨_, _, rfl, rfl, Alike.refl _, ?_, ?_⟩, h.fewer, h.numbered₁,
      h.numbered₂⟩, rfl⟩
    · rw [hsocket]
      exact hpeer₁
    · rw [hsocket]
      exact hpeer₂

theorem Paired.act {connection : Nat} {l₁ l₂ : Loop} (h : Paired connection l₁ l₂)
    (delivery : Delivery) :
    Abreast connection (l₁.act delivery).1 (l₂.act delivery).1 ∧
      (l₁.act delivery).2.filterMap (toClient connection) =
        (l₂.act delivery).2.filterMap (toClient connection) := by
  obtain ⟨a, b, ha, hb, halike, hpeer₁, hpeer₂⟩ := h.serving
  have hacted (operation₁ operation₂ : IpcOperation) (hnext : Alike operation₁ operation₂)
      (hsame : operation₁.socketClient = a.socketClient) :
      Paired connection { l₁ with system := l₁.system.act, ipcOperation := some operation₁ }
        { l₂ with system := l₂.system.act, ipcOperation := some operation₂ } :=
    ⟨by rw [h.system], ⟨operation₁, operation₂, rfl, rfl, hnext, by rw [hsame]; exact hpeer₁,
      by rw [hsame]; exact hpeer₂⟩, h.fewer, h.numbered₁, h.numbered₂⟩
  by_cases hhalted : l₁.system.act.halted.isSome = true
  · have hhalted₂ : l₂.system.act.halted.isSome = true := by rwa [← h.system]
    rw [Loop.act, Loop.act, if_pos hhalted, if_pos hhalted₂, ha, hb]
    exact ⟨.inl (hacted a b halike rfl), rfl⟩
  · have hhalted₂ : ¬ l₂.system.act.halted.isSome = true := by rwa [← h.system]
    rw [Loop.act, Loop.act, if_neg hhalted, if_neg hhalted₂]
    simp only [ha, hb, Option.map_some, h.system]
    let done := l₂.system.act.server.gDispl.state == .idle
    exact (h.system ▸ hacted _ _ (halike.setDone done) rfl).notify delivery

omit [Platform] in
/-- A connection without a message tells both runs the same. -/
theorem Paired.unread {connection : Nat} {l₁ l₂ : Loop} (h : Paired connection l₁ l₂)
    {arrival : Arrival} (hunread : ∀ socket yaml, arrival ≠ .message socket yaml)
    (hadmits : l₁.sockets.admits arrival = true) (delivery : Delivery) :
    Paired connection (handleIpcInProgress l₁ arrival delivery).1
        (handleIpcInProgress l₂ arrival delivery).1 ∧
      (handleIpcInProgress l₁ arrival delivery).2.filterMap (toClient connection) =
        (handleIpcInProgress l₂ arrival delivery).2.filterMap (toClient connection) := by
  cases arrival with
  | failed logged => exact ⟨(h.log _).log _, rfl⟩
  | message socket yaml => exact absurd rfl (hunread socket yaml)
  | unread socket logged =>
    have hfree := @free_of_admits _ _ socket rfl hadmits
    have hmore : Paired connection
        { l₁ with sockets := (l₁.sockets.accept socket).close socket }
        { l₂ with sockets := (l₂.sockets.accept socket).close socket } := by
      refine ⟨h.system, ?_, ?_, (h.numbered₁.accept socket).close socket,
        (h.numbered₂.accept socket).close socket⟩
      · rw [close_accept hfree, close_accept (h.fewer socket hfree)]
        exact h.serving
      · rw [close_accept hfree, close_accept (h.fewer socket hfree)]
        exact h.fewer
    exact ⟨(hmore.log _).log _, rfl⟩

/-- Every event but a refusal has the same effect on a client in both runs. -/
theorem Paired.step {connection : Nat} {l₁ l₁' l₂ : Loop} {event : LoopEvent} {io₁ : List Io}
    (h : Paired connection l₁ l₂) (hunheard : heard event = none)
    (hhandle : l₁.handle event = some (l₁', io₁)) :
    ∃ l₂' io₂, l₂.handle event = some (l₂', io₂) ∧ Abreast connection l₁' l₂' ∧
      io₁.filterMap (toClient connection) = io₂.filterMap (toClient connection) := by
  have hhalted : l₂.system.halted.isSome = false := by
    rw [← h.system, Loop.handle_not_halted hhandle, Option.isSome_none]
  cases event with
  | log lines =>
    obtain ⟨rfl, rfl⟩ := Loop.handle_log hhandle
    exact ⟨l₂.log lines, [], by simp [Loop.handle, hhalted], .inl (h.log lines), rfl⟩
  | upkeep upkeep =>
    obtain ⟨system, hsystem, rfl, rfl⟩ := Loop.handle_upkeep hhandle
    refine ⟨{ l₂ with system := system }, [], ?_, .inl ?_, rfl⟩
    · rw [Loop.handle, if_neg (by simp [hhalted])]
      simp [← h.system, hsystem]
    · exact ⟨rfl, h.serving, h.fewer, h.numbered₁, h.numbered₂⟩
  | ipc arrival processed delivery =>
    obtain ⟨a, b, ha, hb, -⟩ := h.serving
    obtain ⟨hadmits, hreceive⟩ := Loop.handle_ipc hhandle
    have hmessage (socket : Nat) (yaml : String) : arrival ≠ .message socket yaml := by
      rintro rfl
      contradiction
    have hadmits₂ : l₂.sockets.admits arrival = true := by
      cases arrival with
      | failed logged => rfl
      | message socket yaml => exact absurd rfl (hmessage socket yaml)
      | unread socket logged =>
        simp [Sockets.admits, Arrival.socket,
          h.fewer socket (@free_of_admits _ _ socket rfl hadmits)]
    obtain ⟨hpaired, hsame⟩ := h.unread hmessage hadmits delivery
    rw [receiveIpcRequest_busy arrival processed delivery ha] at hreceive
    rw [hreceive] at hpaired hsame
    refine ⟨_, _, ?_, .inl hpaired, hsame⟩
    rw [Loop.handle, if_neg (by simp [hhalted])]
    simp only [hadmits₂, if_true]
    rw [receiveIpcRequest_busy arrival processed delivery hb]
  | act delivery =>
    obtain ⟨habreast, hsame⟩ := h.act delivery
    rw [Loop.handle_act hhandle] at habreast hsame
    exact ⟨_, _, by simp [Loop.handle, hhalted], habreast, hsame⟩

/-- A refusal that the operation in progress does not notice: its LOG_THRESHOLD is above DEBUG,
what reading the message and writing the response log is below that threshold and no worse
than what was captured before, and a rejected message closes the descriptor of no client. -/
structure Unheard (l : Loop) (operation : IpcOperation) (yaml : String)
    (delivery : Delivery) : Prop where
  threshold : operation.request.logThreshold ≠ none ∧
    operation.request.logThreshold ≠ some .debug
  reading : ∀ capLine ∈ Codec.unmarshalLog yaml, Spares operation capLine
  writing : ∀ capLine ∈ troubles delivery, Spares operation capLine
  rejected : Codec.unmarshal yaml = none → l.sockets.peer 0 = none

omit [Platform] in
theorem Unheard.spares {l : Loop} {operation : IpcOperation} {yaml : String}
    {delivery : Delivery} (h : Unheard l operation yaml delivery) :
    ∀ capLine ∈ refusalLog yaml (requestOf yaml) delivery, Spares operation capLine := by
  have hdebug (line : String) : Spares operation ⟨.debug, line⟩ := by
    refine ⟨?_, fun code hcode => absurd hcode (by simp [severity])⟩
    obtain ⟨hset, hdebug⟩ := h.threshold
    cases hthreshold : operation.request.logThreshold with
    | none => exact absurd hthreshold hset
    | some threshold =>
      cases threshold with
      | debug => exact absurd hthreshold hdebug
      | info | warning | error | fatal =>
        simp [IpcRequest.wants, hthreshold, LogThreshold.val]
  have hwriting := h.writing
  intro capLine hmem
  simp only [refusalLog, List.mem_append, List.mem_cons] at hmem
  rcases hmem with (rfl | hread) | hdump | herrors
  · exact hdebug _
  · exact h.reading capLine hread
  · cases delivery with
    | written => exact List.mem_singleton.mp hdump ▸ hdebug _
    | writeFailed reason => exact List.mem_singleton.mp hdump ▸ hdebug _
    | notMarshalled logged =>
      rcases List.mem_append.mp hdump with hlogged | hdump
      · exact hwriting capLine hlogged
      · exact List.mem_singleton.mp hdump ▸ hdebug _
  · cases delivery with
    | written => contradiction
    | writeFailed reason => exact hwriting capLine herrors
    | notMarshalled logged => contradiction

omit [Platform] in
/-- A refusal that is not noticed leaves the runs side by side. -/
theorem Paired.refuse {connection : Nat} {l₁ l₂ : Loop} (h : Paired connection l₁ l₂)
    {socket : Nat} {yaml : String} (delivery : Delivery)
    (hadmits : l₁.sockets.admits (.message socket yaml) = true)
    (hunheard : ∀ operation, l₁.ipcOperation = some operation →
      Unheard l₁ operation yaml delivery) :
    Paired connection (handleIpcInProgress l₁ (.message socket yaml) delivery).1 l₂ ∧
      (handleIpcInProgress l₁ (.message socket yaml) delivery).2.filterMap
        (toClient connection) = [] := by
  obtain ⟨a, b, ha, hb, halike, hpeer₁, hpeer₂⟩ := h.serving
  have hquiet := hunheard a ha
  have hfree := free_of_admits rfl hadmits
  have hnone : l₁.sockets.peer socket = none :=
    OrderedMap.get?_eq_none_iff.mpr (of_decide_eq_false hfree)
  have hown : a.socketClient ≠ socket := by
    rintro hsame
    rw [hsame, hnone] at hpeer₁
    contradiction
  have hlt : connection < l₁.sockets.accepted := h.numbered₁.lt _ _ hpeer₁
  have hkeep : ∀ other n, other ≠ socket → l₁.sockets.peer other = some n →
      ((l₁.sockets.accept socket).close (socketOf socket yaml)).peer other = some n := by
    intro other n hne hpeer
    have hnot : other ≠ socketOf socket yaml := by
      unfold socketOf
      split
      · exact hne
      · rename_i hrejected
        rintro rfl
        rw [hquiet.rejected (by simpa using hrejected)] at hpeer
        contradiction
    rw [peer_close_ne _ hnot, peer_accept_ne _ hne, hpeer]
  rw [handleIpcInProgress_message]
  refine ⟨⟨h.system, ⟨a.captureLines _, b, ?_, hb, halike.spare hquiet.spares, ?_, ?_⟩, ?_,
    (h.numbered₁.accept socket).close _, h.numbered₂⟩, ?_⟩
  · simp only [Loop.log, ha, Option.map_some]
  · rw [captureLines_socketClient]
    exact hkeep _ _ hown hpeer₁
  · rw [captureLines_socketClient]
    exact hpeer₂
  · intro other hother
    have hgone : ((l₁.sockets.accept socket).close (socketOf socket yaml)).peer other = none :=
      OrderedMap.get?_eq_none_iff.mpr (of_decide_eq_false hother)
    refine h.fewer other ?_
    by_cases hsame : other = socket
    · rw [hsame]
      exact hfree
    · refine decide_eq_false (OrderedMap.get?_eq_none_iff.mp ?_)
      refine Option.eq_none_iff_forall_ne_some.mpr fun n hpeer => ?_
      rw [hkeep other n hsame hpeer] at hgone
      contradiction
  · have hother : ((l₁.sockets.accept socket).peer (socketOf socket yaml)) ≠ some connection := by
      unfold socketOf
      split
      · rw [peer_accept]
        intro heq
        have := Option.some.inj heq
        omega
      · rename_i hrejected
        by_cases hzero : 0 = socket
        · rw [hzero, peer_accept]
          intro heq
          have := Option.some.inj heq
          omega
        · rw [peer_accept_ne _ hzero, hquiet.rejected (by simpa using hrejected)]
          simp
    simp [toClient, hother]

/-- Whether the operation in progress is that of a connection. -/
def serves (connection : Nat) (l : Loop) : Bool :=
  l.ipcOperation.any (fun operation => l.sockets.peer operation.socketClient == some connection)

/-- The run without the requests refused while a connection is served. -/
def erase (connection : Nat) : Loop → List LoopEvent → List LoopEvent
  | _, [] => []
  | l, event :: events => match l.step event with
    | none => []
    | some l' =>
      if serves connection l && (heard event).isSome then erase connection l' events
      else event :: erase connection l' events

/-- The requests refused while a connection is served are not noticed. -/
def Quiet (connection : Nat) (l : Loop) (event : LoopEvent) : Prop :=
  ∀ operation socket yaml processed delivery, l.ipcOperation = some operation →
    l.sockets.peer operation.socketClient = some connection →
    event = .ipc (.message socket yaml) processed delivery → Unheard l operation yaml delivery

theorem Paired.trace {connection : Nat} {l₁ l₂ : Loop} (h : Paired connection l₁ l₂)
    {events : List LoopEvent} (hquiet : Along Loop.step (Quiet connection) l₁ events) :
    (l₁.trace events).filterMap (toClient connection) =
      (l₂.trace (erase connection l₁ events)).filterMap (toClient connection) := by
  induction events generalizing l₁ l₂ with
  | nil => rfl
  | cons event events ih =>
    obtain ⟨a, b, ha, -, -, hpeer, -⟩ := h.serving
    have hserves : serves connection l₁ = true := by simp [serves, ha, hpeer]
    cases hhandle : l₁.handle event with
    | none => simp [Loop.trace, outputs, erase, Loop.step, hhandle]
    | some next =>
      obtain ⟨l₁', io₁⟩ := next
      have hstep : l₁.step event = some l₁' := by simp [Loop.step, hhandle]
      have htrace : l₁.trace (event :: events) = io₁ ++ l₁'.trace events := by
        simp [Loop.trace, outputs, Loop.step, Loop.io, hhandle]
      rw [htrace, List.filterMap_append]
      cases hheard : heard event with
      | some yaml =>
        obtain ⟨socket, processed, delivery, rfl⟩ := heard_eq_some hheard
        obtain ⟨hadmits, hreceive⟩ := Loop.handle_ipc hhandle
        rw [receiveIpcRequest_busy _ processed delivery ha] at hreceive
        obtain ⟨hpaired, hnone⟩ := h.refuse delivery hadmits fun operation hoperation =>
          hquiet.head hstep operation socket yaml processed delivery hoperation
            (by rwa [Option.some.inj (hoperation.symm.trans ha)]) rfl
        rw [hreceive] at hpaired hnone
        have herased : erase connection l₁ (.ipc (.message socket yaml) processed delivery ::
            events) = erase connection l₁' events := by
          simp [erase, hstep, hserves, heard]
        rw [hnone, herased, List.nil_append]
        exact ih hpaired (hquiet.tail hstep)
      | none =>
        obtain ⟨l₂', io₂, hhandle₂, habreast, hsame⟩ := h.step hheard hhandle
        have herased : erase connection l₁ (event :: events) =
            event :: erase connection l₁' events := by simp [erase, hstep, hheard]
        have htrace₂ : l₂.trace (event :: erase connection l₁' events) =
            io₂ ++ l₂'.trace (erase connection l₁' events) := by
          simp [Loop.trace, outputs, Loop.step, Loop.io, hhandle₂]
        rw [herased, htrace₂, List.filterMap_append, hsame]
        rcases habreast with hpaired | ⟨hgone₁, hgone₂⟩
        · rw [ih hpaired (hquiet.tail hstep)]
        · rw [trace_gone hgone₁, trace_gone hgone₂]

/-! ### Runs -/

omit [Platform] in
theorem notify_numbered {l : Loop} (h : Numbered l.sockets) (delivery : Delivery) :
    Numbered (notifyIpcOperation l delivery).1.sockets := by
  unfold notifyIpcOperation
  split
  · exact h
  · dsimp only
    split
    · exact h.close _
    · exact h

theorem receive_numbered {l : Loop} (h : Numbered l.sockets) (arrival : Arrival)
    (processed : List LogCapLine) (delivery : Delivery) :
    Numbered (receiveIpcRequest l arrival processed delivery).1.sockets := by
  cases hoperation : l.ipcOperation with
  | some operation =>
    rw [receiveIpcRequest_busy arrival processed delivery hoperation]
    cases arrival with
    | failed logged => exact h
    | unread socket logged => exact (h.accept socket).close socket
    | message socket yaml =>
      rw [handleIpcInProgress_message]
      exact (h.accept socket).close _
  | none =>
    cases arrival with
    | failed logged =>
      rw [receiveIpcRequest_unread processed delivery hoperation rfl]
      exact h
    | unread socket logged =>
      rw [receiveIpcRequest_unread processed delivery hoperation rfl]
      exact (h.accept socket).close socket
    | message socket yaml =>
      rw [receiveIpcRequest_message processed delivery hoperation]
      obtain ⟨-, -, -, -, hsockets⟩ := begin_operation l socket yaml processed
      refine notify_numbered ?_ delivery
      rw [hsockets]
      exact h.accept socket

theorem step_numbered (l : Loop) (event : LoopEvent) (l' : Loop) (h : Numbered l.sockets)
    (hstep : l.step event = some l') : Numbered l'.sockets := by
  obtain ⟨⟨next, io⟩, hhandle, rfl⟩ := Option.map_eq_some_iff.mp hstep
  cases event with
  | log lines =>
    obtain ⟨rfl, -⟩ := Loop.handle_log hhandle
    exact h
  | upkeep upkeep =>
    obtain ⟨system, -, rfl, -⟩ := Loop.handle_upkeep hhandle
    exact h
  | ipc arrival processed delivery =>
    have hnumbered := receive_numbered h arrival processed delivery
    rwa [(Loop.handle_ipc hhandle).2] at hnumbered
  | act delivery =>
    have hnumbered : Numbered (l.act delivery).1.sockets := by
      rcases l.act_cases delivery with hact | hact
      · rw [hact]
        exact h
      · rw [hact]
        exact notify_numbered (by exact h) delivery
    rwa [Loop.handle_act hhandle] at hnumbered

/-- The messages and codes that a client gets are the same without the requests of others that
are refused meanwhile, provided that its operation notices none of them. -/
theorem undisturbed {cfg : Cfg} {lid : Option Lid} {l : Loop} {connection : Nat}
    {operation : IpcOperation} {events : List LoopEvent}
    (hreachable : Reachable Loop.step (loopInit cfg lid) l)
    (hoperation : l.ipcOperation = some operation)
    (hpeer : l.sockets.peer operation.socketClient = some connection)
    (hquiet : Along Loop.step (Quiet connection) l events) :
    (l.trace events).filterMap (toClient connection) =
      (l.trace (erase connection l events)).filterMap (toClient connection) := by
  have hnumbered : Numbered l.sockets :=
    hreachable.invariant (I := fun l => Numbered l.sockets) numbered_init step_numbered
  have hpaired : Paired connection l l :=
    ⟨rfl, ⟨operation, operation, hoperation, hoperation, Alike.refl operation, hpeer, hpeer⟩,
      fun _ h => h, hnumbered, hnumbered⟩
  exact hpaired.trace hquiet

end Steps

def reapplying : Loop :=
  let _ : Platform := plainPlatform
  let _ : Codec := plainCodec
  (receiveIpcRequest (loopInit cfgInit none)
    (.message 8 "OP: REAPPLY\nLOG_THRESHOLD: WARNING") [] .written).1

def meanwhile (yaml : String) : List LoopEvent :=
  [.ipc (.message 9 yaml) [] .written, .act .written]

theorem undisturbed_get :
    let _ : Platform := plainPlatform
    let _ : Codec := plainCodec
    (reapplying.trace (meanwhile "OP: GET")).filterMap (toClient 0) =
      (reapplying.trace (erase 0 reapplying (meanwhile "OP: GET"))).filterMap (toClient 0) := by
  intro platform codec
  have hreachable : Reachable Loop.step (loopInit cfgInit none) reapplying :=
    ⟨[.ipc (.message 8 "OP: REAPPLY\nLOG_THRESHOLD: WARNING") [] .written], rfl⟩
  have hthreshold : reapplying.ipcOperation.map (fun a => a.request.logThreshold) =
      some (some .warning) := by decide +kernel
  have hsocket : reapplying.ipcOperation.map (fun a => reapplying.sockets.peer a.socketClient) =
      some (some 0) := by decide +kernel
  obtain ⟨operation, hoperation, hset⟩ := Option.map_eq_some_iff.mp hthreshold
  have hpeer : reapplying.sockets.peer operation.socketClient = some 0 := by
    rw [hoperation] at hsocket
    exact Option.some.inj hsocket
  refine @undisturbed _ _ cfgInit none _ _ _ _ hreachable hoperation hpeer ?_
  refine fun l' _ => ⟨?_, fun l'' _ => ⟨?_, True.intro⟩⟩
  · intro a socket yaml processed delivery ha _ hevent
    obtain ⟨hmessage, -, rfl⟩ := LoopEvent.ipc.inj hevent
    obtain ⟨-, rfl⟩ := Arrival.message.inj hmessage
    obtain rfl := Option.some.inj (hoperation.symm.trans ha)
    refine ⟨by rw [hset]; decide, fun capLine hmem => ?_, fun capLine hmem => ?_, fun h => ?_⟩
    · contradiction
    · contradiction
    · contradiction
  · intro a socket yaml processed delivery _ _ hevent
    contradiction

/-- A list instead of a request shows in the messages of another client, and in its code. -/
theorem list_overheard :
    let _ : Platform := plainPlatform
    let _ : Codec := plainCodec
    (reapplying.trace (meanwhile "[]")).filterMap (toClient 0) ≠
      (reapplying.trace (erase 0 reapplying (meanwhile "[]"))).filterMap (toClient 0) := by
  decide +kernel

end WayDisplays.Ipc.Interference
