/- Responses reach the client they are for, unless a message was rejected. -/

import WayDisplays.Ipc.Dialogue

set_option autoImplicit false
set_option relaxedAutoImplicit false

namespace WayDisplays.Ipc.Routing

open Lib (OrderedMap)
open Lib.Run
open Model
open Dialogue (Allowed answers last)

theorem captureLines_socketClient (operation : IpcOperation) (lines : List LogCapLine) :
    (operation.captureLines lines).socketClient = operation.socketClient := by
  unfold IpcOperation.captureLines
  split <;> rfl

theorem captureLines_rc (operation : IpcOperation) (lines : List LogCapLine) :
    (operation.captureLines lines).rc = operation.rc := by
  unfold IpcOperation.captureLines
  split <;> rfl

theorem captureLines_request (operation : IpcOperation) (lines : List LogCapLine) :
    (operation.captureLines lines).request = operation.request := by
  unfold IpcOperation.captureLines
  split <;> rfl

theorem captureLines_done (operation : IpcOperation) (lines : List LogCapLine) :
    (operation.captureLines lines).done = operation.done := by
  unfold IpcOperation.captureLines
  split <;> rfl

/-- The code of an operation begun without an error is no refusal. -/
theorem foldl_updateRc_le {rc : Int} (hrc : rc ≤ IpcRc.error.val)
    (capLines : List LogCapLine) : capLines.foldl updateRc rc ≤ IpcRc.error.val := by
  induction capLines generalizing rc with
  | nil => exact hrc
  | cons capLine capLines ih =>
    have hle : updateRc rc capLine ≤ IpcRc.error.val := by
      unfold updateRc
      split
      · simp [IpcRc.val]
      · split
        · exact le_refl _
        · exact hrc
    exact ih hle

section Sends

variable [Codec]

theorem send_socketClient (s : Server) (operation : IpcOperation) (delivery : Delivery) :
    (ipcSendOperation s operation delivery).operation.socketClient = operation.socketClient := by
  simp only [ipcSendOperation, captureLines_socketClient, ipcOperationUpdateRc]

theorem send_response_done (s : Server) (operation : IpcOperation) (delivery : Delivery) :
    (ipcSendOperation s operation delivery).response.done = operation.done := rfl

/-- An operation is over once its last response was sent. -/
theorem send_done (s : Server) (operation : IpcOperation) (delivery : Delivery) :
    (ipcSendOperation s operation delivery).operation.done =
      last (ipcSendOperation s operation delivery).response delivery := by
  rw [last, send_response_done]
  simp only [ipcSendOperation, captureLines_done, ipcOperationUpdateRc]

end Sends

/-! ### Simulation -/

/-- The only open socket is that of the operation in progress. -/
def Matches (l : Loop) (d : Dialogue.State) : Prop :=
  d.next = l.sockets.accepted ∧
    match l.ipcOperation with
    | none => d.phase = .ready none ∧ l.sockets.connections = .empty
    | some operation => ∃ connection, d.phase = .ready (some connection) ∧
        l.sockets.connections = OrderedMap.empty.put operation.socketClient connection

theorem matches_init (cfg : Cfg) (lid : Option Lid) :
    Matches (loopInit cfg lid) Dialogue.start := ⟨rfl, rfl, rfl⟩

theorem Matches.log {l : Loop} {d : Dialogue.State} (h : Matches l d)
    (lines : List LogCapLine) : Matches (l.log lines) d := by
  obtain ⟨hnext, hmatch⟩ := h
  refine ⟨hnext, ?_⟩
  cases hoperation : l.ipcOperation with
  | none => simpa [Loop.log, hoperation] using hmatch
  | some operation =>
    simpa [Loop.log, hoperation, captureLines_socketClient] using hmatch

theorem Matches.of_eq {l l' : Loop} {d : Dialogue.State} (h : Matches l d)
    (hoperation : l'.ipcOperation = l.ipcOperation) (hsockets : l'.sockets = l.sockets) :
    Matches l' d := by
  unfold Matches at h ⊢
  rwa [hoperation, hsockets]

theorem peer_accept (sockets : Sockets) (socket : Nat) :
    (sockets.accept socket).peer socket = some sockets.accepted :=
  OrderedMap.get?_put_self _ _ _

theorem close_accept {sockets : Sockets} {socket : Nat}
    (h : sockets.connections.contains socket = false) :
    (sockets.accept socket).close socket =
      { sockets with accepted := sockets.accepted + 1 } := by
  have hnot : socket ∉ sockets.connections.keys := of_decide_eq_false h
  simp only [Sockets.close, Sockets.accept, OrderedMap.remove_put_of_not_mem _ hnot]

theorem peer_of_serving {sockets : Sockets} {socket connection : Nat}
    (h : sockets.connections = OrderedMap.empty.put socket connection) :
    sockets.peer socket = some connection := by
  rw [Sockets.peer, h, OrderedMap.get?_put_self]

theorem close_of_serving {sockets : Sockets} {socket connection : Nat}
    (h : sockets.connections = OrderedMap.empty.put socket connection) :
    (sockets.close socket).connections = .empty := by
  rw [Sockets.close, h]
  exact OrderedMap.remove_put_of_not_mem connection (by simp)

theorem captureLines_append (operation : IpcOperation) (first second : List LogCapLine) :
    (operation.captureLines first).captureLines second =
      operation.captureLines (first ++ second) := by
  by_cases hcapturing : operation.capturing = true
  · simp [IpcOperation.captureLines, hcapturing]
  · simp [IpcOperation.captureLines, hcapturing]

theorem log_log (l : Loop) (first second : List LogCapLine) :
    (l.log first).log second = l.log (first ++ second) := by
  simp only [Loop.log, Option.map_map, Function.comp_def, captureLines_append]

theorem free_of_admits {sockets : Sockets} {arrival : Arrival} {socket : Nat}
    (harrival : arrival.socket = some socket) (h : sockets.admits arrival = true) :
    sockets.connections.contains socket = false := by
  rw [Sockets.admits, harrival, Option.any_some, Bool.not_eq_true'] at h
  exact h

section Notify

variable [Codec]

/-- A response for the client that is served, or its first one. -/
theorem notify_allowed {l : Loop} {d : Dialogue.State} {operation : IpcOperation}
    {connection : Nat} (delivery : Delivery) (hoperation : l.ipcOperation = some operation)
    (hnext : d.next = l.sockets.accepted)
    (hsockets : l.sockets.connections =
      OrderedMap.empty.put operation.socketClient connection)
    (hphase : d.phase = .ready (some connection) ∨
      ∃ yaml, d.phase = .asked connection yaml none ∧ (Codec.unmarshal yaml).isSome = true) :
    ∃ d', run Dialogue.step d (notifyIpcOperation l delivery).2 = some d' ∧
      Matches (notifyIpcOperation l delivery).1 d' := by
  have hpeer := peer_of_serving hsockets
  let response := (ipcSendOperation l.system.server operation delivery).response
  have hanswered : Dialogue.step d (.answered (some connection) response delivery) =
      some ⟨if last response delivery then .closing connection none
        else .ready (some connection), d.next⟩ := by
    rcases hphase with hphase | ⟨yaml, hphase, hwell⟩
    · simp [Dialogue.step, hphase]
    · obtain ⟨request, hrequest⟩ := Option.isSome_iff_exists.mp hwell
      simp [Dialogue.step, hphase, answers, hrequest]
  have hdone := send_done l.system.server operation delivery
  cases hlast : last response delivery with
  | true =>
    rw [show last (ipcSendOperation l.system.server operation delivery).response delivery = true
      from hlast] at hdone
    have hnotify : notifyIpcOperation l delivery =
        ({ l with ipcOperation := none, sockets := l.sockets.close operation.socketClient },
          [.answered (some connection) response delivery, .closed (some connection)]) := by
      simp only [notifyIpcOperation, hoperation, hdone, hpeer, if_true]
      rfl
    refine ⟨{ d with phase := .ready none }, ?_, ?_⟩
    · rw [hnotify, run_cons hanswered]
      simp [run, Dialogue.step, hlast]
    · rw [hnotify]
      exact ⟨hnext, rfl, close_of_serving hsockets⟩
  | false =>
    rw [show last (ipcSendOperation l.system.server operation delivery).response delivery = false
      from hlast] at hdone
    have hnotify : notifyIpcOperation l delivery =
        ({ l with
          ipcOperation := some (ipcSendOperation l.system.server operation delivery).operation },
          [.answered (some connection) response delivery]) := by
      simp only [notifyIpcOperation, hoperation, hdone, hpeer]
      rfl
    refine ⟨{ d with phase := .ready (some connection) }, ?_, ?_⟩
    · rw [hnotify, run_cons hanswered]
      simp [run, hlast]
    · rw [hnotify]
      refine ⟨hnext, connection, rfl, ?_⟩
      rw [send_socketClient]
      exact hsockets

/-- The response to a request that is turned away. -/
def refusal (request : IpcRequest) : IpcResponse :=
  { seq := request.command ≠ some .get
    done := true
    cfg := none
    state := none
    messages := []
    rc := IpcRc.requestInProgress.val }

/-- What the client that is served sees of a refusal. -/
def refusalLog (yaml : String) (request : IpcRequest) (delivery : Delivery) :
    List LogCapLine :=
  requestLine yaml :: Codec.unmarshalLog yaml ++
    (delivery.dump (refusal request) ++ delivery.errors)

/-- The request that a message stands for, one without a command when it is rejected. -/
def requestOf (yaml : String) : IpcRequest := (Codec.unmarshal yaml).getD (ipcRequestInit none)

/-- The socket that its response goes to. -/
def socketOf (socket : Nat) (yaml : String) : Nat :=
  if (Codec.unmarshal yaml).isSome then socket else 0

theorem ipcReceiveRequest_message (sockets : Sockets) (socket : Nat) (yaml : String) :
    ipcReceiveRequest sockets (.message socket yaml) =
      { request := some { requestOf yaml with socketClient := socketOf socket yaml }
        sockets := sockets.accept socket
        logged := requestLine yaml :: Codec.unmarshalLog yaml
        io := [.received sockets.accepted yaml] } := by
  cases hrequest : Codec.unmarshal yaml with
  | none => simp [ipcReceiveRequest, requestOf, socketOf, hrequest]
  | some request => simp [ipcReceiveRequest, requestOf, socketOf, hrequest]

theorem handleIpcInProgress_message (l : Loop) (socket : Nat) (yaml : String)
    (delivery : Delivery) :
    handleIpcInProgress l (.message socket yaml) delivery =
      ({ l.log (refusalLog yaml (requestOf yaml) delivery) with
          sockets := (l.sockets.accept socket).close (socketOf socket yaml) },
        [.received l.sockets.accepted yaml,
          .answered ((l.sockets.accept socket).peer (socketOf socket yaml))
            (refusal (requestOf yaml)) delivery,
          .closed ((l.sockets.accept socket).peer (socketOf socket yaml))]) := by
  let operation : IpcOperation :=
    { request := requestOf yaml, socketClient := socketOf socket yaml, done := true,
      rc := IpcRc.requestInProgress.val, sendState := false, logCapLines := [],
      capturing := false }
  have hresponse (s : Server) :
      (ipcSendOperation s operation delivery).response = refusal (requestOf yaml) := rfl
  have hlogged (s : Server) : (ipcSendOperation s operation delivery).logged =
      delivery.dump (refusal (requestOf yaml)) ++ delivery.errors := rfl
  have hlog := log_log { l with sockets := l.sockets.accept socket }
    (requestLine yaml :: Codec.unmarshalLog yaml)
    (delivery.dump (refusal (requestOf yaml)) ++ delivery.errors)
  simp only [handleIpcInProgress, ipcReceiveRequest_message]
  rw [hresponse, hlogged, hlog]
  rfl

theorem handleIpcInProgress_accepted {l : Loop} {socket : Nat} {yaml : String}
    (delivery : Delivery) (hfree : l.sockets.connections.contains socket = false)
    (hwell : (Codec.unmarshal yaml).isSome = true) :
    handleIpcInProgress l (.message socket yaml) delivery =
      ({ l.log (refusalLog yaml (requestOf yaml) delivery) with
          sockets := { l.sockets with accepted := l.sockets.accepted + 1 } },
        [.received l.sockets.accepted yaml,
          .answered (some l.sockets.accepted) (refusal (requestOf yaml)) delivery,
          .closed (some l.sockets.accepted)]) := by
  rw [handleIpcInProgress_message, socketOf, if_pos hwell, close_accept hfree, peer_accept]

theorem refuse_allowed {l : Loop} {d : Dialogue.State} {operation : IpcOperation}
    {arrival : Arrival} (delivery : Delivery) (h : Matches l d)
    (hoperation : l.ipcOperation = some operation)
    (hadmits : l.sockets.admits arrival = true)
    (hwell : ∀ socket yaml, arrival = .message socket yaml →
      (Codec.unmarshal yaml).isSome = true) :
    ∃ d', run Dialogue.step d (handleIpcInProgress l arrival delivery).2 = some d' ∧
      Matches (handleIpcInProgress l arrival delivery).1 d' := by
  obtain ⟨hnext, hmatch⟩ := id h
  rw [hoperation] at hmatch
  obtain ⟨connection, hphase, hconnections⟩ := hmatch
  obtain ⟨phase, next⟩ := d
  obtain rfl : phase = .ready (some connection) := hphase
  obtain rfl : next = l.sockets.accepted := hnext
  have hmore (lines : List LogCapLine) : Matches
      { l.log lines with sockets := { l.sockets with accepted := l.sockets.accepted + 1 } }
      ⟨.ready (some connection), l.sockets.accepted + 1⟩ := by
    refine ⟨rfl, ?_⟩
    simp only [Loop.log, hoperation, Option.map_some]
    exact ⟨connection, rfl, by rw [captureLines_socketClient]; exact hconnections⟩
  cases arrival with
  | failed logged => exact ⟨_, rfl, (h.log _).log _⟩
  | unread socket logged =>
    have hfree := @free_of_admits _ _ socket rfl hadmits
    refine ⟨⟨.ready (some connection), l.sockets.accepted + 1⟩, ?_, ?_⟩
    · simp [handleIpcInProgress, ipcReceiveRequest, run, Dialogue.step, peer_accept]
    · simp only [handleIpcInProgress, ipcReceiveRequest, close_accept hfree]
      exact (hmore logged).log _
  | message socket yaml =>
    obtain ⟨request, hrequest⟩ := Option.isSome_iff_exists.mp (hwell socket yaml rfl)
    rw [handleIpcInProgress_accepted delivery (free_of_admits rfl hadmits)
      (hwell socket yaml rfl)]
    refine ⟨⟨.ready (some connection), l.sockets.accepted + 1⟩, ?_, hmore _⟩
    simp [run, Dialogue.step, answers, hrequest, refusal, last]

end Notify

variable [Platform] [Codec]

/-- The operation a request begins, with what its processing logged, before it is first
answered. -/
def begin (l : Loop) (socket : Nat) (yaml : String) (processed : List LogCapLine) : Loop :=
  let request := requestOf yaml
  let operation : IpcOperation :=
    { request := request, socketClient := socketOf socket yaml, done := true,
      rc := IpcRc.success.val, sendState := true,
      logCapLines := requestLine yaml :: Codec.unmarshalLog yaml, capturing := true }
  if request.bad then
    { l with
      sockets := l.sockets.accept socket
      ipcOperation := some { operation with rc := IpcRc.badRequest.val, sendState := false } }
  else
    let result := serverRequest l.system.server request
    { system := { l.system with server := result.1 }
      sockets := l.sockets.accept socket
      ipcOperation := some
        ({ operation with
          request := (ipcRequestFilter l.system.server.gCfg l.system.server.gDispl.heads
            request).2
          done := result.2 }.captureLines processed) }

theorem receiveIpcRequest_message {l : Loop} {socket : Nat} {yaml : String}
    (processed : List LogCapLine) (delivery : Delivery) (hoperation : l.ipcOperation = none) :
    receiveIpcRequest l (.message socket yaml) processed delivery =
      ((notifyIpcOperation (begin l socket yaml processed) delivery).1,
        .received l.sockets.accepted yaml ::
          (notifyIpcOperation (begin l socket yaml processed) delivery).2) := by
  simp only [receiveIpcRequest, hoperation, ipcReceiveRequest_message]
  rfl

theorem begin_operation (l : Loop) (socket : Nat) (yaml : String)
    (processed : List LogCapLine) :
    ∃ operation, (begin l socket yaml processed).ipcOperation = some operation ∧
      operation.socketClient = socketOf socket yaml ∧
      ((requestOf yaml).bad = false → operation.rc = IpcRc.success.val) ∧
      (begin l socket yaml processed).sockets = l.sockets.accept socket := by
  cases hbad : (requestOf yaml).bad with
  | true => simp [begin, hbad]
  | false =>
    refine ⟨_, by simp only [begin, hbad]; rfl, ?_, fun _ => ?_, by simp [begin, hbad]⟩
    · rw [captureLines_socketClient]
    · rw [captureLines_rc]

theorem receiveIpcRequest_busy {l : Loop} {operation : IpcOperation} (arrival : Arrival)
    (processed : List LogCapLine) (delivery : Delivery)
    (hoperation : l.ipcOperation = some operation) :
    receiveIpcRequest l arrival processed delivery = handleIpcInProgress l arrival delivery := by
  simp only [receiveIpcRequest, hoperation]

theorem receiveIpcRequest_unread {l : Loop} {arrival : Arrival} (processed : List LogCapLine)
    (delivery : Delivery) (hoperation : l.ipcOperation = none)
    (hrequest : (ipcReceiveRequest l.sockets arrival).request = none) :
    receiveIpcRequest l arrival processed delivery =
      ({ l with sockets := (ipcReceiveRequest l.sockets arrival).sockets },
        (ipcReceiveRequest l.sockets arrival).io) := by
  simp only [receiveIpcRequest, hoperation, hrequest]

theorem receive_allowed {l : Loop} {d : Dialogue.State} {arrival : Arrival}
    (processed : List LogCapLine) (delivery : Delivery) (h : Matches l d)
    (hoperation : l.ipcOperation = none) (hadmits : l.sockets.admits arrival = true)
    (hwell : ∀ socket yaml, arrival = .message socket yaml →
      (Codec.unmarshal yaml).isSome = true) :
    ∃ d', run Dialogue.step d (receiveIpcRequest l arrival processed delivery).2 = some d' ∧
      Matches (receiveIpcRequest l arrival processed delivery).1 d' := by
  obtain ⟨hnext, hmatch⟩ := id h
  rw [hoperation] at hmatch
  obtain ⟨hphase, hconnections⟩ := hmatch
  obtain ⟨phase, next⟩ := d
  obtain rfl : phase = .ready none := hphase
  obtain rfl : next = l.sockets.accepted := hnext
  cases arrival with
  | failed logged =>
    rw [receiveIpcRequest_unread processed delivery hoperation rfl]
    exact ⟨_, rfl, h⟩
  | unread socket logged =>
    have hfree := @free_of_admits _ _ socket rfl hadmits
    rw [receiveIpcRequest_unread processed delivery hoperation rfl]
    refine ⟨⟨.ready none, l.sockets.accepted + 1⟩, ?_, ?_⟩
    · simp [ipcReceiveRequest, run, Dialogue.step, peer_accept]
    · rw [ipcReceiveRequest, close_accept hfree]
      unfold Matches
      rw [hoperation]
      exact ⟨rfl, rfl, hconnections⟩
  | message socket yaml =>
    obtain ⟨operation, hbegun, hsocket, -, hsockets⟩ := begin_operation l socket yaml processed
    have hown : socketOf socket yaml = socket := if_pos (hwell socket yaml rfl)
    have hserving : (l.sockets.accept socket).connections =
        OrderedMap.empty.put operation.socketClient l.sockets.accepted := by
      rw [hsocket, hown, Sockets.accept, hconnections]
    rw [receiveIpcRequest_message processed delivery hoperation]
    let due : Dialogue.State :=
      ⟨.asked l.sockets.accepted yaml none, l.sockets.accepted + 1⟩
    obtain ⟨d', hrun, hmatches⟩ := @notify_allowed _ _ due _ l.sockets.accepted delivery hbegun
      (by rw [hsockets]; rfl) (by rw [hsockets]; exact hserving)
      (.inr ⟨yaml, rfl, hwell socket yaml rfl⟩)
    refine ⟨d', ?_, hmatches⟩
    have hheard : Dialogue.step ⟨.ready none, l.sockets.accepted⟩
        (.received l.sockets.accepted yaml) =
          some ⟨.asked l.sockets.accepted yaml none, l.sockets.accepted + 1⟩ := if_pos rfl
    rw [run_cons hheard, hrun]

/-! ### Steps -/

def heard : LoopEvent → Option String
  | .ipc (.message _ yaml) _ _ => some yaml
  | _ => none

theorem act_allowed {l : Loop} {d : Dialogue.State} (delivery : Delivery) (h : Matches l d) :
    ∃ d', run Dialogue.step d (l.act delivery).2 = some d' ∧ Matches (l.act delivery).1 d' := by
  rcases l.act_cases delivery with hact | hact
  · rw [hact]
    exact ⟨d, rfl, h⟩
  · rw [hact]
    cases hoperation : l.ipcOperation with
    | none =>
      refine ⟨d, rfl, h.of_eq ?_ rfl⟩
      simp only [notifyIpcOperation, Option.map_none, hoperation]
    | some operation =>
      obtain ⟨hnext, hmatch⟩ := h
      rw [hoperation] at hmatch
      obtain ⟨connection, hphase, hconnections⟩ := hmatch
      exact notify_allowed delivery rfl hnext hconnections (.inl hphase)

/-- The dialogue goes on with every step but one that reads a rejected message. -/
theorem handle_allowed {l l' : Loop} {d : Dialogue.State} {event : LoopEvent} {io : List Io}
    (h : Matches l d) (hhandle : l.handle event = some (l', io))
    (hwell : ∀ yaml, heard event = some yaml → (Codec.unmarshal yaml).isSome = true) :
    ∃ d', run Dialogue.step d io = some d' ∧ Matches l' d' := by
  cases event with
  | log lines =>
    obtain ⟨rfl, rfl⟩ := Loop.handle_log hhandle
    exact ⟨d, rfl, h.log lines⟩
  | upkeep upkeep =>
    obtain ⟨system, -, rfl, rfl⟩ := Loop.handle_upkeep hhandle
    exact ⟨d, rfl, h.of_eq rfl rfl⟩
  | act delivery =>
    have hact := act_allowed delivery h
    rwa [Loop.handle_act hhandle] at hact
  | ipc arrival processed delivery =>
    obtain ⟨hadmits, hreceive⟩ := Loop.handle_ipc hhandle
    have hmessage (socket : Nat) (yaml : String) (harrival : arrival = .message socket yaml) :
        (Codec.unmarshal yaml).isSome = true := by
      subst harrival
      exact hwell yaml rfl
    cases hoperation : l.ipcOperation with
    | none =>
      have hallowed := receive_allowed processed delivery h hoperation hadmits hmessage
      rwa [hreceive] at hallowed
    | some operation =>
      have hallowed := refuse_allowed delivery h hoperation hadmits hmessage
      rw [receiveIpcRequest_busy arrival processed delivery hoperation] at hreceive
      rwa [hreceive] at hallowed

/-! ### Rejected messages -/

omit [Platform] in
/-- A rejected message asks for another code than it gets. -/
theorem run_rejected {d : Dialogue.State} {connection : Nat} {yaml : String}
    {peer : Option Nat} {response : IpcResponse} {delivery : Delivery} (rest : List Io)
    (hrejected : Codec.unmarshal yaml = none) (hrc : response.rc ≠ IpcRc.badRequest.val) :
    run Dialogue.step d (.received connection yaml :: .answered peer response delivery :: rest) =
      none := by
  refine Option.eq_none_iff_forall_ne_some.mpr fun t hrun => ?_
  obtain ⟨d₁, hheard, hrest⟩ := run_cons_eq_some.mp hrun
  obtain ⟨d₂, hanswered, -⟩ := run_cons_eq_some.mp hrest
  cases Dialogue.step_cases hheard with
  | heard serving next yaml =>
    have hanswers := (Option.ite_none_right_eq_some.mp hanswered).1.2
    have hcode : (response.rc == IpcRc.badRequest.val) = true := by
      simp only [answers, hrejected, Bool.and_eq_true] at hanswers
      exact hanswers.2
    exact hrc (eq_of_beq hcode)

/-- A rejected message is answered as a request without a command that came from descriptor
zero, or refused. -/
theorem receive_rejected {l : Loop} {socket : Nat} {yaml : String}
    (processed : List LogCapLine) (delivery : Delivery)
    (hrejected : Codec.unmarshal yaml = none) :
    (receiveIpcRequest l (.message socket yaml) processed delivery).1.system = l.system ∧
    ∃ peer response rest, response.rc ≠ IpcRc.badRequest.val ∧
      (receiveIpcRequest l (.message socket yaml) processed delivery).2 =
        .received l.sockets.accepted yaml :: .answered peer response delivery :: rest := by
  cases hoperation : l.ipcOperation with
  | some operation =>
    rw [receiveIpcRequest_busy _ processed delivery hoperation, handleIpcInProgress_message]
    refine ⟨rfl, _, _, _, ?_, rfl⟩
    simp [refusal, IpcRc.val]
  | none =>
    obtain ⟨operation, hbegun, -, hrc, -⟩ := begin_operation l socket yaml processed
    have hinit : requestOf yaml = ipcRequestInit none := by rw [requestOf, hrejected]; rfl
    have hsystem : (begin l socket yaml processed).system = l.system := by
      simp only [begin, hinit]
      rfl
    have hcode : (ipcSendOperation (begin l socket yaml processed).system.server
        operation delivery).response.rc ≠ IpcRc.badRequest.val := by
      intro heq
      have hle : (ipcSendOperation (begin l socket yaml processed).system.server
          operation delivery).response.rc ≤ IpcRc.error.val :=
        foldl_updateRc_le (by rw [hrc (by rw [hinit]; rfl)]; decide) operation.logCapLines
      rw [heq] at hle
      exact absurd hle (by decide)
    rw [receiveIpcRequest_message processed delivery hoperation]
    simp only [notifyIpcOperation, hbegun]
    split
    · exact ⟨hsystem, _, _, _, hcode, rfl⟩
    · exact ⟨hsystem, _, _, _, hcode, rfl⟩

/-- Every message is answered to its sender, and those rejected as bad requests that are not
carried out; no other descriptor is written to, or closed. -/
def Routed (l : Loop) (events : List LoopEvent) : Prop :=
  Allowed (l.trace events) ∧
    Along Loop.step (fun l event => ∀ yaml l', heard event = some yaml →
      Codec.unmarshal yaml = none → l.step event = some l' → l'.system = l.system) l events

omit [Platform] [Codec] in
theorem heard_eq_some {event : LoopEvent} {yaml : String} (h : heard event = some yaml) :
    ∃ socket processed delivery, event = .ipc (.message socket yaml) processed delivery := by
  unfold heard at h
  split at h
  · obtain rfl := Option.some.inj h
    exact ⟨_, _, _, rfl⟩
  · contradiction

def asked : Io → Option String
  | .received _ yaml => some yaml
  | _ => none

omit [Platform] in
theorem notify_asked (l : Loop) (delivery : Delivery) :
    (notifyIpcOperation l delivery).2.filterMap asked = [] := by
  unfold notifyIpcOperation
  split
  · rfl
  · dsimp only
    split <;> rfl

theorem receive_asked (l : Loop) (arrival : Arrival) (processed : List LogCapLine)
    (delivery : Delivery) :
    (receiveIpcRequest l arrival processed delivery).2.filterMap asked =
      (ipcReceiveRequest l.sockets arrival).io.filterMap asked := by
  unfold receiveIpcRequest
  split
  · unfold handleIpcInProgress
    dsimp only
    split
    · rfl
    · simp [List.filterMap_append, asked]
  · dsimp only
    split
    · rfl
    · rw [List.filterMap_append, notify_asked, List.append_nil]

/-- A step shows the message that it reads. -/
theorem handle_asked {l l' : Loop} {event : LoopEvent} {io : List Io}
    (hhandle : l.handle event = some (l', io)) : io.filterMap asked = (heard event).toList := by
  cases event with
  | log lines =>
    obtain ⟨-, rfl⟩ := Loop.handle_log hhandle
    rfl
  | upkeep upkeep =>
    obtain ⟨system, -, -, rfl⟩ := Loop.handle_upkeep hhandle
    rfl
  | act delivery =>
    have hact : (l.act delivery).2.filterMap asked = [] := by
      rcases l.act_cases delivery with hact | hact
      · rw [hact]
        rfl
      · rw [hact]
        exact notify_asked _ delivery
    rw [Loop.handle_act hhandle] at hact
    exact hact
  | ipc arrival processed delivery =>
    have hio := receive_asked l arrival processed delivery
    rw [(Loop.handle_ipc hhandle).2] at hio
    rw [hio]
    cases arrival <;> rfl

theorem received_iff_heard {l l' : Loop} {event : LoopEvent} {io : List Io}
    (hhandle : l.handle event = some (l', io)) (yaml : String) :
    (∃ connection, .received connection yaml ∈ io) ↔ heard event = some yaml := by
  have hmem : yaml ∈ io.filterMap asked ↔ heard event = some yaml := by
    rw [handle_asked hhandle, Option.mem_toList]
  rw [← hmem, List.mem_filterMap]
  constructor
  · rintro ⟨connection, hreceived⟩
    exact ⟨_, hreceived, rfl⟩
  · rintro ⟨io, hio, hasked⟩
    cases io with
    | received connection other =>
      obtain rfl := Option.some.inj hasked
      exact ⟨connection, hio⟩
    | answered peer response delivery => contradiction
    | closed peer => contradiction

/-! ### Runs -/

theorem allowed_iff_from {l : Loop} {d : Dialogue.State} (h : Matches l d)
    (events : List LoopEvent) :
    (run Dialogue.step d (l.trace events)).isSome = true ↔
      ∀ connection yaml, .received connection yaml ∈ l.trace events →
        (Codec.unmarshal yaml).isSome = true := by
  induction events generalizing l d with
  | nil => simp [Loop.trace, outputs]
  | cons event events ih =>
    cases hhandle : l.handle event with
    | none => simp [Loop.trace, outputs, Loop.step, hhandle]
    | some next =>
      obtain ⟨l', io⟩ := next
      have htrace : l.trace (event :: events) = io ++ l'.trace events := by
        simp [Loop.trace, outputs, Loop.step, Loop.io, hhandle]
      rw [htrace]
      by_cases hwell : ∀ yaml, heard event = some yaml → (Codec.unmarshal yaml).isSome = true
      · obtain ⟨d', hrun, hmatches⟩ := handle_allowed h hhandle hwell
        rw [run_append, hrun, Option.bind_some, ih hmatches]
        constructor
        · intro hrest connection yaml hmem
          rcases List.mem_append.mp hmem with hmem | hmem
          · exact hwell yaml ((received_iff_heard hhandle yaml).mp ⟨connection, hmem⟩)
          · exact hrest connection yaml hmem
        · intro hall connection yaml hmem
          exact hall connection yaml (List.mem_append_right io hmem)
      · push Not at hwell
        obtain ⟨yaml, hheard, hrejected⟩ := hwell
        have hunmarshal : Codec.unmarshal yaml = none := by simpa using hrejected
        obtain ⟨connection, hmem⟩ := (received_iff_heard hhandle yaml).mpr hheard
        obtain ⟨socket, processed, delivery, rfl⟩ := heard_eq_some hheard
        obtain ⟨-, peer, response, rest, hrc, hio⟩ :=
          @receive_rejected _ _ l socket yaml processed delivery hunmarshal
        rw [(Loop.handle_ipc hhandle).2] at hio
        refine iff_of_false ?_ (fun hall => hrejected (hall connection yaml
          (List.mem_append_left _ hmem)))
        rw [show io = _ from hio, List.cons_append, List.cons_append,
          run_rejected _ hunmarshal hrc]
        simp

theorem step_unexecuted (l : Loop) (event : LoopEvent) (yaml : String) (l' : Loop)
    (hheard : heard event = some yaml) (hrejected : Codec.unmarshal yaml = none)
    (hstep : l.step event = some l') : l'.system = l.system := by
  obtain ⟨socket, processed, delivery, rfl⟩ := heard_eq_some hheard
  obtain ⟨⟨l'', io⟩, hhandle, rfl⟩ := Option.map_eq_some_iff.mp hstep
  have hsystem := (@receive_rejected _ _ l socket yaml processed delivery hrejected).1
  rwa [(Loop.handle_ipc hhandle).2] at hsystem

/-- Responses and closes reach the client they are for as long as no message is rejected. -/
theorem routed_iff_noneRejected (cfg : Cfg) (lid : Option Lid) (events : List LoopEvent) :
    Routed (loopInit cfg lid) events ↔
      ∀ connection yaml, .received connection yaml ∈ (loopInit cfg lid).trace events →
        (Codec.unmarshal yaml).isSome = true := by
  have hallowed := allowed_iff_from (matches_init cfg lid) events
  exact ⟨fun h => hallowed.mp h.1,
    fun h => ⟨hallowed.mpr h, along_of_forall step_unexecuted (loopInit cfg lid) events⟩⟩

omit [Platform] [Codec] in
/-- A list instead of a request is answered on descriptor zero. -/
theorem list_misrouted : ¬ @Routed plainPlatform plainCodec (loopInit cfgInit none)
    [.ipc (.message 8 "[]") [] .written] := by
  intro h
  have hallowed : (@run _ _ (@Dialogue.step plainCodec) Dialogue.start
      (@Loop.trace plainPlatform plainCodec (loopInit cfgInit none)
        [.ipc (.message 8 "[]") [] .written])).isSome = true := h.1
  revert hallowed
  decide +kernel

end WayDisplays.Ipc.Routing
