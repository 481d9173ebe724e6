/- One operation at a time: others are refused meanwhile, and leave no trace. -/

import WayDisplays.Ipc.Routing

set_option autoImplicit false
set_option relaxedAutoImplicit false

namespace WayDisplays.Ipc.InProgress

open Lib.Run
open Model
open Dialogue (turn about)
open Routing

variable [Platform] [Codec]

/-- Once allowed, a dialogue is between responses when a step is over, and the only open
socket is that of the operation in progress. -/
theorem run_matches {l l' : Loop} {d : Dialogue.State} (h : Matches l d)
    {events : List LoopEvent} (hrun : run Loop.step l events = some l')
    (hwell : ∀ connection yaml, .received connection yaml ∈ l.trace events →
      (Codec.unmarshal yaml).isSome = true) :
    ∃ d', run Dialogue.step d (l.trace events) = some d' ∧ Matches l' d' := by
  induction events generalizing l d with
  | nil =>
    obtain rfl := Option.some.inj hrun
    exact ⟨d, rfl, h⟩
  | cons event events ih =>
    obtain ⟨l₁, hstep, hrest⟩ := run_cons_eq_some.mp hrun
    obtain ⟨⟨l₂, io⟩, hhandle, rfl⟩ := Option.map_eq_some_iff.mp hstep
    have htrace : l.trace (event :: events) = io ++ Loop.trace l₂ events := by
      simp [Loop.trace, outputs, Loop.step, Loop.io, hhandle]
    rw [htrace] at hwell ⊢
    have hfirst (yaml : String) (hheard : heard event = some yaml) :
        (Codec.unmarshal yaml).isSome = true := by
      obtain ⟨connection, hmem⟩ := (received_iff_heard hhandle yaml).mpr hheard
      exact hwell connection yaml (List.mem_append_left _ hmem)
    obtain ⟨d₁, hrun₁, hmatches⟩ := handle_allowed h hhandle hfirst
    obtain ⟨d', hrun', hmatches'⟩ := ih hmatches hrest
      (fun connection yaml hmem => hwell connection yaml (List.mem_append_right _ hmem))
    exact ⟨d', by rw [run_append, hrun₁, Option.bind_some, hrun'], hmatches'⟩

/-- A request that arrives meanwhile gets one response and changes neither the server nor
what the current operation is about. -/
def Refuses (l : Loop) (event : LoopEvent) : Prop :=
  ∀ operation socket yaml request processed delivery l',
    l.ipcOperation = some operation → event = .ipc (.message socket yaml) processed delivery →
    Codec.unmarshal yaml = some request → l.step event = some l' →
    l'.system = l.system ∧
    (∃ operation', l'.ipcOperation = some operation' ∧
      operation'.request = operation.request ∧
      operation'.socketClient = operation.socketClient) ∧
    ∃ response, response.done = true ∧ response.rc = IpcRc.requestInProgress.val ∧
      l.io event = [.received l.sockets.accepted yaml,
        .answered (some l.sockets.accepted) response delivery,
        .closed (some l.sockets.accepted)]

theorem step_refuses (l : Loop) (event : LoopEvent) : Refuses l event := by
  intro operation socket yaml request processed delivery l' hoperation hevent hrequest hstep
  subst hevent
  obtain ⟨⟨l'', io⟩, hhandle, rfl⟩ := Option.map_eq_some_iff.mp hstep
  obtain ⟨hadmits, hrefused⟩ := Loop.handle_ipc hhandle
  rw [receiveIpcRequest_busy _ processed delivery hoperation,
    handleIpcInProgress_accepted delivery (free_of_admits rfl hadmits)
      (Option.isSome_iff_exists.mpr ⟨request, hrequest⟩)] at hrefused
  obtain ⟨rfl, rfl⟩ := Prod.mk.inj hrefused
  refine ⟨rfl, ?_, refusal (requestOf yaml), rfl, rfl, ?_⟩
  · simp only [Loop.log, hoperation, Option.map_some]
    exact ⟨_, rfl, captureLines_request _ _, captureLines_socketClient _ _⟩
  · simp only [Loop.io, hhandle, Option.elim]

/-- In runs with well formed requests one operation is current, whose client is answered up to
a last response and then left, and each request that arrives meanwhile is refused. -/
theorem operation_protocol {cfg : Cfg} {lid : Option Lid} {events : List LoopEvent} {l : Loop}
    (hrun : run Loop.step (loopInit cfg lid) events = some l)
    (hwell : ∀ connection yaml, .received connection yaml ∈ (loopInit cfg lid).trace events →
      (Codec.unmarshal yaml).isSome = true) :
    (∃ d, run Dialogue.step Dialogue.start ((loopInit cfg lid).trace events) = some d ∧
      Matches l d) ∧
    (∀ connection, (run turn .unheard
      (((loopInit cfg lid).trace events).filter (about connection))).isSome = true) ∧
    Along Loop.step Refuses (loopInit cfg lid) events := by
  have hdialogue := run_matches (matches_init cfg lid) hrun hwell
  refine ⟨hdialogue, fun connection => ?_, along_of_forall step_refuses (loopInit cfg lid) events⟩
  obtain ⟨d, hallowed, -⟩ := hdialogue
  exact Dialogue.Allowed.turns (Option.isSome_iff_exists.mpr ⟨d, hallowed⟩) connection

def busy : List LoopEvent :=
  [.ipc (.message 8 "OP: REAPPLY") [] .written, .ipc (.message 9 "OP: GET") [] .written,
    .act .written]

omit [Platform] [Codec] in
theorem operation_protocol_busy :
    let _ : Platform := plainPlatform
    let _ : Codec := plainCodec
    ∃ l, run Loop.step (loopInit cfgInit none) busy = some l ∧
      (∃ d, run Dialogue.step Dialogue.start ((loopInit cfgInit none).trace busy) = some d ∧
        Matches l d) ∧
      (∀ connection, (run turn .unheard
        (((loopInit cfgInit none).trace busy).filter (about connection))).isSome = true) ∧
      Along Loop.step Refuses (loopInit cfgInit none) busy := by
  intro platform codec
  have hrun : (run Loop.step (loopInit cfgInit none) busy).isSome = true := by decide +kernel
  have hwell : (((loopInit cfgInit none).trace busy).filterMap asked).all
      (fun yaml => (Codec.unmarshal yaml).isSome) = true := by decide +kernel
  obtain ⟨l, hl⟩ := Option.isSome_iff_exists.mp hrun
  refine ⟨l, hl, operation_protocol hl fun connection yaml hmem => ?_⟩
  exact List.all_eq_true.mp hwell yaml (List.mem_filterMap.mpr ⟨_, hmem, rfl⟩)

end WayDisplays.Ipc.InProgress
