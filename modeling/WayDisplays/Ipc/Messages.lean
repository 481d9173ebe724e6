/- The lines captured for a client: each is sent once, and counts for every return code. -/

import Mathlib.Data.List.Basic
import WayDisplays.Model.Ipc

set_option autoImplicit false
set_option relaxedAutoImplicit false

namespace WayDisplays.Ipc.Messages

open Model

/-- The return code a line calls for. -/
def severity (capLine : LogCapLine) : Option Int :=
  match capLine.threshold with
  | .warning => some IpcRc.warn.val
  | .error => some IpcRc.error.val
  | _ => none

/-- What an operation goes through: lines from anywhere in the server and sends, which leave
a dump of the response in the log. -/
inductive Traffic
  | capture (capLine : LogCapLine)
  | send (server : Server) (done : Bool)

def captures (traffic : List Traffic) : List LogCapLine :=
  traffic.filterMap fun
    | .capture capLine => some capLine
    | .send _ _ => none

variable [Codec]

def sendWritten (operation : IpcOperation) (server : Server) (done : Bool) : Sent :=
  ipcSendOperation server { operation with done := done } .written

def operate (operation : IpcOperation) : Traffic → IpcOperation
  | .capture capLine => { operation with logCapLines := operation.logCapLines ++ [capLine] }
  | .send server done => (sendWritten operation server done).operation

def responses : IpcOperation → List Traffic → List IpcResponse
  | _, [] => []
  | operation, .capture capLine :: traffic =>
    responses (operate operation (.capture capLine)) traffic
  | operation, .send server done :: traffic =>
    (sendWritten operation server done).response ::
      responses (operate operation (.send server done)) traffic

def highest (rc : Int) (capLines : List LogCapLine) : Int :=
  (capLines.filterMap severity).foldl max rc

omit [Codec] in
theorem updateRc_eq_max (rc : Int) (capLine : LogCapLine) :
    updateRc rc capLine = (severity capLine).elim rc (fun code => max rc code) := by
  obtain ⟨threshold, line⟩ := capLine
  cases threshold <;> simp only [updateRc, severity, IpcRc.val, Option.elim] <;> simp <;> omega

omit [Codec] in
theorem foldl_updateRc (rc : Int) (capLines : List LogCapLine) :
    capLines.foldl updateRc rc = highest rc capLines := by
  induction capLines generalizing rc with
  | nil => rfl
  | cons capLine capLines ih =>
    rw [List.foldl_cons, ih, updateRc_eq_max]
    simp only [highest, List.filterMap_cons]
    cases severity capLine <;> rfl

omit [Codec] in
theorem highest_append (rc : Int) (first second : List LogCapLine) :
    highest rc (first ++ second) = highest (highest rc first) second := by
  simp only [highest, List.filterMap_append, List.foldl_append]

omit [Codec] in
theorem le_highest (rc : Int) (capLines : List LogCapLine) : rc ≤ highest rc capLines := by
  rw [highest]
  induction capLines.filterMap severity generalizing rc with
  | nil => exact le_refl rc
  | cons code codes ih => exact le_trans (le_max_left rc code) (ih (max rc code))

/-- A send keeps no line, the dump of its own response included, and keeps the code. -/
theorem sendWritten_operation (operation : IpcOperation) (server : Server) (done : Bool) :
    (sendWritten operation server done).operation =
      { operation with
        done := done
        rc := highest operation.rc operation.logCapLines
        logCapLines := [] } := by
  have hrc := foldl_updateRc operation.rc operation.logCapLines
  by_cases hcapturing : operation.capturing = true
  · simp [sendWritten, ipcSendOperation, ipcOperationUpdateRc, IpcOperation.captureLines,
      Delivery.errors, Delivery.failed, hcapturing, hrc]
  · simp [sendWritten, ipcSendOperation, ipcOperationUpdateRc, IpcOperation.captureLines,
      Delivery.errors, Delivery.failed, hcapturing, hrc]

theorem sendWritten_messages (operation : IpcOperation) (server : Server) (done : Bool) :
    (sendWritten operation server done).response.messages =
      operation.logCapLines.filter operation.request.wants := rfl

theorem sendWritten_rc (operation : IpcOperation) (server : Server) (done : Bool) :
    (sendWritten operation server done).response.rc =
      highest operation.rc operation.logCapLines :=
  foldl_updateRc operation.rc operation.logCapLines

theorem operate_request (operation : IpcOperation) (t : Traffic) :
    (operate operation t).request = operation.request := by
  cases t with
  | capture capLine => rfl
  | send server done => rw [operate, sendWritten_operation]

theorem foldl_operate_request (operation : IpcOperation) (traffic : List Traffic) :
    (traffic.foldl operate operation).request = operation.request := by
  induction traffic generalizing operation with
  | nil => rfl
  | cons t traffic ih => rw [List.foldl_cons, ih, operate_request]

/-- The code to come, were a response sent now, counts every line captured so far. -/
theorem foldl_operate_highest (operation : IpcOperation) (traffic : List Traffic) :
    highest (traffic.foldl operate operation).rc (traffic.foldl operate operation).logCapLines =
      highest operation.rc (operation.logCapLines ++ captures traffic) := by
  induction traffic generalizing operation with
  | nil => simp [captures]
  | cons t traffic ih =>
    rw [List.foldl_cons, ih]
    cases t with
    | capture capLine => simp [operate, captures]
    | send server done =>
      rw [operate, sendWritten_operation]
      simp [captures, highest_append]

theorem responses_append (operation : IpcOperation) (first second : List Traffic) :
    responses operation (first ++ second) =
      responses operation first ++ responses (first.foldl operate operation) second := by
  induction first generalizing operation with
  | nil => rfl
  | cons t first ih =>
    cases t with
    | capture capLine => exact ih _
    | send server done =>
      rw [List.cons_append, responses, responses, ih, List.cons_append, List.foldl_cons]

theorem responses_capture (operation : IpcOperation) (capLines : List LogCapLine) :
    responses operation (capLines.map .capture) = [] := by
  induction capLines generalizing operation with
  | nil => rfl
  | cons capLine capLines ih => exact ih _

/-- What was sent and what waits to be sent are together the lines that were captured. -/
theorem messages_waiting (operation : IpcOperation) (traffic : List Traffic) :
    (responses operation traffic).flatMap IpcResponse.messages ++
        (traffic.foldl operate operation).logCapLines.filter operation.request.wants =
      (operation.logCapLines ++ captures traffic).filter operation.request.wants := by
  induction traffic generalizing operation with
  | nil => simp [responses, captures]
  | cons t traffic ih =>
    have hrest := ih (operate operation t)
    rw [operate_request] at hrest
    cases t with
    | capture capLine =>
      rw [responses, List.foldl_cons, hrest]
      simp [operate, captures]
    | send server done =>
      rw [responses, List.flatMap_cons, List.append_assoc, List.foldl_cons, hrest,
        sendWritten_messages, operate, sendWritten_operation]
      simp [captures]

theorem responses_rc_ge (operation : IpcOperation) (traffic : List Traffic) :
    ∀ response ∈ responses operation traffic,
      highest operation.rc operation.logCapLines ≤ response.rc := by
  induction traffic generalizing operation with
  | nil => simp [responses]
  | cons t traffic ih =>
    intro response hresponse
    cases t with
    | capture capLine =>
      have hrest := ih _ response hresponse
      rw [operate, highest_append] at hrest
      exact le_trans (le_highest _ _) hrest
    | send server done =>
      rcases List.mem_cons.mp hresponse with rfl | hresponse
      · exact le_of_eq (sendWritten_rc operation server done).symm
      · have hrest := ih _ response hresponse
        rw [operate, sendWritten_operation] at hrest
        exact le_trans (le_highest _ []) hrest

theorem responses_rc_sorted (operation : IpcOperation) (traffic : List Traffic) :
    (responses operation traffic).Pairwise (fun first second => first.rc ≤ second.rc) := by
  induction traffic generalizing operation with
  | nil => exact List.Pairwise.nil
  | cons t traffic ih =>
    cases t with
    | capture capLine => exact ih _
    | send server done =>
      refine List.Pairwise.cons (fun response hresponse => ?_) (ih _)
      have hrest := responses_rc_ge _ _ response hresponse
      rw [operate, sendWritten_operation] at hrest
      rw [sendWritten_rc]
      exact le_trans (le_highest _ []) hrest

/-- The messages of all responses are the lines captured up to the last of them that the
request asked for, each once and in order; the code of a response is the highest that any
line captured so far called for, so that codes never fall. -/
theorem messages_accounted (operation : IpcOperation) (before after : List Traffic)
    (late : List LogCapLine) (server : Server) (done : Bool) :
    (responses operation (before ++ .send server done :: late.map .capture)).flatMap
        IpcResponse.messages =
      (operation.logCapLines ++ captures before).filter operation.request.wants ∧
    (responses operation (late.map .capture)) = [] ∧
    ((responses operation (before ++ .send server done :: after))[
        (responses operation before).length]?).map IpcResponse.rc =
      some (highest operation.rc (operation.logCapLines ++ captures before)) ∧
    (responses operation before).Pairwise (fun first second => first.rc ≤ second.rc) := by
  refine ⟨?_, responses_capture operation late, ?_, responses_rc_sorted operation before⟩
  · have hwaiting := messages_waiting operation before
    rw [responses_append, responses, responses_capture, List.flatMap_append, ← hwaiting]
    simp only [List.flatMap_cons, List.flatMap_nil, List.append_nil, sendWritten_messages]
    rw [foldl_operate_request]
  · rw [responses_append, responses, List.getElem?_append_right (le_refl _), Nat.sub_self,
      List.getElem?_cons_zero, Option.map_some, sendWritten_rc, foldl_operate_highest]

end WayDisplays.Ipc.Messages
