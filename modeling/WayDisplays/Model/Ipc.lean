/- Operations of clients: the lines captured for them, their responses and return codes. -/

import WayDisplays.Model.CfgMerge

set_option autoImplicit false
set_option relaxedAutoImplicit false

namespace WayDisplays.Model

structure LogCapLine where
  threshold : LogThreshold
  line : String
  deriving DecidableEq, Repr

/-- An error stands apart from the lines before it. -/
def logError (line : String) : List LogCapLine := [⟨.error, ""⟩, ⟨.error, line⟩]

inductive IpcRc
  | success | warn | error | badRequest | badResponse | requestInProgress
  deriving DecidableEq, Repr

def IpcRc.val : IpcRc → Int
  | .success => 0
  | .warn => 1
  | .error => 2
  | .badRequest => 11
  | .badResponse => 12
  | .requestInProgress => 13

/-- A request with the socket it came from, zero until that is set. -/
structure IpcReceived extends IpcRequest where
  socketClient : Nat

structure IpcOperation where
  request : IpcRequest
  socketClient : Nat
  done : Bool
  rc : Int
  sendState : Bool
  logCapLines : List LogCapLine
  /-- Its lines are among the active ones of the log. -/
  capturing : Bool

/-- What STATE tells a client. -/
structure IpcState where
  lid : Option Lid
  heads : List Head

/-- A response: a list of one map, or the map alone for a GET. -/
structure IpcResponse where
  seq : Bool
  done : Bool
  cfg : Option Cfg
  state : Option IpcState
  messages : List LogCapLine
  rc : Int

/-- Texts of the messages between client and server. -/
class Codec where
  /-- The request in a message, unless it is rejected. -/
  unmarshal : String → Option IpcRequest
  /-- What reading the message logs. -/
  unmarshalLog : String → List LogCapLine
  marshal : IpcResponse → String

/-- What becomes of a response on its way to the client. -/
inductive Delivery
  | written
  | writeFailed (reason : String)
  | notMarshalled (logged : List LogCapLine)

/-- Every active list of lines gets what is logged, whatever its threshold. -/
def IpcOperation.captureLines (operation : IpcOperation) (lines : List LogCapLine) :
    IpcOperation :=
  if operation.capturing then
    { operation with logCapLines := operation.logCapLines ++ lines }
  else operation

def updateRc (rc : Int) (capLine : LogCapLine) : Int :=
  if capLine.threshold = .warning ∧ rc < IpcRc.warn.val then IpcRc.warn.val
  else if capLine.threshold = .error ∧ rc < IpcRc.error.val then IpcRc.error.val
  else rc

def ipcOperationUpdateRc (operation : IpcOperation) : IpcOperation :=
  { operation with rc := operation.logCapLines.foldl updateRc operation.rc }

/-- Lines at or above the threshold of the request, which is zero when unset. -/
def IpcRequest.wants (request : IpcRequest) (capLine : LogCapLine) : Bool :=
  !decide (capLine.threshold.val < request.logThreshold.elim 0 LogThreshold.val)

def yamlSeqFromMessages (operation : IpcOperation) : List LogCapLine :=
  operation.logCapLines.filter operation.request.wants

def yamlRootFromIpcOperation (s : Server) (operation : IpcOperation) : IpcResponse :=
  { seq := operation.request.command ≠ some .get
    done := operation.done
    cfg := if operation.sendState then some s.gCfg else none
    state := if operation.sendState then some ⟨s.gLid, s.gDispl.heads.vals⟩ else none
    messages := yamlSeqFromMessages operation
    rc := operation.rc }

/-- An operation after a response was sent, with what was logged meanwhile. -/
structure Sent where
  operation : IpcOperation
  response : IpcResponse
  logged : List LogCapLine

def requestLine (yaml : String) : LogCapLine :=
  ⟨.debug, "Server received request YAML\n--------------------------------\n" ++ yaml ++
    "\n--------------------------------\n"⟩

def responseLine (yaml : String) : LogCapLine :=
  ⟨.debug, "Server sending response YAML\n--------------------------------\n" ++ yaml ++
    "\n--------------------------------\n"⟩

/-- What is logged once the response is marshalled, before the lines are cleared. -/
def Delivery.dump [Codec] (response : IpcResponse) : Delivery → List LogCapLine
  | .notMarshalled logged => logged ++ [responseLine "(null)"]
  | _ => [responseLine (Codec.marshal response)]

/-- What is logged after that. -/
def Delivery.errors : Delivery → List LogCapLine
  | .writeFailed reason => logError ("Socket write failed: " ++ reason)
  | _ => []

def Delivery.failed : Delivery → Bool
  | .written => false
  | _ => true

/-- Respond with the lines captured so far; capturing goes on without them. -/
def ipcSendOperation [Codec] (s : Server) (operation : IpcOperation) (delivery : Delivery) :
    Sent :=
  let updated := ipcOperationUpdateRc operation
  let response := yamlRootFromIpcOperation s updated
  let dumped := updated.captureLines (delivery.dump response)
  let cleared := { dumped with logCapLines := [] }
  let ended := cleared.captureLines delivery.errors
  { operation := { ended with done := ended.done || delivery.failed }
    response := response
    logged := delivery.dump response ++ delivery.errors }

/-- Requests that consist of a command, one with its LOG_THRESHOLD, and a list instead of a
request; responses up to their state and messages. -/
abbrev plainCodec : Codec :=
  { unmarshal := fun yaml =>
      if yaml = "OP: GET" then some (ipcRequestInit (some .get))
      else if yaml = "OP: REAPPLY" then some (ipcRequestInit (some .reapply))
      else if yaml = "OP: REAPPLY\nLOG_THRESHOLD: WARNING" then
        some { ipcRequestInit (some .reapply) with logThreshold := some .warning }
      else none
    unmarshalLog := fun yaml =>
      if yaml = "[]" then
        [⟨.error, "ipc request: invalid document, expected map, got sequence"⟩,
          ⟨.error, "========================================\n[]" ++
            "\n----------------------------------------"⟩]
      else []
    marshal := fun response =>
      (if response.seq then "- DONE: " else "DONE: ") ++
        (if response.done then "TRUE" else "FALSE") ++
        (if response.seq then "\n  RC: " else "\nRC: ") ++ toString response.rc ++ "\n" }

end WayDisplays.Model
