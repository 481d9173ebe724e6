/- Requests and responses as they are written to YAML. -/

import WayDisplays.Model.Ipc
import WayDisplays.Model.Marshal

set_option autoImplicit false
set_option relaxedAutoImplicit false

namespace WayDisplays.Model

/-! ### Requests -/

def ipcCommandName (command : IpcCommand) : Option String := valName ipcCommands command

def yamlMapFromIpcRequest (request : IpcRequest) : YamlNode :=
  .mapping
    (yamlMapAddStr "OP" (request.command.bind ipcCommandName) ++
      (if request.logThreshold.isSome then
        yamlMapAddStr "LOG_THRESHOLD" (request.logThreshold.bind logThresholdName)
      else []) ++
      yamlMapAddNode "CFG" (request.cfg.map yamlMapFromCfg))

/-- A request without a command is not written but logged. -/
def yamlRootFromIpcRequest (request : IpcRequest) : Option YamlNode :=
  if ((request.command.bind ipcCommandName).isNone) then none
  else some (yamlMapFromIpcRequest request)

/-! ### Responses -/

def yamlMapFromLid (devicePath : Option String) (lid : Lid) : YamlNode :=
  .mapping (yamlMapAddBool "CLOSED" lid.closed ++ yamlMapAddStr "DEVICE_PATH" devicePath)

/-- The lid with the path of its device, and the heads, each if there are any. -/
def yamlMapFromState (devicePath : Option String) (state : IpcState) : YamlNode :=
  .mapping
    (yamlMapAddNode "LID" (state.lid.map (yamlMapFromLid devicePath)) ++
      yamlMapAddPlist "HEADS" state.heads yamlMapFromHead)

/-- Every threshold has a name. -/
def thresholdKey (threshold : LogThreshold) : String := (logThresholdName threshold).getD ""

def yamlMapFromMessage (capLine : LogCapLine) : YamlNode :=
  .mapping (yamlMapAddStr (thresholdKey capLine.threshold) (some capLine.line))

/-- There is no sequence without a message. -/
def yamlNodeFromMessages (messages : List LogCapLine) : Option YamlNode :=
  if messages.isEmpty then none else some (.sequence (messages.map yamlMapFromMessage))

def yamlMapFromIpcOperation (devicePath : Option String) (response : IpcResponse) : YamlNode :=
  .mapping
    (yamlMapAddBool "DONE" response.done ++
      yamlMapAddNode "CFG" (response.cfg.map yamlMapFromCfg) ++
      yamlMapAddNode "STATE" (response.state.map (yamlMapFromState devicePath)) ++
      yamlMapAddNode "MESSAGES" (yamlNodeFromMessages response.messages) ++
      yamlMapAddInt "RC" response.rc)

/-- A map for a GET, a sequence of it otherwise, so that responses can follow one another. -/
def yamlNodeFromIpcOperation (devicePath : Option String) (response : IpcResponse) : YamlNode :=
  if response.seq then .sequence [yamlMapFromIpcOperation devicePath response]
  else yamlMapFromIpcOperation devicePath response

end WayDisplays.Model
