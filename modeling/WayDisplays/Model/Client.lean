/- A client: what it was asked on the command line, and what it does with the responses. -/

import WayDisplays.Model.Decode
import WayDisplays.Model.Log
import WayDisplays.Model.Messages
import WayDisplays.Model.Process

set_option autoImplicit false
set_option relaxedAutoImplicit false

namespace WayDisplays.Model

/-- The root of a document, none where it cannot be parsed or is empty, and what is logged on the
way to a list of responses. -/
class Libyaml where
  load : String → Option YamlNode
  loadLog : String → List LogEntry

/-- What is asked of a client; `yaml` prints responses as they are. -/
structure ClientRequest extends IpcRequest where
  yaml : Bool

/-- The thresholds that `cli_parse` leaves behind: of the log, and in the request. -/
def cliThresholds (active : LogActive) (request : ClientRequest) (threshold : Option LogThreshold)
    (yaml : Bool) : LogActive × ClientRequest :=
  let yaml := request.yaml || yaml
  (active.setThreshold threshold true,
    { request with
      yaml := yaml
      logThreshold := if yaml then some .warning else threshold })

/-- What `socket_read` finds at a time, nothing where it fails, and what it logs then. -/
structure SocketRead where
  yaml : Option String
  logged : List LogEntry

/-- The log of a client, and how far it has come with its responses. -/
structure Responses where
  log : Log
  rc : Int
  done : Bool

/-- Lines that a client logs itself; it prints no times. -/
def Log.logEntries (isatty : LogStream → Bool) (log : Log) (entries : List LogEntry) : Log :=
  entries.foldl (fun log entry => log.logLine isatty "" entry) log

def receivedEntry (yaml : String) : LogEntry :=
  { threshold := .debug
    content := "Client received response YAML\n================================\n" ++ yaml ++
      "\n================================\n"
    eno := none }

/-- `fprintf` to the standard output. -/
def Log.printYaml (log : Log) (yaml : String) : Log :=
  { log with printed := log.printed ++ [⟨.stdout, yaml ++ "\n"⟩] }

section Handle

variable [Platform] [Libyaml] (isatty : LogStream → Bool)

/-- The responses in what was read, none unless there is one at least. -/
def ipcReceiveResponses (log : Log) (read : SocketRead) :
    Log × Option (List Decode.IpcResponseRead) :=
  match read.yaml with
  | none => (log.logEntries isatty read.logged, none)
  | some yaml =>
    (((log.logEntries isatty read.logged).logEntries isatty [receivedEntry yaml]).logEntries isatty
        (Libyaml.loadLog yaml),
      (Libyaml.load yaml).bind (fun root => (Decode.yamlRootToIpcResponsePlist (some root)).val))

omit [Platform] [Libyaml] in
/-- Errors are for humans even where responses are printed as they are. -/
def handleResponse (yamlOnly : Bool) (yaml : Option String) (responses : Responses)
    (response : Decode.IpcResponseRead) : Responses :=
  { log :=
      match yamlOnly && decide (response.rc < IpcRc.error.val), yaml with
      | true, some yaml => responses.log.printYaml yaml
      | _, _ => responses.log.playback isatty (fun _ => "") response.logCapLines
    rc := response.rc
    done := response.done }

def handleRead (yamlOnly : Bool) (responses : Responses) (read : SocketRead) : Responses :=
  let received := ipcReceiveResponses isatty responses.log read
  match received.2 with
  | some responsesRead =>
    responsesRead.foldl (handleResponse isatty yamlOnly read.yaml)
      { responses with log := received.1 }
  | none => { log := received.1, rc := IpcRc.badResponse.val, done := true }

/-- Read until it is done; none while it waits for more. -/
def handleResponses (yamlOnly : Bool) (responses : Responses) :
    List SocketRead → Option Responses
  | [] => if responses.done then some responses else none
  | read :: reads =>
    if responses.done then some responses
    else handleResponses yamlOnly (handleRead isatty yamlOnly responses read) reads

/-- What a client finds once it runs: the file of the server, whether the process in it can be
signalled, and what comes of each call of its socket. -/
structure ClientWorld where
  file : Option String
  kill : Int → Bool
  connected : Except (List LogEntry) Unit
  written : Except (List LogEntry) Unit
  reads : List SocketRead

def notRunningEntry : LogEntry :=
  { threshold := .fatal, content := "way-displays not running, check $XDG_VTNR", eno := none }

def sendingEntry (yaml : String) : LogEntry :=
  { threshold := .debug
    content := "Client sending request YAML\n================================\n" ++ yaml ++
      "\n================================\n"
    eno := none }

/-- The exit code and the log of a client whose request is written as some text. -/
def client (world : ClientWorld) (log : Log) (request : ClientRequest) (yaml : String) :
    Option (Log × Int) :=
  if pidActiveServer world.kill world.file = 0 then
    some (log.logEntries isatty [notRunningEntry], 1)
  else
    let sending := log.logEntries isatty [sendingEntry yaml]
    match world.connected, world.written with
    | .error logged, _ => some (sending.logEntries isatty logged, 1)
    | .ok _, .error logged => some (sending.logEntries isatty logged, 1)
    | .ok _, .ok _ =>
      (handleResponses isatty request.yaml { log := sending, rc := 0, done := false }
        world.reads).map (fun responses => (responses.log, responses.rc))

end Handle

end WayDisplays.Model
