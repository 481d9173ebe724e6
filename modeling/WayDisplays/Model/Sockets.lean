/- The sockets that servers listen at, next to the files that keep servers apart. -/

import WayDisplays.Model.Process
import WayDisplays.Model.Unmarshal

set_option autoImplicit false
set_option relaxedAutoImplicit false

namespace WayDisplays.Model

/-- What the paths depend on. -/
structure Environment where
  xdgVtnr : Option String
  xdgRuntimeDir : Option String
  deriving DecidableEq

def sunPathSize : Nat := 108

def strlen (s : String) : Nat := (s.toList.map Char.utf8Size).sum

/-- What `snprintf` leaves in an array. -/
def snprintfArray (size : Nat) (s : String) : String :=
  String.ofList (takeBytes (size - 1) s.toList)

def socketName (xdgVtnr : Option String) : String :=
  snprintfArray (sunPathSize - 4)
    (xdgVtnr.elim "/way-displays.sock" (fun vtnr => "/way-displays." ++ vtnr ++ ".sock"))

def socketPath (environment : Environment) : String :=
  let name := socketName environment.xdgVtnr
  match environment.xdgRuntimeDir with
  | none => snprintfArray sunPathSize ("/tmp" ++ name)
  | some dir =>
    if strlen name + strlen dir > sunPathSize then snprintfArray sunPathSize ("/tmp" ++ name)
    else snprintfArray sunPathSize (dir ++ name)

/-- How far `create_socket_server` comes: without a socket, or with what was at the path
unlinked, or with a server that listens there. -/
inductive SocketOutcome
  | noSocket | unlinked | listening
  deriving DecidableEq, Repr

def createSocketServer (listener : String → Option Nat) (path : String) (pid : Nat) :
    SocketOutcome → String → Option Nat
  | .noSocket => listener
  | .unlinked => Function.update listener path none
  | .listening => Function.update listener path (some pid)

/-- The files, what each process was started with, its socket once it is created, and who
listens at a path. -/
structure Servers where
  pids : String → Pids
  environment : Nat → Environment
  fdSocketServer : Nat → Option SocketOutcome
  listener : String → Option Nat

def serversInit (files : String → Option String) : Servers :=
  { pids := fun path => pidsInit (files path)
    environment := fun _ => { xdgVtnr := none, xdgRuntimeDir := none }
    fdSocketServer := fun _ => none
    listener := fun _ => none }

def Servers.pidPath (servers : Servers) (pid : Nat) : String :=
  pidPathGenerate (servers.environment pid).xdgVtnr

def Servers.phase (servers : Servers) (pid : Nat) : PidPhase :=
  (servers.pids (servers.pidPath pid)).phase pid

/-- A process is started, makes its next call for the file, creates its socket once it runs, or
ends. -/
inductive ServerEvent
  | start (pid : Nat) (environment : Environment)
  | call (pid : Nat) (failed : Bool)
  | createFds (pid : Nat) (outcome : SocketOutcome)
  | leave (pid : Nat)

/-- What one process does to its file. -/
def Servers.stepPids (kill : Int → Bool) (servers : Servers) (path : String) (event : PidEvent) :
    Option Servers :=
  ((servers.pids path).step kill event).map (fun pids =>
    { servers with pids := Function.update servers.pids path pids })

/-- Nobody listens any more where a process did that ends. -/
def Servers.step (kill : Int → Bool) (servers : Servers) : ServerEvent → Option Servers
  | .start pid environment =>
    if servers.phase pid = .absent then
      { servers with
        environment := Function.update servers.environment pid environment
        fdSocketServer := Function.update servers.fdSocketServer pid none }.stepPids kill
          (pidPathGenerate environment.xdgVtnr) (.start pid)
    else none
  | .call pid failed => servers.stepPids kill (servers.pidPath pid) (.call pid failed)
  | .createFds pid outcome =>
    if servers.phase pid = .running ∧ servers.fdSocketServer pid = none then
      some { servers with
        fdSocketServer := Function.update servers.fdSocketServer pid (some outcome)
        listener := createSocketServer servers.listener (socketPath (servers.environment pid)) pid
          outcome }
    else none
  | .leave pid =>
    { servers with
      listener := fun path => (servers.listener path).filter (· ≠ pid) }.stepPids kill
        (servers.pidPath pid) (.leave pid)

end WayDisplays.Model
