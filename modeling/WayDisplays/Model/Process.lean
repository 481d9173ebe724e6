/- Servers that start next to each other, and the file that is to keep them apart. -/

import Mathlib.Logic.Function.Basic
import WayDisplays.Lib.Run
import WayDisplays.Model.Yaml

set_option autoImplicit false
set_option relaxedAutoImplicit false

namespace WayDisplays.Model

def pidPathGenerate (xdgVtnr : Option String) : String :=
  xdgVtnr.elim "/tmp/way-displays.pid" (fun vtnr => "/tmp/way-displays." ++ vtnr ++ ".pid")

/-- The call of `pid_file_create` that a process is about to make, if it runs at all. -/
inductive PidPhase
  | absent | opening | creating | locking | refused | truncating | writing | running
  deriving DecidableEq, Repr

/-- Why a process gives up. -/
inductive PidExit
  | cannotOpen | cannotCreate | anotherInstance (pid : Int) | cannotLock | cannotTruncate
  | cannotWrite
  deriving DecidableEq, Repr

/-- What it logs then, with the reason of the system. -/
def PidExit.line (pidPath reason : String) : PidExit → String
  | .cannotOpen =>
    "unable to open existing pid file for writing " ++ pidPath ++ ", exiting: " ++ reason
  | .cannotCreate => "unable to create pid file " ++ pidPath ++ ", exiting: " ++ reason
  | .anotherInstance pid => "another instance " ++ snprintfInt pid ++ " is running, exiting\n"
  | .cannotLock => "unable to lock pid file " ++ pidPath ++ ", exiting: " ++ reason
  | .cannotTruncate => "unable to truncate pid file " ++ pidPath ++ ", exiting: " ++ reason
  | .cannotWrite => "unable to write to pid file " ++ pidPath ++ ", exiting: " ++ reason

/-- The file, who has locked it, and how far each process has come. -/
structure Pids where
  file : Option String
  lock : Option Nat
  phase : Nat → PidPhase

def pidsInit (file : Option String) : Pids :=
  { file := file, lock := none, phase := fun _ => .absent }

/-- The process that the file names, zero unless it can be signalled. -/
def pidActiveServer (kill : Int → Bool) (file : Option String) : Int :=
  match file.bind (fun content => sscanfInt (String.ofList (content.toList.take 11))) with
  | some pid => if kill pid then pid else 0
  | none => 0

def Pids.goOn (pids : Pids) (pid : Nat) (phase : PidPhase) : Pids :=
  { pids with phase := Function.update pids.phase pid phase }

/-- A process that ends lets go of the lock. -/
def Pids.leave (pids : Pids) (pid : Nat) : Pids :=
  { pids with
    phase := Function.update pids.phase pid .absent
    lock := if pids.lock = some pid then none else pids.lock }

/-- Text at the start of a file, over what was there. -/
def overwriteStart (content text : String) : String :=
  text ++ String.ofList (content.toList.drop text.length)

/-- The next call of a process, which may fail for reasons of its own. -/
def Pids.call (kill : Int → Bool) (pids : Pids) (pid : Nat) (failed : Bool) :
    Pids × Option PidExit :=
  match pids.phase pid, failed with
  | .absent, _ => (pids, none)
  | .opening, true => (pids.leave pid, some .cannotOpen)
  | .opening, false =>
    (pids.goOn pid (if pids.file.isSome then .locking else .creating), none)
  | .creating, true => (pids.leave pid, some .cannotCreate)
  | .creating, false =>
    ({ pids with file := some (pids.file.getD "") }.goOn pid .locking, none)
  | .locking, true => (pids.leave pid, some .cannotLock)
  | .locking, false =>
    if pids.lock.isNone then ({ pids with lock := some pid }.goOn pid .truncating, none)
    else (pids.goOn pid .refused, none)
  | .refused, failed =>
    let other := if failed then 0 else pidActiveServer kill pids.file
    (pids.leave pid, some (if other = 0 then .cannotLock else .anotherInstance other))
  | .truncating, true => (pids.leave pid, some .cannotTruncate)
  | .truncating, false => ({ pids with file := some "" }.goOn pid .writing, none)
  | .writing, true => (pids.leave pid, some .cannotWrite)
  | .writing, false =>
    ({ pids with
        file := pids.file.map (fun content => overwriteStart content (snprintfInt pid)) }.goOn
      pid .running, none)
  | .running, _ => (pids, none)

/-- A process is started, makes its next call, or ends, at any time and for any reason. -/
inductive PidEvent
  | start (pid : Nat)
  | call (pid : Nat) (failed : Bool)
  | leave (pid : Nat)

/-- A number is that of one process at a time. -/
def Pids.step (kill : Int → Bool) (pids : Pids) : PidEvent → Option Pids
  | .start pid =>
    if pids.phase pid = .absent ∧ 0 < pid ∧ pid < 2 ^ 31 then some (pids.goOn pid .opening)
    else none
  | .call pid failed => some (pids.call kill pid failed).1
  | .leave pid => some (pids.leave pid)

end WayDisplays.Model
