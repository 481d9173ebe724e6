/- The log of a process: what is printed of it, and the lists of lines that are kept. -/

import WayDisplays.Model.Commands
import WayDisplays.Model.Ipc

set_option autoImplicit false
set_option relaxedAutoImplicit false

namespace WayDisplays.Model

open Lib (OrderedSet)

inductive LogStream
  | stdout | stderr
  deriving DecidableEq, Repr

structure LogActive where
  threshold : LogThreshold
  thresholdCli : Bool
  prefixed : Bool
  suppressing : Bool
  deriving DecidableEq, Repr

def logThresholdDefault : LogThreshold := .info

def logActiveInit : LogActive :=
  { threshold := logThresholdDefault, thresholdCli := false, prefixed := false,
    suppressing := false }

def thresholdChar : LogThreshold → Char
  | .debug => 'D'
  | .info => 'I'
  | .warning => 'W'
  | .error => 'E'
  | .fatal => 'F'

def thresholdLabel : LogThreshold → Option String
  | .debug => none
  | .info => none
  | .warning => some "WARNING: "
  | .error => some "ERROR: "
  | .fatal => some "FATAL: "

def thresholdColours : LogThreshold → Option String
  | .debug => some "\x1b[1;36m"
  | .info => none
  | .warning => some "\x1b[1;35m"
  | .error => some "\x1b[1;31m"
  | .fatal => some "\x1b[1;33m"

def resetColour : String := "\x1b[0m"

/-- A line on one of the streams. -/
structure Printed where
  stream : LogStream
  text : String
  deriving DecidableEq, Repr

def LogThreshold.stream (threshold : LogThreshold) : LogStream :=
  if LogThreshold.error.val ≤ threshold.val then .stderr else .stdout

/-- Nothing below the threshold; colours only for a terminal, labels only where there is text. -/
def printLine (isatty : LogStream → Bool) (active : LogActive) (time : String)
    (capLine : LogCapLine) : List Printed :=
  if decide (capLine.threshold.val < active.threshold.val) || active.suppressing then []
  else
    let stream := capLine.threshold.stream
    let colour := if isatty stream then thresholdColours capLine.threshold else none
    let stamp :=
      if active.prefixed then
        String.singleton (thresholdChar capLine.threshold) ++ " [" ++ time ++ "] "
      else ""
    let label := if capLine.line = "" then "" else (thresholdLabel capLine.threshold).getD ""
    let reset := if colour.isSome then resetColour else ""
    [⟨stream, colour.getD "" ++ stamp ++ label ++ capLine.line ++ reset ++ "\n"⟩]

/-- What is logged, with the error of the system that it tells of. -/
structure LogEntry where
  threshold : LogThreshold
  content : String
  eno : Option (Int × String)

/-- The line, of which the content is cut off where it is too long. -/
def LogEntry.capLine (entry : LogEntry) : LogCapLine :=
  { threshold := entry.threshold
    line := Model.logLine entry.content ++
      entry.eno.elim "" (fun e => ": " ++ snprintfInt e.1 ++ " " ++ e.2) }

/-- The lists of lines are told apart by where they are. -/
structure Log where
  active : LogActive
  logCapLinesActive : OrderedSet Nat (fun a b => a == b)
  logCapLines : Nat → List LogCapLine
  printed : List Printed

def logInit : Log :=
  { active := logActiveInit, logCapLinesActive := .empty, logCapLines := fun _ => []
    printed := [] }

def Log.print (isatty : LogStream → Bool) (log : Log) (time : String) (capLine : LogCapLine) :
    Log :=
  { log with printed := log.printed ++ printLine isatty log.active time capLine }

/-- Every active list gets the line, whatever its threshold. -/
def Log.captureLine (log : Log) (capLine : LogCapLine) : Log :=
  { log with
    logCapLines := fun list =>
      if log.logCapLinesActive.contains list then log.logCapLines list ++ [capLine]
      else log.logCapLines list }

def Log.logLine (isatty : LogStream → Bool) (log : Log) (time : String) (entry : LogEntry) :
    Log :=
  let printed := log.print isatty time entry.capLine
  if 0 < printed.logCapLinesActive.size then printed.captureLine entry.capLine else printed

/-- No threshold changes nothing; one of the command line is kept. -/
def LogActive.setThreshold (active : LogActive) (threshold : Option LogThreshold) (cli : Bool) :
    LogActive :=
  match threshold with
  | none => active
  | some threshold =>
    if !active.thresholdCli || cli then { active with threshold := threshold, thresholdCli := cli }
    else active

/-- Each line is printed when its turn comes. -/
def Log.playback (isatty : LogStream → Bool) (log : Log) (times : Nat → String)
    (capLines : List LogCapLine) : Log :=
  (capLines.zipIdx).foldl (fun log e => log.print isatty (times e.2) e.1) log

/-- A call of the log, with the time that it reads; `clear` frees the lines of a list. -/
inductive LogCall
  | line (entry : LogEntry) (time : String)
  | setThreshold (threshold : Option LogThreshold) (cli : Bool)
  | setPrefix (prefixed : Bool)
  | suppressStart
  | suppressStop
  | capLinesStart (list : Nat)
  | capLinesStop (list : Nat)
  | capLinesPlayback (list : Nat) (times : Nat → String)
  | clear (list : Nat)

def Log.call (isatty : LogStream → Bool) (log : Log) : LogCall → Log
  | .line entry time => log.logLine isatty time entry
  | .setThreshold threshold cli => { log with active := log.active.setThreshold threshold cli }
  | .setPrefix prefixed => { log with active := { log.active with prefixed := prefixed } }
  | .suppressStart => { log with active := { log.active with suppressing := true } }
  | .suppressStop => { log with active := { log.active with suppressing := false } }
  | .capLinesStart list => { log with logCapLinesActive := log.logCapLinesActive.add list }
  | .capLinesStop list => { log with logCapLinesActive := log.logCapLinesActive.remove list }
  | .capLinesPlayback list times => log.playback isatty times (log.logCapLines list)
  | .clear list =>
    { log with
      logCapLines := fun other => if other = list then [] else log.logCapLines other }

def Log.calls (isatty : LogStream → Bool) (log : Log) (calls : List LogCall) : Log :=
  calls.foldl (Log.call isatty) log

/-- What `server` does until it knows the threshold of its configuration, with what is logged
meanwhile, and then. -/
def serverStartup (list : Nat) (entries : List (LogEntry × String))
    (threshold : Option LogThreshold) (times : Nat → String) : List LogCall :=
  [.capLinesStart list, .suppressStart] ++ entries.map (fun e => .line e.1 e.2) ++
    [.setThreshold threshold false, .suppressStop, .capLinesStop list,
      .capLinesPlayback list times, .clear list]

end WayDisplays.Model
