/- The configuration file and the watch of its directory. -/

import Mathlib.Logic.Function.Iterate
import WayDisplays.Lib.Buffered

set_option autoImplicit false
set_option relaxedAutoImplicit false

namespace WayDisplays.Model

/-- An event of the watch: a file of the directory was closed after it was written to. The
name is padded, up to that of the longest file name. -/
structure InotifyEvent where
  closeWrite : Bool
  len : Nat
  name : String
  len_le : len ≤ 256

def InotifyEvent.size (event : InotifyEvent) : Nat := 16 + event.len

/-- `buf` of `fd_cfg_file_modified`. -/
def inotifyBufferSize : Nat := 4096

theorem InotifyEvent.size_le (event : InotifyEvent) : event.size ≤ inotifyBufferSize :=
  le_trans (Nat.add_le_add_left event.len_le 16) (by decide)

/-- Empty when no file was found or could be written. -/
structure CfgFile where
  filePath : String
  fileName : String
  written : Bool
  named : filePath = "" ↔ fileName = ""

def cfgFileNone : CfgFile :=
  { filePath := "", fileName := "", written := false, named := Iff.rfl }

/-- The file, the unread events of its directory, and whether another program wrote it after
the server last did without its being loaded since. -/
structure CfgWatch where
  gCfgFile : CfgFile
  queue : List InotifyEvent
  edited : Bool

def InotifyEvent.isOf (event : InotifyEvent) (fileName : String) : Bool :=
  event.closeWrite && decide (event.len ≠ 0) && fileName == event.name

/-- Whether the file was written, with the events that are left to be read. -/
def fdCfgFileModified (gCfgFile : CfgFile) (queue : List InotifyEvent) :
    Bool × List InotifyEvent :=
  if gCfgFile.fileName = "" then (false, queue)
  else
    Lib.Buffered.search InotifyEvent.size inotifyBufferSize
      (fun event => event.isOf gCfgFile.fileName) queue

def gCfgFileReload (w : CfgWatch) : CfgWatch :=
  if w.gCfgFile.filePath = "" then w else { w with edited := false }

/-- What an iteration of the loop does about the configuration directory. -/
def loopCfgDir (w : CfgWatch) : CfgWatch :=
  let modified := fdCfgFileModified w.gCfgFile w.queue
  let read := { w with queue := modified.2 }
  if modified.1 then
    if w.gCfgFile.written then { read with gCfgFile := { w.gCfgFile with written := false } }
    else gCfgFileReload read
  else read

/-- How a CFG_WRITE goes: not marshalled, written in place, which closes the file once or
twice, written elsewhere, or nowhere. -/
inductive CfgWrite
  | notMarshalled
  | inPlace (first : InotifyEvent) (second : Option InotifyEvent)
  | elsewhere (file : CfgFile)
  | nowhere

/-- The watch moves with the file, and is set up again once that is written. -/
def gCfgFileWrite (w : CfgWatch) : CfgWrite → CfgWatch
  | .notMarshalled => { w with gCfgFile := { w.gCfgFile with written := false } }
  | .inPlace first second =>
    { gCfgFile := { w.gCfgFile with written := true }
      queue := w.queue ++ first :: second.toList
      edited := false }
  | .elsewhere file =>
    { gCfgFile := { file with written := false }, queue := [], edited := false }
  | .nowhere => { w with gCfgFile := cfgFileNone, queue := [] }

/-- Another program writes the file, or another file of its directory; a client has the
configuration written; the loop finds the watch readable. -/
inductive WatchEvent
  | edit (event : InotifyEvent)
  | other (event : InotifyEvent)
  | write (outcome : CfgWrite)
  | loop

def CfgWatch.step (w : CfgWatch) : WatchEvent → Option CfgWatch
  | .edit event =>
    if w.gCfgFile.fileName ≠ "" ∧ event.isOf w.gCfgFile.fileName = true then
      some { w with queue := w.queue ++ [event], edited := true }
    else none
  | .other event =>
    if w.gCfgFile.fileName ≠ "" ∧ event.isOf w.gCfgFile.fileName = false then
      some { w with queue := w.queue ++ [event] }
    else none
  | .write (.inPlace first second) =>
    if w.gCfgFile.filePath ≠ "" ∧ first.isOf w.gCfgFile.fileName = true ∧
        second.all (fun event => event.isOf w.gCfgFile.fileName) = true then
      some (gCfgFileWrite w (.inPlace first second))
    else none
  | .write (.elsewhere file) =>
    if file.filePath ≠ "" then some (gCfgFileWrite w (.elsewhere file)) else none
  | .write outcome => some (gCfgFileWrite w outcome)
  | .loop => some (loopCfgDir w)

/-- At startup the file is read, then its directory watched. -/
def cfgWatchInit (file : CfgFile) : CfgWatch :=
  { gCfgFile := { file with written := false }, queue := [], edited := false }

/-- The loop goes on until all events are read. -/
def CfgWatch.drain (w : CfgWatch) : CfgWatch := loopCfgDir^[w.queue.length] w

end WayDisplays.Model
