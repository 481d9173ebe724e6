/- The modes of a head as they are printed: a line for each resolution and Hz. -/

import WayDisplays.Lib.Clusters
import WayDisplays.Model.Head
import WayDisplays.Model.Yaml

set_option autoImplicit false
set_option relaxedAutoImplicit false

namespace WayDisplays.Model

open Lib.Clusters (Cluster clusters)

/-- `%5d` and `%4d`: blanks to a width. -/
def snprintfIntWidth (width : Nat) (n : Int) : String :=
  String.ofList (List.leftpad width ' ' (snprintfInt n).toList)

/-- `%03d`: zeros to a width, after the sign. -/
def snprintfIntZeros (width : Nat) (n : Int) : String :=
  if n < 0 then
    String.ofList ('-' :: List.leftpad (width - 1) '0' (snprintfInt n.natAbs).toList)
  else String.ofList (List.leftpad width '0' (snprintfInt n).toList)

def modeEqualResHz (a b : Mode) : Bool := modeEqualRes a b && modeHzRounded a == modeHzRounded b

/-- The loops of the listing: the outer one opens a line with a mode, the inner one appends all
the modes that match the line. -/
def modeLines (modes : Modes) : List (Cluster ModeEntry) :=
  clusters (fun major minor => modeEqualResHz major.2 minor.2) (modeCandidates modes)

/-- One mode is appended to the line. -/
def modeLineAppend (modePref : Option ModeEntry) (msg : String) (modeMinor : ModeEntry) : String :=
  let msg := msg ++ snprintfIntWidth 4 (modeMinor.2.refreshMhz.tdiv 1000) ++ "," ++
    snprintfIntZeros 3 (modeMinor.2.refreshMhz.tmod 1000) ++ " mHz"
  if modePref.any (fun pref => pref.1 == modeMinor.1) then msg ++ " (preferred)" else msg

def modeLineMsg (modePref : Option ModeEntry) (line : Cluster ModeEntry) : String :=
  let modeMajor := line.first.2
  line.members.foldl (modeLineAppend modePref)
    ("    mode:     " ++ snprintfIntWidth 5 modeMajor.width ++ " x" ++
      snprintfIntWidth 5 modeMajor.height ++ " @" ++ snprintfIntWidth 4 (modeHzRounded modeMajor) ++
      " Hz ")

def printModesResRefresh (head : Head) : List String :=
  (modeLines head.modes).map (modeLineMsg (headModePref head))

end WayDisplays.Model
