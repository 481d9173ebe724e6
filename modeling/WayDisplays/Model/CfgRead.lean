/- The configuration file that is found at startup: the first candidate that can be read. -/

import WayDisplays.Model.CfgWrite
import WayDisplays.Model.Unmarshal

set_option autoImplicit false
set_option relaxedAutoImplicit false

namespace WayDisplays.Model.CfgReading

open Lib (OrderedSet)
open CfgWriting

def pathMax : Nat := 4096

/-- What `snprintf` leaves of a path, of which the last two bytes are not used. -/
def snprintfPath (path : String) : String :=
  String.ofList (takeBytes (pathMax - 2) path.toList)

/-- The directory of the build for system wide files. -/
def rootEtc : String := "/etc"

/-- A file the user asked for, if that can be read, then where it usually is; `HOME` is for want
of `XDG_CONFIG_HOME`. -/
def candidatesInit (access : String → Bool) (userPath xdgConfigHome home : Option String) : Sset :=
  let user := match userPath with
    | some path => if access path then OrderedSet.empty.add path else .empty
    | none => .empty
  let own := match xdgConfigHome, home with
    | some dir, _ => user.add (snprintfPath (dir ++ "/way-displays/cfg.yaml"))
    | none, some dir => user.add (snprintfPath (dir ++ "/.config/way-displays/cfg.yaml"))
    | none, none => user
  (own.add "/usr/local/etc/way-displays/cfg.yaml").add (rootEtc ++ "/way-displays/cfg.yaml")

section Read

-- Which file a path names, by what name it is known, and whether it can be read.
variable {ι : Type} (file : String → ι) (canonical : ι → String) (readable : ι → Bool)

def fsCanonicalPath (files : Files ι) (path : String) : Option String :=
  if (files (file path)).isSome && readable (file path) then some (canonical (file path))
  else none

def resolve (files : Files ι) (candidates : List String) : Option CfgFilePaths :=
  candidates.findSome? (fun candidate =>
    (fsCanonicalPath file canonical readable files candidate).map (hydrate candidate))

/-- The file and the configuration of a server that starts; `load` yields the root of a
document. -/
def gCfgFileInitRead [Platform] (load : Bytes → Option YamlNode) (files : Files ι)
    (candidates : List String) : CfgFilePaths × Cfg :=
  match resolve file canonical readable files candidates with
  | some gCfgFile =>
    (gCfgFile, Model.gCfgFileInitRead ((files (file gCfgFile.filePath)).bind load))
  | none => (cfgFilePathsNone, Model.gCfgFileInitRead none)

end Read

end WayDisplays.Model.CfgReading
