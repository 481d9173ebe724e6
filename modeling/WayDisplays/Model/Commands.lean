/- The commands that set a configuration: how they are printed, and what a client makes of them. -/

import WayDisplays.Lib.Shell
import WayDisplays.Model.Yaml

set_option autoImplicit false
set_option relaxedAutoImplicit false

namespace WayDisplays.Model

open Lib (Floating OrderedMap OrderedSet)

/-! ### Printing -/

/-- MAX_LINE_LEN -/
def maxLineLen : Nat := 65536

/-- The characters that fit a number of bytes, without a part of the one at the end. -/
def fitting : Nat → List Char → List Char
  | _, [] => []
  | bytes, c :: cs => if c.utf8Size ≤ bytes then c :: fitting (bytes - c.utf8Size) cs else []

def snprintfAlloc (maxlen : Nat) (s : String) : String :=
  if s.utf8ByteSize ≤ maxlen then s else String.ofList (fitting maxlen s.toList)

/-- A line as `log_` prints it at the INFO threshold: without a label. -/
def logLine (s : String) : String := snprintfAlloc maxLineLen s

/-- A `%s`: there may be no string. -/
def strOrNull (s : Option String) : String := s.getD "(null)"

/-- A `%.3f`. -/
def snprintfMillis (q : ℚ) : String := String.ofList (Lib.Decimal.writeRounded 3 q)

def onOffName (onOff : OnOff) : Option String := valName onOffs onOff

/-- `print_newline` in front of the first line. -/
def printNewline (lines : List String) : List String := if lines.isEmpty then [] else "" :: lines

def scaleMsg (milliscale : Nat) : String :=
  snprintfMillis (toDouble (toDouble milliscale / 1000))

def modeMsg (mode : Mode) : String :=
  if mode.max then "MAX"
  else if mode.refreshMhz ≠ -1 then
    snprintfInt mode.width ++ " " ++ snprintfInt mode.height ++ " " ++
      snprintfFloat (toFloat (toFloat mode.refreshMhz / 1000))
  else snprintfInt mode.width ++ " " ++ snprintfInt mode.height

/-! One command for each element, or for each entry of one. -/

def arrangeAlignLine (arrange : Arrange) (align : Align) : String :=
  "way-displays -s ARRANGE_ALIGN " ++ strOrNull (arrangeName arrange) ++ " " ++
    strOrNull (alignName align)

def orderLine (names : Sset) : String :=
  "way-displays -s ORDER " ++ names.vals.foldl (fun msg name => msg ++ ("'" ++ name ++ "' ")) ""

def scalingLine (scaling : OnOff) : String :=
  "way-displays -s SCALING " ++ strOrNull (onOffName scaling)

def autoScaleLine (autoScale : OnOff) : String :=
  "way-displays -s AUTO_SCALE " ++ strOrNull (onOffName autoScale)

def scaleLine (nameDesc : String) (milliscale : Nat) : String :=
  "way-displays -s SCALE '" ++ nameDesc ++ "' " ++ scaleMsg milliscale

def modeLine (nameDesc : String) (mode : Mode) : String :=
  "way-displays -s MODE '" ++ nameDesc ++ "' " ++ modeMsg mode

def transformLine (nameDesc : String) (transform : Transform) : String :=
  "way-displays -s TRANSFORM '" ++ nameDesc ++ "' " ++ strOrNull (transformName transform)

def disabledLine (nameDesc : String) : String := "way-displays -s DISABLED '" ++ nameDesc ++ "'"

def vrrOffLine (nameDesc : String) : String := "way-displays -s VRR_OFF '" ++ nameDesc ++ "'"

def callbackCmdLine (cmd : String) : String := "way-displays -s CALLBACK_CMD '" ++ cmd ++ "'"

/-- The lines that `print_cfg_commands` logs, with an empty one in front of each group. -/
def cfgCommandLines (cfg : Cfg) : List String :=
  printNewline
    (match cfg.align, cfg.arrange with
      | some align, some arrange => [arrangeAlignLine arrange align]
      | _, _ => []) ++
  printNewline (if cfg.orderNameDesc.size > 0 then [orderLine cfg.orderNameDesc] else []) ++
  printNewline (cfg.scaling.toList.map scalingLine) ++
  printNewline (cfg.autoScale.toList.map autoScaleLine) ++
  printNewline (cfg.scales.entries.map (fun e => scaleLine e.1 e.2)) ++
  printNewline ((cfg.modes.entries.filter (fun e => !e.2.maxPreferredRefresh)).map
    (fun e => modeLine e.1 e.2)) ++
  printNewline (cfg.transforms.entries.map (fun e => transformLine e.1 e.2)) ++
  printNewline ((cfg.disableds.entries.filter (fun e => decide (e.2.conditions.size = 0))).map
    (fun e => disabledLine e.1)) ++
  printNewline (cfg.adaptiveSyncOff.vals.map vrrOffLine) ++
  printNewline (cfg.callbackCmd.toList.map callbackCmdLine)

def printCfgCommands (cfg : Cfg) : List String := (cfgCommandLines cfg).map logLine

/-! ### Arguments -/

def atoi (s : String) : Int := (sscanfInt s).getD 0

/-- A number of some precision, zero without one. -/
def strtofloating (round : ℚ → ℚ) (s : String) : Floating :=
  ((Floating.readFloating (s.toList.dropWhile isSpace)).map (Floating.map round)).getD 0

def strtof (s : String) : Floating := strtofloating toFloat s

def atof (s : String) : Floating := strtofloating toDouble s

def argsCfgArrangeAlign : List String → Option Cfg
  | arrange :: align :: _ =>
    (arrangeValStart arrange).bind (fun arrange => (alignValStart align).map (fun align =>
      { cfgInit with arrange := some arrange, align := some align }))
  | _ => none

/-- SCALING and AUTO_SCALE: ON is interpreted as a toggle. -/
def argsCfgOnOff (command : IpcCommand) (set : OnOff → Cfg) (args : List String) : Option Cfg :=
  match command with
  | .cfgToggle => some (set .on)
  | .cfgSet => (args.head?.bind onOffVal).map set
  | _ => none

/-- SCALE, MODE and TRANSFORM: what the arguments after the name say, a dummy to delete. -/
def argsCfgNamed {α : Type} (command : IpcCommand) (parse : List String → Option α) (dummy : α)
    (put : String → α → Cfg) : List String → Option Cfg
  | [] => none
  | nameDesc :: args =>
    match command with
    | .cfgSet => (parse args).map (put nameDesc)
    | .cfgDel => some (put nameDesc dummy)
    | _ => none

def argsScale : List String → Option Nat
  | [] => none
  | scale :: _ =>
    if (strtof scale).positive then some (toMilliscale (strtof scale)) else none

def argsModeRefresh (mode : Mode) : List String → Option Mode
  | [] => some mode
  | hz :: _ =>
    let refreshMhz := lroundMhz toDouble (atof hz)
    if 0 < refreshMhz then some { mode with refreshMhz := refreshMhz } else none

def argsMode : List String → Option Mode
  | [] => none
  | width :: args =>
    if strcasecmpEqual width "MAX" then some { modeInit with max := true }
    else
      match args with
      | [] => none
      | height :: args =>
        if 0 < atoi width ∧ 0 < atoi height then
          argsModeRefresh { modeInit with width := atoi width, height := atoi height } args
        else none

def argsTransform (args : List String) : Option Transform := args.head?.bind transformVal

def argsCfgCallbackCmd (command : IpcCommand) (args : List String) : Option Cfg :=
  match command with
  | .cfgSet => args.head?.map (fun cmd => { cfgInit with callbackCmd := some cmd })
  | .cfgDel => some { cfgInit with callbackCmd := some "" }
  | _ => none

/-- The arguments from `optind` on; none where the client exits. -/
def argsCfg (command : IpcCommand) (element : CfgElement) (args : List String) : Option Cfg :=
  match element with
  | .arrangeAlign => argsCfgArrangeAlign args
  | .scaling => argsCfgOnOff command (fun val => { cfgInit with scaling := some val }) args
  | .autoScale => argsCfgOnOff command (fun val => { cfgInit with autoScale := some val }) args
  | .scale => argsCfgNamed command argsScale 1000
      (fun nameDesc scale => { cfgInit with scales := cfgInit.scales.put nameDesc scale }) args
  | .mode => argsCfgNamed command argsMode { modeInit with max := true }
      (fun nameDesc mode => { cfgInit with modes := cfgInit.modes.put nameDesc mode }) args
  | .transform => argsCfgNamed command argsTransform .rot90
      (fun nameDesc transform =>
        { cfgInit with transforms := cfgInit.transforms.put nameDesc transform }) args
  | .vrrOff => some { cfgInit with adaptiveSyncOff := args.foldl OrderedSet.add .empty }
  | .disabled =>
    let cfgDisabledInit : CfgDisabled := { conditions := .empty }
    some { cfgInit with
      disableds := args.foldl (fun disableds arg => disableds.put arg cfgDisabledInit) .empty }
  | .order => some { cfgInit with orderNameDesc := args.foldl OrderedSet.add .empty }
  | .callbackCmd => argsCfgCallbackCmd command args
  | _ => none

/-- Whether `--set` takes so many arguments for an element. -/
def argsIpcSetTakes (element : CfgElement) (count : Nat) : Bool :=
  match element with
  | .mode => decide (2 ≤ count ∧ count ≤ 4)
  | .arrangeAlign | .scale | .transform => count == 2
  | .scaling | .autoScale | .disabled | .vrrOff | .callbackCmd => count == 1
  | .order => decide (1 ≤ count)
  | _ => false

def argsIpcSet (optarg : String) (args : List String) : Option IpcRequest :=
  (cfgElementVal optarg).bind (fun element =>
    if argsIpcSetTakes element args.length then
      (argsCfg .cfgSet element args).map (fun cfg =>
        { ipcRequestInit (some .cfgSet) with cfg := some cfg })
    else none)

/-- What `getopt_long` does not take for an option. -/
def isOperand (arg : String) : Bool := arg == "-" || decide (arg.toList.head? ≠ some '-')

/-- The only option is a `-s` in front, which is all that is printed: `getopt_long` goes through
the other arguments as well once the request is there. -/
def cliParse : List String → Option IpcRequest
  | program :: option :: optarg :: args =>
    if program = "way-displays" ∧ option = "-s" ∧ args.all isOperand then argsIpcSet optarg args
    else none
  | _ => none

/-! ### Running -/

/-- What the server starts with where there is no file. -/
def cfgDefault : Cfg := cfgValidateFix (cfgApplyDefaults cfgInit)

/-- A configuration with the request merged, as long as it makes a difference. -/
def cfgAfter (cfg : Cfg) (request : IpcRequest) : Cfg :=
  (cfgMerge cfg request.cfg request.command).getD cfg

def runCommand (cfg : Cfg) (words : List Lib.Shell.Word) : Option Cfg :=
  (cliParse (words.map String.ofList)).map (cfgAfter cfg)

/-- Run what is printed as a script of the shell; none when it or one of its commands fails. -/
def runLines (cfg : Cfg) (lines : List String) : Option Cfg :=
  (Lib.Shell.commands (Lib.Shell.text (lines.map String.toList))).bind (fun commands =>
    commands.foldlM runCommand cfg)

end WayDisplays.Model
