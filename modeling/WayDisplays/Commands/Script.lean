/- The script that is printed of a configuration: it is read as the requests for its settings. -/

import WayDisplays.Commands.Arguments

set_option autoImplicit false
set_option relaxedAutoImplicit false

namespace WayDisplays.Commands.Script

open Commands.Arguments
open Commands.Settings
open Lib.Shell
open Model

/-! ### Lines -/

def line : Setting → String
  | .arrangeAlign arrange align => arrangeAlignLine arrange align
  | .order names => orderLine names
  | .scaling val => scalingLine val
  | .autoScale val => autoScaleLine val
  | .scale nameDesc milliscale => scaleLine nameDesc milliscale
  | .mode nameDesc val => modeLine nameDesc val
  | .transform nameDesc val => transformLine nameDesc val
  | .disabled nameDesc => disabledLine nameDesc
  | .vrrOff nameDesc => vrrOffLine nameDesc
  | .callbackCmd cmd => callbackCmdLine cmd

def groups (cfg : Cfg) : List (List Setting) :=
  [layoutSettings cfg, orderSettings cfg, cfg.scaling.toList.map .scaling,
    cfg.autoScale.toList.map .autoScale, cfg.scales.entries.map (fun e => .scale e.1 e.2),
    (modeEntries cfg).map (fun e => .mode e.1 e.2),
    cfg.transforms.entries.map (fun e => .transform e.1 e.2),
    (unconditionalNames cfg).map .disabled, cfg.adaptiveSyncOff.vals.map .vrrOff,
    cfg.callbackCmd.toList.map .callbackCmd]

theorem flatten_groups (cfg : Cfg) : (groups cfg).flatten = settings cfg := by
  simp [groups, settings, otherSettings]

theorem cfgCommandLines_eq (cfg : Cfg) :
    cfgCommandLines cfg = (groups cfg).flatMap (fun group => printNewline (group.map line)) := by
  have horder : (orderSettings cfg).map line =
      if cfg.orderNameDesc.size > 0 then [orderLine cfg.orderNameDesc] else [] := by
    rw [orderSettings]
    split <;> rfl
  simp only [groups, modeEntries, unconditionalNames, List.map_map, List.flatMap_cons,
    List.flatMap_nil, List.append_nil, horder, ← List.append_assoc]
  rw [cfgCommandLines, layoutSettings]
  cases cfg.align <;> cases cfg.arrange <;> rfl

def words (setting : Setting) : List Word :=
  "way-displays".toList :: "-s".toList :: (element setting).toList ::
    (arguments setting).map Spelling.word

/-- Only the names of ORDER have a blank behind the last of them. -/
def trailing : Setting → List Char
  | .order _ => [' ']
  | _ => []

private theorem toList_foldl_quoted (names : List String) (msg : String) :
    (names.foldl (fun msg name => msg ++ ("'" ++ name ++ "' ")) msg).toList =
      msg.toList ++ names.flatMap (fun name => (quoted name).text ++ [' ']) := by
  induction names generalizing msg with
  | nil => simp
  | cons name names ih =>
    rw [List.foldl_cons, ih, List.flatMap_cons]
    simp [quoted, Spelling.text, String.toList_append]

/-- A blank in front of all and one behind each is one in front of each and one behind all. -/
private theorem blank_flatMap {α : Type} (as : List α) (f : α → List Char) :
    ' ' :: as.flatMap (fun a => f a ++ [' ']) = as.flatMap (fun a => ' ' :: f a) ++ [' '] := by
  induction as with
  | nil => rfl
  | cons a as ih =>
    rw [List.flatMap_cons, List.flatMap_cons, List.append_assoc, List.singleton_append, ih]
    simp

private theorem toList_orderLine (names : Sset) :
    (orderLine names).toList = ("way-displays -s ".toList ++ "ORDER".toList ++
      (names.vals.map quoted).flatMap (fun a => ' ' :: a.text)) ++ [' '] := by
  have hmsg := toList_foldl_quoted names.vals ""
  have hblanks : " ".toList ++ names.vals.flatMap (fun name => (quoted name).text ++ [' ']) =
      names.vals.flatMap (fun name => ' ' :: (quoted name).text) ++ [' '] :=
    blank_flatMap names.vals (fun name => (quoted name).text)
  have hfront : "way-displays -s ORDER " = "way-displays -s " ++ "ORDER" ++ " " := by
    decide +kernel
  delta orderLine
  rw [String.toList_append, hmsg, String.toList_empty, List.nil_append, hfront,
    String.toList_append, String.toList_append, List.flatMap_map, List.append_assoc, hblanks]
  simp only [List.append_assoc]

private theorem toList_modeLine (nameDesc : String) (mode : Mode) :
    (modeLine nameDesc mode).toList = "way-displays -s ".toList ++ "MODE".toList ++
      (quoted nameDesc :: (modeArguments mode).map bare).flatMap (fun a => ' ' :: a.text) := by
  delta modeLine modeMsg modeArguments
  split
  · simp [bare, quoted, Spelling.text, String.toList_append]
  · split <;> simp [bare, quoted, Spelling.text, String.toList_append, hzMsg]

theorem toList_line (setting : Setting) :
    (line setting).toList = ("way-displays -s ".toList ++ (element setting).toList ++
      (arguments setting).flatMap (fun a => ' ' :: a.text)) ++ trailing setting := by
  cases setting with
  | order names => exact toList_orderLine names
  | mode nameDesc mode => exact (toList_modeLine nameDesc mode).trans (List.append_nil _).symm
  | arrangeAlign arrange align =>
    delta line arrangeAlignLine element arguments trailing
    simp [bare, Spelling.text]
  | scaling val =>
    delta line scalingLine element arguments trailing
    simp [bare, Spelling.text]
  | autoScale val =>
    delta line autoScaleLine element arguments trailing
    simp [bare, Spelling.text]
  | scale nameDesc milliscale =>
    delta line scaleLine element arguments trailing
    simp [bare, quoted, Spelling.text]
  | transform nameDesc transform =>
    delta line transformLine element arguments trailing
    simp [bare, quoted, Spelling.text]
  | disabled nameDesc =>
    delta line disabledLine element arguments trailing
    simp [quoted, Spelling.text]
  | vrrOff nameDesc =>
    delta line vrrOffLine element arguments trailing
    simp [quoted, Spelling.text]
  | callbackCmd cmd =>
    delta line callbackCmdLine element arguments trailing
    simp [quoted, Spelling.text]

/-! ### Reading the script -/

theorem plain_elementKey (cfgElement : CfgElement) : Plain (elementKey cfgElement).toList := by
  cases cfgElement <;> decide +kernel

theorem reads_element (setting : Setting) :
    Reads ("way-displays -s ".toList ++ (element setting).toList)
      ["way-displays".toList, "-s".toList, (element setting).toList] := by
  have hprogram : Plain "way-displays".toList := by decide +kernel
  have hoption : Plain "-s".toList := by decide +kernel
  have helement : Plain (element setting).toList := by
    have hkey := plain_elementKey (cfgElementOf setting)
    cases setting <;> exact hkey
  have hfront : "way-displays -s ".toList =
      "way-displays".toList ++ ' ' :: ("-s".toList ++ [' ']) := by decide +kernel
  have hreads := ((spells_plain hprogram).reads.snoc (spells_plain hoption)).snoc
    (spells_plain helement)
  rw [hfront, List.append_assoc, List.cons_append, List.append_assoc, List.singleton_append]
  rw [List.append_assoc, List.cons_append] at hreads
  exact hreads

theorem lines_line {setting : Setting} (h : Printable setting) :
    Lines [(line setting).toList] [words setting] := by
  have hreads := (reads_element setting).spellings fun a ha => (operand_arguments h a ha).1
  have htrailing : trailing setting = [] ∨ trailing setting = [' '] := by
    cases setting <;> simp [trailing]
  rw [toList_line]
  rcases htrailing with hnone | hblank
  · rw [hnone, List.append_nil]
    exact hreads.line (List.cons_ne_nil _ _)
  · rw [hblank]
    exact hreads.blank.line (List.cons_ne_nil _ _)

theorem lines_printNewline {group : List Setting} (h : ∀ setting ∈ group, Printable setting) :
    Lines ((printNewline (group.map line)).map String.toList) (group.map words) := by
  have hlines : Lines (group.map (fun setting => (line setting).toList)) (group.map words) :=
    lines_map fun setting hsetting => lines_line (h setting hsetting)
  unfold printNewline
  split
  · rename_i hempty
    obtain rfl := List.map_eq_nil_iff.mp (List.isEmpty_iff.mp hempty)
    exact lines_nil
  · rw [List.map_cons, List.map_map]
    exact lines_append lines_blank hlines

theorem lines_groups {groups : List (List Setting)}
    (h : ∀ group ∈ groups, ∀ setting ∈ group, Printable setting) :
    Lines ((groups.flatMap (fun group => printNewline (group.map line))).map String.toList)
      (groups.flatten.map words) := by
  induction groups with
  | nil => exact lines_nil
  | cons group groups ih =>
    rw [List.flatMap_cons, List.map_append, List.flatten_cons, List.map_append]
    exact lines_append (lines_printNewline (h group List.mem_cons_self))
      (ih fun g hg => h g (List.mem_cons_of_mem group hg))

theorem runCommand_words {setting : Setting} (h : Printable setting) (cfg : Cfg) :
    runCommand cfg (words setting) = some (cfgAfter cfg setting.request) := by
  have hwords : (words setting).map String.ofList =
      "way-displays" :: "-s" :: element setting :: (arguments setting).map argument := by
    simp only [words, List.map_cons, List.map_map, String.ofList_toList]
    rfl
  rw [runCommand, hwords, cliParse_arguments h, Option.map_some]

theorem foldlM_runCommand {settings : List Setting} (h : ∀ setting ∈ settings, Printable setting)
    (cfg : Cfg) :
    (settings.map words).foldlM runCommand cfg =
      some ((settings.map Setting.request).foldl cfgAfter cfg) := by
  induction settings generalizing cfg with
  | nil => rfl
  | cons setting settings ih =>
    rw [List.map_cons, List.foldlM_cons, runCommand_words (h setting List.mem_cons_self)]
    exact ih (fun s hs => h s (List.mem_cons_of_mem setting hs)) _

end WayDisplays.Commands.Script
