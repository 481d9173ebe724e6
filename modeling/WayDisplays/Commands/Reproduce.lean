/- The commands that are printed of a configuration make it again from the default. -/

import Mathlib.Data.String.Basic
import WayDisplays.Commands.Script

set_option autoImplicit false
set_option relaxedAutoImplicit false

namespace WayDisplays.Commands.Reproduce

open CfgFile.Validity
open Commands.Arguments
open Commands.Script
open Commands.Settings
open Lib (OrderedMap OrderedSet)
open Model
open Yaml.CfgCodec (ModeCanonical sizedMode)

def cfgStrings (cfg : Cfg) : List String :=
  cfg.orderNameDesc.vals ++ cfg.scales.keys ++ cfg.modes.keys ++ cfg.transforms.keys ++
    cfg.disableds.keys ++ cfg.adaptiveSyncOff.vals ++ cfg.callbackCmd.toList

/-- A valid configuration with strings, scales and modes that commands can hold. -/
structure CfgPrintable (cfg : Cfg) : Prop extends CfgValid cfg where
  strings : ∀ s ∈ cfgStrings cfg, Quotable s
  scales : ∀ milliscale ∈ cfg.scales.vals, 1 ≤ milliscale ∧ milliscale ≤ 999999
  canonical : ∀ mode ∈ cfg.modes.vals, ModeCanonical (configured mode)

/-- The same elements, in the same order where they have one, and the same entries that are
disabled without a condition. -/
structure Reproduces (cfg got : Cfg) : Prop where
  arrange : got.arrange = cfg.arrange
  align : got.align = cfg.align
  orderNameDesc : got.orderNameDesc = cfg.orderNameDesc
  scaling : got.scaling = cfg.scaling
  autoScale : got.autoScale = cfg.autoScale
  scales : got.scales = cfg.scales
  transforms : got.transforms = cfg.transforms
  adaptiveSyncOff : got.adaptiveSyncOff = cfg.adaptiveSyncOff
  callbackCmd : got.callbackCmd = cfg.callbackCmd
  modes : got.modes.entries = modeEntries cfg
  disableds : ∀ nameDesc, nameDesc ∈ unconditionalNames got ↔ nameDesc ∈ unconditionalNames cfg

/-! ### The settings -/

theorem modePrintable_configured {mode : Mode} (hcanonical : ModeCanonical (configured mode))
    (hvalid : modeIsInvalid mode = false) (hpreferred : mode.maxPreferredRefresh = false) :
    ModePrintable (configured mode) := by
  rcases hcanonical with hmax | hpref | ⟨width, height, refreshMhz, hw, hh, hrefresh, hsized⟩
  · exact Or.inl hmax
  · have htrue : mode.maxPreferredRefresh = true := congrArg Mode.maxPreferredRefresh hpref
    rw [htrue] at hpreferred
    exact absurd hpreferred.symm Bool.false_ne_true
  · have hinvalid : modeIsInvalid (sizedMode width height refreshMhz) = false := by
      rw [← hsized]
      exact hvalid
    simp only [modeIsInvalid, sizedMode] at hinvalid
    refine Or.inr ⟨width, height, refreshMhz, hw, hh, ?_, ?_, hrefresh, hsized⟩
    · by_contra hneg
      grind
    · by_contra hneg
      grind

theorem printable_groups {cfg : Cfg} (h : CfgPrintable cfg)
    (hnamed : ∀ transform ∈ cfg.transforms.vals, transform ≠ .normal) :
    ∀ group ∈ groups cfg, ∀ setting ∈ group, Printable setting := by
  obtain ⟨⟨⟨⟨⟨⟨horder, hscales⟩, hmodes⟩, htransforms⟩, hdisableds⟩, hvrrOff⟩, hcmd⟩ := by
    simpa only [cfgStrings, List.mem_append, or_imp, forall_and] using h.strings
  intro group hgroup setting hsetting
  simp only [groups, List.mem_cons, List.not_mem_nil, or_false] at hgroup
  rcases hgroup with rfl | rfl | rfl | rfl | rfl | rfl | rfl | rfl | rfl | rfl
  · unfold layoutSettings at hsetting
    split at hsetting
    · rw [List.mem_singleton.mp hsetting]
      trivial
    · exact absurd hsetting List.not_mem_nil
  · unfold orderSettings at hsetting
    split at hsetting
    · rename_i hsize
      rw [List.mem_singleton.mp hsetting]
      exact ⟨hsize, horder⟩
    · exact absurd hsetting List.not_mem_nil
  · obtain ⟨val, -, rfl⟩ := List.mem_map.mp hsetting
    trivial
  · obtain ⟨val, -, rfl⟩ := List.mem_map.mp hsetting
    trivial
  · obtain ⟨e, he, rfl⟩ := List.mem_map.mp hsetting
    exact ⟨hscales e.1 (List.mem_map_of_mem he), h.scales e.2 (List.mem_map_of_mem he)⟩
  · obtain ⟨e, he, rfl⟩ := List.mem_map.mp hsetting
    obtain ⟨entry, hentry, rfl⟩ := List.mem_map.mp he
    obtain ⟨hentry, hpreferred⟩ := List.mem_filter.mp hentry
    have hmode : entry.2 ∈ cfg.modes.vals := List.mem_map_of_mem hentry
    rw [Bool.not_eq_true'] at hpreferred
    exact ⟨hmodes entry.1 (List.mem_map_of_mem hentry),
      modePrintable_configured (h.canonical entry.2 hmode) (h.modes entry.2 hmode) hpreferred⟩
  · obtain ⟨e, he, rfl⟩ := List.mem_map.mp hsetting
    exact ⟨htransforms e.1 (List.mem_map_of_mem he), hnamed e.2 (List.mem_map_of_mem he)⟩
  · obtain ⟨nameDesc, hname, rfl⟩ := List.mem_map.mp hsetting
    obtain ⟨e, he, rfl⟩ := List.mem_map.mp hname
    exact hdisableds e.1 (List.mem_map_of_mem (List.mem_of_mem_filter he))
  · obtain ⟨nameDesc, hname, rfl⟩ := List.mem_map.mp hsetting
    exact hvrrOff nameDesc hname
  · obtain ⟨cmd, hmem, rfl⟩ := List.mem_map.mp hsetting
    exact hcmd cmd hmem

/-- Settings of a valid configuration are valid to make, its order once there is none. -/
theorem fits_settings {cfg base : Cfg} (h : CfgValid cfg) (hbase : base.orderNameDesc.size = 0) :
    Fits base (settings cfg) := by
  have hlayout : Fits base (layoutSettings cfg) := by
    unfold layoutSettings
    split
    · rename_i arrange align harrange halign
      have hadmissible := h.alignAdmissible
      rw [harrange, halign] at hadmissible
      exact ⟨hadmissible, trivial⟩
    · trivial
  have hempty : ((layoutSettings cfg).foldl Setting.apply base).orderNameDesc.size = 0 := by
    unfold layoutSettings
    split <;> exact hbase
  have horder : ∀ base : Cfg, base.orderNameDesc.size = 0 → Fits base (orderSettings cfg) := by
    intro base hbase
    unfold orderSettings
    split
    · rename_i hsize
      exact ⟨⟨hsize, hbase⟩, trivial⟩
    · trivial
  refine fits_append hlayout (fits_append (horder _ hempty) (fits_of_forall ?_))
  intro setting hsetting base
  simp only [otherSettings, List.mem_append, List.mem_map] at hsetting
  rcases hsetting with ⟨_, -, rfl⟩ | ⟨_, -, rfl⟩ | ⟨_, -, rfl⟩ | ⟨e, he, rfl⟩ | ⟨_, -, rfl⟩ |
    ⟨_, -, rfl⟩ | ⟨_, -, rfl⟩ | ⟨_, -, rfl⟩
  case inr.inr.inr.inl =>
    obtain ⟨entry, hentry, rfl⟩ := List.mem_map.mp he
    exact h.modes entry.2 (List.mem_map_of_mem (List.mem_of_mem_filter hentry))
  all_goals trivial

/-! ### What they make of the default -/

theorem mem_unconditionalNames {cfg : Cfg} {nameDesc : String} :
    nameDesc ∈ unconditionalNames cfg ↔
      ∃ disabled, cfg.disableds.get? nameDesc = some disabled ∧ disabled.conditions.size = 0 := by
  constructor
  · intro h
    obtain ⟨e, he, rfl⟩ := List.mem_map.mp h
    obtain ⟨he, hsize⟩ := List.mem_filter.mp he
    exact ⟨e.2, OrderedMap.get?_eq_some_iff.mpr he, of_decide_eq_true hsize⟩
  · rintro ⟨disabled, hget, hsize⟩
    exact List.mem_map.mpr ⟨(nameDesc, disabled),
      List.mem_filter.mpr ⟨OrderedMap.get?_eq_some_iff.mp hget, decide_eq_true hsize⟩, rfl⟩

theorem nodup_unconditionalNames (cfg : Cfg) : (unconditionalNames cfg).Nodup :=
  cfg.disableds.nodup.sublist (List.filter_sublist.map Prod.fst)

theorem mem_unconditionalNames_putAll {cfg got : Cfg} {nameDesc : String}
    (hgot : got.disableds = cfgDefault.disableds.putAll
      ((unconditionalNames cfg).map (fun name => (name, unconditional)))) :
    nameDesc ∈ unconditionalNames got ↔ nameDesc ∈ unconditionalNames cfg := by
  have hkeys : ((unconditionalNames cfg).map (fun name => (name, unconditional))).map Prod.fst =
      unconditionalNames cfg := by
    rw [List.map_map]
    exact List.map_id _
  rw [mem_unconditionalNames, hgot]
  by_cases hname : nameDesc ∈ unconditionalNames cfg
  · have hput := OrderedMap.get?_putAll_of_mem cfgDefault.disableds _
      (hkeys.symm ▸ nodup_unconditionalNames cfg)
      (List.mem_map.mpr ⟨nameDesc, hname, (rfl : _ = (nameDesc, unconditional))⟩)
    exact iff_of_true ⟨unconditional, hput, rfl⟩ hname
  · have hdefault : unconditionalNames cfgDefault = [] := rfl
    rw [OrderedMap.get?_putAll_of_not_mem _ _ (hkeys.symm ▸ hname), ← mem_unconditionalNames,
      hdefault]
    exact iff_of_false List.not_mem_nil hname

theorem reproduces_settings {cfg : Cfg} (h : CfgValid cfg) :
    Reproduces cfg ((settings cfg).foldl Setting.apply cfgDefault) := by
  have hlayout : (layoutSettings cfg).foldl Setting.apply cfgDefault =
      { cfgDefault with arrange := cfg.arrange, align := cfg.align } := by
    obtain ⟨arrange, harrange⟩ := Option.isSome_iff_exists.mp h.arrange
    obtain ⟨align, halign⟩ := Option.isSome_iff_exists.mp h.align
    rw [layoutSettings, harrange, halign]
    rfl
  have horder (base : Cfg) (hbase : base.orderNameDesc = .empty) :
      (orderSettings cfg).foldl Setting.apply base =
        { base with orderNameDesc := cfg.orderNameDesc } := by
    unfold orderSettings
    split
    · rfl
    · rename_i hsize
      have hnil : cfg.orderNameDesc.vals = [] :=
        List.eq_nil_of_length_eq_zero (Nat.eq_zero_of_not_pos hsize)
      have hempty : cfg.orderNameDesc = .empty := OrderedSet.ext hnil
      rw [hempty, ← hbase]
      rfl
  have hmodes : (modeEntries cfg).map Prod.fst =
      (cfg.modes.entries.filter (fun e => !e.2.maxPreferredRefresh)).map Prod.fst := by
    rw [modeEntries, List.map_map]
    rfl
  have hnodup : ((modeEntries cfg).map Prod.fst).Nodup := by
    rw [hmodes]
    exact cfg.modes.nodup.sublist (List.filter_sublist.map Prod.fst)
  rw [settings, List.foldl_append, List.foldl_append, hlayout, horder _ rfl, foldl_otherSettings]
  exact
    { arrange := rfl, align := rfl, orderNameDesc := rfl
      scaling := Option.or_of_isSome h.scaling
      autoScale := Option.or_of_isSome h.autoScale
      scales := OrderedMap.putAll_entries cfg.scales
      transforms := OrderedMap.putAll_entries cfg.transforms
      adaptiveSyncOff := OrderedSet.addAll_empty cfg.adaptiveSyncOff
      callbackCmd := Option.or_of_isSome h.callbackCmd
      modes := OrderedMap.entries_putAll (m := .empty) hnodup
      disableds := fun _ => mem_unconditionalNames_putAll rfl }

/-! ### The whole script -/

theorem valid_cfgDefault : CfgValid cfgDefault :=
  valid_loaded ⟨by decide, by simp [cfgInit, ConditionsNontrivial, OrderedMap.vals,
    OrderedMap.empty]⟩

theorem printCfgCommands_eq {cfg : Cfg}
    (h : ∀ line ∈ cfgCommandLines cfg, line.utf8ByteSize ≤ maxLineLen) :
    printCfgCommands cfg = cfgCommandLines cfg := by
  refine (List.map_congr_left fun line hline => ?_).trans (List.map_id _)
  exact if_pos (h line hline)

/-- What is printed in lines that fit the buffer makes the configuration again. -/
theorem runLines_printCfgCommands {cfg : Cfg} (h : CfgPrintable cfg)
    (hnamed : ∀ transform ∈ cfg.transforms.vals, transform ≠ .normal)
    (hfits : ∀ line ∈ cfgCommandLines cfg, line.utf8ByteSize ≤ maxLineLen) :
    ∃ got, runLines cfgDefault (printCfgCommands cfg) = some got ∧ Reproduces cfg got := by
  have hprintable := printable_groups h hnamed
  have hsettings : ∀ setting ∈ settings cfg, Printable setting := by
    intro setting hsetting
    rw [← flatten_groups] at hsetting
    obtain ⟨group, hgroup, hmem⟩ := List.mem_flatten.mp hsetting
    exact hprintable group hgroup setting hmem
  have hcommands := Lib.Shell.commands_of_lines (lines_groups hprintable)
  rw [flatten_groups] at hcommands
  have hrun : ((settings cfg).map words).foldlM runCommand cfgDefault =
      some ((settings cfg).foldl Setting.apply cfgDefault) := by
    rw [foldlM_runCommand hsettings,
      foldl_cfgAfter valid_cfgDefault (fits_settings h.toCfgValid rfl)]
  refine ⟨_, ?_, reproduces_settings h.toCfgValid⟩
  rw [runLines, printCfgCommands_eq hfits, cfgCommandLines_eq, hcommands, Option.bind_some, hrun]

instance (s : String) : Decidable (Quotable s) :=
  decidable_of_iff ('\'' ∉ s.toList ∧ s.toList.head? ≠ some '-')
    ⟨fun h => ⟨h.1, h.2⟩, fun h => ⟨h.noQuote, h.noOption⟩⟩

def laptopAndMonitor : Cfg :=
  { cfgDefault with
    arrange := some .col
    align := some .right
    orderNameDesc := (OrderedSet.empty.add "DP-1").add "eDP-1"
    scaling := some .off
    scales := OrderedMap.empty.put "DP-1" 1250
    modes := ((OrderedMap.empty.put "DP-1" (sizedMode 3840 2160 59997)).put "DP-2"
      { modeInit with max := true }).put "DP-3" { modeInit with maxPreferredRefresh := true }
    transforms := OrderedMap.empty.put "DP-1" .flipped90
    disableds := cfgDefault.disableds.put "My TV" unconditional
    adaptiveSyncOff := OrderedSet.empty.add "DP-2"
    callbackCmd := some "" }

theorem valid_laptopAndMonitor : CfgValid laptopAndMonitor :=
  { valid_cfgDefault with
    arrange := rfl
    scaling := rfl
    callbackCmd := rfl
    conditions := nontrivial_put valid_cfgDefault.conditions "My TV" fun _ hnone =>
      absurd hnone List.not_mem_nil
    align := rfl
    alignAdmissible := Or.inr (Or.inr rfl)
    modes := by decide }

theorem printable_laptopAndMonitor : CfgPrintable laptopAndMonitor :=
  { valid_laptopAndMonitor with
    strings := by decide
    scales := by decide
    canonical := by
      have hmodes : laptopAndMonitor.modes.vals = [sizedMode 3840 2160 59997,
          { modeInit with max := true }, { modeInit with maxPreferredRefresh := true }] := rfl
      intro mode hmode
      rw [hmodes, List.mem_cons, List.mem_pair] at hmode
      rcases hmode with rfl | rfl | rfl
      · exact Or.inr (Or.inr ⟨3840, 2160, 59997, ⟨by decide, by decide⟩, ⟨by decide, by decide⟩,
          by decide, rfl⟩)
      · exact Or.inl rfl
      · exact Or.inr (Or.inl rfl) }

theorem runLines_laptopAndMonitor :
    ∃ got, runLines cfgDefault (printCfgCommands laptopAndMonitor) = some got ∧
      Reproduces laptopAndMonitor got :=
  runLines_printCfgCommands printable_laptopAndMonitor (by decide) (by decide +kernel)

/-! ### Lines that are cut off -/

theorem fitting_ascii {cs : List Char} (h : ∀ c ∈ cs, c.utf8Size = 1) (bytes : Nat) :
    fitting bytes cs = cs.take bytes := by
  induction cs generalizing bytes with
  | nil => rw [fitting, List.take_nil]
  | cons c cs ih =>
    rw [fitting, h c List.mem_cons_self]
    cases bytes with
    | zero => rfl
    | succ bytes =>
      rw [if_pos (by omega), Nat.add_sub_cancel, ih fun d hd => h d (List.mem_cons_of_mem c hd)]
      rfl

def longCallback (length : Nat) : Cfg :=
  { cfgDefault with callbackCmd := some (String.ofList (List.replicate length 'x')) }

theorem utf8Len_ascii {cs : List Char} (h : ∀ c ∈ cs, c.utf8Size = 1) :
    String.utf8Len cs = cs.length := by
  induction cs with
  | nil => rfl
  | cons c cs ih =>
    rw [String.utf8Len_cons, ih fun d hd => h d (List.mem_cons_of_mem c hd),
      h c List.mem_cons_self, List.length_cons]

def callbackCmdFront : List Char := "way-displays -s ".toList ++ "CALLBACK_CMD".toList

theorem toList_callbackCmdLine (cmd : String) :
    (callbackCmdLine cmd).toList = callbackCmdFront ++ ' ' :: '\'' :: (cmd.toList ++ ['\'']) := by
  have hline : (callbackCmdLine cmd).toList =
      callbackCmdFront ++ [quoted cmd].flatMap (fun a => ' ' :: a.text) ++ [] :=
    toList_line (.callbackCmd cmd)
  rw [hline, List.append_nil, List.flatMap_singleton]
  rfl

/-- The quote behind a command that is too long is not printed. -/
theorem toList_logLine_callbackCmdLine {length : Nat} (h : maxLineLen ≤ length) :
    ∃ n, (logLine (callbackCmdLine (String.ofList (List.replicate length 'x')))).toList =
      callbackCmdFront ++ ' ' :: '\'' :: List.replicate n 'x' := by
  set s := callbackCmdLine (String.ofList (List.replicate length 'x')) with hs
  have hline : s.toList =
      (callbackCmdFront ++ [' ', '\'']) ++ (List.replicate length 'x' ++ ['\'']) := by
    rw [hs, toList_callbackCmdLine, String.toList_ofList, List.append_assoc]
    rfl
  have hfront : (callbackCmdFront ++ [' ', '\'']).length = 30 := rfl
  have hascii : ∀ c ∈ s.toList, c.utf8Size = 1 := by
    have hall : ∀ c ∈ callbackCmdFront ++ [' ', '\''], c.utf8Size = 1 :=
      @of_decide_eq_true _ (List.decidableBAll _ _) rfl
    intro c hc
    rw [hline] at hc
    rcases List.mem_append.mp hc with hc | hc
    · exact hall c hc
    · rcases List.mem_append.mp hc with hc | hc
      · rw [List.eq_of_mem_replicate hc]
        rfl
      · rw [List.mem_singleton.mp hc]
        rfl
  have hlong : ¬ s.utf8ByteSize ≤ maxLineLen := by
    rw [← String.utf8Len_toList, utf8Len_ascii hascii, hline, List.length_append, hfront,
      List.length_append, List.length_replicate]
    omega
  have hrest : maxLineLen - 30 ≤ length := by omega
  have htake : s.toList.take maxLineLen =
      (callbackCmdFront ++ [' ', '\'']) ++ List.replicate (maxLineLen - 30) 'x' := by
    rw [hline, List.take_append, hfront, List.take_of_length_le (by rw [hfront]; decide),
      List.take_append_of_le_length (by rwa [List.length_replicate]), List.take_replicate,
      Nat.min_eq_left hrest]
  refine ⟨maxLineLen - 30, ?_⟩
  rw [logLine, snprintfAlloc, if_neg hlong, String.toList_ofList, fitting_ascii hascii, htake,
    List.append_assoc]
  rfl

theorem valid_longCallback (length : Nat) : CfgValid (longCallback length) :=
  { valid_cfgDefault with callbackCmd := rfl }

theorem printable_longCallback (length : Nat) : CfgPrintable (longCallback length) :=
  { valid_longCallback length with
    strings := by
      have hstrings : cfgStrings (longCallback length) = [disabledLaptopDisplayNameDescDefault,
          String.ofList (List.replicate length 'x')] := rfl
      intro s hs
      rw [hstrings] at hs
      rcases List.mem_pair.mp hs with rfl | rfl
      · decide
      · have hall : ∀ c ∈ List.replicate length 'x', c = 'x' :=
          fun c hc => List.eq_of_mem_replicate hc
        rw [← String.toList_ofList (l := List.replicate length 'x')] at hall
        refine ⟨fun hquote => absurd (hall _ hquote) (by decide), fun hdash => ?_⟩
        exact absurd (hall _ (List.mem_of_head? hdash)) (by decide)
    scales := fun _ hnone => absurd hnone List.not_mem_nil
    canonical := fun _ hnone => absurd hnone List.not_mem_nil }

theorem runLines_longCallback {length : Nat} (h : maxLineLen ≤ length) :
    runLines cfgDefault (printCfgCommands (longCallback length)) = none := by
  set cmd := String.ofList (List.replicate length 'x')
  set early := (groups cfgDefault).take 9
  have hgroups : groups (longCallback length) = early ++ [[.callbackCmd cmd]] := rfl
  have hearly : (early.flatMap (fun group => printNewline (group.map line))).map logLine =
      early.flatMap (fun group => printNewline (group.map line)) := by
    decide
  have hlines : printCfgCommands (longCallback length) =
      early.flatMap (fun group => printNewline (group.map line)) ++
        [logLine "", logLine (callbackCmdLine cmd)] := by
    rw [printCfgCommands, cfgCommandLines_eq, hgroups, List.flatMap_append, List.map_append, hearly]
    rfl
  have hread : Lib.Shell.Lines ((early.flatMap (fun group => printNewline (group.map line))).map
      String.toList ++ [[]]) (early.flatten.map words ++ []) := by
    refine Lib.Shell.lines_append (lines_groups fun group hgroup => ?_) Lib.Shell.lines_blank
    refine printable_groups (printable_longCallback length) (fun _ hnone => ?_) group ?_
    · exact absurd hnone List.not_mem_nil
    · rw [hgroups]
      exact List.mem_append_left _ hgroup
  obtain ⟨n, hcut⟩ := toList_logLine_callbackCmdLine h
  have hnone := Lib.Shell.commands_of_open (w := List.replicate n 'x') hread
    (reads_element (.callbackCmd cmd)) fun hquote =>
      absurd (List.eq_of_mem_replicate hquote) (by decide)
  have htext : (printCfgCommands (longCallback length)).map String.toList =
      (early.flatMap (fun group => printNewline (group.map line))).map String.toList ++ [[]] ++
        [callbackCmdFront ++ ' ' :: '\'' :: List.replicate n 'x'] := by
    rw [hlines, List.map_append, List.append_assoc, ← hcut]
    rfl
  rw [runLines, htext]
  exact congrArg (Option.bind · _) hnone

/-- NORMAL has no name. -/
def normalTransform : Cfg :=
  { cfgDefault with transforms := OrderedMap.empty.put "DP-1" .normal }

theorem runLines_normalTransform :
    runLines cfgDefault (printCfgCommands normalTransform) = none := by
  have hcommands : Lib.Shell.commands
      (Lib.Shell.text ((printCfgCommands normalTransform).map String.toList)) = none := by
    decide +kernel
  rw [runLines, hcommands, Option.bind_none]

theorem printable_normalTransform : CfgPrintable normalTransform :=
  { valid_cfgDefault with
    strings := by decide
    scales := fun _ hnone => absurd hnone List.not_mem_nil
    canonical := fun _ hnone => absurd hnone List.not_mem_nil }

/-- A line that is cut off leaves its quote open; a transform without a name is printed as one that
is no word. -/
theorem not_reproduced :
    (CfgPrintable (longCallback maxLineLen) ∧
      ¬ ∃ got, runLines cfgDefault (printCfgCommands (longCallback maxLineLen)) = some got ∧
        Reproduces (longCallback maxLineLen) got) ∧
    CfgPrintable normalTransform ∧
      ¬ ∃ got, runLines cfgDefault (printCfgCommands normalTransform) = some got ∧
        Reproduces normalTransform got := by
  refine ⟨⟨printable_longCallback maxLineLen, ?_⟩, printable_normalTransform, ?_⟩
  · rintro ⟨got, hrun, -⟩
    rw [runLines_longCallback le_rfl] at hrun
    cases hrun
  · rintro ⟨got, hrun, -⟩
    rw [runLines_normalTransform] at hrun
    cases hrun

end WayDisplays.Commands.Reproduce
