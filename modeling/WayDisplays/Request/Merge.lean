/- SET and DEL merges: what they leave alone, and that the same one again finds nothing to do. -/

import WayDisplays.CfgFile.Equality
import WayDisplays.CfgFile.Validity

set_option autoImplicit false
set_option relaxedAutoImplicit false

namespace WayDisplays.Request.Merge

open CfgFile.Equality
open CfgFile.Validity
open Lib (Floating OrderedMap OrderedSet)
open Model

/-- The commands that put entries in or take them out, with how they merge. -/
inductive Edits : IpcCommand → (Cfg → Cfg → Cfg) → Prop
  | set : Edits .cfgSet cfgMergeSet
  | del : Edits .cfgDel cfgMergeDel

variable {command : IpcCommand} {merge : Cfg → Cfg → Cfg}

theorem cfgMerge_eq (h : Edits command merge) (cfg request : Cfg) :
    cfgMerge cfg (some request) (some command) =
      if cfgEqual (cfgValidateFix (merge cfg request)) cfg then none
      else some (cfgValidateFix (merge cfg request)) := by
  cases h <;> rfl

theorem cfgMerge_eq_none (h : Edits command merge) {cfg request : Cfg} :
    cfgMerge cfg (some request) (some command) = none ↔
      Agree (cfgValidateFix (merge cfg request)) cfg := by
  rw [cfgMerge_eq h, ← cfgEqual_iff]
  split_ifs with hequal
  · exact iff_of_true rfl hequal
  · exact iff_of_false (by simp) hequal

/-! ### What is left alone -/

/-- What a client may not set, and the entries that a request does not name in their order. -/
structure Kept (request cfg merged : Cfg) : Prop where
  autoScaleDpi : merged.autoScaleDpi = cfg.autoScaleDpi
  autoScaleMin : merged.autoScaleMin = cfg.autoScaleMin
  autoScaleMax : merged.autoScaleMax = cfg.autoScaleMax
  scaleRoundTo : merged.scaleRoundTo = cfg.scaleRoundTo
  scaleRoundStrategy : merged.scaleRoundStrategy = cfg.scaleRoundStrategy
  laptopLidMonitor : merged.laptopLidMonitor = cfg.laptopLidMonitor
  logThreshold : merged.logThreshold = cfg.logThreshold
  disableds : merged.disableds.filter (fun key _ => key ∉ request.disableds.keys) =
    cfg.disableds.filter (fun key _ => key ∉ request.disableds.keys)
  modes : merged.modes.filter (fun key _ => key ∉ request.modes.keys) =
    cfg.modes.filter (fun key _ => key ∉ request.modes.keys)
  scales : merged.scales.filter (fun key _ => key ∉ request.scales.keys) =
    cfg.scales.filter (fun key _ => key ∉ request.scales.keys)
  transforms : merged.transforms.filter (fun key _ => key ∉ request.transforms.keys) =
    cfg.transforms.filter (fun key _ => key ∉ request.transforms.keys)
  adaptiveSyncOff :
    merged.adaptiveSyncOff.vals.filter (fun name => name ∉ request.adaptiveSyncOff.vals) =
      cfg.adaptiveSyncOff.vals.filter (fun name => name ∉ request.adaptiveSyncOff.vals)

private theorem named_blocked {keys : List String} :
    ∀ key ∈ keys, decide (key ∉ keys) = false :=
  fun _ hkey => decide_eq_false (not_not.mpr hkey)

private theorem filter_put_named {ν : Type} (m req : OrderedMap String ν) :
    (m.putAll req.entries).filter (fun key _ => key ∉ req.keys) =
      m.filter (fun key _ => key ∉ req.keys) :=
  OrderedMap.filter_putAll (p := fun key => decide (key ∉ req.keys)) named_blocked m

private theorem filter_removed_named {ν : Type} (m req : OrderedMap String ν) :
    (m.removeAll req.keys).filter (fun key _ => key ∉ req.keys) =
      m.filter (fun key _ => key ∉ req.keys) :=
  OrderedMap.filter_removeAll (p := fun key => decide (key ∉ req.keys)) named_blocked m

theorem kept_merge (h : Edits command merge) (cfg request : Cfg) :
    Kept request cfg (merge cfg request) := by
  cases h with
  | set =>
    exact
      { autoScaleDpi := rfl, autoScaleMin := rfl, autoScaleMax := rfl, scaleRoundTo := rfl,
        scaleRoundStrategy := rfl, laptopLidMonitor := rfl, logThreshold := rfl
        disableds := filter_put_named cfg.disableds request.disableds
        modes := filter_put_named cfg.modes request.modes
        scales := filter_put_named cfg.scales request.scales
        transforms := filter_put_named cfg.transforms request.transforms
        adaptiveSyncOff := OrderedSet.filter_addAll named_blocked }
  | del =>
    exact
      { autoScaleDpi := rfl, autoScaleMin := rfl, autoScaleMax := rfl, scaleRoundTo := rfl,
        scaleRoundStrategy := rfl, laptopLidMonitor := rfl, logThreshold := rfl
        disableds := filter_removed_named cfg.disableds request.disableds
        modes := filter_removed_named cfg.modes request.modes
        scales := filter_removed_named cfg.scales request.scales
        transforms := filter_removed_named cfg.transforms request.transforms
        adaptiveSyncOff := OrderedSet.filter_removeIn named_blocked }

/-- There is nothing to fix in what is left alone of a valid configuration. -/
theorem kept_fixed (h : Edits command merge) {cfg : Cfg} (hvalid : CfgValid cfg) (request : Cfg) :
    Kept request cfg (cfgValidateFix (merge cfg request)) := by
  have hkept := kept_merge h cfg request
  refine { hkept with autoScaleDpi := ?_, modes := ?_ }
  · have hdpi : ¬ (merge cfg request).autoScaleDpi ≤ autoScaleDpiMin := by
      rw [hkept.autoScaleDpi]
      exact not_le.mpr hvalid.autoScaleDpi
    exact (if_neg hdpi).trans hkept.autoScaleDpi
  · have hentries := congrArg OrderedMap.entries hkept.modes
    apply OrderedMap.ext
    simp only [cfgValidateFix, OrderedMap.filter] at hentries ⊢
    rw [List.filter_comm, hentries]
    refine List.filter_eq_self.mpr fun e he => ?_
    have hmode := hvalid.modes e.2 (List.mem_map_of_mem (List.mem_of_mem_filter he))
    simp [hmode]

theorem kept_cfgMerge (h : Edits command merge) {cfg request merged : Cfg} (hvalid : CfgValid cfg)
    (hmerge : cfgMerge cfg (some request) (some command) = some merged) :
    Kept request cfg merged := by
  rw [cfgMerge_eq h] at hmerge
  split_ifs at hmerge
  obtain rfl := Option.some.inj hmerge
  exact kept_fixed h hvalid request

/-! ### The same again -/

/-- The align of a fixed configuration stays through the same edit and fix. -/
private theorem align_again {arrange : Option Arrange} (align : Option Align) {a b : Cfg}
    (ha : a.arrange = arrange) (hb : b.arrange = arrange)
    (hb' : b.align = align.or (cfgValidateFix a).align) (ha' : align.isSome → a.align = align) :
    (cfgValidateFix b).align = (cfgValidateFix a).align := by
  cases align with
  | none =>
    have hsame : b.align = (cfgValidateFix a).align := hb'
    have hadmissible := alignAdmissible_cfgValidateFix a
    rw [← hsame] at hadmissible ⊢
    refine align_cfgValidateFix ?_
    rw [hb, ← ha]
    exact hadmissible
  | some align =>
    have hsame : b.align = a.align := hb'.trans (ha' rfl).symm
    simp only [cfgValidateFix, hsame, ha, hb]

private theorem or_again {α : Type} (a b : Option α) : a.or (a.or b) = a.or b := by
  cases a <;> rfl

theorem get?_fixed_modes (cfg : Cfg) (key : String) :
    (cfgValidateFix cfg).modes.get? key = (cfg.modes.get? key).filter (!modeIsInvalid ·) :=
  OrderedMap.get?_filter cfg.modes (fun _ mode => !modeIsInvalid mode) key

/-- Maps that a lookup does not tell apart. -/
private theorem equal_of_lookup {ν : Type} {eqVal : ν → ν → Bool} (hself : ∀ v, eqVal v v = true)
    {m m' : OrderedMap String ν} (h : ∀ key, m.get? key = m'.get? key) :
    m.equal eqVal m' = true := by
  refine OrderedMap.equal_of_get? (fun key => ?_) fun key v w hv hw => ?_
  · rw [← OrderedMap.isSome_get?_iff, ← OrderedMap.isSome_get?_iff, h]
  · obtain rfl := Option.some.inj (hv.symm.trans ((h key).trans hw))
    exact hself v

private theorem put_again {ν : Type} {eqVal : ν → ν → Bool} (hself : ∀ v, eqVal v v = true)
    (m req : OrderedMap String ν) :
    ((m.putAll req.entries).putAll req.entries).equal eqVal (m.putAll req.entries) = true := by
  refine equal_of_lookup hself fun key => ?_
  simp only [OrderedMap.putAll_entries_get?, or_again]

private theorem remove_again {ν : Type} {eqVal : ν → ν → Bool} (hself : ∀ v, eqVal v v = true)
    (m req : OrderedMap String ν) :
    ((m.removeAll req.keys).removeAll req.keys).equal eqVal (m.removeAll req.keys) = true := by
  refine equal_of_lookup hself fun key => ?_
  simp only [OrderedMap.get?_removeAll]
  split_ifs <;> rfl

theorem dpi_again {a b : Cfg} (h : b.autoScaleDpi = (cfgValidateFix a).autoScaleDpi) :
    (cfgValidateFix b).autoScaleDpi = (cfgValidateFix a).autoScaleDpi := by
  have hdpi : ¬ b.autoScaleDpi ≤ autoScaleDpiMin := by
    rw [h]
    exact not_le.mpr (autoScaleDpi_cfgValidateFix a)
  exact (if_neg hdpi).trans h

theorem agree_set_again {cfg : Cfg} (hnan : NanFree cfg) (request : Cfg) :
    Agree (cfgValidateFix (cfgMergeSet (cfgValidateFix (cfgMergeSet cfg request)) request))
      (cfgValidateFix (cfgMergeSet cfg request)) where
  align := align_again request.align rfl (or_again _ _) rfl fun hsome => by
    obtain ⟨align, halign⟩ := Option.isSome_iff_exists.mp hsome
    simp [cfgMergeSet, halign]
  arrange := or_again _ _
  autoScale := or_again _ _
  autoScaleDpi := dpi_again rfl
  autoScaleMax := Floating.equal_self hnan.autoScaleMax
  autoScaleMin := Floating.equal_self hnan.autoScaleMin
  laptopLidMonitor := rfl
  logThreshold := rfl
  scaleRoundStrategy := rfl
  scaleRoundTo := rfl
  scaling := or_again _ _
  callbackCmd := or_again _ _
  disableds := put_again disabledEqual_self cfg.disableds request.disableds
  modes := by
    refine equal_of_lookup (fun _ => modeEqual_iff.mpr rfl) fun key => ?_
    simp only [get?_fixed_modes, cfgMergeSet, OrderedMap.putAll_entries_get?]
    cases request.modes.get? key with
    | none => simp only [Option.none_or, Option.filter_filter, Bool.and_self]
    | some mode => rfl
  scales := put_again (fun x => beq_self_eq_true x) cfg.scales request.scales
  transforms := put_again (fun x => beq_self_eq_true x) cfg.transforms request.transforms
  adaptiveSyncOff := OrderedSet.equal_of_mem_iff fun name => by
    simp only [cfgValidateFix, cfgMergeSet, OrderedSet.mem_addAll, or_self_left]
  orderNameDesc := by
    simp only [cfgValidateFix, cfgMergeSet]
    split_ifs <;> exact ssetEqual_self _

theorem agree_del_again {cfg : Cfg} (hnan : NanFree cfg) (request : Cfg) :
    Agree (cfgValidateFix (cfgMergeDel (cfgValidateFix (cfgMergeDel cfg request)) request))
      (cfgValidateFix (cfgMergeDel cfg request)) where
  align := align_again none rfl rfl rfl (fun hsome => absurd hsome (by simp))
  arrange := rfl
  autoScale := rfl
  autoScaleDpi := dpi_again rfl
  autoScaleMax := Floating.equal_self hnan.autoScaleMax
  autoScaleMin := Floating.equal_self hnan.autoScaleMin
  laptopLidMonitor := rfl
  logThreshold := rfl
  scaleRoundStrategy := rfl
  scaleRoundTo := rfl
  scaling := rfl
  callbackCmd := by
    simp only [cfgValidateFix, cfgMergeDel]
    cases request.callbackCmd <;> rfl
  disableds := remove_again disabledEqual_self cfg.disableds request.disableds
  modes := by
    refine equal_of_lookup (fun _ => modeEqual_iff.mpr rfl) fun key => ?_
    simp only [get?_fixed_modes, cfgMergeDel, OrderedMap.get?_removeAll]
    split_ifs
    · rfl
    · simp only [Option.filter_filter, Bool.and_self]
  scales := remove_again (fun x => beq_self_eq_true x) cfg.scales request.scales
  transforms := remove_again (fun x => beq_self_eq_true x) cfg.transforms request.transforms
  adaptiveSyncOff := OrderedSet.equal_of_mem_iff fun name => by
    simp only [cfgValidateFix, cfgMergeDel, OrderedSet.mem_removeIn]
    tauto
  orderNameDesc := ssetEqual_self _

/-- A request that has just been merged, or found to change nothing, changes nothing. -/
theorem cfgMerge_again (h : Edits command merge) {cfg : Cfg} (hnan : NanFree cfg)
    (request : Cfg) :
    cfgMerge ((cfgMerge cfg (some request) (some command)).getD cfg) (some request) (some command) =
      none := by
  cases hmerge : cfgMerge cfg (some request) (some command) with
  | none => exact hmerge
  | some merged =>
    rw [cfgMerge_eq h] at hmerge
    split_ifs at hmerge
    obtain rfl := Option.some.inj hmerge
    rw [Option.getD_some, cfgMerge_eq_none h]
    cases h with
    | set => exact agree_set_again hnan request
    | del => exact agree_del_again hnan request

end WayDisplays.Request.Merge
