/- What a configuration sets, one setting after the other, and what a request for one does. -/

import WayDisplays.Model.Commands
import WayDisplays.Request.Merge

set_option autoImplicit false
set_option relaxedAutoImplicit false

namespace WayDisplays.Commands.Settings

open CfgFile.Equality
open CfgFile.Validity
open Lib (OrderedMap OrderedSet)
open Model
open Request.Merge (Edits cfgMerge_eq)

/-- One element, or one entry of it. -/
inductive Setting
  | arrangeAlign (arrange : Arrange) (align : Align)
  | order (names : Sset)
  | scaling (val : OnOff)
  | autoScale (val : OnOff)
  | scale (nameDesc : String) (milliscale : Nat)
  | mode (nameDesc : String) (val : Mode)
  | transform (nameDesc : String) (val : Transform)
  | disabled (nameDesc : String)
  | vrrOff (nameDesc : String)
  | callbackCmd (cmd : String)

/-- Disabled whatever is plugged in, and whether the lid is closed or not. -/
def unconditional : CfgDisabled := { conditions := .empty }

def Setting.apply (cfg : Cfg) : Setting → Cfg
  | .arrangeAlign arrange align => { cfg with arrange := some arrange, align := some align }
  | .order names => { cfg with orderNameDesc := names }
  | .scaling val => { cfg with scaling := some val }
  | .autoScale val => { cfg with autoScale := some val }
  | .scale nameDesc milliscale => { cfg with scales := cfg.scales.put nameDesc milliscale }
  | .mode nameDesc val => { cfg with modes := cfg.modes.put nameDesc val }
  | .transform nameDesc val => { cfg with transforms := cfg.transforms.put nameDesc val }
  | .disabled nameDesc => { cfg with disableds := cfg.disableds.put nameDesc unconditional }
  | .vrrOff nameDesc => { cfg with adaptiveSyncOff := cfg.adaptiveSyncOff.add nameDesc }
  | .callbackCmd cmd => { cfg with callbackCmd := some cmd }

def Setting.request (setting : Setting) : IpcRequest :=
  { ipcRequestInit (some .cfgSet) with cfg := some (setting.apply cfgInit) }

/-- Valid to make. An order is compared without its order, so none may be there. -/
def Setting.Suits (cfg : Cfg) : Setting → Prop
  | .arrangeAlign arrange align => AlignAdmissible (some arrange) (some align)
  | .order names => names.size > 0 ∧ cfg.orderNameDesc.size = 0
  | .mode _ val => modeIsInvalid val = false
  | _ => True

variable {cfg : Cfg} {setting : Setting}

/-! ### One request -/

theorem cfgMergeSet_apply (h : setting.Suits cfg) :
    cfgMergeSet cfg (setting.apply cfgInit) = setting.apply cfg := by
  cases setting with
  | order names =>
    have hmerged : cfgMergeSet cfg (Setting.apply cfgInit (.order names)) =
        { cfg with orderNameDesc := if names.size > 0 then names else cfg.orderNameDesc } := rfl
    have hsize : names.size > 0 := h.1
    rw [hmerged, if_pos hsize]
    rfl
  | _ => rfl

theorem valid_apply (hvalid : CfgValid cfg) (h : setting.Suits cfg) :
    CfgValid (setting.apply cfg) := by
  cases setting with
  | arrangeAlign arrange align =>
    exact { hvalid with arrange := rfl, align := rfl, alignAdmissible := h }
  | order names => exact { hvalid with }
  | scaling val => exact { hvalid with scaling := rfl }
  | autoScale val => exact { hvalid with autoScale := rfl }
  | scale nameDesc milliscale => exact { hvalid with }
  | mode nameDesc mode =>
    refine { hvalid with modes := fun m hm => ?_ }
    rcases OrderedMap.mem_vals_put hm with rfl | hm
    · exact h
    · exact hvalid.modes m hm
  | transform nameDesc transform => exact { hvalid with }
  | disabled nameDesc =>
    exact { hvalid with
      conditions := nontrivial_put hvalid.conditions nameDesc fun _ hnone =>
        absurd hnone List.not_mem_nil }
  | vrrOff nameDesc => exact { hvalid with }
  | callbackCmd cmd => exact { hvalid with callbackCmd := rfl }

/-- Only what has no conditions either equals an entry without. -/
theorem eq_unconditional {disabled : CfgDisabled}
    (h : disabledEqual unconditional disabled = true) : disabled = unconditional := by
  rw [disabledEqual, OrderedSet.equal, Bool.and_eq_true, decide_eq_true_eq] at h
  have hnil : disabled.conditions.vals = [] := List.eq_nil_of_length_eq_zero h.1.symm
  have hempty : disabled.conditions = .empty := OrderedSet.ext hnil
  exact congrArg CfgDisabled.mk hempty

/-- A setting that is found to make no difference is there already. -/
theorem apply_of_agree (h : setting.Suits cfg) (hagree : Agree (setting.apply cfg) cfg) :
    setting.apply cfg = cfg := by
  cases setting with
  | arrangeAlign arrange align =>
    have harrange : some arrange = cfg.arrange := hagree.arrange
    have halign : some align = cfg.align := hagree.align
    rw [Setting.apply, harrange, halign]
  | order names =>
    have hperm := OrderedSet.equal_iff_perm.mp hagree.orderNameDesc
    have hsize : names.size = cfg.orderNameDesc.size := hperm.length_eq
    have hboth : names.size > 0 ∧ cfg.orderNameDesc.size = 0 := h
    omega
  | scaling val =>
    have hscaling : some val = cfg.scaling := hagree.scaling
    rw [Setting.apply, hscaling]
  | autoScale val =>
    have hautoScale : some val = cfg.autoScale := hagree.autoScale
    rw [Setting.apply, hautoScale]
  | scale nameDesc milliscale =>
    have hput := OrderedMap.put_of_equal (fun _ heq => (beq_iff_eq.mp heq).symm) hagree.scales
    rw [Setting.apply, hput]
  | mode nameDesc mode =>
    have hput := OrderedMap.put_of_equal (fun _ heq => (modeEqual_iff.mp heq).symm) hagree.modes
    rw [Setting.apply, hput]
  | transform nameDesc transform =>
    have hput := OrderedMap.put_of_equal (fun _ heq => (beq_iff_eq.mp heq).symm) hagree.transforms
    rw [Setting.apply, hput]
  | disabled nameDesc =>
    have hput := OrderedMap.put_of_equal (fun _ heq => eq_unconditional heq) hagree.disableds
    rw [Setting.apply, hput]
  | vrrOff nameDesc =>
    have hadd := OrderedSet.add_of_equal hagree.adaptiveSyncOff
    rw [Setting.apply, hadd]
  | callbackCmd cmd =>
    have hcallbackCmd : some cmd = cfg.callbackCmd := hagree.callbackCmd
    rw [Setting.apply, hcallbackCmd]

theorem cfgAfter_request (hvalid : CfgValid cfg) (h : setting.Suits cfg) :
    cfgAfter cfg setting.request = setting.apply cfg := by
  have hmerged : cfgValidateFix (cfgMergeSet cfg (setting.apply cfgInit)) = setting.apply cfg := by
    rw [cfgMergeSet_apply h, cfgValidateFix_eq (valid_apply hvalid h)]
  have hmerge : cfgMerge cfg (some (setting.apply cfgInit)) (some .cfgSet) =
      if cfgEqual (setting.apply cfg) cfg then none else some (setting.apply cfg) := by
    rw [cfgMerge_eq Edits.set, hmerged]
  have hafter : cfgAfter cfg setting.request =
      (cfgMerge cfg (some (setting.apply cfgInit)) (some .cfgSet)).getD cfg := rfl
  rw [hafter, hmerge]
  split_ifs with hequal
  · exact (apply_of_agree h (cfgEqual_iff.mp hequal)).symm
  · rfl

/-! ### One request after the other -/

/-- Every setting is valid once those before it are made. -/
def Fits : Cfg → List Setting → Prop
  | _, [] => True
  | cfg, setting :: settings => setting.Suits cfg ∧ Fits (setting.apply cfg) settings

theorem fits_append {settings settings' : List Setting} (h : Fits cfg settings)
    (h' : Fits (settings.foldl Setting.apply cfg) settings') :
    Fits cfg (settings ++ settings') := by
  induction settings generalizing cfg with
  | nil => exact h'
  | cons setting settings ih => exact ⟨h.1, ih h.2 h'⟩

theorem fits_of_forall {settings : List Setting}
    (h : ∀ setting ∈ settings, ∀ cfg, setting.Suits cfg) : Fits cfg settings := by
  induction settings generalizing cfg with
  | nil => trivial
  | cons setting settings ih =>
    exact ⟨h setting List.mem_cons_self cfg, ih fun s hs => h s (List.mem_cons_of_mem setting hs)⟩

theorem foldl_cfgAfter {settings : List Setting} (hvalid : CfgValid cfg)
    (h : Fits cfg settings) :
    (settings.map Setting.request).foldl cfgAfter cfg = settings.foldl Setting.apply cfg := by
  induction settings generalizing cfg with
  | nil => rfl
  | cons setting settings ih =>
    rw [List.map_cons, List.foldl_cons, List.foldl_cons, cfgAfter_request hvalid h.1]
    exact ih (valid_apply hvalid h.1) h.2

/-! ### The settings of a configuration -/

/-- A mode as it is configured: without the note that a warning was given. -/
def configured (mode : Mode) : Mode := { mode with warnedNoMode := false }

def layoutSettings (cfg : Cfg) : List Setting :=
  match cfg.arrange, cfg.align with
  | some arrange, some align => [.arrangeAlign arrange align]
  | _, _ => []

def orderSettings (cfg : Cfg) : List Setting :=
  if cfg.orderNameDesc.size > 0 then [.order cfg.orderNameDesc] else []

def modeEntries (cfg : Cfg) : List (String × Mode) :=
  (cfg.modes.entries.filter (fun e => !e.2.maxPreferredRefresh)).map
    (fun e => (e.1, configured e.2))

def unconditionalNames (cfg : Cfg) : List String :=
  (cfg.disableds.entries.filter (fun e => decide (e.2.conditions.size = 0))).map Prod.fst

/-- All but the order, which is not to be set twice. -/
def otherSettings (cfg : Cfg) : List Setting :=
  cfg.scaling.toList.map .scaling ++ (cfg.autoScale.toList.map .autoScale ++
  (cfg.scales.entries.map (fun e => .scale e.1 e.2) ++
  ((modeEntries cfg).map (fun e => .mode e.1 e.2) ++
  (cfg.transforms.entries.map (fun e => .transform e.1 e.2) ++
  ((unconditionalNames cfg).map .disabled ++
  (cfg.adaptiveSyncOff.vals.map .vrrOff ++ cfg.callbackCmd.toList.map .callbackCmd))))))

def settings (cfg : Cfg) : List Setting :=
  layoutSettings cfg ++ (orderSettings cfg ++ otherSettings cfg)

/-! ### What the settings make -/

private theorem foldl_group {α γ : Type} (setting : α → Setting) (get : Cfg → γ)
    (set : Cfg → γ → Cfg) (put : γ → α → γ) (hself : ∀ cfg, set cfg (get cfg) = cfg)
    (happly : ∀ cfg c a, (setting a).apply (set cfg c) = set cfg (put c a)) (cfg : Cfg)
    (as : List α) :
    (as.map setting).foldl Setting.apply cfg = set cfg (as.foldl put (get cfg)) := by
  have hset : ∀ c, (as.map setting).foldl Setting.apply (set cfg c) = set cfg (as.foldl put c) := by
    induction as with
    | nil => exact fun _ => rfl
    | cons a as ih =>
      intro c
      rw [List.map_cons, List.foldl_cons, happly, ih, List.foldl_cons]
  conv_lhs => rw [← hself cfg]
  exact hset (get cfg)

private theorem foldl_scales (base : Cfg) (es : List (String × Nat)) :
    (es.map (fun e => Setting.scale e.1 e.2)).foldl Setting.apply base =
      { base with scales := base.scales.putAll es } :=
  foldl_group (fun e => .scale e.1 e.2) Cfg.scales (fun cfg scales => { cfg with scales })
    (fun m e => m.put e.1 e.2) (fun _ => rfl) (fun _ _ _ => rfl) base es

private theorem foldl_modes (base : Cfg) (es : List (String × Mode)) :
    (es.map (fun e => Setting.mode e.1 e.2)).foldl Setting.apply base =
      { base with modes := base.modes.putAll es } :=
  foldl_group (fun e => .mode e.1 e.2) Cfg.modes (fun cfg modes => { cfg with modes })
    (fun m e => m.put e.1 e.2) (fun _ => rfl) (fun _ _ _ => rfl) base es

private theorem foldl_transforms (base : Cfg) (es : List (String × Transform)) :
    (es.map (fun e => Setting.transform e.1 e.2)).foldl Setting.apply base =
      { base with transforms := base.transforms.putAll es } :=
  foldl_group (fun e => .transform e.1 e.2) Cfg.transforms
    (fun cfg transforms => { cfg with transforms })
    (fun m e => m.put e.1 e.2) (fun _ => rfl) (fun _ _ _ => rfl) base es

private theorem foldl_disableds (base : Cfg) (names : List String) :
    (names.map Setting.disabled).foldl Setting.apply base =
      { base with disableds :=
          base.disableds.putAll (names.map (fun name => (name, unconditional))) } := by
  have hputs := foldl_group .disabled Cfg.disableds (fun cfg disableds => { cfg with disableds })
    (fun m name => m.put name unconditional) (fun _ => rfl) (fun _ _ _ => rfl) base names
  rw [hputs, OrderedMap.putAll, List.foldl_map]

private theorem foldl_vrrOff (base : Cfg) (names : Sset) :
    (names.vals.map Setting.vrrOff).foldl Setting.apply base =
      { base with adaptiveSyncOff := base.adaptiveSyncOff.addAll names } :=
  foldl_group .vrrOff Cfg.adaptiveSyncOff (fun cfg adaptiveSyncOff => { cfg with adaptiveSyncOff })
    OrderedSet.add (fun _ => rfl) (fun _ _ _ => rfl) base names.vals

/-- Elements and entries that are set take the place of those of the base. -/
theorem foldl_otherSettings (cfg base : Cfg) :
    (otherSettings cfg).foldl Setting.apply base =
      { base with
        scaling := cfg.scaling.or base.scaling
        autoScale := cfg.autoScale.or base.autoScale
        scales := base.scales.putAll cfg.scales.entries
        modes := base.modes.putAll (modeEntries cfg)
        transforms := base.transforms.putAll cfg.transforms.entries
        disableds := base.disableds.putAll
          ((unconditionalNames cfg).map (fun name => (name, unconditional)))
        adaptiveSyncOff := base.adaptiveSyncOff.addAll cfg.adaptiveSyncOff
        callbackCmd := cfg.callbackCmd.or base.callbackCmd } := by
  have hscaling : (cfg.scaling.toList.map Setting.scaling).foldl Setting.apply base =
      { base with scaling := cfg.scaling.or base.scaling } := by
    cases cfg.scaling <;> rfl
  have hautoScale (base : Cfg) :
      (cfg.autoScale.toList.map Setting.autoScale).foldl Setting.apply base =
        { base with autoScale := cfg.autoScale.or base.autoScale } := by
    cases cfg.autoScale <;> rfl
  have hcallbackCmd (base : Cfg) :
      (cfg.callbackCmd.toList.map Setting.callbackCmd).foldl Setting.apply base =
        { base with callbackCmd := cfg.callbackCmd.or base.callbackCmd } := by
    cases cfg.callbackCmd <;> rfl
  simp only [otherSettings, List.foldl_append, hscaling, hautoScale, foldl_scales, foldl_modes,
    foldl_transforms, foldl_disableds, foldl_vrrOff, hcallbackCmd]

end WayDisplays.Commands.Settings
