/- What fixing a configuration changes: bad modes, an alignment across, a DPI too low. -/

import WayDisplays.CfgFile.Validity
import WayDisplays.Lib.Cursor

set_option autoImplicit false
set_option relaxedAutoImplicit false

namespace WayDisplays.CfgFile.Fix

open Lib (Cursor OrderedMap)
open Model
open Validity

/-! ### What it is to change -/

/-- A size or refresh that is set but not positive, or a size that is needed and not set. -/
def ModeUnfit (mode : Mode) : Prop :=
  (mode.width ≠ -1 ∧ mode.width ≤ 0) ∨ (mode.height ≠ -1 ∧ mode.height ≤ 0) ∨
    (mode.refreshMhz ≠ -1 ∧ mode.refreshMhz ≤ 0) ∨
    (mode.max = false ∧ mode.maxPreferredRefresh = false ∧
      (mode.width = -1 ∨ mode.height = -1))

instance (mode : Mode) : Decidable (ModeUnfit mode) := instDecidableOr

def documentedDpiMin : Int := 8

/-- Fixing twice is fixing once; all that changes are unfit modes, which are removed, an
alignment that is not admissible and a DPI below the minimum. -/
structure FixesMinimally (cfg : Cfg) : Prop where
  idempotent : cfgValidateFix (cfgValidateFix cfg) = cfgValidateFix cfg
  modes : (cfgValidateFix cfg).modes.entries =
    cfg.modes.entries.filter (fun e => !decide (ModeUnfit e.2))
  align : AlignAdmissible cfg.arrange cfg.align → (cfgValidateFix cfg).align = cfg.align
  autoScaleDpi : documentedDpiMin ≤ cfg.autoScaleDpi →
    (cfgValidateFix cfg).autoScaleDpi = cfg.autoScaleDpi
  rest : cfgValidateFix cfg = { cfg with
    align := (cfgValidateFix cfg).align
    autoScaleDpi := (cfgValidateFix cfg).autoScaleDpi
    modes := (cfgValidateFix cfg).modes }

/-! ### What it does change -/

theorem modeIsInvalid_iff (mode : Mode) : modeIsInvalid mode = true ↔ ModeUnfit mode := by
  unfold modeIsInvalid ModeUnfit
  split_ifs with hwidth hheight hrefresh hneither
  · exact iff_of_true rfl (Or.inl hwidth)
  · exact iff_of_true rfl (Or.inr (Or.inl hheight))
  · exact iff_of_true rfl (Or.inr (Or.inr (Or.inl hrefresh)))
  · simp only [hwidth, hheight, hrefresh, false_or]
    have hmax : mode.max = false ∧ mode.maxPreferredRefresh = false := by simpa using hneither
    simp [hmax.1, hmax.2]
  · simp only [hwidth, hheight, hrefresh, false_or]
    have hmax : ¬ (mode.max = false ∧ mode.maxPreferredRefresh = false) := by simpa using hneither
    simpa using fun hfalse hpreferred => absurd ⟨hfalse, hpreferred⟩ hmax

/-- The filtering iterator that removes what it comes to leaves the modes that are valid. -/
theorem entries_cfgValidateFix (cfg : Cfg) :
    (cfgValidateFix cfg).modes.entries =
      (Cursor.front cfg.modes.entries).removeEach (fun e => modeIsInvalid e.2) :=
  (Cursor.removeEach_front _ _).symm

theorem cfgValidateFix_idempotent (cfg : Cfg) :
    cfgValidateFix (cfgValidateFix cfg) = cfgValidateFix cfg :=
  cfgValidateFix_of (alignAdmissible_cfgValidateFix cfg) (autoScaleDpi_cfgValidateFix cfg)
    (modes_cfgValidateFix cfg)

theorem cfgValidateFix_modes (cfg : Cfg) :
    (cfgValidateFix cfg).modes.entries =
      cfg.modes.entries.filter (fun e => !decide (ModeUnfit e.2)) := by
  rw [entries_cfgValidateFix, Cursor.removeEach_front]
  refine List.filter_congr fun e _ => ?_
  rw [Bool.eq_iff_iff.mpr ((modeIsInvalid_iff e.2).trans decide_eq_true_iff.symm)]

/-- A DPI is kept if it exceeds the minimum, no longer at the minimum itself. -/
theorem cfgValidateFix_autoScaleDpi (cfg : Cfg) :
    (cfgValidateFix cfg).autoScaleDpi = cfg.autoScaleDpi ↔ documentedDpiMin < cfg.autoScaleDpi := by
  have hmin : autoScaleDpiMin = documentedDpiMin := rfl
  have hdefault : documentedDpiMin < autoScaleDpiDefault := by decide
  simp only [cfgValidateFix, hmin]
  split_ifs with hdpi <;> omega

/-- The comparison is off by the minimum itself. -/
theorem fixesMinimally_iff (cfg : Cfg) :
    FixesMinimally cfg ↔ cfg.autoScaleDpi ≠ documentedDpiMin := by
  constructor
  · intro h heq
    have hkept := (cfgValidateFix_autoScaleDpi cfg).mp (h.autoScaleDpi (le_of_eq heq.symm))
    omega
  · intro hne
    exact
      { idempotent := cfgValidateFix_idempotent cfg
        modes := cfgValidateFix_modes cfg
        align := align_cfgValidateFix
        autoScaleDpi := fun hmin => (cfgValidateFix_autoScaleDpi cfg).mpr (by omega)
        rest := rfl }

/-- The least DPI that is documented is replaced. -/
theorem documentedMin_replaced :
    ¬ FixesMinimally (cfgApplyDefaults { cfgInit with autoScaleDpi := 8 }) := by
  intro h
  have hkept := h.autoScaleDpi (by decide)
  exact absurd hkept (by decide)

end WayDisplays.CfgFile.Fix
