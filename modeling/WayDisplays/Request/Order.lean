/- The ORDER of a request: when it becomes that of the configuration. -/

import WayDisplays.Model.CfgMerge

set_option autoImplicit false
set_option relaxedAutoImplicit false

namespace WayDisplays.Request.Order

open Lib (OrderedMap OrderedSet)
open Model

def withoutOrder (cfg : Cfg) : Cfg := { cfg with orderNameDesc := .empty }

/-- What a set makes of a configuration before it is compared. -/
def set (gCfg cfg : Cfg) : Cfg := cfgValidateFix (cfgMergeSet gCfg cfg)

private theorem cfgMerge_set (gCfg cfg : Cfg) :
    cfgMerge gCfg (some cfg) (some .cfgSet) =
      if cfgEqual (set gCfg cfg) gCfg then none else some (set gCfg cfg) := by
  simp only [cfgMerge, Option.bind_some, Option.map_some, set]
  rfl

private theorem set_order {gCfg cfg : Cfg} (horder : cfg.orderNameDesc.size > 0) :
    (set gCfg cfg).orderNameDesc = cfg.orderNameDesc := if_pos horder

/-- The configurations differ by their order only. -/
private theorem cfgEqual_set {gCfg cfg : Cfg} (horder : cfg.orderNameDesc.size > 0) :
    cfgEqual (set gCfg cfg) gCfg =
      (cfgEqual (set gCfg (withoutOrder cfg)) gCfg &&
        cfg.orderNameDesc.equal gCfg.orderNameDesc) := by
  have hsame : (set gCfg (withoutOrder cfg)).orderNameDesc = gCfg.orderNameDesc := rfl
  have hself : gCfg.orderNameDesc.equal gCfg.orderNameDesc = true :=
    OrderedSet.equal_iff_perm.mpr (List.Perm.refl _)
  have hrest : set gCfg cfg =
      { set gCfg (withoutOrder cfg) with orderNameDesc := cfg.orderNameDesc } := by
    have := @set_order gCfg cfg horder
    rw [← this]
    rfl
  rw [hrest]
  simp only [cfgEqual, hsame, hself, Bool.and_true]

/-- The ORDER of a request becomes that of the configuration exactly when it is that already,
or holds other names, or the rest of the request changes the configuration. -/
theorem order_set_iff {s : Server} {request : IpcRequest} {cfg : Cfg}
    (hcommand : request.command = some .cfgSet) (hcfg : request.cfg = some cfg)
    (horder : cfg.orderNameDesc.size > 0) :
    (gCfgProcessIpcRequest s request).1.gCfg.orderNameDesc.vals = cfg.orderNameDesc.vals ↔
      cfg.orderNameDesc.vals = s.gCfg.orderNameDesc.vals ∨
        ¬ cfg.orderNameDesc.vals.Perm s.gCfg.orderNameDesc.vals ∨
        cfgEqual (set s.gCfg (withoutOrder cfg)) s.gCfg = false := by
  simp only [gCfgProcessIpcRequest, hcommand, hcfg, cfgMerge_set, cfgEqual_set horder]
  rw [← OrderedSet.equal_iff_perm]
  cases hequal : cfg.orderNameDesc.equal s.gCfg.orderNameDesc <;>
    cases hrest : cfgEqual (set s.gCfg (withoutOrder cfg)) s.gCfg <;>
      simp [set_order horder, eq_comm]

def ordered : Server :=
  { gCfg := cfgValidateFix (cfgApplyDefaults { cfgInit with
      orderNameDesc := (OrderedSet.empty.add "DP-1").add "DP-2" })
    gDispl := displInit
    gLid := none
    gCancellationRetries := 0 }

def reorder : IpcRequest :=
  { ipcRequestInit (some .cfgSet) with
    cfg := some { cfgInit with orderNameDesc := (OrderedSet.empty.add "DP-2").add "DP-1" } }

/-- Nothing is found to change, and the order stays. -/
theorem reorder_lost :
    ¬ ∀ cfg, reorder.cfg = some cfg →
      (gCfgProcessIpcRequest ordered reorder).1.gCfg.orderNameDesc.vals =
        cfg.orderNameDesc.vals := by
  intro hclaim
  have hkept : (gCfgProcessIpcRequest ordered reorder).1.gCfg.orderNameDesc.vals =
      ["DP-1", "DP-2"] := by
    decide +kernel
  have happlied := hclaim _ rfl
  rw [hkept] at happlied
  exact absurd happlied (by decide)

theorem order_set_iff_reorder :
    ∃ cfg : Cfg, reorder.cfg = some cfg ∧
      ((gCfgProcessIpcRequest ordered reorder).1.gCfg.orderNameDesc.vals = cfg.orderNameDesc.vals ↔
        cfg.orderNameDesc.vals = ordered.gCfg.orderNameDesc.vals ∨
          ¬ cfg.orderNameDesc.vals.Perm ordered.gCfg.orderNameDesc.vals ∨
          cfgEqual (set ordered.gCfg (withoutOrder cfg)) ordered.gCfg = false) :=
  ⟨_, rfl, order_set_iff rfl rfl (by decide)⟩

end WayDisplays.Request.Order
