/- Which user modes a desire reports unavailable, and flags so that they are reported once. -/

import WayDisplays.Desire.Heads

set_option autoImplicit false
set_option relaxedAutoImplicit false

namespace WayDisplays.Desire.Reported

open Lib (OrderedMap)
open Model
open Spec

variable [Platform]

/-- The key of the user MODE for a head that none of its modes satisfies. -/
def unavailableKey (cfg : Cfg) (head : Head) : Option String :=
  if head.modes.size = 0 then none
  else (cfg.modes.find? (fun key _ => headNameDescMatchesHead key head)).bind (fun e =>
    if (headUserMode e.2 (headModePref head) head.modes).isNone then some e.1 else none)

/-- The keys that are reported while desire visits the heads. -/
def reported (cfg : Cfg) (lid : Option Lid) (heads : Heads) : List String :=
  heads.vals.filterMap (fun head =>
    if wantsEnabled cfg lid heads head then unavailableKey cfg head else none)

omit [Platform] in
private theorem warnNoMode_flagged {cfg : Cfg} {key : String} {mode : Mode}
    (hget : cfg.modes.get? key = some mode) (hflag : mode.warnedNoMode = true) :
    cfg.warnNoMode key = cfg := by
  have hsame : cfg.modes.modify key (fun m => { m with warnedNoMode := true }) = cfg.modes := by
    refine OrderedMap.ext_get? (OrderedMap.keys_modify _ _ _) fun key' _ => ?_
    rw [OrderedMap.get?_modify]
    split_ifs with hkey
    · subst hkey
      rw [hget, Option.map_some, ← hflag]
    · rfl
  rw [Cfg.warnNoMode, hsame]

theorem headFindMode_fst (cfg : Cfg) (head : Head) :
    (headFindMode cfg head).1 = (unavailableKey cfg head).elim cfg cfg.warnNoMode := by
  unfold headFindMode unavailableKey
  split
  · rfl
  · dsimp only
    cases hentry : cfg.modes.find? (fun key _ => headNameDescMatchesHead key head) with
    | none => rfl
    | some e =>
      obtain ⟨key, cfgMode⟩ := e
      have hget := (OrderedMap.find?_eq_some hentry).1
      simp only [Option.bind_some]
      cases headUserMode cfgMode (headModePref head) head.modes with
      | some mode => rfl
      | none =>
        simp only [Option.isNone_none, if_true, Option.elim_some]
        split
        · rename_i hflag
          exact (warnNoMode_flagged hget hflag).symm
        · rfl

theorem desireMode_fst (cfg : Cfg) (head : Head) :
    (desireMode cfg head).1 =
      if head.des.enabled then (unavailableKey cfg head).elim cfg cfg.warnNoMode else cfg := by
  have hfind := headFindMode_fst cfg head
  unfold desireMode
  cases henabled : head.des.enabled with
  | false => rfl
  | true =>
    rw [if_neg (by simp), if_pos rfl]
    split
    · rename_i hfound
      rwa [hfound] at hfind
    · rename_i hfound
      rwa [hfound] at hfind

theorem unavailableKey_congr {cfg cfg' : Cfg} (hcfg : quiet cfg = quiet cfg') {a b : Head}
    (h : SameCore a b) : unavailableKey cfg a = unavailableKey cfg' b := by
  have hquiet (c : Cfg) (head : Head) : unavailableKey c head = unavailableKey (quiet c) head := by
    simp only [unavailableKey, quiet, OrderedMap.find?_mapVals, Option.bind_map,
      Function.comp_def, headUserMode_quiet]
  rw [hquiet cfg a, hquiet cfg' b, hcfg]
  simp only [unavailableKey, headModePref, headNameDescMatchesHead_congr h.name h.description,
    h.modes, h.zmodePref]
  rfl

/-- A head that is not to be enabled is not looked for a mode. -/
theorem desireHead_fst (lid : Option Lid) (cfg : Cfg) (heads : Heads) (head : Head) :
    (desireHead lid cfg heads head).1 =
      (if wantsEnabled cfg lid heads head then unavailableKey cfg head else none).elim cfg
        cfg.warnNoMode := by
  have henabled := congrArg HeadState.enabled (desireEnabled_cur_des cfg lid heads head)
  have hkey := unavailableKey_congr (rfl : quiet cfg = quiet cfg)
    (sameCore_enabled cfg lid heads head)
  have hstep : (desireHead lid cfg heads head).1 =
      (desireMode cfg (desireEnabled cfg lid heads { head with des := head.cur })).1 := rfl
  rw [hstep, desireMode_fst, henabled, hkey]
  dsimp only
  split <;> rfl

/-- All that a desire changes of the configuration are the flags of what it reports. -/
theorem desire_fst (cfg : Cfg) (lid : Option Lid) (heads : Heads) :
    (desire cfg lid heads).1 = (reported cfg lid heads).foldl Cfg.warnNoMode cfg := by
  have hvisits : (OrderedMap.forEach (desireHead lid) heads.keys cfg heads).1 =
      (heads.keys.filterMap heads.get?).foldl
        (fun c head => (if wantsEnabled cfg lid heads head then unavailableKey cfg head
          else none).elim c c.warnNoMode) cfg := by
    refine OrderedMap.forEach_fst (J := fun c hs => quiet c = quiet cfg ∧ names hs = names heads)
      (fun c hs zhead head hJ hget => ⟨?_, ?_, ?_⟩) heads.keys_nodup ⟨rfl, rfl⟩
    · have hdisableds := quiet_field Cfg.disableds (fun _ => rfl) hJ.1
      rw [desireHead_fst, wantsEnabled_congr hdisableds lid hJ.2 rfl rfl rfl,
        unavailableKey_congr hJ.1 (Frame.refl head).toSameCore]
    · exact (quiet_desireHead lid c hs head).trans hJ.1
    · exact (Heads.names_put hget (frame_desireHead lid c hs head)).trans hJ.2
  rw [Heads.desire_eq cfg lid heads rfl, hvisits, OrderedMap.filterMap_get?_keys, reported,
    List.foldl_filterMap]
  congr 1
  funext c head
  split_ifs
  · cases unavailableKey cfg head <;> rfl
  · rfl

omit [Platform] in
/-- Only the flags of the keys that are reported differ. -/
theorem get?_foldl_warnNoMode (cfg : Cfg) (keys : List String) (key : String) :
    (keys.foldl Cfg.warnNoMode cfg).modes.get? key = (cfg.modes.get? key).map (fun mode =>
      if key ∈ keys then { mode with warnedNoMode := true } else mode) := by
  induction keys generalizing cfg with
  | nil => simp
  | cons key' keys ih =>
    rw [List.foldl_cons, ih, Cfg.warnNoMode, OrderedMap.get?_modify]
    by_cases hkey : key = key'
    · subst hkey
      simp [Function.comp_def]
    · simp [hkey]

omit [Platform] in
theorem foldl_warnNoMode_eq (cfg : Cfg) (keys : List String) :
    keys.foldl Cfg.warnNoMode cfg =
      { cfg with modes := (keys.foldl Cfg.warnNoMode cfg).modes } := by
  induction keys generalizing cfg with
  | nil => rfl
  | cons key keys ih =>
    rw [List.foldl_cons, ih]
    rfl

end WayDisplays.Desire.Reported
