/- What the filter of a request drops, and that no merge of what it keeps damages a condition. -/

import WayDisplays.Model.CfgMerge

set_option autoImplicit false
set_option relaxedAutoImplicit false

namespace WayDisplays.Request.Filter

open Lib (OrderedMap OrderedSet)
open Model

variable [Platform]

/-- The name is claimed by a conditional entry of the configuration. -/
def Clashes (gCfg : Cfg) (nameDesc : String) : Prop :=
  ∃ key disabled, gCfg.disableds.get? key = some disabled ∧
    cfgDisabledCondWithNameDesc key disabled nameDesc = true

/-- The name is one of a head that a conditional entry may disable. -/
def Overrides (gCfg : Cfg) (heads : Heads) (nameDesc : String) : Prop :=
  ∃ zhead head, heads.get? zhead = some head ∧ headNameDescMatchesHead nameDesc head = true ∧
    ∃ key disabled, gCfg.disableds.get? key = some disabled ∧
      cfgDisabledConditionallyForHead key disabled head = true

/-! ### The entries a head takes -/

omit [Platform] in
theorem size_pos_iff {κ ν : Type} [DecidableEq κ] {m : OrderedMap κ ν} :
    m.size > 0 ↔ ∃ k v, m.get? k = some v := by
  constructor
  · intro h
    obtain ⟨e, he⟩ := List.exists_mem_of_length_pos h
    exact ⟨e.1, e.2, OrderedMap.get?_eq_some_iff.mpr he⟩
  · rintro ⟨k, v, h⟩
    exact List.length_pos_of_mem (OrderedMap.get?_eq_some_iff.mp h)

omit [Platform] in
theorem get?_filter_eq_some {κ ν : Type} [DecidableEq κ] {m : OrderedMap κ ν}
    {p : κ → ν → Bool} {k : κ} {v : ν} :
    (m.filter p).get? k = some v ↔ m.get? k = some v ∧ p k v = true := by
  rw [OrderedMap.get?_filter, Option.filter_eq_some_iff]

/-- A head takes the entries that name it once a conditional entry does too. -/
theorem mem_keys_headOverride {gCfg : Cfg} {head : Head} {request : IpcRequest} {cfg : Cfg}
    (hcfg : request.cfg = some cfg) {nameDesc : String} :
    nameDesc ∈ (headOverrideIpcDisableds gCfg head request).2.keys ↔
      nameDesc ∈ cfg.disableds.keys ∧ headNameDescMatchesHead nameDesc head = true ∧
        ∃ key disabled, gCfg.disableds.get? key = some disabled ∧
          cfgDisabledConditionallyForHead key disabled head = true := by
  simp only [headOverrideIpcDisableds, hcfg]
  split
  · rename_i hactive
    obtain ⟨key, disabled, hget⟩ := size_pos_iff.mp hactive
    have hcond := get?_filter_eq_some.mp hget
    constructor
    · intro hmem
      obtain ⟨v, hv⟩ := OrderedMap.exists_get?_of_mem_keys hmem
      obtain ⟨hv, hmatches⟩ := get?_filter_eq_some.mp hv
      exact ⟨OrderedMap.mem_keys_of_get? hv, hmatches, key, disabled, hcond⟩
    · rintro ⟨hmem, hmatches, _⟩
      obtain ⟨v, hv⟩ := OrderedMap.exists_get?_of_mem_keys hmem
      exact OrderedMap.mem_keys_of_get? (get?_filter_eq_some.mpr ⟨hv, hmatches⟩)
  · rename_i hinactive
    constructor
    · intro hmem
      exact absurd hmem (by simp)
    · rintro ⟨_, _, key, disabled, hcond⟩
      exact absurd (size_pos_iff.mpr ⟨key, disabled, get?_filter_eq_some.mpr hcond⟩) hinactive

omit [Platform] in
private theorem mem_keys_foldl_putAll {α κ ν : Type} [DecidableEq κ] {taken : α → OrderedMap κ ν}
    {es : List α} {m : OrderedMap κ ν} {k : κ} :
    k ∈ (es.foldl (fun all e => all.putAll (taken e).entries) m).keys ↔
      k ∈ m.keys ∨ ∃ e ∈ es, k ∈ (taken e).keys := by
  induction es generalizing m with
  | nil => simp
  | cons e es ih =>
    rw [List.foldl_cons, ih, OrderedMap.mem_keys_putAll]
    simp only [List.mem_cons, exists_eq_or_imp]
    exact or_assoc

omit [Platform] in
private theorem get?_removeAll {κ ν : Type} [DecidableEq κ] (m : OrderedMap κ ν) {ks : List κ}
    {k : κ} {v : ν} : (m.removeAll ks).get? k = some v ↔ m.get? k = some v ∧ k ∉ ks := by
  induction ks generalizing m with
  | nil => simp [OrderedMap.removeAll]
  | cons a ks ih =>
    have hstep := ih (m.remove a)
    rw [show m.removeAll (a :: ks) = (m.remove a).removeAll ks from rfl, hstep]
    by_cases hk : k = a
    · subst hk
      simp
    · rw [OrderedMap.get?_remove_ne m hk]
      simp [hk]

/-- The filter keeps the entries that neither clash nor override. -/
theorem get?_ipcRequestFilter {gCfg : Cfg} {heads : Heads} {request : IpcRequest} {cfg : Cfg}
    (hcfg : request.cfg = some cfg) :
    ∃ disableds, (ipcRequestFilter gCfg heads request).2 =
        { request with cfg := some { cfg with disableds := disableds } } ∧
      ∀ nameDesc disabled, disableds.get? nameDesc = some disabled ↔
        cfg.disableds.get? nameDesc = some disabled ∧ ¬ Clashes gCfg nameDesc ∧
          ¬ Overrides gCfg heads nameDesc := by
  simp only [ipcRequestFilter, hcfg]
  refine ⟨_, rfl, fun nameDesc disabled => ?_⟩
  have hclashes : (!gCfg.disableds.entries.any (fun e =>
      cfgDisabledCondWithNameDesc e.1 e.2 nameDesc)) = true ↔ ¬ Clashes gCfg nameDesc := by
    rw [Bool.not_eq_true', ← Bool.not_eq_true, List.any_eq_true]
    refine not_congr ?_
    constructor
    · rintro ⟨e, he, h⟩
      exact ⟨e.1, e.2, OrderedMap.get?_eq_some_iff.mpr he, h⟩
    · rintro ⟨key, disabled, hget, h⟩
      exact ⟨(key, disabled), OrderedMap.get?_eq_some_iff.mp hget, h⟩
  rw [cfgDisabledFilterConditionalClashes, get?_filter_eq_some, get?_removeAll, hclashes, and_assoc,
    and_comm (a := nameDesc ∉ _), mem_keys_foldl_putAll]
  refine and_congr_right fun hget => and_congr_right fun _ => not_congr ?_
  have hmem : nameDesc ∈ cfg.disableds.keys := OrderedMap.mem_keys_of_get? hget
  constructor
  · rintro (hnil | ⟨e, he, htaken⟩)
    · exact absurd hnil (by simp)
    · obtain ⟨_, hmatches, hcond⟩ := (mem_keys_headOverride hcfg).mp htaken
      exact ⟨e.1, e.2, OrderedMap.get?_eq_some_iff.mpr he, hmatches, hcond⟩
  · rintro ⟨zhead, head, hhead, hmatches, hcond⟩
    exact Or.inr ⟨(zhead, head), OrderedMap.get?_eq_some_iff.mp hhead,
      (mem_keys_headOverride hcfg).mpr ⟨hmem, hmatches, hcond⟩⟩

/-! ### Merges -/

theorem clashes_self {gCfg : Cfg} {key : String} {disabled : CfgDisabled}
    (hget : gCfg.disableds.get? key = some disabled) (hcond : disabled.conditions.size > 0) :
    Clashes gCfg key := by
  refine ⟨key, disabled, hget, ?_⟩
  have hsize : ¬ disabled.conditions.size = 0 := Nat.ne_of_gt hcond
  simp [cfgDisabledCondWithNameDesc, hsize, strcasestr]

omit [Platform] in
private theorem filter_foldl {β : Type} {p : String → Bool} {f : Disableds → β → Disableds}
    (key : β → String)
    (hf : ∀ disableds b, p (key b) = false →
      (f disableds b).filter (fun k _ => p k) = disableds.filter (fun k _ => p k))
    {bs : List β} (hbs : ∀ b ∈ bs, p (key b) = false) (disableds : Disableds) :
    (bs.foldl f disableds).filter (fun k _ => p k) = disableds.filter (fun k _ => p k) := by
  induction bs generalizing disableds with
  | nil => rfl
  | cons b bs ih =>
    rw [List.foldl_cons, ih (fun b' hb' => hbs b' (List.mem_cons_of_mem _ hb'))]
    exact hf disableds b (hbs b List.mem_cons_self)

omit [Platform] in
/-- A merge leaves the entries alone whose keys are unlike those of the request. -/
theorem filter_cfgMerge {to_ cfg merged : Cfg} {command : Option IpcCommand} {p : String → Bool}
    (hmerge : cfgMerge to_ (some cfg) command = some merged)
    (hp : ∀ key ∈ cfg.disableds.keys, p key = false) :
    merged.disableds.filter (fun k _ => p k) = to_.disableds.filter (fun k _ => p k) := by
  have hentries : ∀ e ∈ cfg.disableds.entries, p e.1 = false :=
    fun e he => hp e.1 (List.mem_map_of_mem he)
  unfold cfgMerge at hmerge
  obtain ⟨fixed, hfixed, hmerge⟩ := Option.bind_eq_some_iff.mp hmerge
  obtain ⟨combined, hcombined, rfl⟩ := Option.map_eq_some_iff.mp hfixed
  have hmerged : merged = cfgValidateFix combined := by
    split at hmerge
    · exact absurd hmerge (by simp)
    · exact (Option.some.inj hmerge).symm
  have hvalidate : merged.disableds = combined.disableds := by rw [hmerged]; rfl
  rw [hvalidate]
  rw [Option.bind_some] at hcombined
  split at hcombined
  · obtain rfl := Option.some.inj hcombined
    exact filter_foldl id (fun disableds key hkey => OrderedMap.filter_remove hkey disableds)
      hp _
  · obtain rfl := Option.some.inj hcombined
    refine filter_foldl Prod.fst (fun disableds e he => ?_) hentries _
    split
    · exact OrderedMap.filter_remove he disableds
    · exact OrderedMap.filter_put he disableds e.2
  · obtain rfl := Option.some.inj hcombined
    exact filter_foldl Prod.fst
      (fun disableds e he => OrderedMap.filter_put he disableds e.2) hentries _
  · exact absurd hcombined (by simp)

omit [Platform] in
theorem get?_cfgMerge {to_ cfg merged : Cfg} {command : Option IpcCommand} {key : String}
    (hmerge : cfgMerge to_ (some cfg) command = some merged) (hkey : key ∉ cfg.disableds.keys) :
    merged.disableds.get? key = to_.disableds.get? key := by
  have hsame := filter_cfgMerge (p := fun k => decide (k = key)) hmerge
    (fun k hk => decide_eq_false (fun h => hkey (h ▸ hk)))
  have hget (m : Disableds) :
      m.get? key = (m.filter (fun k _ => decide (k = key))).get? key := by
    rw [OrderedMap.get?_filter, decide_eq_true rfl]
    cases m.get? key <;> rfl
  rw [hget, hsame, ← hget]

/-- No key that the filter keeps clashes with a conditional entry; one it drops clashes, or
names a head that a conditional entry names too; the others stay as they were requested; and
the merge of what is kept leaves every conditional entry with its conditions. -/
theorem filter_spares_conditions (gCfg : Cfg) (heads : Heads) {request : IpcRequest} {cfg : Cfg}
    (hcfg : request.cfg = some cfg) :
    ∃ kept, (ipcRequestFilter gCfg heads request).2.cfg = some kept ∧
      (∀ nameDesc ∈ kept.disableds.keys, ¬ Clashes gCfg nameDesc) ∧
      (∀ nameDesc ∈ cfg.disableds.keys, nameDesc ∉ kept.disableds.keys →
        Clashes gCfg nameDesc ∨ Overrides gCfg heads nameDesc) ∧
      (∀ nameDesc disabled, cfg.disableds.get? nameDesc = some disabled →
        ¬ Clashes gCfg nameDesc → ¬ Overrides gCfg heads nameDesc →
          kept.disableds.get? nameDesc = some disabled) ∧
      ∀ merged, cfgMerge gCfg (some kept) request.command = some merged →
        ∀ key disabled, gCfg.disableds.get? key = some disabled →
          disabled.conditions.size > 0 → merged.disableds.get? key = some disabled := by
  obtain ⟨disableds, hfilter, hkept⟩ := @get?_ipcRequestFilter _ gCfg heads _ _ hcfg
  have hspared : ∀ nameDesc ∈ disableds.keys, ¬ Clashes gCfg nameDesc := by
    intro nameDesc hmem
    obtain ⟨disabled, hget⟩ := OrderedMap.exists_get?_of_mem_keys hmem
    exact ((hkept nameDesc disabled).mp hget).2.1
  refine ⟨{ cfg with disableds := disableds }, by rw [hfilter], hspared, ?_, ?_, ?_⟩
  · intro nameDesc hmem hdropped
    by_contra hneither
    rw [not_or] at hneither
    obtain ⟨disabled, hget⟩ := OrderedMap.exists_get?_of_mem_keys hmem
    exact hdropped (OrderedMap.mem_keys_of_get? ((hkept nameDesc disabled).mpr ⟨hget, hneither⟩))
  · intro nameDesc disabled hget hclashes hoverrides
    exact (hkept nameDesc disabled).mpr ⟨hget, hclashes, hoverrides⟩
  · intro merged hmerge key disabled hget hcond
    have hnot : key ∉ disableds.keys := fun hmem => hspared key hmem (clashes_self hget hcond)
    exact (get?_cfgMerge hmerge hnot).trans hget

/-- A laptop display that is disabled while its lid is closed. -/
def lidConditional : Cfg :=
  { cfgInit with disableds := cfgDisabledAddLidCondition .empty "eDP-1" }

def laptopPanel : Heads :=
  OrderedMap.empty.put ⟨0⟩ { headInit with
    name := some "eDP-1"
    description := some "Laptop panel"
    cur := { headStateInit with enabled := true } }

/-- A request for it, by a part of its name and by its description, and for another display. -/
def disableBoth : IpcRequest :=
  { ipcRequestInit (some .cfgSet) with
    cfg := some { cfgInit with
      disableds := ((OrderedMap.empty.put "edp" ⟨.empty⟩).put "Laptop panel" ⟨.empty⟩).put
        "HDMI-A-1" ⟨.empty⟩ } }

omit [Platform] in
/-- The head is overridden, the other display is all that is left of the request, and the
condition stays. -/
theorem filter_spares_conditions_disableBoth :
    ∃ kept merged,
      (@ipcRequestFilter plainPlatform lidConditional laptopPanel disableBoth).2.cfg = some kept ∧
      (@ipcRequestFilter plainPlatform lidConditional laptopPanel disableBoth).1.vals.map
        Head.overridedEnabled = [.overrideFalse] ∧
      kept.disableds.keys = ["HDMI-A-1"] ∧
      cfgMerge lidConditional (some kept) (some .cfgSet) = some merged ∧
      merged.disableds.get? "eDP-1" = lidConditional.disableds.get? "eDP-1" := by
  let _ : Platform := plainPlatform
  obtain ⟨kept, hkept, _, _, _, hspares⟩ :=
    @filter_spares_conditions plainPlatform lidConditional laptopPanel disableBoth _ rfl
  have hvalue : ((ipcRequestFilter lidConditional laptopPanel disableBoth).2.cfg.map (fun cfg =>
      (cfg.disableds.keys, (cfgMerge lidConditional (some cfg) (some .cfgSet)).isSome))) =
        some (["HDMI-A-1"], true) := by
    decide +kernel
  rw [hkept, Option.map_some] at hvalue
  obtain ⟨hkeys, hmerged⟩ := Prod.mk.inj (Option.some.inj hvalue)
  obtain ⟨merged, hmerge⟩ := Option.isSome_iff_exists.mp hmerged
  have hcond : (lidConditional.disableds.get? "eDP-1").any
      (fun disabled => decide (disabled.conditions.size > 0)) = true := by
    decide +kernel
  cases hget : lidConditional.disableds.get? "eDP-1" with
  | none => simp [hget] at hcond
  | some disabled =>
    rw [hget, Option.any_some, decide_eq_true_eq] at hcond
    exact ⟨kept, merged, hkept, by decide +kernel, hkeys, hmerge,
      hspares merged hmerge "eDP-1" disabled hget hcond⟩

end WayDisplays.Request.Filter
