/- Merges on the heap: they come to what the merge of values comes to, and write to no object but
those of the result, nor free one. -/

import WayDisplays.Model.CfgHeap

set_option autoImplicit false
set_option relaxedAutoImplicit false

namespace WayDisplays.Request.Untouched

open Lib (OrderedMap OrderedSet Owned Touch Traced)
open Lib.Owned (Is Represents yields_write yields_free)
open Model
open Model.CfgHeap

/-- The object that is touched is one of the result's. -/
def Private (touch : Touch Holder) : Prop := touch.owner = .merged

/-! ### Conditions and disabled entries -/

structure OwnCondition (condition : Owned Holder ConditionObject) : Prop where
  owner : condition.owner = .merged
  plugged : condition.val.plugged.owner = .merged
  unplugged : condition.val.unplugged.owner = .merged

structure OwnDisabled (disabled : Owned Holder DisabledObject) : Prop where
  owner : disabled.owner = .merged
  conditions : disabled.val.conditions.owner = .merged
  vals : ∀ condition ∈ disabled.val.conditions.val.vals, OwnCondition condition

theorem ssetClone_val (from_ : Owned Holder Sset) : (ssetClone from_).val = from_.val :=
  OrderedSet.addAll_empty from_.val

theorem condition_cfgConditionClone (from_ : Owned Holder ConditionObject) :
    (cfgConditionClone from_).val.condition = from_.val.condition := by
  simp only [cfgConditionClone, ConditionObject.condition, ssetClone_val]

/-- The clones are as distinct as what they were cloned from. -/
theorem vals_cfgDisabledClone (from_ : Owned Holder DisabledObject) :
    (cfgDisabledClone from_).val.conditions.val.vals =
      from_.val.conditions.val.vals.map cfgConditionClone := by
  have hdistinct : (from_.val.conditions.val.vals.map cfgConditionClone).Pairwise
      (fun a b => CfgHeap.conditionEqual a b = false) := by
    rw [List.pairwise_map]
    refine from_.val.conditions.val.distinct.imp fun h => ?_
    unfold CfgHeap.conditionEqual
    rw [condition_cfgConditionClone, condition_cfgConditionClone]
    exact h
  have hadd : ((from_.val.conditions.val.vals.map cfgConditionClone).foldl OrderedSet.add
      .empty).vals = from_.val.conditions.val.vals.map cfgConditionClone :=
    OrderedSet.vals_foldl_add (s := .empty) hdistinct
  rw [List.foldl_map] at hadd
  exact hadd

theorem disabled_cfgDisabledClone (from_ : Owned Holder DisabledObject) :
    (cfgDisabledClone from_).val.disabled = from_.val.disabled := by
  simp only [DisabledObject.disabled, vals_cfgDisabledClone, List.map_map, Function.comp_def,
    condition_cfgConditionClone]

theorem yields_cfgConditionFree {condition : Owned Holder ConditionObject}
    (h : OwnCondition condition) :
    Traced.Yields Private (cfgConditionFree condition) (fun _ => True) :=
  (yields_free h.plugged).bind fun _ _ => (yields_free h.unplugged).bind fun _ _ =>
    yields_free h.owner

theorem yields_cfgDisabledFree {disabled : Owned Holder DisabledObject} (h : OwnDisabled disabled) :
    Traced.Yields Private (cfgDisabledFree disabled) (fun _ => True) := by
  refine Traced.Yields.bind (Q := fun _ => True) ?_ fun _ _ =>
    (yields_free h.conditions).bind fun _ _ => yields_free h.owner
  exact Traced.Yields.foldlM (I := fun _ (_ : Unit) => True) (g := fun d _ => d) (d := ())
    (fun _ _ c hc _ => yields_cfgConditionFree (h.vals c hc)) True.intro

theorem private_cfgDisabledSpmap : cfgDisabledSpmap.Private .merged OwnDisabled
    (fun disabled => disabled.val.disabled) where
  own_clone := fun disabled =>
    { owner := rfl
      conditions := rfl
      vals := fun condition hcondition => by
        have hclones := vals_cfgDisabledClone disabled
        change condition ∈ (cfgDisabledClone disabled).val.conditions.val.vals at hcondition
        rw [hclones] at hcondition
        obtain ⟨c, -, rfl⟩ := List.mem_map.mp hcondition
        exact ⟨rfl, rfl, rfl⟩ }
  abs_clone := disabled_cfgDisabledClone
  all_free := fun _ h => (yields_cfgDisabledFree h).all

theorem private_modeSpmap :
    modeSpmap.Private .merged (fun mode => mode.owner = .merged) Owned.val :=
  Owned.private_single Holder.merged

/-! ### Configurations -/

abbrev OwnDisableds := Represents (κ := String) Holder.merged OwnDisabled
  (fun disabled => disabled.val.disabled)

abbrev OwnModes := Represents (κ := String) (ν := Owned Holder Mode) Holder.merged
  (fun mode => mode.owner = .merged) Owned.val

abbrev OwnVals {ν : Type} := Represents (κ := String) (ν := ν) Holder.merged (fun _ => True)
  (fun val => val)

/-- All objects are the result's, and stand for a configuration. -/
structure Merged (o : Owned Holder CfgObject) (cfg : Cfg) : Prop where
  owner : o.owner = .merged
  callbackCmd : ∀ callbackCmd, o.val.callbackCmd = some callbackCmd →
    callbackCmd.owner = .merged
  orderNameDesc : o.val.orderNameDesc.owner = .merged
  adaptiveSyncOff : Is .merged o.val.adaptiveSyncOff cfg.adaptiveSyncOff
  scales : OwnVals o.val.scales cfg.scales
  transforms : OwnVals o.val.transforms cfg.transforms
  modes : OwnModes o.val.modes cfg.modes
  disableds : OwnDisableds o.val.disableds cfg.disableds
  cfg : o.val.cfg = cfg

theorem yields_cfgClone (from_ : Owned Holder CfgObject) :
    Traced.Yields Private (cfgClone from_) (Merged · from_.val.cfg) := by
  have hscales := Owned.represents_cloneDeep (m := from_.val.scales)
    (Owned.private_inPlace Holder.merged) rfl
  have htransforms := Owned.represents_cloneDeep (m := from_.val.transforms)
    (Owned.private_inPlace Holder.merged) rfl
  have hmodes := Owned.represents_cloneDeep (m := from_.val.modes) private_modeSpmap rfl
  have hdisableds := Owned.represents_cloneDeep (m := from_.val.disableds)
    private_cfgDisabledSpmap rfl
  constructor
  · exact
      { owner := rfl
        callbackCmd := fun callbackCmd h => by
          obtain ⟨cmd, -, rfl⟩ := Option.map_eq_some_iff.mp h
          rfl
        orderNameDesc := rfl
        adaptiveSyncOff := ⟨rfl, ssetClone_val _⟩
        scales := hscales
        transforms := htransforms
        modes := hmodes
        disableds := hdisableds
        cfg := by
          have hmap (callbackCmd : Option (Owned Holder String)) :
              (callbackCmd.map strdup).map Owned.val = callbackCmd.map Owned.val := by
            cases callbackCmd <;> rfl
          simp only [CfgObject.cfg, cfgClone, Owned.write, Traced.emit, Traced.val_bind, hmap,
            ssetClone_val]
          rw [hscales.abs, htransforms.abs, hmodes.abs, hdisableds.abs] }
  · intro touch h
    have hwrites : touch ∈ List.replicate 7 (Touch.write Holder.merged) := h
    rw [(List.mem_replicate.mp hwrites).2]
    rfl

namespace Merged

variable {o : Owned Holder CfgObject} {cfg : Cfg}

theorem withAlign (h : Merged o cfg) {a b : Option Align} (hval : a = b) :
    Merged { o with val := { o.val with align := a } } { cfg with align := b } :=
  { h with cfg := by rw [← h.cfg, ← hval]; rfl }

theorem withArrange (h : Merged o cfg) {a b : Option Arrange} (hval : a = b) :
    Merged { o with val := { o.val with arrange := a } } { cfg with arrange := b } :=
  { h with cfg := by rw [← h.cfg, ← hval]; rfl }

theorem withAutoScale (h : Merged o cfg) {a b : Option OnOff} (hval : a = b) :
    Merged { o with val := { o.val with autoScale := a } } { cfg with autoScale := b } :=
  { h with cfg := by rw [← h.cfg, ← hval]; rfl }

theorem withScaling (h : Merged o cfg) {a b : Option OnOff} (hval : a = b) :
    Merged { o with val := { o.val with scaling := a } } { cfg with scaling := b } :=
  { h with cfg := by rw [← h.cfg, ← hval]; rfl }

theorem withAutoScaleDpi (h : Merged o cfg) {a b : Int} (hval : a = b) :
    Merged { o with val := { o.val with autoScaleDpi := a } } { cfg with autoScaleDpi := b } :=
  { h with cfg := by rw [← h.cfg, ← hval]; rfl }

theorem withDisableds (h : Merged o cfg) {m : Owned Holder (OrderedMap String _)} {g : Disableds}
    (hm : OwnDisableds m g) : Merged { o with val := { o.val with disableds := m } }
      { cfg with disableds := g } :=
  { h with disableds := hm, cfg := by rw [← h.cfg, ← hm.abs]; rfl }

theorem withModes (h : Merged o cfg) {m : Owned Holder (OrderedMap String _)}
    {g : OrderedMap String Mode} (hm : OwnModes m g) :
    Merged { o with val := { o.val with modes := m } } { cfg with modes := g } :=
  { h with modes := hm, cfg := by rw [← h.cfg, ← hm.abs]; rfl }

theorem withScales (h : Merged o cfg) {m : Owned Holder (OrderedMap String Nat)}
    {g : OrderedMap String Nat} (hm : OwnVals m g) :
    Merged { o with val := { o.val with scales := m } } { cfg with scales := g } :=
  { h with scales := hm, cfg := by rw [← h.cfg, ← hm.abs]; rfl }

theorem withTransforms (h : Merged o cfg) {m : Owned Holder (OrderedMap String Transform)}
    {g : OrderedMap String Transform} (hm : OwnVals m g) :
    Merged { o with val := { o.val with transforms := m } } { cfg with transforms := g } :=
  { h with transforms := hm, cfg := by rw [← h.cfg, ← hm.abs]; rfl }

theorem withAdaptiveSyncOff (h : Merged o cfg) {s : Owned Holder Sset} {t : Sset}
    (hs : Is .merged s t) : Merged { o with val := { o.val with adaptiveSyncOff := s } }
      { cfg with adaptiveSyncOff := t } :=
  { h with adaptiveSyncOff := hs, cfg := by rw [← h.cfg, ← hs.val]; rfl }

theorem replaceCallbackCmd (h : Merged o cfg) {callbackCmd : Owned Holder String}
    (howner : callbackCmd.owner = .merged) :
    Traced.Yields Private (CfgHeap.replaceCallbackCmd o callbackCmd)
      (Merged · { cfg with callbackCmd := some callbackCmd.val }) := by
  have hfree : Traced.Yields Private (o.val.callbackCmd.elim (pure ()) Owned.free)
      (fun _ => True) := by
    cases hcmd : o.val.callbackCmd with
    | none => exact .pure True.intro
    | some cmd => exact yields_free (h.callbackCmd cmd hcmd)
  refine hfree.bind fun _ _ => yields_write h.owner ?_
  exact
    { h with
      callbackCmd := fun cmd hcmd => Option.some.inj hcmd ▸ howner
      cfg := by rw [← h.cfg]; rfl }

theorem upsertCallbackCmd (h : Merged o cfg) (callbackCmd : Option (Owned Holder String)) :
    Traced.Yields Private (callbackCmd.elim (pure o)
        (fun callbackCmd => CfgHeap.replaceCallbackCmd o (strdup callbackCmd)))
      (Merged · { cfg with callbackCmd := (callbackCmd.map Owned.val).or cfg.callbackCmd }) := by
  cases callbackCmd with
  | none => exact .pure h
  | some callbackCmd => exact h.replaceCallbackCmd rfl

theorem deleteCallbackCmd (h : Merged o cfg) (callbackCmd : Option (Owned Holder String)) :
    Traced.Yields Private (callbackCmd.elim (pure o)
        (fun _ => CfgHeap.replaceCallbackCmd o ⟨.merged, ""⟩))
      (Merged · { cfg with
        callbackCmd := (callbackCmd.map Owned.val).elim cfg.callbackCmd (fun _ => some "") }) := by
  cases callbackCmd with
  | none => exact .pure h
  | some callbackCmd => exact h.replaceCallbackCmd rfl

theorem assignIf (h : Merged o cfg) (p : Prop) [Decidable p] {v : CfgObject} {cfg' : Cfg}
    (hpos : p → Merged { o with val := v } cfg') (hneg : ¬ p → cfg' = cfg) :
    Traced.Yields Private (CfgHeap.assignIf p o v) (Merged · cfg') := by
  unfold CfgHeap.assignIf
  split
  · rename_i hp
    exact yields_write h.owner (hpos hp)
  · rename_i hp
    exact .pure (hneg hp ▸ h)

/-- Replaced if the request has one. -/
theorem replaceOrderNameDesc (h : Merged o cfg) (order : Owned Holder Sset) :
    Traced.Yields Private
      (if order.val.size > 0 then do
        o.val.orderNameDesc.free
        o.write { o.val with orderNameDesc := ssetClone order }
      else pure o)
      (Merged · { cfg with
        orderNameDesc := if order.val.size > 0 then order.val else cfg.orderNameDesc }) := by
  split
  · refine (yields_free h.orderNameDesc).bind fun _ _ => yields_write h.owner ?_
    exact
      { h with
        orderNameDesc := rfl
        cfg := by rw [← h.cfg, ← ssetClone_val order]; rfl }
  · exact .pure h

end Merged

/-! ### Merges -/

variable (to_ from_ : Owned Holder CfgObject)

theorem yields_cfgMergeSet :
    Traced.Yields Private (CfgHeap.cfgMergeSet to_ from_)
      (Merged · (Model.cfgMergeSet to_.val.cfg from_.val.cfg)) := by
  generalize hcfg : to_.val.cfg = cfg
  unfold CfgHeap.cfgMergeSet
  refine Traced.Yields.bind (hcfg ▸ yields_cfgClone to_) fun merged h => ?_
  have hor {α : Type} (a : Option α) {b b' : Option α} (hb : b = b') : a.or b = a.or b' :=
    congrArg a.or hb
  refine Traced.Yields.bind (yields_write (Q := (Merged · _)) h.owner
    (h.withAlign (hor from_.val.align (congrArg Cfg.align h.cfg)))) fun merged h => ?_
  refine Traced.Yields.bind (yields_write (Q := (Merged · _)) h.owner
    (h.withArrange (hor from_.val.arrange (congrArg Cfg.arrange h.cfg)))) fun merged h => ?_
  refine Traced.Yields.bind (yields_write (Q := (Merged · _)) h.owner
    (h.withAutoScale (hor from_.val.autoScale (congrArg Cfg.autoScale h.cfg)))) fun merged h => ?_
  refine Traced.Yields.bind (yields_write (Q := (Merged · _)) h.owner
    (h.withScaling (hor from_.val.scaling (congrArg Cfg.scaling h.cfg)))) fun merged h => ?_
  refine Traced.Yields.bind (h.upsertCallbackCmd from_.val.callbackCmd) fun merged h => ?_
  refine (Owned.yields_putAllCloneFree private_cfgDisabledSpmap h.disableds _).bind
    fun disableds hdisableds => ?_
  replace h := h.withDisableds hdisableds
  refine (Owned.yields_putAllCloneFree private_modeSpmap h.modes _).bind fun modes hmodes => ?_
  replace h := h.withModes hmodes
  refine (Owned.yields_putAllCloneFree (Owned.private_inPlace Holder.merged) h.scales _).bind
    fun scales hscales => ?_
  replace h := h.withScales hscales
  refine (Owned.yields_putAllCloneFree (Owned.private_inPlace Holder.merged) h.transforms _).bind
    fun transforms htransforms => ?_
  replace h := h.withTransforms htransforms
  refine (Owned.yields_addAll h.adaptiveSyncOff _).bind fun adaptiveSyncOff hadaptive => ?_
  replace h := h.withAdaptiveSyncOff hadaptive
  exact h.replaceOrderNameDesc from_.val.orderNameDesc

theorem yields_cfgMergeDel :
    Traced.Yields Private (CfgHeap.cfgMergeDel to_ from_)
      (Merged · (Model.cfgMergeDel to_.val.cfg from_.val.cfg)) := by
  have hkeys {ν β : Type} (m : OrderedMap String ν) (abs : ν → β) :
      m.keys = (m.mapVals (fun _ => abs)).keys := (OrderedMap.keys_mapVals m _).symm
  generalize hcfg : to_.val.cfg = cfg
  unfold CfgHeap.cfgMergeDel
  refine Traced.Yields.bind (hcfg ▸ yields_cfgClone to_) fun merged h => ?_
  rw [hkeys from_.val.disableds.val (fun disabled => disabled.val.disabled),
    hkeys from_.val.modes.val Owned.val, hkeys from_.val.scales.val (fun val => val),
    hkeys from_.val.transforms.val (fun val => val)]
  refine (Owned.yields_removeInFree private_cfgDisabledSpmap h.disableds _).bind
    fun disableds hdisableds => ?_
  replace h := h.withDisableds hdisableds
  refine (Owned.yields_removeInFree private_modeSpmap h.modes _).bind fun modes hmodes => ?_
  replace h := h.withModes hmodes
  refine (Owned.yields_removeInFree (Owned.private_inPlace Holder.merged) h.scales _).bind
    fun scales hscales => ?_
  replace h := h.withScales hscales
  refine (Owned.yields_removeInFree (Owned.private_inPlace Holder.merged) h.transforms _).bind
    fun transforms htransforms => ?_
  replace h := h.withTransforms htransforms
  refine (Owned.yields_removeIn h.adaptiveSyncOff _).bind fun adaptiveSyncOff hadaptive => ?_
  replace h := h.withAdaptiveSyncOff hadaptive
  exact h.deleteCallbackCmd from_.val.callbackCmd

theorem yields_cfgMergeToggle :
    Traced.Yields Private (CfgHeap.cfgMergeToggle to_ from_)
      (Merged · (Model.cfgMergeToggle to_.val.cfg from_.val.cfg)) := by
  generalize hcfg : to_.val.cfg = cfg
  unfold CfgHeap.cfgMergeToggle
  refine Traced.Yields.bind (hcfg ▸ yields_cfgClone to_) fun merged h => ?_
  have hscaling (o : Owned Holder CfgObject) (c : Cfg) (h : Merged o c) :
      Traced.Yields Private
        (CfgHeap.assignIf (from_.val.scaling = some .on) o
          { o.val with scaling := onOffInvert o.val.scaling })
        (Merged · { c with
          scaling := if from_.val.scaling = some .on then onOffInvert c.scaling
            else c.scaling }) := by
    refine h.assignIf _ (fun hon => h.withScaling ?_) (fun hoff => by rw [if_neg hoff])
    rw [if_pos hon, ← h.cfg]
    rfl
  have hautoScale (o : Owned Holder CfgObject) (c : Cfg) (h : Merged o c) :
      Traced.Yields Private
        (CfgHeap.assignIf (from_.val.autoScale = some .on) o
          { o.val with autoScale := onOffInvert o.val.autoScale })
        (Merged · { c with
          autoScale := if from_.val.autoScale = some .on then onOffInvert c.autoScale
            else c.autoScale }) := by
    refine h.assignIf _ (fun hon => h.withAutoScale ?_) (fun hoff => by rw [if_neg hoff])
    rw [if_pos hon, ← h.cfg]
    rfl
  refine Traced.Yields.bind (hscaling merged cfg h) fun merged h => ?_
  refine Traced.Yields.bind (hautoScale merged _ h) fun merged h => ?_
  have hsets : Traced.Yields Private
      (from_.val.adaptiveSyncOff.val.vals.foldlM
        (fun set val => if set.val.contains val then set.remove val else set.add val)
        merged.val.adaptiveSyncOff)
      (Is Holder.merged · (from_.val.adaptiveSyncOff.val.vals.foldl
        (fun set val => if set.contains val then set.remove val else set.add val)
        cfg.adaptiveSyncOff)) := by
    refine Traced.Yields.foldlM (I := Is Holder.merged) (fun s t val _ hs => ?_) h.adaptiveSyncOff
    rw [hs.val]
    split
    · exact Owned.yields_remove hs val
    · exact Owned.yields_add hs val
  refine hsets.bind fun adaptiveSyncOff hadaptive => ?_
  replace h := h.withAdaptiveSyncOff hadaptive
  have hmaps : Traced.Yields Private
      (from_.val.disableds.val.entries.foldlM
        (fun disableds e => if disableds.val.contains e.1
          then disableds.removeFree cfgDisabledSpmap e.1
          else disableds.putCloneFree cfgDisabledSpmap .merged e)
        merged.val.disableds)
      (OwnDisableds · (from_.val.disableds.val.entries.foldl
        (fun disableds e => if disableds.contains e.1 then disableds.remove e.1
          else disableds.put e.1 e.2.val.disabled)
        cfg.disableds)) := by
    refine Traced.Yields.foldlM (I := OwnDisableds) (fun m g e _ hm => ?_) h.disableds
    have hcontains : m.val.contains e.1 = g.contains e.1 := by
      rw [← hm.abs, OrderedMap.contains, OrderedMap.contains, OrderedMap.keys_mapVals]
    rw [hcontains]
    split
    · exact Owned.yields_removeFree private_cfgDisabledSpmap hm e.1
    · exact Owned.yields_putCloneFree private_cfgDisabledSpmap hm e
  refine hmaps.bind fun disableds hdisableds => ?_
  replace h := h.withDisableds hdisableds
  refine .pure ?_
  have hentries : from_.val.cfg.disableds.entries =
      from_.val.disableds.val.entries.map (fun e => (e.1, e.2.val.disabled)) := rfl
  unfold Model.cfgMergeToggle
  rw [hentries, List.foldl_map]
  exact h

theorem yields_cfgValidateFix {o : Owned Holder CfgObject} {cfg : Cfg} (h : Merged o cfg) :
    Traced.Yields Private (CfgHeap.cfgValidateFix o) (Merged · (Model.cfgValidateFix cfg)) := by
  unfold CfgHeap.cfgValidateFix
  rw [h.cfg]
  have halign : o.val.align = cfg.align := congrArg Cfg.align h.cfg
  refine Traced.Yields.bind (Q := (Merged · { cfg with
    align := (Model.cfgValidateFix cfg).align })) ?_ fun o h => ?_
  · refine h.assignIf _ (fun _ => h.withAlign rfl) fun hsame => ?_
    rw [not_ne_iff.mp hsame, halign]
  refine Traced.Yields.bind (Q := (Merged · { cfg with
    align := (Model.cfgValidateFix cfg).align
    autoScaleDpi := (Model.cfgValidateFix cfg).autoScaleDpi })) ?_ fun o h => ?_
  · have hdpi : o.val.autoScaleDpi = cfg.autoScaleDpi := congrArg Cfg.autoScaleDpi h.cfg
    have hfixed : (Model.cfgValidateFix cfg).autoScaleDpi =
        if o.val.autoScaleDpi ≤ autoScaleDpiMin then autoScaleDpiDefault else cfg.autoScaleDpi := by
      rw [hdpi]
      rfl
    refine h.assignIf _ (fun hlow => h.withAutoScaleDpi ?_) fun hkept => ?_
    · rw [hfixed, if_pos hlow]
    · rw [hfixed, if_neg hkept]
  have hremoved : cfg.modes.removeAll
      (o.val.modes.val.filter (fun _ mode => modeIsInvalid mode.val)).keys =
        (Model.cfgValidateFix cfg).modes := by
    have hmodes : cfg.modes = o.val.modes.val.mapVals (fun _ mode => mode.val) := h.modes.abs.symm
    have hkeys : (o.val.modes.val.filter (fun _ mode => modeIsInvalid mode.val)).keys =
        (cfg.modes.filter (fun _ mode => modeIsInvalid mode)).keys := by
      rw [hmodes]
      simp only [OrderedMap.keys, OrderedMap.filter, OrderedMap.mapVals, List.filter_map,
        List.map_map]
      rfl
    rw [hkeys]
    exact OrderedMap.removeAll_keys_filter cfg.modes (fun _ mode => modeIsInvalid mode)
  refine (Owned.yields_removeInFree private_modeSpmap h.modes _).bind fun modes hmodes => ?_
  rw [hremoved] at hmodes
  exact .pure (h.withModes hmodes)

theorem yields_cfgFree {o : Owned Holder CfgObject} {cfg : Cfg} (h : Merged o cfg) :
    Traced.Yields Private (cfgFree o) (fun _ => True) := by
  have hcmd : Traced.Yields Private (o.val.callbackCmd.elim (pure ()) Owned.free)
      (fun _ => True) := by
    cases hcmd : o.val.callbackCmd with
    | none => exact .pure True.intro
    | some cmd => exact yields_free (h.callbackCmd cmd hcmd)
  refine hcmd.bind fun _ _ => ?_
  refine (Owned.yields_freeVals private_cfgDisabledSpmap h.disableds).bind fun _ _ => ?_
  refine (Owned.yields_freeVals private_modeSpmap h.modes).bind fun _ _ => ?_
  refine (yields_free h.scales.owner).bind fun _ _ => ?_
  refine (yields_free h.transforms.owner).bind fun _ _ => ?_
  refine (yields_free h.adaptiveSyncOff.owner).bind fun _ _ => ?_
  exact (yields_free h.orderNameDesc).bind fun _ _ => yields_free h.owner

/-- What is made of the request, before it is fixed and compared. -/
def edited (command : Option IpcCommand) (cfg request : Cfg) : Option Cfg :=
  match command with
  | some .cfgDel => some (Model.cfgMergeDel cfg request)
  | some .cfgToggle => some (Model.cfgMergeToggle cfg request)
  | some .cfgSet => some (Model.cfgMergeSet cfg request)
  | _ => none

theorem yields_mergeBy (command : Option IpcCommand) :
    Traced.Yields Private (mergeBy command to_ from_)
      (Option.Rel Merged · (edited command to_.val.cfg from_.val.cfg)) := by
  have hsome {x : Heap (Owned Holder CfgObject)} {cfg : Cfg}
      (h : Traced.Yields Private x (Merged · cfg)) :
      Traced.Yields Private (some <$> x) (Option.Rel Merged · (some cfg)) :=
    .map (h.mono fun _ => .some)
  rcases command with _ | command
  · exact .pure .none
  · cases command with
    | cfgDel => exact hsome (yields_cfgMergeDel to_ from_)
    | cfgToggle => exact hsome (yields_cfgMergeToggle to_ from_)
    | cfgSet => exact hsome (yields_cfgMergeSet to_ from_)
    | get | list | reapply | cfgWrite => exact .pure .none

theorem yields_cfgMerge (command : Option IpcCommand) :
    Traced.Yields Private (CfgHeap.cfgMerge to_ (some from_) command)
      (Option.Rel Merged · (Model.cfgMerge to_.val.cfg (some from_.val.cfg) command)) := by
  have hmerge : Model.cfgMerge to_.val.cfg (some from_.val.cfg) command =
      ((edited command to_.val.cfg from_.val.cfg).map Model.cfgValidateFix).bind (fun merged =>
        if cfgEqual merged to_.val.cfg then none else some merged) := rfl
  rw [hmerge]
  have hedited := yields_mergeBy to_ from_ command
  generalize edited command to_.val.cfg from_.val.cfg = merged at hedited
  refine hedited.bind fun merged hmerged => ?_
  cases hmerged with
  | none => exact .pure .none
  | some h =>
    refine (yields_cfgValidateFix h).bind fun merged h => ?_
    rw [Option.map_some, Option.bind_some, h.cfg]
    split
    · exact (yields_cfgFree h).bind fun _ _ => .pure .none
    · exact .pure (.some h)

/-- A merge touches only what it allocated, which is all that its result consists of. -/
structure Confined (command : IpcCommand) : Prop where
  touches : ∀ touch ∈ (CfgHeap.cfgMerge to_ (some from_) (some command)).events,
    touch.owner = .merged
  own : ∀ merged, (CfgHeap.cfgMerge to_ (some from_) (some command)).val = some merged →
    Merged merged merged.val.cfg
  result : (CfgHeap.cfgMerge to_ (some from_) (some command)).val.map (fun o => o.val.cfg) =
    Model.cfgMerge to_.val.cfg (some from_.val.cfg) (some command)

theorem confined (command : IpcCommand) : Confined to_ from_ command := by
  have hyields := yields_cfgMerge to_ from_ (some command)
  have hval := hyields.val
  generalize hx : (CfgHeap.cfgMerge to_ (some from_) (some command)).val = x at hval
  generalize hg : Model.cfgMerge to_.val.cfg (some from_.val.cfg) (some command) = g at hval
  refine ⟨hyields.all, ?_, ?_⟩
  · rw [hx]
    rintro merged rfl
    cases hval with
    | some h => exact h.cfg ▸ h
  · rw [hx, hg]
    cases hval with
    | none => rfl
    | some h => exact congrArg some h.cfg

end WayDisplays.Request.Untouched
