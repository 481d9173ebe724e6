/- What desire decides for each head, and the parts of the state on which it depends. -/

import WayDisplays.Model.Desire

set_option autoImplicit false
set_option relaxedAutoImplicit false

namespace WayDisplays.Desire.Spec

open Lib (OrderedMap)
open Model

variable [Platform]

/-- The configuration without the record of the user modes reported unavailable. -/
def quiet (cfg : Cfg) : Cfg :=
  { cfg with modes := cfg.modes.mapVals (fun _ m => { m with warnedNoMode := false }) }

/-- Heads that `head_find_mode` and the scales cannot tell apart. -/
structure SameCore (a b : Head) : Prop where
  modes : a.modes = b.modes
  zmodePref : a.zmodePref = b.zmodePref
  name : a.name = b.name
  description : a.description = b.description
  widthMm : a.widthMm = b.widthMm
  heightMm : a.heightMm = b.heightMm

/-- What conditions read of the heads. -/
def names (heads : Heads) : List (ZHead × Option String × Option String) :=
  heads.entries.map (fun e => (e.1, e.2.name, e.2.description))

/-- The state of a head without conditions or overrides. -/
def autoEnabled (cfg : Cfg) (lid : Option Lid) (heads : Heads) (head : Head) : Bool :=
  !(cfgDisabledAppliesToHead heads lid cfg.disableds head (decide (heads.size = 1))).2

/-- Whether the head is to be enabled, if a mode is found for it. -/
def wantsEnabled (cfg : Cfg) (lid : Option Lid) (heads : Heads) (head : Head) : Bool :=
  match head.overridedEnabled with
  | .noOverride => autoEnabled cfg lid heads head
  | .overrideTrue => true
  | .overrideFalse => false

def chosenMode (cfg : Cfg) (head : Head) : Option ZMode := (headFindMode cfg head).2.2

def wantedAdaptiveSync (cfg : Cfg) (head : Head) : AdaptiveSync :=
  if cfg.adaptiveSyncOff.vals.any (fun nameDesc => headNameDescMatchesHead nameDesc head)
  then .disabled else .enabled

def wantedScale (cfg : Cfg) (head : Head) (zmode : Option ZMode) : Int :=
  (desireScale cfg
    { head with des := { head.des with zmode := zmode, enabled := true } }).des.scale

def wantedTransform (cfg : Cfg) (head : Head) : Transform :=
  match cfg.transforms.find? (fun key _ => headNameDescMatchesHead key head) with
  | some (_, transform) => transform
  | none => .normal

def active (cfg : Cfg) (lid : Option Lid) (heads : Heads) (head : Head) : Bool :=
  wantsEnabled cfg lid heads head && (chosenMode cfg head).isSome

/-! ### Dependence on the parts of the state -/

omit [Platform] in
/-- Quiet configurations that are equal agree wherever the record is not read. -/
theorem quiet_field {α : Type} (field : Cfg → α) (hfield : ∀ cfg, field (quiet cfg) = field cfg)
    {cfg cfg' : Cfg} (h : quiet cfg = quiet cfg') : field cfg = field cfg' := by
  rw [← hfield cfg, h, hfield cfg']

theorem headMatchesNameDesc_congr {a b : Head} (hname : a.name = b.name)
    (hdescription : a.description = b.description) :
    headMatchesNameDesc a = headMatchesNameDesc b := by
  funext nameDesc
  simp only [headMatchesNameDesc, headMatchesNameDescExact, headMatchesNameDescRegex,
    headMatchesNameDescFuzzy, hname, hdescription]

theorem headNameDescMatchesHead_congr {a b : Head} (hname : a.name = b.name)
    (hdescription : a.description = b.description) (nameDesc : String) :
    headNameDescMatchesHead nameDesc a = headNameDescMatchesHead nameDesc b :=
  congrFun (headMatchesNameDesc_congr hname hdescription) nameDesc

private theorem find?_isSome_names (heads : Heads) (nameDesc : String) :
    (heads.find? (fun _ head => headMatchesNameDesc head nameDesc)).isSome =
      (names heads).any (fun n => headMatchesNameDesc
        { headInit with name := n.2.1, description := n.2.2 } nameDesc) := by
  rw [Bool.eq_iff_iff, OrderedMap.find?, List.find?_isSome]
  simp only [names, List.any_map, List.any_eq_true, Function.comp_apply]
  refine exists_congr fun e => and_congr_right fun _ => ?_
  rw [headMatchesNameDesc_congr (a := e.2)
    (b := { headInit with name := e.2.name, description := e.2.description }) rfl rfl]

theorem cfgConditionMet_congr {heads heads' : Heads} (h : names heads = names heads')
    (lid : Option Lid) (failLidClosed : Bool) :
    cfgConditionMet heads lid failLidClosed = cfgConditionMet heads' lid failLidClosed := by
  funext condition
  simp only [cfgConditionMet, find?_isSome_names, ← Option.not_isSome, h]

omit [Platform] in
theorem size_eq_of_names {heads heads' : Heads} (h : names heads = names heads') :
    heads.size = heads'.size := by
  simpa [names, OrderedMap.size] using congrArg List.length h

theorem cfgDisabledAppliesToHead_congr {heads heads' : Heads} (h : names heads = names heads')
    (lid : Option Lid) (disableds : Disableds) {a b : Head} (hname : a.name = b.name)
    (hdescription : a.description = b.description) (failLidClosed : Bool) :
    (cfgDisabledAppliesToHead heads lid disableds a failLidClosed).2 =
      (cfgDisabledAppliesToHead heads' lid disableds b failLidClosed).2 := by
  simp only [cfgDisabledAppliesToHead, cfgConditionMet_congr h,
    headNameDescMatchesHead_congr hname hdescription]

theorem wantsEnabled_congr {cfg cfg' : Cfg} (hcfg : cfg.disableds = cfg'.disableds)
    (lid : Option Lid) {heads heads' : Heads} (h : names heads = names heads') {a b : Head}
    (hname : a.name = b.name) (hdescription : a.description = b.description)
    (hoverride : a.overridedEnabled = b.overridedEnabled) :
    wantsEnabled cfg lid heads a = wantsEnabled cfg' lid heads' b := by
  simp only [wantsEnabled, autoEnabled, hcfg, hoverride, size_eq_of_names h,
    cfgDisabledAppliesToHead_congr h lid cfg'.disableds hname hdescription]

/-! ### The choice of a mode -/

omit [Platform] in
theorem headUserMode_quiet (m : Mode) (modePref : Option ModeEntry) (modes : Modes) :
    headUserMode { m with warnedNoMode := false } modePref modes =
      headUserMode m modePref modes := by
  have hbest : modeBestSatisfying { m with warnedNoMode := false } modes =
      modeBestSatisfying m modes := by
    unfold modeBestSatisfying
    generalize modeCandidates modes = candidates
    rfl
  unfold headUserMode
  rw [hbest]

theorem chosenMode_eq (cfg : Cfg) (head : Head) :
    chosenMode cfg head =
      if head.modes.size = 0 then none
      else
        let cfgEntry := cfg.modes.find? (fun key _ => headNameDescMatchesHead key head)
        let mode := cfgEntry.bind (fun e => headUserMode e.2 (headModePref head) head.modes)
        ((mode.or (headModePref head)).or (modeMax head.modes)).map Prod.fst := by
  unfold chosenMode headFindMode
  split
  · rfl
  · dsimp only
    congr 3
    split <;> rfl

/-- The user MODE for a head, whether it was reported unavailable or not. -/
def userMode (cfg : Cfg) (head : Head) : Option Mode :=
  ((quiet cfg).modes.find? (fun key _ => headNameDescMatchesHead key head)).map Prod.snd

/-- The choice rests on the user MODE, the preferred mode and the modes there are. -/
theorem chosenMode_of_userMode {cfg cfg' : Cfg} {a b : Head}
    (huser : userMode cfg a = userMode cfg' b) (hpref : a.zmodePref = b.zmodePref)
    (hmodes : a.modes = b.modes) : chosenMode cfg a = chosenMode cfg' b := by
  have hchosen (c : Cfg) (h : Head) : chosenMode c h =
      if h.modes.size = 0 then none
      else
        let mode := (userMode c h).bind (fun m => headUserMode m (headModePref h) h.modes)
        ((mode.or (headModePref h)).or (modeMax h.modes)).map Prod.fst := by
    simp only [chosenMode_eq, userMode, quiet, OrderedMap.find?_mapVals, Option.map_map,
      Option.bind_map, Function.comp_def, headUserMode_quiet]
  simp only [hchosen, headModePref, huser, hpref, hmodes]

theorem userMode_congr {cfg cfg' : Cfg} (hcfg : quiet cfg = quiet cfg') {a b : Head}
    (hname : a.name = b.name) (hdescription : a.description = b.description) :
    userMode cfg a = userMode cfg' b := by
  simp only [userMode, hcfg, headNameDescMatchesHead_congr hname hdescription]

theorem chosenMode_congr {cfg cfg' : Cfg} (hcfg : quiet cfg = quiet cfg') {a b : Head}
    (h : SameCore a b) : chosenMode cfg a = chosenMode cfg' b :=
  chosenMode_of_userMode (userMode_congr hcfg h.name h.description) h.zmodePref h.modes

omit [Platform] in
theorem headModePref_mem {head : Head} {e : ModeEntry}
    (h : headModePref head = some e) : e ∈ head.modes.entries := by
  obtain ⟨zmode, _, hmode⟩ := Option.bind_eq_some_iff.mp h
  obtain ⟨mode, hget, rfl⟩ := Option.map_eq_some_iff.mp hmode
  exact OrderedMap.get?_eq_some_iff.mp hget

omit [Platform] in
theorem headUserMode_mem {cfgMode : Mode} {modePref : Option ModeEntry} {modes : Modes}
    {e : ModeEntry} (h : headUserMode cfgMode modePref modes = some e) : e ∈ modes.entries := by
  unfold headUserMode at h
  split at h
  · rename_i e' hbest
    exact modeBestSatisfying_mem (hbest.trans h)
  · split at h
    · split at h
      · exact modeMaxRefresh_mem h
      · exact absurd h (by simp)
    · exact absurd h (by simp)

/-- A mode is chosen exactly when there is one, and it is one of the head's. -/
theorem chosenMode_mem {cfg : Cfg} {head : Head} {zmode : ZMode}
    (h : chosenMode cfg head = some zmode) : zmode ∈ head.modes.keys := by
  rw [chosenMode_eq] at h
  split at h
  · exact absurd h (by simp)
  · rename_i hsize
    obtain ⟨e, he, rfl⟩ := Option.map_eq_some_iff.mp h
    refine List.mem_map_of_mem (f := Prod.fst) ?_
    rcases Option.or_eq_some_iff.mp he with he | ⟨_, he⟩
    · rcases Option.or_eq_some_iff.mp he with he | ⟨_, he⟩
      · obtain ⟨_, _, huser⟩ := Option.bind_eq_some_iff.mp he
        exact headUserMode_mem huser
      · exact headModePref_mem he
    · have hne : head.modes.entries ≠ [] := fun hnil => hsize (by simp [OrderedMap.size, hnil])
      obtain ⟨e', hmax, hmem⟩ := exists_modeMax hne
      obtain rfl := Option.some.inj (hmax.symm.trans he)
      exact hmem

theorem chosenMode_eq_none {cfg : Cfg} {head : Head} :
    chosenMode cfg head = none ↔ head.modes.size = 0 := by
  rw [chosenMode_eq]
  split
  · rename_i hsize
    exact iff_of_true rfl hsize
  · rename_i hsize
    have hne : head.modes.entries ≠ [] := fun hnil => hsize (by simp [OrderedMap.size, hnil])
    obtain ⟨e, hmax, _⟩ := exists_modeMax hne
    refine iff_of_false ?_ hsize
    simp [hmax]

omit [Platform] in
theorem quiet_warnNoMode (cfg : Cfg) (key : String) : quiet (cfg.warnNoMode key) = quiet cfg := by
  have hmodes : ((cfg.modes.modify key (fun m => { m with warnedNoMode := true })).mapVals
      (fun _ m => { m with warnedNoMode := false })) =
      cfg.modes.mapVals (fun _ m => { m with warnedNoMode := false }) := by
    apply OrderedMap.ext
    simp only [OrderedMap.modify, OrderedMap.mapVals, List.map_map]
    refine List.map_congr_left fun e _ => ?_
    simp only [Function.comp_apply]
    split <;> rfl
  simp only [quiet, Cfg.warnNoMode, hmodes]

theorem quiet_headFindMode (cfg : Cfg) (head : Head) :
    quiet (headFindMode cfg head).1 = quiet cfg := by
  unfold headFindMode
  split
  · rfl
  · dsimp only
    split
    · split
      · rfl
      · exact quiet_warnNoMode cfg _
    · rfl

theorem headFindMode_head (cfg : Cfg) (head : Head) :
    ∃ warned, (headFindMode cfg head).2.1 = { head with warnedNoPreferred := warned } := by
  unfold headFindMode
  split
  · exact ⟨head.warnedNoPreferred, rfl⟩
  · dsimp only
    split
    · exact ⟨true, rfl⟩
    · exact ⟨head.warnedNoPreferred, rfl⟩

/-! ### What desire leaves alone -/

/-- A head of which only the desired state and what follows from it has changed. -/
structure Frame (a b : Head) : Prop extends SameCore a b where
  modesFailed : a.modesFailed = b.modesFailed
  cur : a.cur = b.cur
  reapplyRequired : a.reapplyRequired = b.reapplyRequired
  adaptiveSyncFailed : a.adaptiveSyncFailed = b.adaptiveSyncFailed

omit [Platform] in
theorem Frame.refl (a : Head) : Frame a a := by
  constructor <;> first | rfl | (constructor <;> rfl)

omit [Platform] in
theorem Frame.trans {a b c : Head} (h : Frame a b) (h' : Frame b c) : Frame a c where
  modes := h.modes.trans h'.modes
  zmodePref := h.zmodePref.trans h'.zmodePref
  name := h.name.trans h'.name
  description := h.description.trans h'.description
  widthMm := h.widthMm.trans h'.widthMm
  heightMm := h.heightMm.trans h'.heightMm
  modesFailed := h.modesFailed.trans h'.modesFailed
  cur := h.cur.trans h'.cur
  reapplyRequired := h.reapplyRequired.trans h'.reapplyRequired
  adaptiveSyncFailed := h.adaptiveSyncFailed.trans h'.adaptiveSyncFailed

omit [Platform] in
theorem Frame.withDes (a : Head) (des : HeadState) : Frame a { a with des := des } where
  modes := rfl
  zmodePref := rfl
  name := rfl
  description := rfl
  widthMm := rfl
  heightMm := rfl
  modesFailed := rfl
  cur := rfl
  reapplyRequired := rfl
  adaptiveSyncFailed := rfl

theorem frame_desireEnabled (cfg : Cfg) (lid : Option Lid) (heads : Heads) (head : Head) :
    Frame head (desireEnabled cfg lid heads head) where
  modes := rfl
  zmodePref := rfl
  name := rfl
  description := rfl
  widthMm := rfl
  heightMm := rfl
  modesFailed := rfl
  cur := rfl
  reapplyRequired := rfl
  adaptiveSyncFailed := rfl

theorem frame_desireMode (cfg : Cfg) (head : Head) : Frame head (desireMode cfg head).2 := by
  obtain ⟨warned, hhead⟩ := headFindMode_head cfg head
  unfold desireMode
  split
  · exact Frame.refl head
  · split
    · rename_i found zmode hfound
      obtain rfl : found = { head with warnedNoPreferred := warned } := by
        simpa [hfound] using hhead
      exact ⟨⟨rfl, rfl, rfl, rfl, rfl, rfl⟩, rfl, rfl, rfl, rfl⟩
    · rename_i found hfound
      obtain rfl : found = { head with warnedNoPreferred := warned } := by
        simpa [hfound] using hhead
      exact ⟨⟨rfl, rfl, rfl, rfl, rfl, rfl⟩, rfl, rfl, rfl, rfl⟩

theorem frame_desireScale (cfg : Cfg) (head : Head) : Frame head (desireScale cfg head) := by
  unfold desireScale
  split
  · exact Frame.refl head
  · exact Frame.withDes head _

theorem frame_desireTransform (cfg : Cfg) (head : Head) :
    Frame head (desireTransform cfg head) := by
  unfold desireTransform
  split
  · exact Frame.refl head
  · exact Frame.withDes head _

theorem frame_desireAdaptiveSync (cfg : Cfg) (head : Head) :
    Frame head (desireAdaptiveSync cfg head) := by
  unfold desireAdaptiveSync
  split
  · exact Frame.refl head
  · split
    · exact Frame.refl head
    · exact Frame.withDes head _

omit [Platform] in
theorem desireScaledDimensions_eq (cfg : Cfg) (head : Head) :
    ∃ scaled, desireScaledDimensions cfg head = { head with scaled := scaled } := by
  unfold desireScaledDimensions
  split
  · exact ⟨head.scaled, rfl⟩
  · split
    · exact ⟨head.scaled, rfl⟩
    · exact ⟨_, rfl⟩

omit [Platform] in
theorem frame_desireScaledDimensions (cfg : Cfg) (head : Head) :
    Frame head (desireScaledDimensions cfg head) := by
  obtain ⟨scaled, h⟩ := desireScaledDimensions_eq cfg head
  rw [h]
  exact ⟨⟨rfl, rfl, rfl, rfl, rfl, rfl⟩, rfl, rfl, rfl, rfl⟩

omit [Platform] in
theorem frame_desireReapply (head : Head) : Frame head (desireReapply head) := by
  unfold desireReapply
  split
  · exact Frame.withDes head _
  · exact Frame.refl head

theorem frame_desireHead (lid : Option Lid) (cfg : Cfg) (heads : Heads) (head : Head) :
    Frame head (desireHead lid cfg heads head).2 :=
  (Frame.withDes head head.cur).trans <| (frame_desireEnabled cfg lid heads _).trans <|
    (frame_desireMode cfg _).trans <| (frame_desireScale _ _).trans <|
    (frame_desireTransform _ _).trans <| (frame_desireAdaptiveSync _ _).trans <|
    (frame_desireScaledDimensions _ _).trans <| frame_desireReapply _

theorem quiet_desireHead (lid : Option Lid) (cfg : Cfg) (heads : Heads) (head : Head) :
    quiet (desireHead lid cfg heads head).1 = quiet cfg := by
  have hmode (h : Head) : quiet (desireMode cfg h).1 = quiet cfg := by
    have hfind := quiet_headFindMode cfg h
    unfold desireMode
    split
    · rfl
    · split
      · rename_i hfound
        rwa [hfound] at hfind
      · rename_i hfound
        rwa [hfound] at hfind
  exact hmode _

/-! ### The desired state -/

theorem desireEnabled_des (cfg : Cfg) (lid : Option Lid) (heads : Heads) (head : Head) :
    (desireEnabled cfg lid heads head).des =
      { head.des with enabled := wantsEnabled cfg lid heads head } := by
  simp only [desireEnabled, wantsEnabled, autoEnabled]
  cases hauto : (cfgDisabledAppliesToHead heads lid cfg.disableds head
    (decide (heads.size = 1))).2 <;>
    cases hoverride : head.overridedEnabled <;>
    simp [cfgDisabledAppliesToHead, hoverride]

theorem desireEnabled_override (cfg : Cfg) (lid : Option Lid) (heads : Heads)
    (head : Head) :
    (desireEnabled cfg lid heads head).overridedEnabled =
      if head.overridedEnabled ≠ .noOverride ∧
          autoEnabled cfg lid heads head = decide (head.overridedEnabled = .overrideTrue)
      then .noOverride else head.overridedEnabled :=
  rfl

theorem autoEnabled_congr (cfg : Cfg) (lid : Option Lid) (heads : Heads) {a b : Head}
    (hname : a.name = b.name) (hdescription : a.description = b.description) :
    autoEnabled cfg lid heads a = autoEnabled cfg lid heads b :=
  congrArg not (cfgDisabledAppliesToHead_congr rfl lid cfg.disableds hname hdescription _)

/-- An override that is reset agrees with what it is reset to. -/
private theorem wantsEnabled_desireEnabled (cfg : Cfg) (lid : Option Lid) (heads : Heads)
    (head : Head) :
    wantsEnabled cfg lid heads (desireEnabled cfg lid heads head) =
      wantsEnabled cfg lid heads head := by
  have hauto : autoEnabled cfg lid heads (desireEnabled cfg lid heads head) =
      autoEnabled cfg lid heads head := autoEnabled_congr cfg lid heads rfl rfl
  simp only [wantsEnabled, hauto, desireEnabled_override]
  cases autoEnabled cfg lid heads head <;> cases head.overridedEnabled <;> rfl

theorem desireMode_none {cfg : Cfg} {head : Head}
    (h : head.des.enabled = false ∨ chosenMode cfg head = none) :
    (desireMode cfg head).2.des = { head.des with enabled := false } := by
  obtain ⟨warned, hhead⟩ := headFindMode_head cfg head
  unfold desireMode
  split
  · rename_i hdisabled
    have : head.des.enabled = false := by simpa using hdisabled
    simp [← this]
  · rename_i henabled
    have hnone : (headFindMode cfg head).2.2 = none := by
      refine h.resolve_left ?_
      simpa using henabled
    split
    · rename_i hfound
      simp [hfound] at hnone
    · rename_i hfound
      simp [hfound] at hhead
      simp [hhead]

theorem desireMode_some {cfg : Cfg} {head : Head} {zmode : ZMode}
    (henabled : head.des.enabled = true) (h : chosenMode cfg head = some zmode) :
    (desireMode cfg head).2.des = { head.des with zmode := some zmode } := by
  obtain ⟨warned, hhead⟩ := headFindMode_head cfg head
  unfold chosenMode at h
  unfold desireMode
  split
  · simp_all
  · split
    · rename_i hfound
      simp [hfound] at hhead h
      simp [hhead, h]
    · rename_i hfound
      simp [hfound] at h

omit [Platform] in
theorem desireReapply_eq (head : Head) :
    desireReapply head = { head with
      des := { head.des with enabled := head.des.enabled && !head.reapplyRequired } } := by
  unfold desireReapply
  split
  · rename_i hreapply
    simp [hreapply]
  · rename_i hreapply
    have hkept : (head.des.enabled && !head.reapplyRequired) = head.des.enabled := by
      simp [hreapply]
    rw [hkept]

omit [Platform] in
theorem desireReapply_des (head : Head) :
    (desireReapply head).des =
      { head.des with enabled := head.des.enabled && !head.reapplyRequired } := by
  rw [desireReapply_eq]

theorem wantedScale_eq (cfg : Cfg) (head : Head) (zmode : Option ZMode) :
    wantedScale cfg head zmode =
      if cfg.scaling = some .off then headGetFixedScale cfg 1
      else match cfg.scales.find? (fun key _ => headNameDescMatchesHead key head) with
        | some (_, milliscale) => headGetFixedScale cfg ((milliscale : ℚ) / 1000)
        | none =>
          if cfg.autoScale = some .on then
            headAutoScale cfg { head with des := { head.des with zmode := zmode } }
              (cfg.autoScaleMin.numberOr 0) (cfg.autoScaleMax.numberOr 0)
          else headGetFixedScale cfg 1 :=
  rfl

theorem wantedScale_congr {cfg cfg' : Cfg} (hcfg : quiet cfg = quiet cfg') {a b : Head}
    (h : SameCore a b) (zmode : Option ZMode) :
    wantedScale cfg a zmode = wantedScale cfg' b zmode := by
  have hquiet (c : Cfg) : wantedScale c a zmode = wantedScale (quiet c) a zmode := rfl
  rw [hquiet cfg, hcfg, ← hquiet cfg']
  simp only [wantedScale_eq, headAutoScale, headNameDescMatchesHead_congr h.name
    h.description, h.modes, h.widthMm, h.heightMm]

theorem wantedTransform_congr {cfg cfg' : Cfg} (hcfg : quiet cfg = quiet cfg') {a b : Head}
    (h : SameCore a b) : wantedTransform cfg a = wantedTransform cfg' b := by
  have hquiet (c : Cfg) : wantedTransform c a = wantedTransform (quiet c) a := rfl
  rw [hquiet cfg, hcfg, ← hquiet cfg']
  simp only [wantedTransform, headNameDescMatchesHead_congr h.name h.description]

theorem wantedAdaptiveSync_congr {cfg cfg' : Cfg} (hcfg : quiet cfg = quiet cfg') {a b : Head}
    (h : SameCore a b) : wantedAdaptiveSync cfg a = wantedAdaptiveSync cfg' b := by
  have hquiet (c : Cfg) : wantedAdaptiveSync c a = wantedAdaptiveSync (quiet c) a := rfl
  rw [hquiet cfg, hcfg, ← hquiet cfg']
  simp only [wantedAdaptiveSync, headNameDescMatchesHead_congr h.name h.description]

theorem active_congr {cfg cfg' : Cfg} (hcfg : quiet cfg = quiet cfg') (lid : Option Lid)
    {heads heads' : Heads} (hnames : names heads = names heads') {a b : Head}
    (h : SameCore a b) (hoverride : a.overridedEnabled = b.overridedEnabled) :
    active cfg lid heads a = active cfg' lid heads' b := by
  have hdisableds := quiet_field Cfg.disableds (fun _ => rfl) hcfg
  simp only [active, wantsEnabled_congr hdisableds lid hnames h.name h.description hoverride,
    chosenMode_congr hcfg h]

/-- The steps of a head after its mode is decided. -/
private def desireRest (cfg : Cfg) (head : Head) : Head :=
  desireReapply (desireScaledDimensions cfg (desireAdaptiveSync cfg
    (desireTransform cfg (desireScale cfg head))))

private theorem desireRest_disabled {cfg : Cfg} {head : Head} (h : head.des.enabled = false) :
    (desireRest cfg head).des = head.des := by
  have hscaled : (desireScaledDimensions cfg head).des = head.des := by
    obtain ⟨scaled, hs⟩ := desireScaledDimensions_eq cfg head
    rw [hs]
  simp only [desireRest, desireScale, desireTransform, desireAdaptiveSync, desireReapply_des, h,
    hscaled, Bool.not_false, if_true, Bool.false_and]
  simp only [← h]

private theorem desireScale_enabled (cfg : Cfg) {head : Head} (h : head.des.enabled = true) :
    desireScale cfg head =
      { head with des := { head.des with scale := wantedScale cfg head head.des.zmode } } := by
  simp only [wantedScale, ← h]
  simp only [desireScale, h]
  rfl

private theorem desireTransform_enabled (cfg : Cfg) {head : Head}
    (h : head.des.enabled = true) :
    desireTransform cfg head =
      { head with des := { head.des with transform := wantedTransform cfg head } } := by
  rw [desireTransform, if_neg (by simp [h])]
  rfl

private theorem desireAdaptiveSync_enabled (cfg : Cfg) {head : Head}
    (h : head.des.enabled = true) :
    desireAdaptiveSync cfg head =
      { head with des := { head.des with
        adaptiveSync := if head.adaptiveSyncFailed then head.des.adaptiveSync
          else wantedAdaptiveSync cfg head } } := by
  rw [desireAdaptiveSync, if_neg (by simp [h])]
  split <;> rfl

private theorem desireRest_enabled {cfg : Cfg} {head : Head} (h : head.des.enabled = true) :
    (desireRest cfg head).des =
      { zmode := head.des.zmode
        scale := wantedScale cfg head head.des.zmode
        enabled := !head.reapplyRequired
        x := head.des.x
        y := head.des.y
        transform := wantedTransform cfg head
        adaptiveSync := if head.adaptiveSyncFailed then head.des.adaptiveSync
          else wantedAdaptiveSync cfg head } := by
  rw [desireRest, desireScale_enabled cfg h, desireTransform_enabled cfg (by exact h),
    desireAdaptiveSync_enabled cfg (by exact h), desireReapply_des]
  generalize hlast : desireScaledDimensions cfg _ = last
  obtain ⟨scaled, hscaled⟩ := desireScaledDimensions_eq cfg _
  rw [hscaled] at hlast
  rw [← hlast]
  simp only [h, Bool.true_and]
  rfl

private theorem desireMode_eq (cfg : Cfg) (head : Head) : ∃ des warnedNoPreferred warnedNoMode,
    (desireMode cfg head).2 = { head with
      des := des, warnedNoPreferred := warnedNoPreferred, warnedNoMode := warnedNoMode } := by
  obtain ⟨warned, hhead⟩ := headFindMode_head cfg head
  unfold desireMode
  split
  · exact ⟨head.des, head.warnedNoPreferred, head.warnedNoMode, rfl⟩
  · split
    all_goals
      rename_i hfound
      rw [hfound] at hhead
      simp only at hhead
      simp only [hhead]
      exact ⟨_, _, _, rfl⟩

private theorem desireSettings_eq (cfg : Cfg) (head : Head) : ∃ des,
    desireAdaptiveSync cfg (desireTransform cfg (desireScale cfg head)) =
      { head with des := des } := by
  have hscale : ∃ des, desireScale cfg head = { head with des := des } := by
    unfold desireScale
    split
    · exact ⟨head.des, rfl⟩
    · exact ⟨_, rfl⟩
  have htransform (h : Head) : ∃ des, desireTransform cfg h = { h with des := des } := by
    unfold desireTransform
    split
    · exact ⟨h.des, rfl⟩
    · exact ⟨_, rfl⟩
  have hadaptive (h : Head) : ∃ des, desireAdaptiveSync cfg h = { h with des := des } := by
    unfold desireAdaptiveSync
    split
    · exact ⟨h.des, rfl⟩
    · split
      · exact ⟨h.des, rfl⟩
      · exact ⟨_, rfl⟩
  obtain ⟨d₁, h₁⟩ := hscale
  obtain ⟨d₂, h₂⟩ := htransform (desireScale cfg head)
  obtain ⟨d₃, h₃⟩ := hadaptive (desireTransform cfg (desireScale cfg head))
  exact ⟨d₃, by rw [h₃, h₂, h₁]⟩

private theorem desireRest_override (cfg : Cfg) (head : Head) :
    (desireRest cfg head).overridedEnabled = head.overridedEnabled := by
  obtain ⟨des, hsettings⟩ := desireSettings_eq cfg head
  obtain ⟨scaled, hscaled⟩ := desireScaledDimensions_eq cfg { head with des := des }
  rw [desireRest, hsettings, hscaled, desireReapply_eq]

/-! ### Dimensions -/

omit [Platform] in
/-- The dimensions of a head that takes on a desired state. -/
def desiredScaled (cfg : Cfg) (head : Head) (des : HeadState) : Scaled :=
  (desireScaledDimensions cfg { head with des := des }).scaled

omit [Platform] in
private theorem desiredScaled_eq (cfg : Cfg) (head : Head) (des : HeadState) :
    desiredScaled cfg head des =
      if des.scale = 0 then head.scaled
      else match des.zmode.bind head.modes.get? with
        | none => head.scaled
        | some mode =>
          let (width, height) := if des.transform.val % 2 = 0
            then (mode.width, mode.height) else (mode.height, mode.width)
          ⟨desiredScaledLength cfg { head with des := des } width,
            desiredScaledLength cfg { head with des := des } height⟩ := by
  unfold desiredScaled desireScaledDimensions
  dsimp only
  by_cases hscale : des.scale = 0
  · rw [if_pos hscale, if_pos hscale]
  · rw [if_neg hscale, if_neg hscale]
    cases des.zmode.bind head.modes.get? with
    | none => rfl
    | some mode => rfl

omit [Platform] in
theorem desiredScaled_congr {cfg cfg' : Cfg} (hcfg : quiet cfg = quiet cfg') {a b : Head}
    {d d' : HeadState} (hmodes : a.modes = b.modes) (hscaled : a.scaled = b.scaled)
    (hzmode : d.zmode = d'.zmode) (hscale : d.scale = d'.scale)
    (htransform : d.transform = d'.transform) :
    desiredScaled cfg a d = desiredScaled cfg' b d' := by
  have hbase := quiet_field Cfg.scalingBase (fun _ => rfl) hcfg
  simp only [desiredScaled_eq, desiredScaledLength, hmodes, hscaled, hzmode, hscale, htransform,
    hbase]

omit [Platform] in
theorem desiredScaled_again (cfg : Cfg) {a b : Head} (des : HeadState)
    (hmodes : a.modes = b.modes) (hscaled : a.scaled = desiredScaled cfg b des) :
    desiredScaled cfg a des = desiredScaled cfg b des := by
  rw [desiredScaled_eq] at hscaled ⊢
  rw [desiredScaled_eq, hmodes]
  by_cases hscale : des.scale = 0
  · rw [if_pos hscale, if_pos hscale]
    rwa [if_pos hscale] at hscaled
  · rw [if_neg hscale, if_neg hscale]
    rw [if_neg hscale] at hscaled
    cases hmode : des.zmode.bind b.modes.get? with
    | none =>
      rw [hmode] at hscaled
      exact hscaled
    | some mode => rfl

/-! ### One head -/

section Head

variable (cfg : Cfg) (lid : Option Lid) (heads : Heads) (head : Head)

private theorem desireHead_eq_rest :
    (desireHead lid cfg heads head).2 =
      desireRest
        (desireMode cfg (desireEnabled cfg lid heads { head with des := head.cur })).1
        (desireMode cfg (desireEnabled cfg lid heads { head with des := head.cur })).2 := by
  rw [desireRest, desireHead]

theorem sameCore_enabled :
    SameCore (desireEnabled cfg lid heads { head with des := head.cur }) head :=
  ⟨rfl, rfl, rfl, rfl, rfl, rfl⟩

theorem desireEnabled_cur_des :
    (desireEnabled cfg lid heads { head with des := head.cur }).des =
      { head.cur with enabled := wantsEnabled cfg lid heads head } :=
  (desireEnabled_des cfg lid heads _).trans (by
    rw [wantsEnabled_congr rfl lid rfl (a := { head with des := head.cur }) (b := head)
      rfl rfl rfl])

/-- A head that is not to be enabled, or has no mode, keeps all but its enabled flag. -/
theorem desireHead_inactive (h : active cfg lid heads head = false) :
    (desireHead lid cfg heads head).2.des = { head.cur with enabled := false } := by
  have hmode : (desireMode cfg (desireEnabled cfg lid heads { head with des := head.cur })).2.des =
      { head.cur with enabled := false } := by
    rw [desireMode_none, desireEnabled_cur_des]
    rw [desireEnabled_cur_des, chosenMode_congr rfl (sameCore_enabled cfg lid heads head)]
    exact (Bool.and_eq_false_iff.mp h).imp_right (fun h => by simpa using h)
  rw [desireHead_eq_rest, desireRest_disabled (by rw [hmode]), hmode]

/-- An active head gets the mode chosen for it and what the configuration wants there. -/
theorem desireHead_active (h : active cfg lid heads head = true) :
    (desireHead lid cfg heads head).2.des =
      { zmode := chosenMode cfg head
        scale := wantedScale cfg head (chosenMode cfg head)
        enabled := !head.reapplyRequired
        x := head.cur.x
        y := head.cur.y
        transform := wantedTransform cfg head
        adaptiveSync := if head.adaptiveSyncFailed then head.cur.adaptiveSync
          else wantedAdaptiveSync cfg head } := by
  obtain ⟨hwants, hchosen⟩ := Bool.and_eq_true_iff.mp h
  obtain ⟨zmode, hzmode⟩ := Option.isSome_iff_exists.mp hchosen
  have hcore := sameCore_enabled cfg lid heads head
  have hmode : (desireMode cfg (desireEnabled cfg lid heads { head with des := head.cur })).2.des =
      { head.cur with enabled := true, zmode := some zmode } := by
    rw [desireMode_some, desireEnabled_cur_des, hwants]
    · rw [desireEnabled_cur_des, hwants]
    · rw [chosenMode_congr rfl hcore, hzmode]
  have hframe := (frame_desireEnabled cfg lid heads { head with des := head.cur }).trans
    (frame_desireMode cfg _)
  have hquiet : quiet (desireMode cfg (desireEnabled cfg lid heads
      { head with des := head.cur })).1 = quiet cfg := quiet_desireHead lid cfg heads head
  have hsame : SameCore (desireMode cfg (desireEnabled cfg lid heads
      { head with des := head.cur })).2 head :=
    ⟨hframe.modes.symm, hframe.zmodePref.symm, hframe.name.symm, hframe.description.symm,
      hframe.widthMm.symm, hframe.heightMm.symm⟩
  rw [desireHead_eq_rest, desireRest_enabled (by rw [hmode]), hmode, hzmode,
    wantedScale_congr hquiet hsame, wantedTransform_congr hquiet hsame,
    wantedAdaptiveSync_congr hquiet hsame, ← hframe.reapplyRequired,
    ← hframe.adaptiveSyncFailed]

theorem wantsEnabled_desireHead :
    wantsEnabled cfg lid heads (desireHead lid cfg heads head).2 =
      wantsEnabled cfg lid heads head := by
  have hoverride : (desireHead lid cfg heads head).2.overridedEnabled =
      (desireEnabled cfg lid heads { head with des := head.cur }).overridedEnabled := by
    obtain ⟨_, _, _, hmode⟩ := desireMode_eq cfg
      (desireEnabled cfg lid heads { head with des := head.cur })
    rw [desireHead_eq_rest, desireRest_override, hmode]
  have hframe := frame_desireHead lid cfg heads head
  calc wantsEnabled cfg lid heads (desireHead lid cfg heads head).2
      = wantsEnabled cfg lid heads (desireEnabled cfg lid heads { head with des := head.cur }) :=
        wantsEnabled_congr rfl lid rfl hframe.name.symm hframe.description.symm hoverride
    _ = wantsEnabled cfg lid heads { head with des := head.cur } :=
        wantsEnabled_desireEnabled cfg lid heads _
    _ = wantsEnabled cfg lid heads head := wantsEnabled_congr rfl lid rfl rfl rfl rfl

theorem scaled_desireHead :
    (desireHead lid cfg heads head).2.scaled =
      desiredScaled cfg head (desireHead lid cfg heads head).2.des := by
  have hquiet : quiet (desireMode cfg (desireEnabled cfg lid heads
      { head with des := head.cur })).1 = quiet cfg := quiet_desireHead lid cfg heads head
  obtain ⟨d₁, _, _, hmode⟩ := desireMode_eq cfg
    (desireEnabled cfg lid heads { head with des := head.cur })
  rw [desireHead_eq_rest]
  generalize (desireMode cfg (desireEnabled cfg lid heads { head with des := head.cur })).1 =
    cfg' at hquiet
  generalize (desireMode cfg (desireEnabled cfg lid heads { head with des := head.cur })).2 =
    decided at hmode
  have hmodes : decided.modes = head.modes := by rw [hmode]; rfl
  have hscaled : decided.scaled = head.scaled := by rw [hmode]; rfl
  obtain ⟨des, hsettings⟩ := desireSettings_eq cfg' decided
  obtain ⟨scaled, hdimensions⟩ := desireScaledDimensions_eq cfg' { decided with des := des }
  have hresult : desiredScaled cfg' decided des = scaled := by rw [desiredScaled, hdimensions]
  rw [desireRest, hsettings, hdimensions, desireReapply_eq]
  simp only
  rw [← hresult]
  exact desiredScaled_congr hquiet hmodes hscaled rfl rfl rfl

end Head

end WayDisplays.Desire.Spec
