/- What is left to change, counted: every stage of the changes that is answered lowers it. -/

import WayDisplays.Act.Answers
import WayDisplays.Desire.Layout

set_option autoImplicit false
set_option relaxedAutoImplicit false

namespace WayDisplays.Act.Debt

open Lib (OrderedMap)
open Model
open Desire.Spec Desire.Heads Desire.Layout

variable [Platform]

/-! ### One head -/

omit [Platform] in
/-- One for a reapply to be made. -/
def reapplyDebt (head : Head) : Nat := if head.reapplyRequired then 1 else 0

/-- One for every mode that may be tried, while the desired one is not current. -/
def modeDebt (cfg : Cfg) (lid : Option Lid) (heads : Heads) (head : Head) : Nat :=
  if wantsEnabled cfg lid heads head = true ∧ chosenMode cfg head ≠ head.cur.zmode
  then head.modes.size else 0

/-- One for an adaptive sync to be changed, unless that has failed. -/
def adaptiveSyncDebt (cfg : Cfg) (lid : Option Lid) (heads : Heads) (head : Head) : Nat :=
  if active cfg lid heads head = true ∧ head.adaptiveSyncFailed = false ∧
      wantedAdaptiveSync cfg head ≠ head.cur.adaptiveSync
  then 1 else 0

def debt (cfg : Cfg) (lid : Option Lid) (heads : Heads) (head : Head) : Nat :=
  reapplyDebt head + modeDebt cfg lid heads head + adaptiveSyncDebt cfg lid heads head

theorem debt_le (cfg : Cfg) (lid : Option Lid) (heads : Heads) (head : Head) :
    debt cfg lid heads head ≤ reapplyDebt head + head.modes.size + 1 := by
  have hmode : modeDebt cfg lid heads head ≤ head.modes.size := by
    unfold modeDebt
    split <;> omega
  have hadaptive : adaptiveSyncDebt cfg lid heads head ≤ 1 := by
    unfold adaptiveSyncDebt
    split <;> omega
  unfold debt
  omega

section Congruence

variable {cfg cfg' : Cfg} {lid : Option Lid} {heads heads' : Heads} {a b : Head}

theorem debt_congr (hcfg : quiet cfg = quiet cfg') (hnames : names heads = names heads') :
    debt cfg lid heads a = debt cfg' lid heads' a := by
  have hdisableds := quiet_field Cfg.disableds (fun _ => rfl) hcfg
  have hcore : SameCore a a := (Frame.refl a).toSameCore
  have hwants : wantsEnabled cfg lid heads a = wantsEnabled cfg' lid heads' a :=
    wantsEnabled_congr hdisableds lid hnames rfl rfl rfl
  simp only [debt, modeDebt, adaptiveSyncDebt, hwants, active_congr hcfg lid hnames hcore rfl,
    chosenMode_congr hcfg hcore, wantedAdaptiveSync_congr hcfg hcore]

theorem modeDebt_congr (hcore : SameCore a b) (hoverride : a.overridedEnabled = b.overridedEnabled)
    (hzmode : a.cur.zmode = b.cur.zmode) : modeDebt cfg lid heads a = modeDebt cfg lid heads b := by
  have hwants : wantsEnabled cfg lid heads a = wantsEnabled cfg lid heads b :=
    wantsEnabled_congr rfl lid rfl hcore.name hcore.description hoverride
  simp only [modeDebt, hwants, chosenMode_congr rfl hcore, hzmode, hcore.modes]

theorem adaptiveSyncDebt_congr (hcore : SameCore a b)
    (hoverride : a.overridedEnabled = b.overridedEnabled)
    (hfailed : a.adaptiveSyncFailed = b.adaptiveSyncFailed)
    (hcur : a.cur.adaptiveSync = b.cur.adaptiveSync) :
    adaptiveSyncDebt cfg lid heads a = adaptiveSyncDebt cfg lid heads b := by
  simp only [adaptiveSyncDebt, active_congr rfl lid rfl hcore hoverride, hfailed, hcur,
    wantedAdaptiveSync_congr rfl hcore]

theorem active_desired (h : Desired cfg lid heads a b) :
    active cfg lid heads b = active cfg lid heads a := by
  rw [active, active, h.wants, chosenMode_congr rfl h.toSameCore]

theorem debt_desired (h : Desired cfg lid heads a b) :
    debt cfg lid heads b = debt cfg lid heads a := by
  simp only [debt, reapplyDebt, modeDebt, adaptiveSyncDebt, active_desired h, h.wants, ← h.modes,
    ← h.cur, ← h.reapplyRequired, ← h.adaptiveSyncFailed,
    chosenMode_congr rfl h.toSameCore, wantedAdaptiveSync_congr rfl h.toSameCore]

end Congruence

/-! ### Every answer lowers the debt of the head it is about -/

section Answered

variable {cfg : Cfg} {lid : Option Lid} {heads : Heads} {head₀ head : Head}

theorem debt_reapplied (hreapply : head.reapplyRequired = true) :
    debt cfg lid heads
        { head with reapplyRequired := false, cur := { head.cur with enabled := false } } <
      debt cfg lid heads head := by
  have hbefore : reapplyDebt head = 1 := by simp [reapplyDebt, hreapply]
  have hafter : reapplyDebt
      { head with reapplyRequired := false, cur := { head.cur with enabled := false } } = 0 := by
    simp [reapplyDebt]
  have hmode : modeDebt cfg lid heads
      { head with reapplyRequired := false, cur := { head.cur with enabled := false } } =
        modeDebt cfg lid heads head :=
    modeDebt_congr ⟨rfl, rfl, rfl, rfl, rfl, rfl⟩ rfl rfl
  have hadaptive : adaptiveSyncDebt cfg lid heads
      { head with reapplyRequired := false, cur := { head.cur with enabled := false } } =
        adaptiveSyncDebt cfg lid heads head :=
    adaptiveSyncDebt_congr ⟨rfl, rfl, rfl, rfl, rfl, rfl⟩ rfl rfl rfl
  unfold debt
  omega

private theorem active_of_differs {α : Type} {field : HeadState → α}
    (hfield : ∀ state, field { state with enabled := false } = field state)
    (h : Desired cfg lid heads head₀ head) (hdiffers : field head.des ≠ field head.cur) :
    active cfg lid heads head₀ = true := by
  by_contra hactive
  have hdes := h.inactive (Bool.eq_false_iff.mpr hactive)
  rw [hdes, hfield, h.cur] at hdiffers
  exact hdiffers rfl

/-- A mode is to change on an active head only, to the one chosen for it. -/
private theorem modeDebt_differs (h : Desired cfg lid heads head₀ head)
    (hdiffers : head.des.zmode ≠ head.cur.zmode) :
    active cfg lid heads head = true ∧ head.des.zmode = chosenMode cfg head ∧
      modeDebt cfg lid heads head = head.modes.size := by
  have hactive := active_of_differs (fun _ => rfl) h hdiffers
  have hzmode : head.des.zmode = chosenMode cfg head :=
    (h.active hactive).1.trans (chosenMode_congr rfl h.toSameCore)
  have hactive' := (active_desired h).trans hactive
  have hwants : wantsEnabled cfg lid heads head = true := (Bool.and_eq_true_iff.mp hactive').1
  refine ⟨hactive', hzmode, ?_⟩
  rw [modeDebt, if_pos ⟨hwants, hzmode ▸ hdiffers⟩]

theorem debt_modeGranted (h : Desired cfg lid heads head₀ head)
    (hdiffers : head.des.zmode ≠ head.cur.zmode) :
    debt cfg lid heads
        { head with cur := { head.cur with enabled := true, zmode := head.des.zmode } } <
      debt cfg lid heads head := by
  obtain ⟨hactive, hzmode, hbefore⟩ := modeDebt_differs h hdiffers
  have hafter : modeDebt cfg lid heads
      { head with cur := { head.cur with enabled := true, zmode := head.des.zmode } } = 0 := by
    have hchosen : chosenMode cfg
        { head with cur := { head.cur with enabled := true, zmode := head.des.zmode } } =
          chosenMode cfg head := chosenMode_congr rfl ⟨rfl, rfl, rfl, rfl, rfl, rfl⟩
    rw [modeDebt, hchosen, if_neg]
    exact fun hne => hne.2 hzmode.symm
  have hsome : (chosenMode cfg head).isSome = true := (Bool.and_eq_true_iff.mp hactive).2
  have hsize : 0 < head.modes.size := by
    refine Nat.pos_of_ne_zero fun hzero => ?_
    rw [chosenMode_eq_none.mpr hzero] at hsome
    exact absurd hsome (by simp)
  have hreapply : reapplyDebt
      { head with cur := { head.cur with enabled := true, zmode := head.des.zmode } } =
        reapplyDebt head := rfl
  have hadaptive : adaptiveSyncDebt cfg lid heads
      { head with cur := { head.cur with enabled := true, zmode := head.des.zmode } } =
        adaptiveSyncDebt cfg lid heads head :=
    adaptiveSyncDebt_congr ⟨rfl, rfl, rfl, rfl, rfl, rfl⟩ rfl rfl rfl
  unfold debt
  omega

theorem debt_modeRefused (h : Desired cfg lid heads head₀ head)
    (hdiffers : head.des.zmode ≠ head.cur.zmode) :
    debt cfg lid heads (headFailMode head head.des.zmode) < debt cfg lid heads head := by
  obtain ⟨hactive, hzmode, hbefore⟩ := modeDebt_differs h hdiffers
  have hsome : (chosenMode cfg head).isSome = true := (Bool.and_eq_true_iff.mp hactive).2
  obtain ⟨zmode, hchosen⟩ := Option.isSome_iff_exists.mp hsome
  have hremoved : (headFailMode head head.des.zmode).modes = head.modes.remove zmode := by
    rw [hzmode, hchosen]
    rfl
  have hsize : (head.modes.remove zmode).size < head.modes.size :=
    OrderedMap.size_remove_lt (chosenMode_mem hchosen)
  have hafter : modeDebt cfg lid heads (headFailMode head head.des.zmode) ≤
      (head.modes.remove zmode).size := by
    unfold modeDebt
    split
    · rw [hremoved]
    · omega
  have hreapply : reapplyDebt (headFailMode head head.des.zmode) = reapplyDebt head := rfl
  have hadaptive : adaptiveSyncDebt cfg lid heads (headFailMode head head.des.zmode) ≤
      adaptiveSyncDebt cfg lid heads head := by
    unfold adaptiveSyncDebt
    split
    · rename_i hdue
      rw [if_pos ⟨hactive, hdue.2⟩]
    · omega
  unfold debt
  omega

private theorem adaptiveSyncDebt_differs (h : Desired cfg lid heads head₀ head)
    (hdiffers : head.des.adaptiveSync ≠ head.cur.adaptiveSync) :
    head.des.adaptiveSync = wantedAdaptiveSync cfg head ∧
      adaptiveSyncDebt cfg lid heads head = 1 := by
  have hactive := active_of_differs (fun _ => rfl) h hdiffers
  have hwanted := (h.active hactive).2.2.2.2
  split at hwanted
  · rw [hwanted, ← h.cur] at hdiffers
    exact absurd rfl hdiffers
  · rename_i hfailed
    rw [wantedAdaptiveSync_congr rfl h.toSameCore] at hwanted
    have hfailed' : head.adaptiveSyncFailed = false := by
      rw [← h.adaptiveSyncFailed]
      simpa using hfailed
    refine ⟨hwanted, ?_⟩
    rw [adaptiveSyncDebt, if_pos]
    exact ⟨(active_desired h).trans hactive, hfailed', hwanted ▸ hdiffers⟩

theorem debt_adaptiveSyncGranted (h : Desired cfg lid heads head₀ head)
    (hdiffers : head.des.adaptiveSync ≠ head.cur.adaptiveSync) :
    debt cfg lid heads { head with
        cur := { head.cur with enabled := true, adaptiveSync := head.des.adaptiveSync } } <
      debt cfg lid heads head := by
  obtain ⟨hwanted, hbefore⟩ := adaptiveSyncDebt_differs h hdiffers
  have hafter : adaptiveSyncDebt cfg lid heads { head with
      cur := { head.cur with enabled := true, adaptiveSync := head.des.adaptiveSync } } = 0 := by
    rw [adaptiveSyncDebt, if_neg]
    exact fun hne => hne.2.2 hwanted.symm
  have hreapply : reapplyDebt { head with
      cur := { head.cur with enabled := true, adaptiveSync := head.des.adaptiveSync } } =
        reapplyDebt head := rfl
  have hmode : modeDebt cfg lid heads { head with
      cur := { head.cur with enabled := true, adaptiveSync := head.des.adaptiveSync } } =
        modeDebt cfg lid heads head :=
    modeDebt_congr ⟨rfl, rfl, rfl, rfl, rfl, rfl⟩ rfl rfl
  unfold debt
  omega

theorem debt_adaptiveSyncRefused (h : Desired cfg lid heads head₀ head)
    (hdiffers : head.des.adaptiveSync ≠ head.cur.adaptiveSync) :
    debt cfg lid heads { head with adaptiveSyncFailed := true } < debt cfg lid heads head := by
  obtain ⟨_, hbefore⟩ := adaptiveSyncDebt_differs h hdiffers
  have hafter : adaptiveSyncDebt cfg lid heads { head with adaptiveSyncFailed := true } = 0 := by
    rw [adaptiveSyncDebt, if_neg]
    exact fun hne => absurd hne.2.1 (by simp)
  have hreapply : reapplyDebt { head with adaptiveSyncFailed := true } = reapplyDebt head := rfl
  have hmode : modeDebt cfg lid heads { head with adaptiveSyncFailed := true } =
      modeDebt cfg lid heads head :=
    modeDebt_congr ⟨rfl, rfl, rfl, rfl, rfl, rfl⟩ rfl rfl
  unfold debt
  omega

theorem debt_applied {head' : Head} (h : Desired cfg lid heads head₀ head)
    (happlied : Applied head head') : debt cfg lid heads head' = 0 := by
  have hcore : SameCore head₀ head' :=
    ⟨h.modes.trans happlied.modes, h.zmodePref.trans happlied.zmodePref,
      h.name.trans happlied.name, h.description.trans happlied.description,
      h.widthMm.trans happlied.widthMm, h.heightMm.trans happlied.heightMm⟩
  have hwants : wantsEnabled cfg lid heads head' = wantsEnabled cfg lid heads head₀ :=
    (wantsEnabled_congr rfl lid rfl happlied.name.symm happlied.description.symm
      happlied.overridedEnabled).trans h.wants
  have hchosen : chosenMode cfg head' = chosenMode cfg head₀ :=
    (chosenMode_congr rfl hcore).symm
  have hactive : active cfg lid heads head' = active cfg lid heads head₀ := by
    rw [active, active, hwants, hchosen]
  have hreapply : reapplyDebt head' = 0 := by simp [reapplyDebt, happlied.reapplyRequired]
  have hmode : modeDebt cfg lid heads head' = 0 := by
    unfold modeDebt
    split
    · rename_i hdue
      rw [happlied.cur, hchosen, hwants] at hdue
      refine (@chosenMode_eq_none _ cfg head').mp ?_
      rw [hchosen]
      cases hc : chosenMode cfg head₀ with
      | none => rfl
      | some zmode =>
        have hactive₀ : active cfg lid heads head₀ = true := by simp [active, hdue.1, hc]
        exact absurd (h.active hactive₀).1.symm hdue.2
    · rfl
  have hadaptive : adaptiveSyncDebt cfg lid heads head' = 0 := by
    unfold adaptiveSyncDebt
    split
    · rename_i hdue
      obtain ⟨hactive', hfailed, hdiffers⟩ := hdue
      have hwanted := (h.active (hactive ▸ hactive')).2.2.2.2
      rw [h.adaptiveSyncFailed, ← happlied.adaptiveSyncFailed, hfailed] at hwanted
      rw [happlied.cur, ← wantedAdaptiveSync_congr rfl hcore] at hdiffers
      exact absurd hwanted.symm hdiffers
    · rfl
  unfold debt
  omega

end Answered

/-! ### All heads -/

def Restless (cfg : Cfg) (lid : Option Lid) (heads : Heads) : Prop :=
  ∃ zhead head, (desire cfg lid heads).2.get? zhead = some head ∧
    headCurrentNotDesired head = true

open Classical in
/-- A bound of the number of configurations that are left to be sent. -/
noncomputable def potential (cfg : Cfg) (lid : Option Lid) (heads : Heads) : Nat :=
  heads.sumBy (debt cfg lid heads) + if Restless cfg lid heads then 1 else 0

theorem potential_le (cfg : Cfg) (lid : Option Lid) (heads : Heads) :
    potential cfg lid heads ≤ (heads.filter (fun _ head => head.reapplyRequired)).size +
      heads.sumBy (fun head => head.modes.size) + heads.size + 1 := by
  have hparts : heads.sumBy (fun head => reapplyDebt head + head.modes.size + 1) =
      (heads.filter (fun _ head => head.reapplyRequired)).size +
        heads.sumBy (fun head => head.modes.size) + heads.size := by
    simp only [OrderedMap.sumBy, OrderedMap.filter, OrderedMap.size]
    induction heads.entries with
    | nil => rfl
    | cons e es ih =>
      rw [List.map_cons, List.sum_cons, ih, List.map_cons, List.sum_cons, List.length_cons,
        List.filter_cons, reapplyDebt]
      split
      · rw [List.length_cons]
        omega
      · omega
  have hdebt : heads.sumBy (debt cfg lid heads) ≤
      heads.sumBy (fun head => reapplyDebt head + head.modes.size + 1) := by
    refine OrderedMap.sumBy_le rfl fun zhead a b ha hb => ?_
    obtain rfl := Option.some.inj (ha.symm.trans hb)
    exact debt_le cfg lid heads a
  unfold potential
  split
  · omega
  · omega

/-- The heads after an answer, next to the heads that were desired. -/
inductive Outcome (heads : Heads) : Heads → Prop
  /-- One head took the answer, and owes less for it. -/
  | one {heads' : Heads} (zhead : ZHead) {head head' : Head} (hkeys : heads'.keys = heads.keys)
      (hget : heads.get? zhead = some head) (hget' : heads'.get? zhead = some head')
      (hothers : ∀ z, z ≠ zhead → heads'.get? z = heads.get? z)
      (hchanging : headCurrentNotDesired head = true)
      (hname : head'.name = head.name) (hdescription : head'.description = head.description)
      (hdebt : ∀ cfg lid hs head₀, Desired cfg lid hs head₀ head →
        debt cfg lid hs head' < debt cfg lid hs head) : Outcome heads heads'
  /-- Every head is as it was desired, which one was not. -/
  | all {heads' : Heads} (hkeys : heads'.keys = heads.keys)
      (hchanging : ∃ zhead head, heads.get? zhead = some head ∧
        headCurrentNotDesired head = true)
      (happlied : ∀ zhead head head', heads.get? zhead = some head →
        heads'.get? zhead = some head' → Applied head head') : Outcome heads heads'

omit [Platform] in
theorem names_eq {heads heads' : Heads} (hkeys : heads'.keys = heads.keys)
    (h : ∀ zhead a b, heads.get? zhead = some a → heads'.get? zhead = some b →
      b.name = a.name ∧ b.description = a.description) : names heads' = names heads := by
  have hentries (hs : Heads) : names hs =
      (hs.mapVals (fun _ head => (head.name, head.description))).entries := rfl
  rw [hentries, hentries]
  refine congrArg OrderedMap.entries (OrderedMap.ext_get? (by simpa using hkeys) fun z hz => ?_)
  rw [OrderedMap.keys_mapVals] at hz
  obtain ⟨b, hb⟩ := OrderedMap.exists_get?_of_mem_keys hz
  obtain ⟨a, ha⟩ := OrderedMap.exists_get?_of_mem_keys (hkeys ▸ hz)
  obtain ⟨hname, hdescription⟩ := h z a b ha hb
  rw [OrderedMap.get?_mapVals, OrderedMap.get?_mapVals, ha, hb, Option.map_some, Option.map_some,
    hname, hdescription]

theorem names_desire (cfg : Cfg) (lid : Option Lid) (heads : Heads) :
    names (desire cfg lid heads).2 = names heads := by
  refine names_eq (keys_desire cfg lid heads) fun zhead a b ha hb => ?_
  obtain ⟨a', ha', hdesired⟩ := (desired_desire cfg lid heads).2 zhead b hb
  obtain rfl := Option.some.inj (ha.symm.trans ha')
  exact ⟨hdesired.name.symm, hdesired.description.symm⟩

theorem Outcome.names {heads heads' : Heads} (h : Outcome heads heads') :
    names heads' = names heads := by
  cases h with
  | one zhead hkeys hget hget' hothers _ hname hdescription =>
    refine names_eq hkeys fun z a b ha hb => ?_
    by_cases hz : z = zhead
    · rw [hz, hget] at ha
      rw [hz, hget'] at hb
      obtain rfl := Option.some.inj ha
      obtain rfl := Option.some.inj hb
      exact ⟨hname, hdescription⟩
    · rw [hothers z hz, ha] at hb
      obtain rfl := Option.some.inj hb
      exact ⟨rfl, rfl⟩
  | all hkeys _ happlied =>
    refine names_eq hkeys fun z a b ha hb => ?_
    have := happlied z a b ha hb
    exact ⟨this.name.symm, this.description.symm⟩

theorem potential_desire_le {cfg cfg' : Cfg} (hcfg : quiet cfg' = quiet cfg) (lid : Option Lid)
    {heads : Heads} (hsettled : ¬ Restless cfg' lid (desire cfg lid heads).2) :
    potential cfg' lid (desire cfg lid heads).2 ≤ potential cfg lid heads := by
  have hdebt (head : Head) : debt cfg' lid (desire cfg lid heads).2 head =
      debt cfg lid heads head := debt_congr hcfg (names_desire cfg lid heads)
  have hle : (desire cfg lid heads).2.sumBy (debt cfg' lid (desire cfg lid heads).2) ≤
      heads.sumBy (debt cfg lid heads) := by
    refine OrderedMap.sumBy_le (keys_desire cfg lid heads) fun z a b ha hb => ?_
    obtain ⟨a', ha', hdesired⟩ := (desired_desire cfg lid heads).2 z b hb
    obtain rfl := Option.some.inj (ha.symm.trans ha')
    rw [hdebt, debt_desired hdesired]
  unfold potential
  rw [if_neg hsettled]
  omega

/-- Every answer lowers what is left. -/
theorem potential_lt {cfg cfg' : Cfg} (hcfg : quiet cfg' = quiet cfg) (lid : Option Lid)
    {heads heads' : Heads} (h : Outcome (desire cfg lid heads).2 heads') :
    potential cfg' lid heads' < potential cfg lid heads := by
  have hnames : Desire.Spec.names heads' = Desire.Spec.names heads :=
    h.names.trans (names_desire cfg lid heads)
  have hdebt (head : Head) : debt cfg' lid heads' head = debt cfg lid heads head :=
    debt_congr hcfg hnames
  have hsum : heads'.sumBy (debt cfg' lid heads') = heads'.sumBy (debt cfg lid heads) := by
    rw [funext hdebt]
  cases h with
  | one zhead hkeys hget hget' hothers hchanging _ _ hlt =>
    have hrestless : Restless cfg lid heads := ⟨_, _, hget, hchanging⟩
    obtain ⟨head₀, hget₀, hdesired⟩ := (desired_desire cfg lid heads).2 _ _ hget
    have hless : heads'.sumBy (debt cfg lid heads) < heads.sumBy (debt cfg lid heads) := by
      refine @OrderedMap.sumBy_lt _ _ _ _ heads heads' (hkeys.trans (keys_desire cfg lid heads))
        (debt cfg lid heads) (debt cfg lid heads) (fun z a b ha hb => ?_) _ _ _ hget₀ hget' ?_
      · by_cases hz : z = zhead
        · subst hz
          obtain rfl := Option.some.inj (ha.symm.trans hget₀)
          obtain rfl := Option.some.inj (hb.symm.trans hget')
          exact le_of_lt ((hlt cfg lid heads a hdesired).trans_eq (debt_desired hdesired))
        · rw [hothers z hz] at hb
          obtain ⟨a', ha', hd⟩ := (desired_desire cfg lid heads).2 z b hb
          obtain rfl := Option.some.inj (ha.symm.trans ha')
          exact le_of_eq (debt_desired hd)
      · exact (hlt cfg lid heads head₀ hdesired).trans_eq (debt_desired hdesired)
    unfold potential
    rw [if_pos hrestless, hsum]
    split
    · omega
    · omega
  | all hkeys hchanging happlied =>
    have hrestless : Restless cfg lid heads := hchanging
    have hsettled : ¬ Restless cfg' lid heads' := by
      rintro ⟨z, head, hget, hdiffers⟩
      have := desire_again hcfg.symm hnames.symm (hkeys.trans (keys_desire cfg lid heads))
        happlied hget
      exact absurd (this.symm.trans hdiffers) (by simp)
    have hless : heads'.sumBy (debt cfg lid heads) ≤ heads.sumBy (debt cfg lid heads) := by
      refine OrderedMap.sumBy_le (hkeys.trans (keys_desire cfg lid heads)) fun z a b ha hb => ?_
      obtain ⟨d, hd, hdesired⟩ := exists_desired cfg lid heads ha
      rw [debt_applied hdesired (happlied z d b hd hb)]
      exact Nat.zero_le _
    unfold potential
    rw [if_pos hrestless, if_neg hsettled, hsum]
    omega

end WayDisplays.Act.Debt
