/- What desire decides for a whole map of heads, and what it leaves of each. -/

import WayDisplays.Desire.Spec

set_option autoImplicit false
set_option relaxedAutoImplicit false

namespace WayDisplays.Desire.Heads

open Lib (OrderedMap)
open Model
open Spec

variable [Platform]

/-- A head after desire, next to the head before it. -/
structure Desired (cfg : Cfg) (lid : Option Lid) (heads : Heads) (head head' : Head) : Prop
    extends Frame head head' where
  wants : wantsEnabled cfg lid heads head' = wantsEnabled cfg lid heads head
  inactive : active cfg lid heads head = false → head'.des = { head.cur with enabled := false }
  active : active cfg lid heads head = true →
    head'.des.zmode = chosenMode cfg head ∧
      head'.des.scale = wantedScale cfg head (chosenMode cfg head) ∧
      head'.des.enabled = !head.reapplyRequired ∧
      head'.des.transform = wantedTransform cfg head ∧
      head'.des.adaptiveSync = if head.adaptiveSyncFailed then head.cur.adaptiveSync
        else wantedAdaptiveSync cfg head
  scaled : head'.scaled = desiredScaled cfg head head'.des

/-- A head that is not placed yet, and desired where it is. -/
structure Unplaced (cfg : Cfg) (lid : Option Lid) (heads : Heads) (head head' : Head) : Prop
    extends Desired cfg lid heads head head' where
  x : head'.des.x = head.cur.x
  y : head'.des.y = head.cur.y

omit [Platform] in
theorem names_put {heads : Heads} {zhead : ZHead} {head head' : Head}
    (hget : heads.get? zhead = some head) (h : Frame head head') :
    names (heads.put zhead head') = names heads := by
  have hmem := OrderedMap.mem_keys_of_get? hget
  simp only [names, OrderedMap.put, dif_pos hmem, OrderedMap.modify, OrderedMap.mapVals,
    List.map_map]
  refine List.map_congr_left fun e he => ?_
  simp only [Function.comp_apply]
  split
  · rename_i hkey
    have : heads.get? e.1 = some e.2 := OrderedMap.get?_eq_some_iff.mpr he
    obtain rfl : e.2 = head := Option.some.inj (this.symm.trans (hkey ▸ hget))
    rw [h.name, h.description]
  · rfl

theorem desireHead_congr {cfg cfg' : Cfg} (hcfg : quiet cfg' = quiet cfg) (lid : Option Lid)
    {heads heads' : Heads} (hnames : names heads' = names heads) {head head' : Head}
    (h : Desired cfg' lid heads' head head') : Desired cfg lid heads head head' := by
  have hdisableds := quiet_field Cfg.disableds (fun _ => rfl) hcfg
  have hwants (a : Head) : wantsEnabled cfg' lid heads' a = wantsEnabled cfg lid heads a :=
    wantsEnabled_congr hdisableds lid hnames rfl rfl rfl
  have hcore : SameCore head head := (Frame.refl head).toSameCore
  have hactive := active_congr hcfg lid hnames hcore rfl
  refine { toFrame := h.toFrame, wants := ?_, inactive := ?_, active := ?_, scaled := ?_ }
  · rw [← hwants, ← hwants, h.wants]
  · exact fun hi => h.inactive (hactive.trans hi)
  · intro ha
    have := h.active (hactive.trans ha)
    rwa [chosenMode_congr hcfg hcore, wantedScale_congr hcfg hcore,
      wantedTransform_congr hcfg hcore, wantedAdaptiveSync_congr hcfg hcore] at this
  · exact h.scaled.trans (desiredScaled_congr hcfg rfl rfl rfl rfl rfl)

theorem unplaced_desireHead (cfg : Cfg) (lid : Option Lid) (heads : Heads) (head : Head) :
    Unplaced cfg lid heads head (desireHead lid cfg heads head).2 where
  toFrame := frame_desireHead lid cfg heads head
  wants := wantsEnabled_desireHead cfg lid heads head
  inactive := desireHead_inactive cfg lid heads head
  active h := by simp [desireHead_active cfg lid heads head h]
  scaled := scaled_desireHead cfg lid heads head
  x := by
    cases hactive : active cfg lid heads head with
    | false => rw [desireHead_inactive cfg lid heads head hactive]
    | true => rw [desireHead_active cfg lid heads head hactive]
  y := by
    cases hactive : active cfg lid heads head with
    | false => rw [desireHead_inactive cfg lid heads head hactive]
    | true => rw [desireHead_active cfg lid heads head hactive]

/-! ### Positions -/

omit [Platform] in
/-- Positioning changes nothing of a head but where it is to be placed. -/
theorem desirePosition_eq (cfg : Cfg) (tallest widest : Int) (place : Int × Int) (head : Head) :
    ∃ x y, (desirePosition cfg tallest widest place head).2 =
      { head with des := { head.des with x := x, y := y } } := by
  unfold desirePosition
  split
  · exact ⟨head.des.x, head.des.y, rfl⟩
  · split
    · exact ⟨_, _, rfl⟩
    · exact ⟨_, _, rfl⟩

omit [Platform] in
theorem desirePosition_unplaced (cfg : Cfg) (tallest widest : Int) (place : Int × Int)
    {head : Head} (h : headPlaced head = false) :
    (desirePosition cfg tallest widest place head).2 = head := by
  simp [desirePosition, h]

omit [Platform] in
theorem desirePositions_inv {I : ZHead → Head → Prop} (cfg : Cfg)
    (hI : ∀ tallest widest place zhead head, I zhead head →
      I zhead (desirePosition cfg tallest widest place head).2)
    (headsSorted : List ZHead) {heads : Heads}
    (h : ∀ zhead head, heads.get? zhead = some head → I zhead head) :
    (desirePositions cfg headsSorted heads).keys = heads.keys ∧
      ∀ zhead head, (desirePositions cfg headsSorted heads).get? zhead = some head →
        I zhead head :=
  OrderedMap.forEach_inv (fun place _ zhead head hhead => hI _ _ place zhead head hhead)
    headsSorted (0, 0) h

private theorem desired_desirePosition {cfg : Cfg} {lid : Option Lid} {heads : Heads}
    {head head' : Head} (h : Desired cfg lid heads head head') (cfg' : Cfg)
    (tallest widest : Int) (place : Int × Int) :
    Desired cfg lid heads head (desirePosition cfg' tallest widest place head').2 := by
  cases hplaced : headPlaced head' with
  | false => rwa [desirePosition_unplaced cfg' tallest widest place hplaced]
  | true =>
    obtain ⟨x, y, hpos⟩ := desirePosition_eq cfg' tallest widest place head'
    rw [hpos]
    refine { toFrame := h.toFrame.trans (Frame.withDes head' _), wants := ?_,
             inactive := fun hi => ?_, active := h.active,
             scaled := h.scaled.trans (desiredScaled_congr rfl rfl rfl rfl rfl rfl) }
    · exact (wantsEnabled_congr rfl lid rfl rfl rfl rfl).trans h.wants
    · have : head'.des.enabled = true := (Bool.and_eq_true_iff.mp hplaced).2
      rw [h.inactive hi] at this
      exact absurd this (by simp)

/-! ### All heads -/

section All

variable (cfg : Cfg) (lid : Option Lid) (heads : Heads)

theorem forEach_desireHead :
    let result := OrderedMap.forEach (desireHead lid) heads.keys cfg heads
    quiet result.1 = quiet cfg ∧ names result.2 = names heads ∧ result.2.keys = heads.keys ∧
      ∀ zhead head, heads.get? zhead = some head →
        ∃ head', result.2.get? zhead = some head' ∧ Unplaced cfg lid heads head head' := by
  obtain ⟨⟨hquiet, hnames⟩, hkeys, hin, _⟩ := OrderedMap.forEach_spec
    (f := desireHead lid)
    (J := fun c hs => quiet c = quiet cfg ∧ names hs = names heads)
    (R := Unplaced cfg lid heads)
    (fun c hs zhead head hJ hget => by
      have hunplaced := unplaced_desireHead c lid hs head
      exact ⟨⟨desireHead_congr hJ.1 lid hJ.2 hunplaced.toDesired, hunplaced.x, hunplaced.y⟩,
        (quiet_desireHead lid c hs head).trans hJ.1,
        (names_put hget hunplaced.toFrame).trans hJ.2⟩)
    heads.keys_nodup (s := cfg) (m := heads) ⟨rfl, rfl⟩
  exact ⟨hquiet, hnames, hkeys,
    fun zhead head hget => hin zhead (OrderedMap.mem_keys_of_get? hget) head hget⟩

/-- The heads in turn, then their positions. -/
theorem desire_eq {result : Cfg × Heads}
    (h : OrderedMap.forEach (desireHead lid) heads.keys cfg heads = result) :
    desire cfg lid heads = (result.1, desirePositions result.1
      (desireOrder result.1.orderNameDesc result.2) result.2) := by
  subst h
  rfl

theorem quiet_desire : quiet (desire cfg lid heads).1 = quiet cfg := by
  rw [desire_eq cfg lid heads rfl]
  exact (forEach_desireHead cfg lid heads).1

/-- Every head after desire is the outcome for the head that was there before it. -/
theorem desired_desire :
    (desire cfg lid heads).2.keys = heads.keys ∧
      ∀ zhead head', (desire cfg lid heads).2.get? zhead = some head' →
        ∃ head, heads.get? zhead = some head ∧ Desired cfg lid heads head head' := by
  obtain ⟨_, _, hkeys, hin⟩ := forEach_desireHead cfg lid heads
  rw [desire_eq cfg lid heads rfl]
  generalize OrderedMap.forEach (desireHead lid) heads.keys cfg heads = result at hkeys hin
  have hall : ∀ zhead head', result.2.get? zhead = some head' →
      ∃ head, heads.get? zhead = some head ∧ Desired cfg lid heads head head' := by
    intro zhead head' hget'
    have hmem := OrderedMap.mem_keys_of_get? hget'
    rw [hkeys] at hmem
    obtain ⟨head, hget⟩ := OrderedMap.exists_get?_of_mem_keys hmem
    obtain ⟨head'', hget'', hd⟩ := hin zhead head hget
    obtain rfl := Option.some.inj (hget''.symm.trans hget')
    exact ⟨head, hget, hd.toDesired⟩
  have hpos := desirePositions_inv
    (I := fun zhead head' =>
      ∃ head, heads.get? zhead = some head ∧ Desired cfg lid heads head head')
    result.1
    (fun tallest widest place zhead head' h => by
      obtain ⟨head, hget, hd⟩ := h
      exact ⟨head, hget, desired_desirePosition hd _ tallest widest place⟩)
    (desireOrder result.1.orderNameDesc result.2) hall
  exact ⟨hpos.1.trans hkeys, hpos.2⟩

theorem keys_desire : (desire cfg lid heads).2.keys = heads.keys := (desired_desire cfg lid heads).1

theorem exists_desired {zhead : ZHead} {head : Head} (h : heads.get? zhead = some head) :
    ∃ head', (desire cfg lid heads).2.get? zhead = some head' ∧
      Desired cfg lid heads head head' := by
  have hmem : zhead ∈ (desire cfg lid heads).2.keys := by
    rw [keys_desire]
    exact OrderedMap.mem_keys_of_get? h
  obtain ⟨head', hget'⟩ := OrderedMap.exists_get?_of_mem_keys hmem
  obtain ⟨head₀, hget, hd⟩ := (desired_desire cfg lid heads).2 zhead head' hget'
  obtain rfl := Option.some.inj (hget.symm.trans h)
  exact ⟨head', hget', hd⟩

end All

end WayDisplays.Desire.Heads
