/- Positions: heads that look alike are placed alike, so a layout that is applied is kept. -/

import WayDisplays.Desire.Heads

set_option autoImplicit false
set_option relaxedAutoImplicit false

namespace WayDisplays.Desire.Layout

open Lib (OrderedMap)
open Model
open Spec
open Heads

variable [Platform]

/-! ### Order -/

omit [Platform] in
private def nameOnly (head : Head) : Head :=
  { headInit with name := head.name, description := head.description }

omit [Platform] in
private theorem fillOrderBuckets_nameOnly {pred : Head → String → Bool}
    (hpred : ∀ head key, pred (nameOnly head) key = pred head key)
    (buckets : List (String × List ZHead)) (candidates : List (ZHead × Head)) :
    fillOrderBuckets pred buckets (candidates.map (fun c => (c.1, nameOnly c.2))) =
      ((fillOrderBuckets pred buckets candidates).1,
        (fillOrderBuckets pred buckets candidates).2.map (fun c => (c.1, nameOnly c.2))) := by
  induction buckets generalizing candidates with
  | nil => rfl
  | cons bucket buckets ih =>
    obtain ⟨key, val⟩ := bucket
    have hmatching : ∀ p : Bool → Bool,
        (candidates.map (fun c => (c.1, nameOnly c.2))).filter (fun c => p (pred c.2 key)) =
          (candidates.filter (fun c => p (pred c.2 key))).map (fun c => (c.1, nameOnly c.2)) := by
      intro p
      rw [List.filter_map]
      simp only [Function.comp_def, hpred]
    have hin := hmatching id
    have hout := hmatching not
    simp only [id] at hin
    simp only [fillOrderBuckets, hin, hout, ih, List.map_map, Function.comp_def]

theorem desireOrder_congr (orderNameDesc : Sset) {heads heads' : Heads}
    (hnames : names heads = names heads') :
    desireOrder orderNameDesc heads = desireOrder orderNameDesc heads' := by
  have hexact : ∀ head key, headMatchesNameDescExact (nameOnly head) key =
      headMatchesNameDescExact head key := fun _ _ => rfl
  have hregex : ∀ head key, headMatchesNameDescRegex (nameOnly head) key =
      headMatchesNameDescRegex head key := fun _ _ => rfl
  have hfuzzy : ∀ head key, headMatchesNameDescFuzzy (nameOnly head) key =
      headMatchesNameDescFuzzy head key := fun _ _ => rfl
  have hplain (h : Heads) : desireOrder orderNameDesc h =
      desireOrder orderNameDesc (h.mapVals (fun _ head => nameOnly head)) := by
    simp only [desireOrder, OrderedMap.mapVals, fillOrderBuckets_nameOnly hexact,
      fillOrderBuckets_nameOnly hregex, fillOrderBuckets_nameOnly hfuzzy, List.map_map,
      Function.comp_def]
  have hentries (h : Heads) : h.mapVals (fun _ head => nameOnly head) =
      ⟨(names h).map (fun n => (n.1, { headInit with name := n.2.1, description := n.2.2 })),
        by simpa [names, List.map_map, Function.comp_def] using h.nodup⟩ := by
    apply OrderedMap.ext
    simp [OrderedMap.mapVals, names, nameOnly, List.map_map, Function.comp_def]
  rw [hplain heads, hplain heads', hentries heads, hentries heads']
  simp only [hnames]

/-! ### Positions -/

omit [Platform] in
/-- Heads that positioning cannot tell apart. -/
structure Alike (a b : Head) : Prop where
  placed : headPlaced a = headPlaced b
  scaled : a.scaled = b.scaled

omit [Platform] in
/-- The two maps have the same keys, and heads alike under each. -/
structure AlikeHeads (heads heads' : Heads) : Prop where
  keys : heads.keys = heads'.keys
  alike : ∀ zhead a b, heads.get? zhead = some a → heads'.get? zhead = some b → Alike a b

omit [Platform] in
private theorem AlikeHeads.get? {heads heads' : Heads} (h : AlikeHeads heads heads')
    (zhead : ZHead) :
    (heads.get? zhead = none ∧ heads'.get? zhead = none) ∨
      ∃ a b, heads.get? zhead = some a ∧ heads'.get? zhead = some b ∧ Alike a b := by
  by_cases hmem : zhead ∈ heads.keys
  · obtain ⟨a, ha⟩ := OrderedMap.exists_get?_of_mem_keys hmem
    obtain ⟨b, hb⟩ := OrderedMap.exists_get?_of_mem_keys (h.keys ▸ hmem)
    exact Or.inr ⟨a, b, ha, hb, h.alike zhead a b ha hb⟩
  · exact Or.inl ⟨OrderedMap.get?_eq_none_iff.mpr hmem,
      OrderedMap.get?_eq_none_iff.mpr (h.keys ▸ hmem)⟩

omit [Platform] in
private theorem greatestPlaced_alike {measure : Head → Int}
    (hmeasure : ∀ a b, Alike a b → measure a = measure b) {heads heads' : Heads}
    (h : AlikeHeads heads heads') (headsSorted : List ZHead) :
    greatestPlaced measure headsSorted heads = greatestPlaced measure headsSorted heads' := by
  unfold greatestPlaced
  generalize (0 : Int) = best
  induction headsSorted generalizing best with
  | nil => rfl
  | cons zhead headsSorted ih =>
    rcases h.get? zhead with ⟨ha, hb⟩ | ⟨a, b, ha, hb, halike⟩
    · rw [List.filterMap_cons_none ha, List.filterMap_cons_none hb]
      exact ih best
    · rw [List.filterMap_cons_some ha, List.filterMap_cons_some hb, List.foldl_cons,
        List.foldl_cons, halike.placed, hmeasure a b halike]
      exact ih _

omit [Platform] in
/-- One visit moves both heads to the same place, or neither. -/
private theorem desirePosition_alike (cfg : Cfg) (tallest widest : Int) (place : Int × Int)
    {a b : Head} (h : Alike a b) :
    (desirePosition cfg tallest widest place a).1 =
        (desirePosition cfg tallest widest place b).1 ∧
      ((∃ x y, (desirePosition cfg tallest widest place a).2 =
            { a with des := { a.des with x := x, y := y } } ∧
          (desirePosition cfg tallest widest place b).2 =
            { b with des := { b.des with x := x, y := y } }) ∨
        ((desirePosition cfg tallest widest place a).2 = a ∧
          (desirePosition cfg tallest widest place b).2 = b)) := by
  unfold desirePosition
  rw [← h.placed, ← h.scaled]
  split
  · exact ⟨rfl, Or.inr ⟨rfl, rfl⟩⟩
  · split
    · exact ⟨rfl, Or.inl ⟨_, _, rfl, rfl⟩⟩
    · exact ⟨rfl, Or.inl ⟨_, _, rfl, rfl⟩⟩

omit [Platform] in
/-- Two heads visited in step end at the same place, or both were left where they are. -/
private theorem forEach_alike (cfg : Cfg) (tallest widest : Int) (headsSorted : List ZHead)
    (place : Int × Int) {heads heads' : Heads} (h : AlikeHeads heads heads') {zhead : ZHead}
    {a b a' b' : Head} (ha : heads.get? zhead = some a) (hb : heads'.get? zhead = some b)
    (ha' : (OrderedMap.forEach (fun place _ head => desirePosition cfg tallest widest place head)
      headsSorted place heads).2.get? zhead = some a')
    (hb' : (OrderedMap.forEach (fun place _ head => desirePosition cfg tallest widest place head)
      headsSorted place heads').2.get? zhead = some b') :
    (a'.des.x = b'.des.x ∧ a'.des.y = b'.des.y) ∨ (a' = a ∧ b' = b) := by
  induction headsSorted generalizing place heads heads' a b with
  | nil =>
    exact Or.inr ⟨Option.some.inj (ha'.symm.trans ha), Option.some.inj (hb'.symm.trans hb)⟩
  | cons z headsSorted ih =>
    rcases h.get? z with ⟨hnone, hnone'⟩ | ⟨a₀, b₀, ha₀, hb₀, halike⟩
    · simp only [OrderedMap.forEach, hnone] at ha'
      simp only [OrderedMap.forEach, hnone'] at hb'
      exact ih place h ha hb ha' hb'
    · simp only [OrderedMap.forEach, ha₀] at ha'
      simp only [OrderedMap.forEach, hb₀] at hb'
      obtain ⟨hplace, hvisit⟩ := desirePosition_alike cfg tallest widest place halike
      rw [← hplace] at hb'
      generalize (desirePosition cfg tallest widest place a₀).1 = place' at ha' hb'
      generalize (desirePosition cfg tallest widest place a₀).2 = a₁ at ha' hvisit
      generalize (desirePosition cfg tallest widest place b₀).2 = b₁ at hb' hvisit
      have halike₁ : Alike a₁ b₁ := by
        rcases hvisit with ⟨x, y, rfl, rfl⟩ | ⟨rfl, rfl⟩
        · exact ⟨halike.placed, halike.scaled⟩
        · exact halike
      have hput : AlikeHeads (heads.put z a₁) (heads'.put z b₁) := by
        refine ⟨?_, fun z' p q hp hq => ?_⟩
        · rw [OrderedMap.keys_put_of_mem _ (OrderedMap.mem_keys_of_get? ha₀),
            OrderedMap.keys_put_of_mem _ (OrderedMap.mem_keys_of_get? hb₀), h.keys]
        · by_cases hz : z' = z
          · subst hz
            rw [OrderedMap.get?_put_self] at hp hq
            exact Option.some.inj hp ▸ Option.some.inj hq ▸ halike₁
          · rw [OrderedMap.get?_put_ne _ _ hz] at hp hq
            exact h.alike z' p q hp hq
      by_cases hz : zhead = z
      · subst hz
        obtain rfl := Option.some.inj (ha.symm.trans ha₀)
        obtain rfl := Option.some.inj (hb.symm.trans hb₀)
        rcases ih place' hput (OrderedMap.get?_put_self _ _ _) (OrderedMap.get?_put_self _ _ _)
          ha' hb' with hsame | ⟨rfl, rfl⟩
        · exact Or.inl hsame
        · rcases hvisit with ⟨x, y, rfl, rfl⟩ | hkept
          · exact Or.inl ⟨rfl, rfl⟩
          · exact Or.inr hkept
      · refine ih place' hput ?_ ?_ ha' hb'
        · rw [OrderedMap.get?_put_ne _ _ hz, ha]
        · rw [OrderedMap.get?_put_ne _ _ hz, hb]

omit [Platform] in
private theorem desirePositions_quiet (cfg : Cfg) (headsSorted : List ZHead) (heads : Heads) :
    desirePositions cfg headsSorted heads = desirePositions (quiet cfg) headsSorted heads := rfl

omit [Platform] in
/-- Positions of maps that are alike, under configurations that are. -/
theorem desirePositions_alike {cfg cfg' : Cfg} (hcfg : quiet cfg = quiet cfg')
    {heads heads' : Heads} (h : AlikeHeads heads heads') (headsSorted : List ZHead)
    {zhead : ZHead} {a b a' b' : Head} (ha : heads.get? zhead = some a)
    (hb : heads'.get? zhead = some b)
    (ha' : (desirePositions cfg headsSorted heads).get? zhead = some a')
    (hb' : (desirePositions cfg' headsSorted heads').get? zhead = some b') :
    (a'.des.x = b'.des.x ∧ a'.des.y = b'.des.y) ∨ (a' = a ∧ b' = b) := by
  rw [desirePositions_quiet] at ha' hb'
  rw [← hcfg] at hb'
  have htallest := @greatestPlaced_alike (fun head => head.scaled.height)
    (fun a b halike => by rw [halike.scaled]) _ _ h headsSorted
  have hwidest := @greatestPlaced_alike (fun head => head.scaled.width)
    (fun a b halike => by rw [halike.scaled]) _ _ h headsSorted
  simp only [desirePositions] at ha' hb'
  rw [← htallest, ← hwidest] at hb'
  exact forEach_alike _ _ _ _ _ h ha hb ha' hb'

/-! ### A desired state that was applied -/

omit [Platform] in
theorem headCurrentNotDesired_eq_false {head : Head} :
    headCurrentNotDesired head = false ↔
      head.reapplyRequired = false ∧ head.des = head.cur := by
  simp only [headCurrentNotDesired, Bool.or_eq_false_iff, bne_eq_false_iff_eq]
  constructor
  · rintro ⟨⟨⟨⟨⟨⟨⟨hreapply, hzmode⟩, hscale⟩, henabled⟩, hx⟩, hy⟩, htransform⟩, hadaptive⟩
    exact ⟨hreapply, HeadState.ext hzmode hscale henabled hx hy htransform hadaptive⟩
  · rintro ⟨hreapply, hdes⟩
    rw [hdes]
    exact ⟨⟨⟨⟨⟨⟨⟨hreapply, rfl⟩, rfl⟩, rfl⟩, rfl⟩, rfl⟩, rfl⟩, rfl⟩

section Again

variable {cfg cfg' : Cfg} {lid : Option Lid} {heads heads' : Heads}

/-- A head whose desired state, with nothing to be reapplied, has become its current state. -/
structure Applied (head head' : Head) : Prop extends SameCore head head' where
  cur : head'.cur = head.des
  settled : head.reapplyRequired = false
  reapplyRequired : head'.reapplyRequired = false
  adaptiveSyncFailed : head'.adaptiveSyncFailed = head.adaptiveSyncFailed
  overridedEnabled : head'.overridedEnabled = head.overridedEnabled
  scaled : head'.scaled = head.scaled

private theorem unplaced_again (hcfg : quiet cfg = quiet cfg')
    (hnames : names heads = names heads') {head₀ head' p p' : Head} {x y : Int}
    (hp : Unplaced cfg lid heads head₀ p)
    (happlied : Applied { p with des := { p.des with x := x, y := y } } head')
    (hp' : Unplaced cfg' lid heads' head' p') :
    p'.des = { p.des with x := x, y := y } ∧ p'.scaled = p.scaled := by
  have hcore : SameCore head' head₀ :=
    ⟨happlied.modes.symm.trans hp.modes.symm, happlied.zmodePref.symm.trans hp.zmodePref.symm,
      happlied.name.symm.trans hp.name.symm, happlied.description.symm.trans hp.description.symm,
      happlied.widthMm.symm.trans hp.widthMm.symm, happlied.heightMm.symm.trans hp.heightMm.symm⟩
  have hdisableds := quiet_field Cfg.disableds (fun _ => rfl) hcfg.symm
  have hwants : wantsEnabled cfg' lid heads' head' = wantsEnabled cfg lid heads head₀ :=
    (wantsEnabled_congr hdisableds lid hnames.symm happlied.name.symm happlied.description.symm
      happlied.overridedEnabled).trans hp.wants
  have hchosen : chosenMode cfg' head' = chosenMode cfg head₀ := chosenMode_congr hcfg.symm hcore
  have hactive : active cfg' lid heads' head' = active cfg lid heads head₀ := by
    rw [active, active, hwants, hchosen]
  have hreapply : head₀.reapplyRequired = false := hp.reapplyRequired.trans happlied.settled
  have hfailed : head'.adaptiveSyncFailed = head₀.adaptiveSyncFailed :=
    happlied.adaptiveSyncFailed.trans hp.adaptiveSyncFailed.symm
  have hdes : p'.des = { p.des with x := x, y := y } := by
    cases hactive₀ : active cfg lid heads head₀ with
    | false =>
      have henabled : p.des.enabled = false := by rw [hp.inactive hactive₀]
      rw [hp'.inactive (hactive.trans hactive₀), happlied.cur]
      exact HeadState.ext rfl rfl henabled.symm rfl rfl rfl rfl
    | true =>
      obtain ⟨hzmode, hscale, henabled, htransform, hadaptive⟩ := hp.active hactive₀
      obtain ⟨hzmode', hscale', henabled', htransform', hadaptive'⟩ :=
        hp'.active (hactive.trans hactive₀)
      apply HeadState.ext
      · rw [hzmode', hchosen, ← hzmode]
      · rw [hscale', wantedScale_congr hcfg.symm hcore, hchosen, ← hscale]
      · rw [henabled', happlied.reapplyRequired, ← hreapply, ← henabled]
      · rw [hp'.x, happlied.cur]
      · rw [hp'.y, happlied.cur]
      · rw [htransform', wantedTransform_congr hcfg.symm hcore, ← htransform]
      · rw [hadaptive', hfailed, happlied.cur, hadaptive]
        rw [wantedAdaptiveSync_congr hcfg.symm hcore]
        split
        · rfl
        · rfl
  refine ⟨hdes, ?_⟩
  have hkept : head'.scaled = desiredScaled cfg head₀ p.des := happlied.scaled.trans hp.scaled
  rw [hp'.scaled, hp.scaled, hdes, ← desiredScaled_again cfg p.des hcore.modes hkept]
  exact desiredScaled_congr hcfg.symm rfl rfl rfl rfl rfl

private theorem desire_moved (cfg : Cfg) (lid : Option Lid) (heads : Heads) {zhead : ZHead}
    {head : Head} (hget : (desire cfg lid heads).2.get? zhead = some head) :
    ∃ head₀ p x y, heads.get? zhead = some head₀ ∧ Unplaced cfg lid heads head₀ p ∧
      (OrderedMap.forEach (desireHead lid) heads.keys cfg heads).2.get? zhead = some p ∧
      head = { p with des := { p.des with x := x, y := y } } := by
  obtain ⟨_, _, hkeys, hin⟩ := forEach_desireHead cfg lid heads
  rw [desire_eq cfg lid heads rfl] at hget
  generalize OrderedMap.forEach (desireHead lid) heads.keys cfg heads = result at hget hkeys hin ⊢
  have hpositions := desirePositions_inv
    (I := fun zhead head => ∃ p x y, result.2.get? zhead = some p ∧
      head = { p with des := { p.des with x := x, y := y } })
    result.1
    (fun tallest widest place zhead head h => by
      obtain ⟨p, _, _, hget, rfl⟩ := h
      obtain ⟨x, y, hmoved⟩ := desirePosition_eq _ tallest widest place
        { p with des := { p.des with x := _, y := _ } }
      exact ⟨p, x, y, hget, hmoved⟩)
    (desireOrder result.1.orderNameDesc result.2)
    (fun zhead head hget => ⟨head, head.des.x, head.des.y, hget, rfl⟩)
  obtain ⟨p, x, y, hp, hmoved⟩ := hpositions.2 zhead head hget
  have hmem := OrderedMap.mem_keys_of_get? hp
  rw [hkeys] at hmem
  obtain ⟨head₀, hget₀⟩ := OrderedMap.exists_get?_of_mem_keys hmem
  obtain ⟨p', hp', hunplaced⟩ := hin zhead head₀ hget₀
  obtain rfl := Option.some.inj (hp.symm.trans hp')
  exact ⟨head₀, p, x, y, hget₀, hunplaced, hp, hmoved⟩

/-- What was desired and applied to every head is desired again: nothing is left to change. -/
theorem desire_again (hcfg : quiet cfg = quiet cfg') (hnames : names heads = names heads')
    (hkeys : heads'.keys = heads.keys)
    (happlied : ∀ zhead head head', (desire cfg lid heads).2.get? zhead = some head →
      heads'.get? zhead = some head' → Applied head head')
    {zhead : ZHead} {head : Head} (hget : (desire cfg' lid heads').2.get? zhead = some head) :
    headCurrentNotDesired head = false := by
  obtain ⟨hquiet, hnamesP, hkeysP, _⟩ := forEach_desireHead cfg lid heads
  obtain ⟨hquiet', hnamesP', hkeysP', _⟩ := forEach_desireHead cfg' lid heads'
  obtain ⟨head', p', x', y', hget', hunplaced', hp', rfl⟩ := desire_moved cfg' lid heads' hget
  -- every head is desired, before it is placed, where it was desired the first time
  have hagain : ∀ z p q, (OrderedMap.forEach (desireHead lid) heads.keys cfg heads).2.get? z =
      some p → (OrderedMap.forEach (desireHead lid) heads'.keys cfg' heads').2.get? z = some q →
      ∃ x y, (desire cfg lid heads).2.get? z =
          some { p with des := { p.des with x := x, y := y } } ∧
        q.des = { p.des with x := x, y := y } ∧ q.cur = q.des ∧ q.reapplyRequired = false ∧
          q.scaled = p.scaled := by
    intro z p q hp hq
    have hmem : z ∈ (desire cfg lid heads).2.keys := by
      rw [keys_desire, ← hkeysP]
      exact OrderedMap.mem_keys_of_get? hp
    obtain ⟨d, hd⟩ := OrderedMap.exists_get?_of_mem_keys hmem
    obtain ⟨head₀, p₁, x, y, _, hunplaced, hp₁, rfl⟩ := desire_moved cfg lid heads hd
    obtain rfl := Option.some.inj (hp.symm.trans hp₁)
    have hmem' : z ∈ (desire cfg' lid heads').2.keys := by
      rw [keys_desire, ← hkeysP']
      exact OrderedMap.mem_keys_of_get? hq
    obtain ⟨d', hd'⟩ := OrderedMap.exists_get?_of_mem_keys hmem'
    obtain ⟨head₁, q₁, _, _, hget₁, hunplaced₁, hq₁, _⟩ := desire_moved cfg' lid heads' hd'
    obtain rfl := Option.some.inj (hq.symm.trans hq₁)
    have happ := happlied z _ head₁ hd hget₁
    obtain ⟨hdes, hscaled⟩ := unplaced_again hcfg hnames hunplaced happ hunplaced₁
    refine ⟨x, y, hd, hdes, ?_, ?_, hscaled⟩
    · rw [← hunplaced₁.cur, happ.cur, hdes]
    · exact hunplaced₁.reapplyRequired.symm.trans happ.reapplyRequired
  have halike : AlikeHeads (OrderedMap.forEach (desireHead lid) heads.keys cfg heads).2
      (OrderedMap.forEach (desireHead lid) heads'.keys cfg' heads').2 := by
    refine ⟨by rw [hkeysP, hkeysP', hkeys], fun z p q hp hq => ?_⟩
    obtain ⟨x, y, _, hdes, _, _, hscaled⟩ := hagain z p q hp hq
    exact ⟨by simp [headPlaced, hdes], hscaled.symm⟩
  have hmem : zhead ∈ (OrderedMap.forEach (desireHead lid) heads.keys cfg heads).2.keys := by
    rw [halike.keys]
    exact OrderedMap.mem_keys_of_get? hp'
  obtain ⟨p, hp⟩ := OrderedMap.exists_get?_of_mem_keys hmem
  obtain ⟨x, y, hd, hdes, hcur, hreapply, _⟩ := hagain zhead p p' hp hp'
  have hsame : quiet (OrderedMap.forEach (desireHead lid) heads.keys cfg heads).1 =
      quiet (OrderedMap.forEach (desireHead lid) heads'.keys cfg' heads').1 := by
    rw [hquiet, hquiet', hcfg]
  have horder : desireOrder
      (OrderedMap.forEach (desireHead lid) heads'.keys cfg' heads').1.orderNameDesc
      (OrderedMap.forEach (desireHead lid) heads'.keys cfg' heads').2 =
      desireOrder (OrderedMap.forEach (desireHead lid) heads.keys cfg heads).1.orderNameDesc
        (OrderedMap.forEach (desireHead lid) heads.keys cfg heads).2 := by
    have hname := congrArg Cfg.orderNameDesc hsame
    change (OrderedMap.forEach (desireHead lid) heads.keys cfg heads).1.orderNameDesc =
      (OrderedMap.forEach (desireHead lid) heads'.keys cfg' heads').1.orderNameDesc at hname
    rw [← hname]
    exact desireOrder_congr _ (by rw [hnamesP, hnamesP', hnames])
  have hlayout := hget
  unfold desire at hd hlayout
  dsimp only at hd hlayout
  rw [horder] at hlayout
  have hplaced : { p'.des with x := x', y := y' } = p'.des := by
    rcases desirePositions_alike hsame halike _ hp hp' hd hlayout with ⟨hx, hy⟩ | ⟨_, hkept⟩
    · dsimp only at hx hy
      rw [hdes, hx, hy]
    · exact congrArg Head.des hkept
  have hsettled : ({ p' with des := { p'.des with x := x', y := y' } } : Head).des = p'.cur :=
    hplaced.trans hcur.symm
  exact headCurrentNotDesired_eq_false.mpr ⟨hreapply, hsettled⟩

end Again

end WayDisplays.Desire.Layout
