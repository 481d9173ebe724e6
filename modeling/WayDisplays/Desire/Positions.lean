/- The layout of the heads: next to each other along the arrangement, aligned across it. -/

import WayDisplays.Desire.Heads
import WayDisplays.Lib.Tiling

set_option autoImplicit false
set_option relaxedAutoImplicit false

namespace WayDisplays.Desire.Positions

open Lib (OrderedMap)
open Lib.OrderedMap (visitAll)
open Lib.Tiling (Consecutive Extent runningMax)
open Model

/-! ### Rectangles -/

/-- The pixels of a head at its desired position. -/
def Inside (head : Head) (px py : Int) : Prop :=
  head.des.x ≤ px ∧ px < head.des.x + head.scaled.width ∧
    head.des.y ≤ py ∧ py < head.des.y + head.scaled.height

def Disjoint (a b : Head) : Prop := ∀ px py, ¬ (Inside a px py ∧ Inside b px py)

section Axes

variable (cfg : Cfg)

/-- A column goes down, everything else goes right. -/
def column : Bool := decide (cfg.arrange = some .col)

def alongStart (head : Head) : Int := if column cfg then head.des.y else head.des.x

def alongLength (head : Head) : Int :=
  if column cfg then head.scaled.height else head.scaled.width

def acrossStart (head : Head) : Int := if column cfg then head.des.x else head.des.y

def acrossLength (head : Head) : Int :=
  if column cfg then head.scaled.width else head.scaled.height

/-- RIGHT of a column, BOTTOM of a row. -/
def FarAligned : Prop := cfg.align = some (if column cfg then .right else .bottom)

def MiddleAligned : Prop := cfg.align = some .middle

instance : Decidable (FarAligned cfg) := inferInstanceAs (Decidable (_ = _))

instance : Decidable (MiddleAligned cfg) := inferInstanceAs (Decidable (_ = _))

end Axes

def placedHeads (headsSorted : List ZHead) (heads : Heads) : List Head :=
  (headsSorted.filterMap heads.get?).filter headPlaced

/-- The layout of the heads that take a place. -/
structure LaidOut (cfg : Cfg) (placed : List Head) : Prop where
  consecutive : Consecutive (alongStart cfg) (alongLength cfg) 0 placed
  disjoint : placed.Pairwise Disjoint
  contained : ∀ extent, Extent (acrossLength cfg) placed extent → ∀ head ∈ placed,
    0 ≤ acrossStart cfg head ∧ acrossStart cfg head + acrossLength cfg head ≤ extent
  far : FarAligned cfg → ∀ extent, Extent (acrossLength cfg) placed extent → ∀ head ∈ placed,
    acrossStart cfg head + acrossLength cfg head = extent
  middle : MiddleAligned cfg → ∀ extent, Extent (acrossLength cfg) placed extent →
    ∀ head ∈ placed, |2 * acrossStart cfg head + acrossLength cfg head - extent| ≤ 1
  near : ¬ FarAligned cfg → ¬ MiddleAligned cfg → ∀ head ∈ placed, acrossStart cfg head = 0
  /-- No coordinate exceeds the sum of the sizes along the arrangement. -/
  within : ∀ head ∈ placed, 0 ≤ alongStart cfg head ∧
    alongStart cfg head + alongLength cfg head ≤ (placed.map (alongLength cfg)).sum

/-! ### One head -/

def alignedStart (cfg : Cfg) (extent length : Int) : Int :=
  if FarAligned cfg then extent - length
  else if MiddleAligned cfg then truncate (((extent - length : Int) : ℚ) / 2 + 1 / 2)
  else 0

theorem truncate_half {n : Int} (h : 0 ≤ n) : truncate ((n : ℚ) / 2 + 1 / 2) = (n + 1) / 2 := by
  have hsum : (n : ℚ) / 2 + 1 / 2 = ((n + 1 : Int) : ℚ) / (2 : Nat) := by
    push_cast
    ring
  have hnonneg : (0 : ℚ) ≤ (n : ℚ) / 2 + 1 / 2 := by positivity
  rw [truncate, if_pos hnonneg, hsum, Rat.floor_intCast_div_natCast]
  rfl

def acrossExtent (cfg : Cfg) (tallest widest : Int) : Int :=
  if column cfg then widest else tallest

def alongPlace (cfg : Cfg) (place : Int × Int) : Int := if column cfg then place.2 else place.1

private theorem desirePosition_column {cfg : Cfg} (hcolumn : column cfg = true)
    (tallest widest : Int) (place : Int × Int) {head : Head} (h : headPlaced head = true) :
    desirePosition cfg tallest widest place head =
      ((place.1, place.2 + head.scaled.height),
        { head with
          des := { head.des with
            x := alignedStart cfg widest head.scaled.width
            y := place.2 } }) := by
  have harrange : cfg.arrange = some .col := of_decide_eq_true hcolumn
  have hfar : FarAligned cfg ↔ cfg.align = some .right := by rw [FarAligned, hcolumn, if_pos rfl]
  have hmiddle : MiddleAligned cfg ↔ cfg.align = some .middle := Iff.rfl
  unfold desirePosition alignedStart
  rw [if_neg (by simp [h]), harrange]
  cases halign : cfg.align with
  | none => simp [hfar, hmiddle, halign]
  | some align => cases align <;> simp [hfar, hmiddle, halign]

private theorem desirePosition_row {cfg : Cfg} (hcolumn : column cfg = false)
    (tallest widest : Int) (place : Int × Int) {head : Head} (h : headPlaced head = true) :
    desirePosition cfg tallest widest place head =
      ((place.1 + head.scaled.width, place.2),
        { head with
          des := { head.des with
            x := place.1
            y := alignedStart cfg tallest head.scaled.height } }) := by
  have harrange : cfg.arrange ≠ some .col := of_decide_eq_false hcolumn
  have hfar : FarAligned cfg ↔ cfg.align = some .bottom := by
    rw [FarAligned, hcolumn, if_neg (by simp)]
  have hmiddle : MiddleAligned cfg ↔ cfg.align = some .middle := Iff.rfl
  unfold desirePosition alignedStart
  rw [if_neg (by simp [h])]
  cases hcases : cfg.arrange with
  | none =>
    cases halign : cfg.align with
    | none => simp [hfar, hmiddle, halign]
    | some align => cases align <;> simp [hfar, hmiddle, halign]
  | some arrange =>
    cases arrange with
    | col => exact absurd hcases harrange
    | row =>
      cases halign : cfg.align with
      | none => simp [hfar, hmiddle, halign]
      | some align => cases align <;> simp [hfar, hmiddle, halign]

/-- A head that takes a place starts there, is aligned, and moves the place by its length. -/
theorem desirePosition_placed (cfg : Cfg) (tallest widest : Int) (place : Int × Int) {head : Head}
    (h : headPlaced head = true) {next : Int × Int} {head' : Head}
    (hstep : desirePosition cfg tallest widest place head = (next, head')) :
    alongStart cfg head' = alongPlace cfg place ∧
      acrossStart cfg head' =
        alignedStart cfg (acrossExtent cfg tallest widest) (acrossLength cfg head) ∧
      alongPlace cfg next = alongPlace cfg place + alongLength cfg head ∧
      head'.scaled = head.scaled ∧ headPlaced head' = true := by
  unfold alongStart acrossStart alongPlace alongLength acrossExtent acrossLength
  cases hcolumn : column cfg with
  | true =>
    rw [desirePosition_column hcolumn tallest widest place h] at hstep
    obtain ⟨rfl, rfl⟩ := Prod.mk.inj hstep
    exact ⟨rfl, rfl, rfl, rfl, h⟩
  | false =>
    rw [desirePosition_row hcolumn tallest widest place h] at hstep
    obtain ⟨rfl, rfl⟩ := Prod.mk.inj hstep
    exact ⟨rfl, rfl, rfl, rfl, h⟩

theorem desirePosition_skipped (cfg : Cfg) (tallest widest : Int) (place : Int × Int)
    {head : Head} (h : headPlaced head = false) :
    desirePosition cfg tallest widest place head = (place, head) := by
  simp [desirePosition, h]

/-! ### All heads -/

section Visits

variable (cfg : Cfg) (tallest widest : Int)

/-- The heads that take no place change nothing for those that do. -/
theorem visitAll_filter (place : Int × Int) (heads : List Head) :
    (visitAll (desirePosition cfg tallest widest) place heads).filter headPlaced =
      visitAll (desirePosition cfg tallest widest) place (heads.filter headPlaced) := by
  induction heads generalizing place with
  | nil => rfl
  | cons head heads ih =>
    cases h : headPlaced head with
    | false =>
      rw [visitAll, desirePosition_skipped cfg tallest widest place h,
        List.filter_cons_of_neg (by simp [h]), List.filter_cons_of_neg (by simp [h]), ih]
    | true =>
      cases hstep : desirePosition cfg tallest widest place head with
      | mk next head' =>
        have hplaced := (desirePosition_placed cfg tallest widest place h hstep).2.2.2.2
        rw [visitAll, hstep, List.filter_cons_of_pos h, visitAll, hstep,
          List.filter_cons_of_pos hplaced, ih]

/-- What visits make of heads that all take a place. -/
theorem visitAll_placed (place : Int × Int) {heads : List Head}
    (h : ∀ head ∈ heads, headPlaced head = true) {placed : List Head}
    (hplaced : visitAll (desirePosition cfg tallest widest) place heads = placed) :
    Consecutive (alongStart cfg) (alongLength cfg) (alongPlace cfg place) placed ∧
      (∀ head ∈ placed, acrossStart cfg head =
        alignedStart cfg (acrossExtent cfg tallest widest) (acrossLength cfg head)) ∧
      placed.map Head.scaled = heads.map Head.scaled := by
  induction heads generalizing place placed with
  | nil =>
    subst hplaced
    exact ⟨trivial, fun head hmem => absurd hmem List.not_mem_nil, rfl⟩
  | cons head heads ih =>
    cases hstep : desirePosition cfg tallest widest place head with
    | mk next head' =>
      rw [visitAll, hstep] at hplaced
      subst hplaced
      obtain ⟨halong, hacross, hnext, hscaled, -⟩ := desirePosition_placed cfg tallest widest
        place (h head List.mem_cons_self) hstep
      obtain ⟨hconsecutive, haligned, hsizes⟩ :=
        ih next (fun head hmem => h head (List.mem_cons_of_mem _ hmem)) rfl
      have hlength : alongLength cfg head' = alongLength cfg head := by
        rw [alongLength, alongLength, hscaled]
      refine ⟨⟨halong, ?_⟩, ?_, ?_⟩
      · rwa [hlength, ← hnext]
      · intro a ha
        rcases List.mem_cons.mp ha with rfl | ha
        · rw [hacross, acrossLength, acrossLength, hscaled]
        · exact haligned a ha
      · rw [List.map_cons, List.map_cons, hscaled, hsizes]

end Visits

/-! ### The layout -/

theorem alignedStart_spec (cfg : Cfg) {extent length : Int} (h : length ≤ extent) :
    (0 ≤ alignedStart cfg extent length ∧ alignedStart cfg extent length + length ≤ extent) ∧
      (FarAligned cfg → alignedStart cfg extent length + length = extent) ∧
      (MiddleAligned cfg → |2 * alignedStart cfg extent length + length - extent| ≤ 1) ∧
      (¬ FarAligned cfg → ¬ MiddleAligned cfg → alignedStart cfg extent length = 0) := by
  by_cases hfar : FarAligned cfg
  · have hstart : alignedStart cfg extent length = extent - length := if_pos hfar
    have hexclusive : ¬ MiddleAligned cfg := by
      intro hmiddle
      have halign := hfar.symm.trans hmiddle
      cases hcolumn : column cfg <;> simp [hcolumn] at halign
    rw [hstart]
    exact ⟨⟨by omega, by omega⟩, fun _ => by omega, fun hmiddle => absurd hmiddle hexclusive,
      fun hnot => absurd hfar hnot⟩
  · by_cases hmiddle : MiddleAligned cfg
    · have hstart : alignedStart cfg extent length = (extent - length + 1) / 2 := by
        rw [alignedStart, if_neg hfar, if_pos hmiddle, truncate_half (by omega)]
      obtain ⟨hzero, hwithin, hcentred⟩ := Lib.Tiling.centred h
      rw [hstart]
      exact ⟨⟨hzero, hwithin⟩, fun hnot => absurd hnot hfar, fun _ => hcentred,
        fun _ hnot => absurd hmiddle hnot⟩
    · have hstart : alignedStart cfg extent length = 0 := by
        rw [alignedStart, if_neg hfar, if_neg hmiddle]
      rw [hstart]
      exact ⟨⟨Int.le_refl 0, by omega⟩, fun hnot => absurd hnot hfar,
        fun hnot => absurd hnot hmiddle, fun _ _ => rfl⟩

theorem disjoint_of_ordered {cfg : Cfg} {a b : Head}
    (h : alongStart cfg a + alongLength cfg a ≤ alongStart cfg b) : Disjoint a b := by
  rintro px py ⟨⟨ha₁, ha₂, ha₃, ha₄⟩, hb₁, hb₂, hb₃, hb₄⟩
  unfold alongStart alongLength at h
  split at h
  · omega
  · omega

/-- The heads that take a place, before and after. -/
theorem placedHeads_desirePositions (cfg : Cfg) {headsSorted : List ZHead}
    (hnodup : headsSorted.Nodup) (heads : Heads) :
    placedHeads headsSorted (desirePositions cfg headsSorted heads) =
      visitAll (desirePosition cfg
          (greatestPlaced (fun head => head.scaled.height) headsSorted heads)
          (greatestPlaced (fun head => head.scaled.width) headsSorted heads))
        (0, 0) (placedHeads headsSorted heads) := by
  rw [placedHeads, desirePositions, OrderedMap.filterMap_forEach _ hnodup, visitAll_filter,
    placedHeads]

theorem greatestPlaced_eq_extent {measure : Head → Int} {headsSorted : List ZHead} {heads : Heads}
    {extent : Int} (h : Extent measure (placedHeads headsSorted heads) extent)
    (hextent : 0 ≤ extent) : greatestPlaced measure headsSorted heads = extent :=
  Lib.Tiling.runningMax_eq_extent h hextent

theorem extent_congr (cfg : Cfg) {heads heads' : List Head}
    (h : heads.map Head.scaled = heads'.map Head.scaled) {extent : Int}
    (hextent : Extent (acrossLength cfg) heads extent) :
    Extent (acrossLength cfg) heads' extent := by
  have hmap (heads : List Head) : Extent (acrossLength cfg) heads extent ↔
      Extent (fun scaled => if column cfg then scaled.width else scaled.height)
        (heads.map Head.scaled) extent :=
    Lib.Tiling.extent_map Head.scaled
      (fun scaled => if column cfg then scaled.width else scaled.height)
  rw [hmap] at hextent ⊢
  exact h ▸ hextent

section Layout

variable (cfg : Cfg) {headsSorted : List ZHead} {heads : Heads}

theorem acrossExtent_eq {extent : Int} (hextent : 0 ≤ extent)
    (h : Extent (acrossLength cfg) (placedHeads headsSorted heads) extent) :
    acrossExtent cfg (greatestPlaced (fun head => head.scaled.height) headsSorted heads)
      (greatestPlaced (fun head => head.scaled.width) headsSorted heads) = extent := by
  unfold acrossExtent
  unfold acrossLength at h
  split
  · rename_i hcolumn
    simp only [hcolumn, if_true] at h
    exact greatestPlaced_eq_extent h hextent
  · rename_i hcolumn
    simp only [hcolumn] at h
    exact greatestPlaced_eq_extent h hextent

/-- Heads of positive size are laid out without gap or overlap. -/
theorem laidOut_desirePositions (hnodup : headsSorted.Nodup)
    (hpositive : ∀ head ∈ placedHeads headsSorted heads,
      0 < head.scaled.width ∧ 0 < head.scaled.height) :
    LaidOut cfg (placedHeads headsSorted (desirePositions cfg headsSorted heads)) := by
  have hplaced : ∀ head ∈ placedHeads headsSorted heads, headPlaced head = true :=
    fun head hmem => (List.mem_filter.mp hmem).2
  obtain ⟨hconsecutive, haligned, hsizes⟩ := visitAll_placed cfg _ _ (0, 0) hplaced
    (placedHeads_desirePositions cfg hnodup heads).symm
  generalize placedHeads headsSorted (desirePositions cfg headsSorted heads) = placed
    at hconsecutive haligned hsizes
  have hstart : alongPlace cfg (0, 0) = 0 := by
    unfold alongPlace
    split <;> rfl
  rw [hstart] at hconsecutive
  have hscaled : ∀ head ∈ placed, 0 < head.scaled.width ∧ 0 < head.scaled.height := by
    intro head hmem
    have hmem' : head.scaled ∈ (placedHeads headsSorted heads).map Head.scaled :=
      hsizes ▸ List.mem_map_of_mem hmem
    obtain ⟨head₀, hmem₀, heq⟩ := List.mem_map.mp hmem'
    exact heq ▸ hpositive head₀ hmem₀
  have hlong : ∀ head ∈ placed, 0 ≤ alongLength cfg head := by
    intro head hmem
    unfold alongLength
    split
    · exact (hscaled head hmem).2.le
    · exact (hscaled head hmem).1.le
  have hacross : ∀ head ∈ placed, 0 ≤ acrossLength cfg head := by
    intro head hmem
    unfold acrossLength
    split
    · exact (hscaled head hmem).1.le
    · exact (hscaled head hmem).2.le
  have hspec : ∀ extent, Extent (acrossLength cfg) placed extent → ∀ head ∈ placed,
      acrossStart cfg head = alignedStart cfg extent (acrossLength cfg head) ∧
        acrossLength cfg head ≤ extent := by
    intro extent hextent head hmem
    have hle := hextent.2 head hmem
    refine ⟨?_, hle⟩
    rw [haligned head hmem, acrossExtent_eq cfg ((hacross head hmem).trans hle)
      (extent_congr cfg hsizes hextent)]
  refine
    { consecutive := hconsecutive, disjoint := ?_, contained := ?_, far := ?_, middle := ?_,
      near := ?_, within := ?_ }
  · exact (hconsecutive.ordered hlong).imp disjoint_of_ordered
  · intro extent hextent head hmem
    obtain ⟨hacross, hle⟩ := hspec extent hextent head hmem
    rw [hacross]
    exact (alignedStart_spec cfg hle).1
  · intro hfar extent hextent head hmem
    obtain ⟨hacross, hle⟩ := hspec extent hextent head hmem
    rw [hacross]
    exact (alignedStart_spec cfg hle).2.1 hfar
  · intro hmiddle extent hextent head hmem
    obtain ⟨hacross, hle⟩ := hspec extent hextent head hmem
    rw [hacross]
    exact (alignedStart_spec cfg hle).2.2.1 hmiddle
  · intro hfar hmiddle head hmem
    rw [haligned head hmem, alignedStart, if_neg hfar, if_neg hmiddle]
  · intro head hmem
    simpa using hconsecutive.within hlong hmem

def takesPlace (heads : Heads) (zhead : ZHead) : Bool := (heads.get? zhead).any headPlaced

theorem filterMap_takesPlace (headsSorted : List ZHead) (heads : Heads) :
    (headsSorted.filter (takesPlace heads)).filterMap heads.get? =
      placedHeads headsSorted heads := by
  rw [placedHeads, List.filterMap_filter, List.filter_filterMap]
  refine List.filterMap_congr fun zhead _ => ?_
  unfold takesPlace
  cases heads.get? zhead with
  | none => rfl
  | some head => cases h : headPlaced head <;> simp [h, Option.filter]

/-- The heads that take no place may be left out of the list. -/
theorem desirePositions_filter (headsSorted : List ZHead) (heads : Heads) :
    desirePositions cfg headsSorted heads =
      desirePositions cfg (headsSorted.filter (takesPlace heads)) heads := by
  have hgreatest (measure : Head → Int) : greatestPlaced measure headsSorted heads =
      greatestPlaced measure (headsSorted.filter (takesPlace heads)) heads := by
    have hfilter := @Lib.Tiling.runningMax_filter Head measure headPlaced
      (headsSorted.filterMap heads.get?) 0
    rw [← placedHeads, ← filterMap_takesPlace] at hfilter
    exact hfilter.symm
  have hkeep (tallest widest : Int) (place : Int × Int) (head : Head) :
      headPlaced (desirePosition cfg tallest widest place head).2 = headPlaced head := by
    obtain ⟨x, y, hpos⟩ := Heads.desirePosition_eq cfg tallest widest place head
    rw [hpos]
    rfl
  unfold desirePositions
  rw [← hgreatest, ← hgreatest]
  exact congrArg Prod.snd (OrderedMap.forEach_filter
    (fun place _ h => desirePosition_skipped cfg _ _ place h) (hkeep _ _) headsSorted (0, 0) heads)

/-- For every list of heads, arrangement and alignment: the heads that take a place are laid
out, each keeps all but its position, and the others are as they were and change nothing. -/
theorem desirePositions_layout (hnodup : headsSorted.Nodup)
    (hpositive : ∀ head ∈ placedHeads headsSorted heads,
      0 < head.scaled.width ∧ 0 < head.scaled.height) :
    LaidOut cfg (placedHeads headsSorted (desirePositions cfg headsSorted heads)) ∧
      (∀ zhead head, heads.get? zhead = some head → ∃ x y,
        (desirePositions cfg headsSorted heads).get? zhead =
          some { head with des := { head.des with x := x, y := y } }) ∧
      (∀ zhead head, heads.get? zhead = some head → headPlaced head = false →
        (desirePositions cfg headsSorted heads).get? zhead = some head) ∧
      desirePositions cfg headsSorted heads =
        desirePositions cfg (headsSorted.filter (takesPlace heads)) heads := by
  refine ⟨laidOut_desirePositions cfg hnodup hpositive, fun zhead head hget => ?_,
    fun zhead head hget hnot => ?_, desirePositions_filter cfg headsSorted heads⟩
  · obtain ⟨hkeys, hinv⟩ := Heads.desirePositions_inv
      (I := fun zhead head' => ∃ head x y, heads.get? zhead = some head ∧
        head' = { head with des := { head.des with x := x, y := y } })
      cfg
      (fun tallest widest place zhead head' h => by
        obtain ⟨head, x, y, hget, rfl⟩ := h
        obtain ⟨x', y', hpos⟩ := Heads.desirePosition_eq cfg tallest widest place
          { head with des := { head.des with x := x, y := y } }
        exact ⟨head, x', y', hget, hpos⟩)
      headsSorted (fun zhead head hget => ⟨head, head.des.x, head.des.y, hget, rfl⟩)
    have hmem := OrderedMap.mem_keys_of_get? hget
    rw [← hkeys] at hmem
    obtain ⟨head', hget'⟩ := OrderedMap.exists_get?_of_mem_keys hmem
    obtain ⟨head₀, x, y, hget₀, rfl⟩ := hinv zhead head' hget'
    obtain rfl := Option.some.inj (hget₀.symm.trans hget)
    exact ⟨x, y, hget'⟩
  · have hout : zhead ∉ headsSorted.filter (takesPlace heads) := by
      intro hmem
      have htakes := (List.mem_filter.mp hmem).2
      rw [takesPlace, hget, Option.any_some, hnot] at htakes
      exact absurd htakes (by simp)
    rw [desirePositions_filter]
    exact (OrderedMap.get?_forEach_of_not_mem _ hout (0, 0) heads).trans hget

end Layout

/-! ### Two displays in a row -/

def sizedHead (width height : Int) : Head :=
  { headInit with
    scaled := ⟨width, height⟩
    des := { headStateInit with zmode := some ⟨0⟩, enabled := true } }

def twoHeads : Heads :=
  (OrderedMap.empty.put ⟨0⟩ (sizedHead 1920 1080)).put ⟨1⟩ (sizedHead 2560 1441)

def rowMiddle : Cfg := { cfgInit with arrange := some .row, align := some .middle }

theorem desirePositions_layout_twoHeads :
    LaidOut rowMiddle (placedHeads [⟨0⟩, ⟨1⟩] (desirePositions rowMiddle [⟨0⟩, ⟨1⟩] twoHeads)) := by
  refine (desirePositions_layout rowMiddle (by decide) ?_).1
  intro head hmem
  change head ∈ [sizedHead 1920 1080, sizedHead 2560 1441] at hmem
  rcases List.mem_cons.mp hmem with rfl | hmem
  · decide
  · obtain rfl := List.mem_singleton.mp hmem
    decide

end WayDisplays.Desire.Positions
