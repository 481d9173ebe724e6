/- Two searches for the maximum: by width, height and refresh, and by area. -/

import WayDisplays.Choice.FindMode

set_option autoImplicit false
set_option relaxedAutoImplicit false

namespace WayDisplays.Choice.Maximum

open Lib (OrderedMap)
open Model
open Search
open FindMode (Largest mem_vals_of_mem exists_entry)

def SameMode (a b : Mode) : Prop := SameSize a b ∧ a.refreshMhz = b.refreshMhz

/-- Both searches answer, with nothing or with the same width, height and refresh: the highest
refresh at a resolution that none exceeds. -/
def OneMaximum (target : Mode) (modes : Modes) : Prop :=
  ∃ found, modeMaxInt32 modes = some found ∧
    ((modeBestSatisfying target modes).isSome ↔ found.isSome) ∧
    ∀ best max, modeBestSatisfying target modes = some best → found = some max →
      SameMode best.2 max.2 ∧ Largest modes best.2 ∧ Largest modes max.2

def SizeAtMost (a b : Mode) : Prop :=
  a.width < b.width ∨ a.width = b.width ∧ a.height ≤ b.height

def firstLargest (modes : Modes) : Option ModeEntry :=
  modes.entries.find? (fun x => modes.entries.all (fun y => decide (area y.2 ≤ area x.2)))

/-- The first of the largest modes is also the widest, and the tallest of its width. When a
mode equals the target, which MAX alone never does once sizes have arrived, that mode is to
have the size of the first largest one and the highest refresh there. -/
def WidestFirst (target : Mode) (modes : Modes) : Prop :=
  ∀ first, firstLargest modes = some first →
    ((∃ m ∈ modes.vals, Exact target m) → SameSize target first.2 ∧
        ∀ m ∈ modes.vals, SameSize m target → m.refreshMhz ≤ target.refreshMhz) ∧
      ((¬ ∃ m ∈ modes.vals, Exact target m) → ∀ m ∈ modes.vals, SizeAtMost m first.2)

/-! ### The order of the two searches -/

theorem AtMost.size {a b : Mode} (h : AtMost a b) : SizeAtMost a b := by
  unfold AtMost at h
  unfold SizeAtMost
  omega

theorem SizeAtMost.congr {a b c : Mode} (h : SizeAtMost a b) (hsize : SameSize b c) :
    SizeAtMost a c := by
  obtain ⟨hwidth, hheight⟩ := hsize
  unfold SizeAtMost at h ⊢
  omega

theorem SizeAtMost.antisymm {a b : Mode} (h : SizeAtMost a b) (h' : SizeAtMost b a) :
    SameSize a b := by
  unfold SizeAtMost at h h'
  unfold SameSize
  omega

theorem firstLargest_of_modeMax {modes : Modes} {max : ModeEntry} (h : modeMax modes = some max) :
    ∃ first, firstLargest modes = some first ∧ SameSize max.2 first.2 := by
  have hmax := modeMax_runningMax h
  obtain ⟨before, first, after, hentries, hsize, hbefore, _⟩ := hmax.first
  refine ⟨first, List.find?_eq_some_iff_append.mpr ⟨?_, before, after, hentries, ?_⟩, hsize⟩
  · refine List.all_eq_true.mpr fun y hy => decide_eq_true ?_
    rw [← hsize.area]
    exact hmax.area_le hy
  · intro x hx
    have hfirst : first ∈ modes.entries := by
      rw [hentries]
      exact List.mem_append_right _ List.mem_cons_self
    have hnot : ¬ area first.2 ≤ area x.2 := Int.not_le.mpr (hbefore x hx)
    rw [Bool.not_eq_true', List.all_eq_false]
    exact ⟨first, hfirst, by simpa using hnot⟩

theorem largest_congr {modes : Modes} {a b : Mode} (h : SameMode a b) (hb : Largest modes b) :
    Largest modes a := by
  obtain ⟨hsize, hrefresh⟩ := h
  refine ⟨fun m hm => ?_, fun m hm hm2 => ?_⟩
  · rw [hsize.area]
    exact hb.1 m hm
  · rw [hrefresh]
    exact hb.2 m hm (hm2.trans hsize)

section Found

variable {target : Mode} {modes : Modes} {best max first : ModeEntry}

/-- A mode that equals the target is the maximum when it has its size and highest refresh. -/
theorem sameMode_iff_of_exact (hbest : modeBestSatisfying target modes = some best)
    (hmax : Largest modes max.2) (hmem : max ∈ modes.entries) (hfirst : SameSize max.2 first.2)
    {m : Mode} (hm : m ∈ modes.vals) (hexact : Exact target m) :
    SameMode best.2 max.2 ↔ SameSize target first.2 ∧
      ∀ m ∈ modes.vals, SameSize m target → m.refreshMhz ≤ target.refreshMhz := by
  obtain ⟨x, hx, rfl⟩ := exists_entry hm
  obtain ⟨hsize, hrefresh⟩ : Exact target best.2 := modeBestSatisfying_exact hbest hx hexact
  have hbestMem := mem_vals_of_mem (modeBestSatisfying_mem hbest)
  constructor
  · rintro ⟨hsame, hequal⟩
    refine ⟨(hsize.symm.trans hsame).trans hfirst, fun m hm hm2 => ?_⟩
    have hhighest := hmax.2 m hm ((hm2.trans hsize.symm).trans hsame)
    rwa [← hequal, hrefresh] at hhighest
  · rintro ⟨hlargest, hhighest⟩
    have hmaxTarget : SameSize max.2 target := hfirst.trans hlargest.symm
    have hsame : SameSize best.2 max.2 := hsize.trans hmaxTarget.symm
    refine ⟨hsame, ?_⟩
    have hle := hmax.2 best.2 hbestMem hsame
    have hge := hhighest max.2 (mem_vals_of_mem hmem) hmaxTarget
    omega

/-- Otherwise the greatest by width is the maximum when the first largest mode is widest. -/
theorem sameMode_iff_of_greatest (hbest : best ∈ modes.entries)
    (hgreatest : ∀ x ∈ modes.entries, AtMost x.2 best.2) (hmax : Largest modes max.2)
    (hmem : max ∈ modes.entries) (hfirst : SameSize max.2 first.2) :
    SameMode best.2 max.2 ↔ ∀ m ∈ modes.vals, SizeAtMost m first.2 := by
  constructor
  · rintro ⟨hsame, _⟩ m hm
    obtain ⟨x, hx, rfl⟩ := exists_entry hm
    exact (AtMost.size (hgreatest x hx)).congr (hsame.trans hfirst)
  · intro hwidest
    have hle : SizeAtMost best.2 max.2 :=
      (hwidest best.2 (mem_vals_of_mem hbest)).congr hfirst.symm
    have hmaxBest := hgreatest max hmem
    have hsame : SameSize best.2 max.2 := hle.antisymm (AtMost.size hmaxBest)
    refine ⟨hsame, ?_⟩
    have hfaster := hmax.2 best.2 (mem_vals_of_mem hbest) hsame
    have hslower := hmaxBest.refreshMhz hsame.symm
    omega

end Found

/-- What the two searches are to agree on, for the maximum of unbounded products. -/
private def Agree (target : Mode) (modes : Modes) : Prop :=
  ((modeBestSatisfying target modes).isSome ↔ (modeMax modes).isSome) ∧
    ∀ best max, modeBestSatisfying target modes = some best → modeMax modes = some max →
      SameMode best.2 max.2 ∧ Largest modes best.2 ∧ Largest modes max.2

private theorem oneMaximum_iff_agree {target : Mode} {modes : Modes} :
    OneMaximum target modes ↔ AllPixelsFit modes ∧ Agree target modes := by
  constructor
  · rintro ⟨found, hfound, hagree⟩
    obtain ⟨hfits, rfl⟩ := modeMaxInt32_eq_some.mp hfound
    exact ⟨hfits, hagree⟩
  · rintro ⟨hfits, hagree⟩
    exact ⟨modeMax modes, modeMaxInt32_eq_some.mpr ⟨hfits, rfl⟩, hagree⟩

private theorem agree_iff {target : Mode} (hmax : target.max = true) (modes : Modes) :
    Agree target modes ↔ WidestFirst target modes := by
  by_cases hne : modes.entries = []
  · have hnone : modeMax modes = none := by rw [modeMax, hne, List.foldl_nil]
    have hnoBest : ¬ (modeBestSatisfying target modes).isSome := by
      rw [modeBestSatisfying_isSome, hne]
      simp
    have hnoFirst : firstLargest modes = none := by
      rw [firstLargest, hne]
      rfl
    refine iff_of_true ⟨by simp [hnone, hnoBest], fun best max _ hsome => ?_⟩ fun first hfirst => ?_
    · exact absurd (hnone.symm.trans hsome) (by simp)
    · exact absurd (hnoFirst.symm.trans hfirst) (by simp)
  · obtain ⟨best, hbest⟩ :=
      Option.isSome_iff_exists.mp (FindMode.modeBestSatisfying_max_isSome hmax hne)
    obtain ⟨max, hmaximum, hmem⟩ := exists_modeMax hne
    obtain ⟨first, hfirst, hsize⟩ := firstLargest_of_modeMax hmaximum
    have hlargest : Largest modes max.2 := FindMode.largest_modeMax hmaximum
    have hone : Agree target modes ↔ SameMode best.2 max.2 := by
      constructor
      · exact fun h => (h.2 best max hbest hmaximum).1
      · intro hsame
        refine ⟨by simp [hbest, hmaximum], fun best' max' hbest' hmax' => ?_⟩
        obtain rfl := Option.some.inj (hbest.symm.trans hbest')
        obtain rfl := Option.some.inj (hmaximum.symm.trans hmax')
        exact ⟨hsame, largest_congr hsame hlargest, hlargest⟩
    have hwidest : WidestFirst target modes ↔
        ((∃ m ∈ modes.vals, Exact target m) → SameSize target first.2 ∧
            ∀ m ∈ modes.vals, SameSize m target → m.refreshMhz ≤ target.refreshMhz) ∧
          ((¬ ∃ m ∈ modes.vals, Exact target m) → ∀ m ∈ modes.vals, SizeAtMost m first.2) := by
      constructor
      · exact fun h => h first hfirst
      · intro h first' hfirst'
        obtain rfl := Option.some.inj (hfirst.symm.trans hfirst')
        exact h
    rw [hone, hwidest]
    by_cases hexact : ∃ m ∈ modes.vals, Exact target m
    · obtain ⟨m, hm, hm2⟩ := hexact
      have hsome : ∃ m ∈ modes.vals, Exact target m := ⟨m, hm, hm2⟩
      rw [sameMode_iff_of_exact hbest hlargest hmem hsize hm hm2]
      exact ⟨fun h => ⟨fun _ => h, fun hnot => absurd hsome hnot⟩, fun h => h.1 hsome⟩
    · have hinexact : ∀ x ∈ modes.entries, ¬ Exact target x.2 :=
        fun x hx hx2 => hexact ⟨x.2, mem_vals_of_mem hx, hx2⟩
      have hgreatest : ∀ x ∈ modes.entries, AtMost x.2 best.2 := fun x hx =>
        (modeBestSatisfying_greatest hbest hinexact).2 x hx (modeSatisfies_iff.mpr (Or.inl hmax))
      rw [sameMode_iff_of_greatest (modeBestSatisfying_mem hbest) hgreatest hlargest hmem hsize]
      exact ⟨fun h => ⟨fun hsome => absurd hsome hexact, fun _ => h⟩, fun h => h.2 hexact⟩

/-- For every set of modes and user MODE with MAX, the two searches agree on one maximum if
and only if every product fits and the first of the largest modes is also the widest. -/
theorem oneMaximum_iff (target : Mode) (hmax : target.max = true) (modes : Modes) :
    OneMaximum target modes ↔ AllPixelsFit modes ∧ WidestFirst target modes := by
  rw [oneMaximum_iff_agree, agree_iff hmax]

/-- For MAX alone, among sizes that have arrived, the widths decide. -/
theorem widestFirst_iff_width {target : Mode} (hunsized : FindMode.Unsized target) {modes : Modes}
    (hsizes : FindMode.SizesPositive modes) :
    WidestFirst target modes ↔
      ∀ first, firstLargest modes = some first → ∀ m ∈ modes.vals, m.width ≤ first.2.width := by
  have hinexact : ¬ ∃ m ∈ modes.vals, Exact target m := by
    rintro ⟨m, hm, hexact⟩
    exact FindMode.not_suited_of_unsized hunsized hsizes ⟨m, hm, hexact.suits⟩
  refine forall_congr' fun first => forall_congr' fun hfirst => ?_
  have hlargest : ∀ m ∈ modes.vals, area m ≤ area first.2 := by
    intro m hm
    obtain ⟨x, hx, rfl⟩ := exists_entry hm
    have hall := List.find?_some hfirst
    exact of_decide_eq_true (List.all_eq_true.mp hall x hx)
  have hmem : first.2 ∈ modes.vals := mem_vals_of_mem (List.mem_of_find?_eq_some hfirst)
  constructor
  · rintro ⟨-, hwidest⟩ m hm
    have hle := hwidest hinexact m hm
    unfold SizeAtMost at hle
    omega
  · refine fun hwidth => ⟨fun hexact => absurd hexact hinexact, fun _ m hm => ?_⟩
    rcases Int.lt_or_eq_of_le (hwidth m hm) with hlt | heq
    · exact Or.inl hlt
    · refine Or.inr ⟨heq, ?_⟩
      have harea := hlargest m hm
      rw [area, area, heq] at harea
      exact Int.le_of_mul_le_mul_left harea (hsizes first.2 hmem).1

/-! ### Wide and tall displays -/

def modeOfMax : Mode := { modeInit with max := true }

def sized (width height : Int) : Mode :=
  { modeInit with width := width, height := height, refreshMhz := 60000 }

def modesOf (modes : List Mode) : Modes := (FindMode.displayWith modes).modes

theorem oneMaximum_ultraHd : OneMaximum modeOfMax (modesOf [sized 1920 1080, sized 3840 2160]) := by
  refine (oneMaximum_iff modeOfMax rfl _).mpr ⟨by decide +kernel, ?_⟩
  have hsizes : FindMode.SizesPositive (modesOf [sized 1920 1080, sized 3840 2160]) := by
    intro m hm
    rcases List.mem_cons.mp hm with rfl | hm
    · decide
    · obtain rfl := List.mem_singleton.mp hm
      decide
  refine (widestFirst_iff_width ⟨rfl, rfl, rfl⟩ hsizes).mpr fun first hfirst m hm => ?_
  have hlargest : firstLargest (modesOf [sized 1920 1080, sized 3840 2160]) =
      some (⟨1⟩, sized 3840 2160) := by decide +kernel
  obtain rfl := Option.some.inj (hlargest.symm.trans hfirst)
  rcases List.mem_cons.mp hm with rfl | hm
  · decide
  · obtain rfl := List.mem_singleton.mp hm
    decide

/-- The widest of these modes is not the one with the most pixels. -/
theorem wideAndTall_twoMaxima :
    modeBestSatisfying modeOfMax (modesOf [sized 2560 1080, sized 2048 1536]) =
        some (⟨0⟩, sized 2560 1080) ∧
      modeMaxInt32 (modesOf [sized 2560 1080, sized 2048 1536]) =
        some (some (⟨1⟩, sized 2048 1536)) ∧
      ¬ OneMaximum modeOfMax (modesOf [sized 2560 1080, sized 2048 1536]) := by
  have hbest : modeBestSatisfying modeOfMax (modesOf [sized 2560 1080, sized 2048 1536]) =
      some (⟨0⟩, sized 2560 1080) := by decide +kernel
  have hmax : modeMaxInt32 (modesOf [sized 2560 1080, sized 2048 1536]) =
      some (some (⟨1⟩, sized 2048 1536)) := by decide +kernel
  refine ⟨hbest, hmax, ?_⟩
  rintro ⟨found, hfound, -, hagree⟩
  obtain rfl := Option.some.inj (hmax.symm.trans hfound)
  obtain ⟨⟨hsize, -⟩, -⟩ := hagree _ _ hbest rfl
  exact absurd hsize.1 (by decide)

end WayDisplays.Choice.Maximum
