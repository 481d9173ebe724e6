/- The refresh that is found for a user mode, against the documented window of half a Hz. -/

import WayDisplays.Choice.Search

set_option autoImplicit false
set_option relaxedAutoImplicit false

namespace WayDisplays.Choice.Refresh

open Lib (OrderedMap)
open Model
open Search (AtMost Exact SameSize modeSatisfies_iff)

/-- The size of the target at a refresh no more than 500 mHz from the one it asks for. -/
def Admissible (target mode : Mode) : Prop :=
  SameSize mode target ∧ |mode.refreshMhz - target.refreshMhz| ≤ 500

/-- What the manual promises of the mode that is found. -/
structure Tolerates (target : Mode) (modes : Modes) (found : Option ModeEntry) : Prop where
  admissible : ∀ e, found = some e → e ∈ modes.entries ∧ Admissible target e.2
  complete : ∀ x ∈ modes.entries, Admissible target x.2 → found.isSome
  exact : ∀ e, found = some e → ∀ x ∈ modes.entries, Exact target x.2 → Exact target e.2
  highest : ∀ e, found = some e → (∀ x ∈ modes.entries, ¬ Exact target x.2) →
    ∀ x ∈ modes.entries, Admissible target x.2 → x.2.refreshMhz ≤ e.2.refreshMhz

/-- The comparison of rounded Hz takes the mode for one within the window although it is not, or
the other way around. -/
def Misjudged (target mode : Mode) : Prop :=
  ¬ (modeSatisfies mode target = true ↔ Admissible target mode)

/-- Misjudged modes are out of the way: the very refresh is there, or above each of them there is
a mode that both the comparison and the window accept. -/
def Outranked (target : Mode) (modes : Modes) : Prop :=
  (∃ x ∈ modes.entries, Exact target x.2) ∨
    ∀ x ∈ modes.entries, Misjudged target x.2 → ∃ y ∈ modes.entries,
      modeSatisfies y.2 target = true ∧ Admissible target y.2 ∧ ¬ AtMost y.2 x.2

theorem Exact.admissible {target mode : Mode} (h : Exact target mode) : Admissible target mode :=
  ⟨h.1, by rw [h.2, sub_self]; decide⟩

/-- In numbers, with the target `beyond` mHz above the lowest refresh that is rounded like it: the
comparison takes what is from `beyond` below to `999 - beyond` above the target, and the modes
between the ends of that window and those of the manual's are misjudged. -/
theorem misjudged_iff {target mode : Mode} (hmax : target.max = false)
    (htarget : 0 ≤ target.refreshMhz) (hmode : -1 ≤ mode.refreshMhz)
    (hsize : SameSize mode target) :
    let beyond := (target.refreshMhz + 500) % 1000
    let apart := mode.refreshMhz - target.refreshMhz
    Misjudged target mode ↔
      min (-beyond) (-500) ≤ apart ∧ apart < max (-beyond) (-500) ∨
        min (999 - beyond) 500 < apart ∧ apart ≤ max (999 - beyond) 500 := by
  have hrounded : modeSatisfies mode target = true ↔
      (mode.refreshMhz + 500) / 1000 = (target.refreshMhz + 500) / 1000 := by
    simp only [modeSatisfies_iff, Search.Suits, hmax, hsize, modeHzRounded, Bool.false_eq_true,
      false_or, true_and]
    rw [Int.tdiv_eq_ediv_of_nonneg (by omega), Int.tdiv_eq_ediv_of_nonneg (by omega)]
    omega
  have hwindow : Admissible target mode ↔ |mode.refreshMhz - target.refreshMhz| ≤ 500 :=
    and_iff_right hsize
  rw [Misjudged, hrounded, hwindow, abs_le]
  omega

theorem admissible_congr {target a b : Mode} (hle : AtMost a b) (hge : AtMost b a) :
    Admissible target a ↔ Admissible target b := by
  obtain ⟨hwidth, hheight, hrefresh⟩ :
      a.width = b.width ∧ a.height = b.height ∧ a.refreshMhz = b.refreshMhz := by
    unfold AtMost at hle hge
    omega
  rw [Admissible, Admissible, SameSize, SameSize, hwidth, hheight, hrefresh]

theorem modeSatisfies_congr {target a b : Mode} (hle : AtMost a b) (hge : AtMost b a) :
    modeSatisfies a target = modeSatisfies b target := by
  obtain ⟨hwidth, hheight, hrefresh⟩ :
      a.width = b.width ∧ a.height = b.height ∧ a.refreshMhz = b.refreshMhz := by
    unfold AtMost at hle hge
    omega
  simp only [modeSatisfies, modeHzRounded, hwidth, hheight, hrefresh]

theorem atMost_of_sameSize {a b : Mode} (hsize : SameSize a b)
    (hle : a.refreshMhz ≤ b.refreshMhz) : AtMost a b :=
  Or.inr ⟨hsize.1, Or.inr ⟨hsize.2, hle⟩⟩

/-- A mode of the very refresh is found before any comparison of rounded Hz. -/
theorem tolerates_of_exact {target : Mode} {modes : Modes} {x : ModeEntry}
    (hx : x ∈ modes.entries) (hexact : Exact target x.2) :
    Tolerates target modes (modeBestSatisfying target modes) where
  admissible := fun _ he => ⟨modeBestSatisfying_mem he,
    Exact.admissible (Search.modeBestSatisfying_exact he hx hexact)⟩
  complete := fun _ _ _ => Search.modeBestSatisfying_isSome.mpr ⟨x, hx, Or.inl hexact⟩
  exact := fun _ he _ hy hyexact => Search.modeBestSatisfying_exact he hy hyexact
  highest := fun _ _ hinexact => absurd hexact (hinexact x hx)

/-- Misjudged modes that are exceeded neither hide an admissible mode nor are found. -/
theorem tolerates_of_outranked {target : Mode} {modes : Modes}
    (hinexact : ∀ x ∈ modes.entries, ¬ Exact target x.2)
    (houtranked : ∀ x ∈ modes.entries, Misjudged target x.2 → ∃ y ∈ modes.entries,
      modeSatisfies y.2 target = true ∧ Admissible target y.2 ∧ ¬ AtMost y.2 x.2) :
    Tolerates target modes (modeBestSatisfying target modes) := by
  have hfound : ∀ e, modeBestSatisfying target modes = some e → Admissible target e.2 := by
    intro e he
    obtain ⟨hsatisfies, hgreatest⟩ := Search.modeBestSatisfying_greatest he hinexact
    by_contra hadmissible
    have hmisjudged : Misjudged target e.2 := fun h => hadmissible (h.mp hsatisfies)
    obtain ⟨y, hy, hysatisfies, -, hexceeds⟩ :=
      houtranked e (modeBestSatisfying_mem he) hmisjudged
    exact hexceeds (hgreatest y hy hysatisfies)
  refine ⟨fun e he => ⟨modeBestSatisfying_mem he, hfound e he⟩, fun x hx hadmissible => ?_,
    fun _ _ x hx hexact => absurd hexact (hinexact x hx), fun e he _ x hx hadmissible => ?_⟩
  · rw [Search.modeBestSatisfying_isSome]
    by_cases hsatisfies : modeSatisfies x.2 target = true
    · exact ⟨x, hx, Or.inr hsatisfies⟩
    · obtain ⟨y, hy, hysatisfies, -, -⟩ :=
        houtranked x hx (fun h => hsatisfies (h.mpr hadmissible))
      exact ⟨y, hy, Or.inr hysatisfies⟩
  · obtain ⟨-, hgreatest⟩ := Search.modeBestSatisfying_greatest he hinexact
    have hsize : SameSize x.2 e.2 := hadmissible.1.trans (hfound e he).1.symm
    by_cases hsatisfies : modeSatisfies x.2 target = true
    · exact (hgreatest x hx hsatisfies).refreshMhz hsize
    · obtain ⟨y, hy, hysatisfies, hyadmissible, hexceeds⟩ :=
        houtranked x hx (fun h => hsatisfies (h.mpr hadmissible))
      have hye : y.2.refreshMhz ≤ e.2.refreshMhz :=
        (hgreatest y hy hysatisfies).refreshMhz (hyadmissible.1.trans (hfound e he).1.symm)
      have hxy : x.2.refreshMhz < y.2.refreshMhz := by
        by_contra hle
        exact hexceeds (atMost_of_sameSize (hyadmissible.1.trans hadmissible.1.symm)
          (Int.not_lt.mp hle))
      exact Int.le_of_lt (Int.lt_of_lt_of_le hxy hye)

/-- Where the promise holds, what is found exceeds every mode that is misjudged. -/
theorem outranked_of_tolerates {target : Mode} {modes : Modes}
    (h : Tolerates target modes (modeBestSatisfying target modes))
    (hinexact : ∀ x ∈ modes.entries, ¬ Exact target x.2) {x : ModeEntry}
    (hx : x ∈ modes.entries) (hmisjudged : Misjudged target x.2) :
    ∃ y ∈ modes.entries,
      modeSatisfies y.2 target = true ∧ Admissible target y.2 ∧ ¬ AtMost y.2 x.2 := by
  have hsome : (modeBestSatisfying target modes).isSome := by
    by_cases hsatisfies : modeSatisfies x.2 target = true
    · exact Search.modeBestSatisfying_isSome.mpr ⟨x, hx, Or.inr hsatisfies⟩
    · have hadmissible : Admissible target x.2 := by
        by_contra hnot
        exact hmisjudged (iff_of_false hsatisfies hnot)
      exact h.complete x hx hadmissible
  obtain ⟨e, he⟩ := Option.isSome_iff_exists.mp hsome
  obtain ⟨hsatisfies, hgreatest⟩ := Search.modeBestSatisfying_greatest he hinexact
  obtain ⟨hmem, hadmissible⟩ := h.admissible e he
  have hle : AtMost x.2 e.2 := by
    by_cases hxsatisfies : modeSatisfies x.2 target = true
    · exact hgreatest x hx hxsatisfies
    · have hxadmissible : Admissible target x.2 := by
        by_contra hnot
        exact hmisjudged (iff_of_false hxsatisfies hnot)
      exact atMost_of_sameSize (hxadmissible.1.trans hadmissible.1.symm)
        (h.highest e he hinexact x hx hxadmissible)
  refine ⟨e, hmem, hsatisfies, hadmissible, fun hge => hmisjudged ?_⟩
  rw [modeSatisfies_congr hle hge, admissible_congr hle hge]
  exact iff_of_true hsatisfies hadmissible

/-- The manual's window holds exactly where the modes that rounding misjudges are outranked. -/
theorem tolerates_iff (target : Mode) (modes : Modes) :
    Tolerates target modes (modeBestSatisfying target modes) ↔ Outranked target modes := by
  constructor
  · intro h
    by_cases hexact : ∃ x ∈ modes.entries, Exact target x.2
    · exact Or.inl hexact
    · refine Or.inr fun x hx => outranked_of_tolerates h (fun y hy hyexact => ?_) hx
      exact hexact ⟨y, hy, hyexact⟩
  · rintro (⟨x, hx, hexact⟩ | houtranked)
    · exact tolerates_of_exact hx hexact
    · by_cases hexact : ∃ x ∈ modes.entries, Exact target x.2
      · obtain ⟨x, hx, hexact⟩ := hexact
        exact tolerates_of_exact hx hexact
      · exact tolerates_of_outranked (fun x hx hxexact => hexact ⟨x, hx, hxexact⟩) houtranked

/-- A target on a whole Hz misjudges only the modes half a Hz above it. -/
theorem tolerates_wholeHz {target : Mode} {modes : Modes} (hmax : target.max = false)
    (htarget : 0 ≤ target.refreshMhz) (hwhole : 1000 ∣ target.refreshMhz)
    (hrefreshes : ∀ m ∈ modes.vals, -1 ≤ m.refreshMhz)
    (hhalf : ∀ m ∈ modes.vals, m.refreshMhz ≠ target.refreshMhz + 500) :
    Tolerates target modes (modeBestSatisfying target modes) := by
  by_cases hexact : ∃ x ∈ modes.entries, Exact target x.2
  · obtain ⟨x, hx, hexact⟩ := hexact
    exact tolerates_of_exact hx hexact
  · refine tolerates_of_outranked (fun x hx hxexact => hexact ⟨x, hx, hxexact⟩) ?_
    intro x hx hmisjudged
    have hvals : x.2 ∈ modes.vals := List.mem_map_of_mem hx
    have hsize : SameSize x.2 target := by
      by_contra hsize
      refine hmisjudged (iff_of_false ?_ fun hadmissible => hsize hadmissible.1)
      rw [modeSatisfies_iff, hmax]
      rintro (hmax | hsuits)
      · exact absurd hmax (by simp)
      · exact hsize hsuits.1
    rcases (misjudged_iff hmax htarget (hrefreshes x.2 hvals) hsize).mp hmisjudged with h | h
    · omega
    · exact absurd (by omega) (hhalf x.2 hvals)

/-- 59.6 Hz and 60.4 Hz are 800 mHz apart, and both are 60 Hz when they are rounded. -/
def hz596 : Mode := { modeInit with width := 1920, height := 1080, refreshMhz := 59600 }

def hz604 : Mode := { modeInit with width := 1920, height := 1080, refreshMhz := 60400 }

theorem hz596_intolerant :
    ¬ Tolerates hz596 (OrderedMap.empty.put ⟨0⟩ hz604)
      (modeBestSatisfying hz596 (OrderedMap.empty.put ⟨0⟩ hz604)) := fun h => by
  have hfound := h.admissible (⟨0⟩, hz604) (by decide)
  exact absurd hfound.2.2 (by decide)

end WayDisplays.Choice.Refresh
