/- What each search over the modes of a head finds, on modes of any number and order. -/

import WayDisplays.Model.Head

set_option autoImplicit false
set_option relaxedAutoImplicit false

namespace WayDisplays.Choice.Search

open Lib (OrderedMap)
open Lib.ShellSort (Sorted StrictWeak)
open Model

/-- The order of the sort: by width, then height, then refresh. -/
def AtMost (a b : Mode) : Prop :=
  a.width < b.width ∨ a.width = b.width ∧
    (a.height < b.height ∨ a.height = b.height ∧ a.refreshMhz ≤ b.refreshMhz)

def SameSize (a b : Mode) : Prop := a.width = b.width ∧ a.height = b.height

theorem SameSize.symm {a b : Mode} (h : SameSize a b) : SameSize b a := ⟨h.1.symm, h.2.symm⟩

theorem SameSize.trans {a b c : Mode} (h : SameSize a b) (h' : SameSize b c) : SameSize a c :=
  ⟨h.1.trans h'.1, h.2.trans h'.2⟩

theorem AtMost.refreshMhz {a b : Mode} (h : AtMost a b) (hsize : SameSize a b) :
    a.refreshMhz ≤ b.refreshMhz := by
  obtain ⟨hwidth, hheight⟩ := hsize
  unfold AtMost at h
  omega

@[simp] theorem modeEqualRes_iff {a b : Mode} : modeEqualRes a b = true ↔ SameSize a b := by
  simp [modeEqualRes, SameSize]

/-! ### The sorted candidates -/

theorem modeGreaterThanResRefresh_eq_false {a b : Mode} :
    modeGreaterThanResRefresh a b = false ↔ AtMost a b := by
  unfold modeGreaterThanResRefresh AtMost
  split
  · simp only [Bool.true_eq_false, false_iff]
    omega
  · split
    · simp only [true_iff]
      omega
    · split
      · simp only [Bool.true_eq_false, false_iff]
        omega
      · split
        · simp only [true_iff]
          omega
        · simp only [decide_eq_false_iff_not]
          omega

def comesBefore (a b : ModeEntry) : Bool := modeGreaterThanResRefresh a.2 b.2

theorem strictWeak_comesBefore : StrictWeak comesBefore where
  asymm {a b} h := by
    have hnot : ¬ AtMost a.2 b.2 := fun hle => by
      rw [comesBefore, modeGreaterThanResRefresh_eq_false.mpr hle] at h
      exact absurd h (by simp)
    refine modeGreaterThanResRefresh_eq_false.mpr ?_
    unfold AtMost at hnot ⊢
    omega
  trans {a b c} hba hcb := by
    have hba := modeGreaterThanResRefresh_eq_false.mp hba
    have hcb := modeGreaterThanResRefresh_eq_false.mp hcb
    refine modeGreaterThanResRefresh_eq_false.mpr ?_
    unfold AtMost at hba hcb ⊢
    omega

theorem sorted_modeCandidates (modes : Modes) : Sorted comesBefore (modeCandidates modes) := by
  have hgaps : gaps = [701, 301, 132, 57, 23, 10, 4] ++ [1] := rfl
  rw [modeCandidates, plistSort, hgaps]
  exact Lib.ShellSort.sort_sorted strictWeak_comesBefore _ modes.entries

/-- A search from the top down finds a greatest of the modes that pass. -/
theorem find?_modeCandidates {modes : Modes} {p : ModeEntry → Bool} {e : ModeEntry}
    (h : (modeCandidates modes).find? p = some e) :
    e ∈ modes.entries ∧ p e = true ∧
      ∀ x ∈ modes.entries, p x = true → AtMost x.2 e.2 := by
  have hpasses : p e = true := List.find?_some h
  refine ⟨mem_modeCandidates.mp (List.mem_of_find?_eq_some h), hpasses, ?_⟩
  intro x hx hp
  have hleast := Lib.ShellSort.find?_least strictWeak_comesBefore (sorted_modeCandidates modes)
    h (mem_modeCandidates.mpr hx) hp
  exact modeGreaterThanResRefresh_eq_false.mp hleast

theorem find?_modeCandidates_eq_none {modes : Modes} {p : ModeEntry → Bool} :
    (modeCandidates modes).find? p = none ↔ ∀ x ∈ modes.entries, p x = false := by
  rw [List.find?_eq_none]
  constructor
  · exact fun h x hx => Bool.eq_false_iff.mpr (h x (mem_modeCandidates.mpr hx))
  · exact fun h x hx => Bool.eq_false_iff.mp (h x (mem_modeCandidates.mp hx))

/-! ### The searches -/

theorem modeMaxRefresh_spec {target : Mode} {modes : Modes} {e : ModeEntry}
    (h : modeMaxRefresh target modes = some e) :
    e ∈ modes.entries ∧ SameSize e.2 target ∧
      ∀ x ∈ modes.entries, SameSize x.2 target → x.2.refreshMhz ≤ e.2.refreshMhz := by
  unfold modeMaxRefresh at h
  obtain ⟨hmem, hsize, hgreatest⟩ := find?_modeCandidates h
  rw [modeEqualRes_iff] at hsize
  refine ⟨hmem, hsize, fun x hx hxsize => ?_⟩
  exact (hgreatest x hx (modeEqualRes_iff.mpr hxsize)).refreshMhz (hxsize.trans hsize.symm)

theorem modeMaxRefresh_isSome {target : Mode} {modes : Modes} {e : ModeEntry}
    (he : e ∈ modes.entries) (hsize : SameSize e.2 target) :
    (modeMaxRefresh target modes).isSome := by
  rw [Option.isSome_iff_ne_none, Ne, modeMaxRefresh, find?_modeCandidates_eq_none]
  intro hnone
  have hdiffers := hnone e he
  rw [modeEqualRes_iff.mpr hsize] at hdiffers
  exact absurd hdiffers (by simp)

/-- The size of the target and, where the target has a refresh, the same rounded Hz. -/
def Suits (target mode : Mode) : Prop :=
  SameSize mode target ∧ (target.refreshMhz ≠ -1 → modeHzRounded mode = modeHzRounded target)

def Exact (target mode : Mode) : Prop :=
  SameSize mode target ∧ mode.refreshMhz = target.refreshMhz

theorem Exact.suits {target mode : Mode} (h : Exact target mode) : Suits target mode :=
  ⟨h.1, fun _ => by rw [modeHzRounded, modeHzRounded, h.2]⟩

theorem modeSatisfies_iff {mode target : Mode} :
    modeSatisfies mode target = true ↔ target.max = true ∨ Suits target mode := by
  simp only [modeSatisfies, Suits, SameSize, Bool.or_eq_true, Bool.and_eq_true, beq_iff_eq,
    and_assoc, or_iff_not_imp_left (a := target.refreshMhz = -1), Ne]

theorem modeEqualResMhz_iff {mode target : Mode} :
    modeEqualResMhz mode target = true ↔ Exact target mode := by
  simp [modeEqualResMhz, Exact]

theorem modeBestSatisfying_exact {target : Mode} {modes : Modes} {e : ModeEntry}
    (h : modeBestSatisfying target modes = some e) {x : ModeEntry} (hx : x ∈ modes.entries)
    (hexact : Exact target x.2) : Exact target e.2 := by
  unfold modeBestSatisfying at h
  split at h
  · rename_i e' he'
    obtain rfl := Option.some.inj h
    exact modeEqualResMhz_iff.mp (find?_modeCandidates he').2.1
  · rename_i hnone
    have hdiffers := find?_modeCandidates_eq_none.mp hnone x hx
    rw [modeEqualResMhz_iff.mpr hexact] at hdiffers
    exact absurd hdiffers (by simp)

theorem modeBestSatisfying_greatest {target : Mode} {modes : Modes} {e : ModeEntry}
    (h : modeBestSatisfying target modes = some e)
    (hinexact : ∀ x ∈ modes.entries, ¬ Exact target x.2) :
    modeSatisfies e.2 target = true ∧
      ∀ x ∈ modes.entries, modeSatisfies x.2 target = true → AtMost x.2 e.2 := by
  unfold modeBestSatisfying at h
  split at h
  · rename_i e' he'
    obtain ⟨hmem, hequal, _⟩ := find?_modeCandidates he'
    exact absurd (modeEqualResMhz_iff.mp hequal) (hinexact e' hmem)
  · exact (find?_modeCandidates h).2

theorem modeBestSatisfying_isSome {target : Mode} {modes : Modes} :
    (modeBestSatisfying target modes).isSome ↔
      ∃ x ∈ modes.entries, Exact target x.2 ∨ modeSatisfies x.2 target = true := by
  unfold modeBestSatisfying
  split
  · rename_i e he
    obtain ⟨hmem, hequal, _⟩ := find?_modeCandidates he
    exact iff_of_true rfl ⟨e, hmem, Or.inl (modeEqualResMhz_iff.mp hequal)⟩
  · rename_i hnone
    have hinexact : ∀ x ∈ modes.entries, ¬ Exact target x.2 := by
      intro x hx hexact
      have hdiffers := find?_modeCandidates_eq_none.mp hnone x hx
      rw [modeEqualResMhz_iff.mpr hexact] at hdiffers
      exact absurd hdiffers (by simp)
    rw [Option.isSome_iff_ne_none, Ne, find?_modeCandidates_eq_none]
    push Not
    refine exists_congr fun x => and_congr_right fun hx => ?_
    simp [hinexact x hx]

/-! ### The running maximum -/

def area (mode : Mode) : Int := mode.width * mode.height

/-- A mode of the size of the first that has the greatest area, at its highest refresh. -/
structure RunningMax (es : List ModeEntry) (best : ModeEntry) : Prop where
  mem : best ∈ es
  first : ∃ before first after, es = before ++ first :: after ∧ SameSize best.2 first.2 ∧
    (∀ x ∈ before, area x.2 < area first.2) ∧ ∀ x ∈ after, area x.2 ≤ area first.2
  highest : ∀ x ∈ es, SameSize x.2 best.2 → x.2.refreshMhz ≤ best.2.refreshMhz

theorem SameSize.area {a b : Mode} (h : SameSize a b) : area a = area b := by
  rw [Search.area, Search.area, h.1, h.2]

theorem RunningMax.area_le {es : List ModeEntry} {best : ModeEntry} (h : RunningMax es best)
    {x : ModeEntry} (hx : x ∈ es) : area x.2 ≤ area best.2 := by
  obtain ⟨before, first, after, rfl, hsize, hbefore, hafter⟩ := h.first
  rw [hsize.area]
  rcases List.mem_append.mp hx with hx | hx
  · exact Int.le_of_lt (hbefore x hx)
  · rcases List.mem_cons.mp hx with rfl | hx
    · exact Int.le_refl _
    · exact hafter x hx

private theorem runningMax_step {es : List ModeEntry} {best : ModeEntry} (h : RunningMax es best)
    (e : ModeEntry) :
    ∃ best', modeMaxStep (some best) e = some best' ∧ RunningMax (es ++ [e]) best' := by
  have hmem : e ∈ es ++ [e] := by simp
  obtain ⟨before, first, after, hes, hsize, hbefore, hafter⟩ := h.first
  have hextend (hle : area e.2 ≤ area first.2) : es ++ [e] = before ++ first :: (after ++ [e]) ∧
      ∀ x ∈ after ++ [e], area x.2 ≤ area first.2 := by
    refine ⟨by simp [hes], fun x hx => ?_⟩
    rcases List.mem_append.mp hx with hx | hx
    · exact hafter x hx
    · exact List.mem_singleton.mp hx ▸ hle
  simp only [modeMaxStep]
  split
  · rename_i hgreater
    refine ⟨e, rfl, hmem, ⟨es, e, [], rfl, ⟨rfl, rfl⟩, ?_, by simp⟩, ?_⟩
    · exact fun x hx => Int.lt_of_le_of_lt (h.area_le hx) hgreater
    · intro x hx hsame
      rcases List.mem_append.mp hx with hx | hx
      · have hle := h.area_le hx
        rw [hsame.area] at hle
        exact absurd hgreater (Int.not_lt.mpr hle)
      · rw [List.mem_singleton.mp hx]
  · rename_i hle
    have hle : area e.2 ≤ area first.2 := by
      rw [← hsize.area]
      exact Int.not_lt.mp hle
    obtain ⟨hsplit, hafter'⟩ := hextend hle
    split
    · rename_i hfaster
      have hsame : SameSize e.2 best.2 := ⟨hfaster.1, hfaster.2.1⟩
      refine ⟨e, rfl, hmem, ⟨before, first, _, hsplit, hsame.trans hsize, hbefore, hafter'⟩, ?_⟩
      intro x hx hxe
      rcases List.mem_append.mp hx with hx | hx
      · have hslower := h.highest x hx (hxe.trans hsame)
        omega
      · rw [List.mem_singleton.mp hx]
    · rename_i hslower
      refine ⟨best, rfl, List.mem_append_left _ h.mem,
        ⟨before, first, _, hsplit, hsize, hbefore, hafter'⟩, ?_⟩
      intro x hx hxbest
      rcases List.mem_append.mp hx with hx | hx
      · exact h.highest x hx hxbest
      · obtain rfl := List.mem_singleton.mp hx
        exact Int.not_lt.mp (fun hfaster => hslower ⟨hxbest.1, hxbest.2, hfaster⟩)

private theorem runningMax_foldl (es : List ModeEntry) {done : List ModeEntry} {best : ModeEntry}
    (h : RunningMax done best) :
    ∃ best', es.foldl modeMaxStep (some best) = some best' ∧ RunningMax (done ++ es) best' := by
  induction es generalizing done best with
  | nil => exact ⟨best, rfl, (List.append_nil done).symm ▸ h⟩
  | cons e es ih =>
    obtain ⟨best', hstep, hbest'⟩ := runningMax_step h e
    obtain ⟨best'', hrun, hbest''⟩ := ih hbest'
    refine ⟨best'', by rw [List.foldl_cons, hstep, hrun], ?_⟩
    rwa [List.append_assoc] at hbest''

/-- The one pass over the modes finds the maximum of all of them. -/
theorem modeMax_runningMax {modes : Modes} {best : ModeEntry} (h : modeMax modes = some best) :
    RunningMax modes.entries best := by
  unfold modeMax at h
  cases hes : modes.entries with
  | nil =>
    rw [hes] at h
    exact absurd h (by simp)
  | cons e es =>
    have hfirst : RunningMax [e] e :=
      ⟨by simp, ⟨[], e, [], rfl, ⟨rfl, rfl⟩, by simp, by simp⟩, by simp⟩
    obtain ⟨best', hrun, hbest'⟩ := runningMax_foldl es hfirst
    rw [hes] at h
    have hsame : some best' = some best := hrun.symm.trans h
    exact Option.some.inj hsame ▸ hbest'

end WayDisplays.Choice.Search
