/- Modes of a head: comparison, satisfaction of a user mode, and the searches over a map. -/

import Mathlib.Data.Rat.Defs
import WayDisplays.Lib.OrderedMap
import WayDisplays.Lib.ShellSort

set_option autoImplicit false
set_option relaxedAutoImplicit false

namespace WayDisplays.Model

open Lib (OrderedMap)

/-- The compositor's handle of a mode, `zwlr_output_mode_v1`. -/
structure ZMode where
  id : Nat
  deriving DecidableEq, Repr, Inhabited

structure Mode where
  width : Int
  height : Int
  refreshMhz : Int
  max : Bool
  maxPreferredRefresh : Bool
  warnedNoMode : Bool
  deriving DecidableEq, Repr

/-- A mode as it is announced, before its size and refresh arrive. -/
def modeInit : Mode :=
  { width := -1, height := -1, refreshMhz := -1,
    max := false, maxPreferredRefresh := false, warnedNoMode := false }

/-- An entry stands for the pointer to its mode: a mode is allocated once for each handle. -/
abbrev ModeEntry := ZMode × Mode

abbrev Modes := OrderedMap ZMode Mode

/-! ### Equality and order -/

def modeEqual (a b : Mode) : Bool := decide (a = b)

def modeEqualRes (a b : Mode) : Bool := a.width == b.width && a.height == b.height

def modeEqualResMhz (a b : Mode) : Bool := modeEqualRes a b && a.refreshMhz == b.refreshMhz

def modeGreaterThanResRefresh (a b : Mode) : Bool :=
  if a.width > b.width then true
  else if a.width ≠ b.width then false
  else if a.height > b.height then true
  else if a.height ≠ b.height then false
  else decide (a.refreshMhz > b.refreshMhz)

/-- mHz rounded to the nearest Hz, by the truncating division of the source. -/
def modeHzRounded (mode : Mode) : Int := (mode.refreshMhz + 500).tdiv 1000

def modeSatisfies (mode modeTarget : Mode) : Bool :=
  modeTarget.max ||
    (mode.width == modeTarget.width && mode.height == modeTarget.height &&
      (modeTarget.refreshMhz == -1 || modeHzRounded mode == modeHzRounded modeTarget))

/-- Average DPI, zero when there is no mode or no physical size. -/
def modeDpi (mode : Option Mode) (widthMm heightMm : Int) : ℚ :=
  match mode with
  | none => 0
  | some mode =>
    if widthMm = 0 || heightMm = 0 then 0
    else
      let dpiHoriz : ℚ := (mode.width : ℚ) / widthMm * (254 / 10)
      let dpiVert : ℚ := (mode.height : ℚ) / heightMm * (254 / 10)
      (dpiHoriz + dpiVert) / 2

/-! ### Search -/

/-- The gap sequence of `plist_sort`. -/
def gaps : List Nat := [701, 301, 132, 57, 23, 10, 4, 1]

def plistSort {α : Type} (vals : List α) (lessThan : α → α → Bool) : List α :=
  Lib.ShellSort.sort lessThan gaps vals

/-- The values of a map of modes, searched from the top down. -/
def modeCandidates (modes : Modes) : List ModeEntry :=
  plistSort modes.entries (fun a b => modeGreaterThanResRefresh a.2 b.2)

/-- Highest refresh at the resolution of the target. -/
def modeMaxRefresh (modeTarget : Mode) (modes : Modes) : Option ModeEntry :=
  (modeCandidates modes).find? (fun e => modeEqualRes e.2 modeTarget)

/-- The mode exactly matching the target, otherwise the highest that satisfies it. -/
def modeBestSatisfying (modeTarget : Mode) (modes : Modes) : Option ModeEntry :=
  match (modeCandidates modes).find? (fun e => modeEqualResMhz e.2 modeTarget) with
  | some e => some e
  | none => (modeCandidates modes).find? (fun e => modeSatisfies e.2 modeTarget)

/-- One iteration of the search for the maximum. -/
def modeMaxStep (best : Option ModeEntry) (e : ModeEntry) : Option ModeEntry :=
  match best with
  | none => some e
  | some b =>
    if e.2.width * e.2.height > b.2.width * b.2.height then some e
    else if e.2.width = b.2.width ∧ e.2.height = b.2.height ∧
        e.2.refreshMhz > b.2.refreshMhz then some e
    else some b

/-- Highest resolution at its highest refresh. -/
def modeMax (modes : Modes) : Option ModeEntry := modes.entries.foldl modeMaxStep none

/-- The product of two `int32_t`, which is undefined when it leaves their range. -/
def mulInt32 (a b : Int) : Option Int :=
  if -2 ^ 31 ≤ a * b ∧ a * b < 2 ^ 31 then some (a * b) else none

/-- The same iteration with the products as `int32_t`. -/
def modeMaxStepInt32 (best : Option ModeEntry) (e : ModeEntry) : Option (Option ModeEntry) :=
  match best with
  | none => some (some e)
  | some b => do
    let pixels ← mulInt32 e.2.width e.2.height
    let pixelsMax ← mulInt32 b.2.width b.2.height
    if pixels > pixelsMax then return some e
    else if e.2.width = b.2.width ∧ e.2.height = b.2.height ∧
        e.2.refreshMhz > b.2.refreshMhz then return some e
    else return some b

/-- The search as the source computes it: `none` when a product is undefined. -/
def modeMaxInt32 (modes : Modes) : Option (Option ModeEntry) :=
  modes.entries.foldlM modeMaxStepInt32 none

/-! ### The products of the search for the maximum -/

private theorem modeMaxStep_cases (best : Option ModeEntry) (e : ModeEntry) :
    modeMaxStep best e = some e ∨ (best.isSome ∧ modeMaxStep best e = best) := by
  cases best with
  | none => exact Or.inl rfl
  | some b =>
    simp only [modeMaxStep]
    split
    · exact Or.inl rfl
    · split
      · exact Or.inl rfl
      · exact Or.inr ⟨rfl, rfl⟩

def PixelsFit (mode : Mode) : Prop :=
  -2 ^ 31 ≤ mode.width * mode.height ∧ mode.width * mode.height < 2 ^ 31

/-- Every product fits: a single mode is never compared, so that none is computed. -/
def AllPixelsFit (modes : Modes) : Prop :=
  modes.entries.length ≤ 1 ∨ ∀ m ∈ modes.vals, PixelsFit m

instance (mode : Mode) : Decidable (PixelsFit mode) := inferInstanceAs (Decidable (_ ∧ _))

instance (modes : Modes) : Decidable (AllPixelsFit modes) := inferInstanceAs (Decidable (_ ∨ _))

theorem modeMaxStepInt32_eq_some {b e : ModeEntry} {found : Option ModeEntry} :
    modeMaxStepInt32 (some b) e = some found ↔
      (PixelsFit e.2 ∧ PixelsFit b.2) ∧ found = modeMaxStep (some b) e := by
  by_cases he : PixelsFit e.2
  · by_cases hb : PixelsFit b.2
    · have hpixels : mulInt32 e.2.width e.2.height = some (e.2.width * e.2.height) := if_pos he
      have hmax : mulInt32 b.2.width b.2.height = some (b.2.width * b.2.height) := if_pos hb
      simp only [modeMaxStepInt32, modeMaxStep, hpixels, hmax, Option.bind_eq_bind,
        Option.bind_some, he, hb, and_self, true_and]
      split_ifs <;> simp [eq_comm]
    · have hmax : mulInt32 b.2.width b.2.height = none := if_neg hb
      simp [modeMaxStepInt32, hmax, hb]
  · have hpixels : mulInt32 e.2.width e.2.height = none := if_neg he
    simp [modeMaxStepInt32, hpixels, he]

/-- From a first mode on, a search of one more mode asks for the products of them all. -/
private theorem foldlM_modeMaxStepInt32 (es : List ModeEntry) (b : ModeEntry)
    (found : Option ModeEntry) :
    es.foldlM modeMaxStepInt32 (some b) = some found ↔
      (es = [] ∨ PixelsFit b.2 ∧ ∀ e ∈ es, PixelsFit e.2) ∧
        found = es.foldl modeMaxStep (some b) := by
  induction es generalizing b with
  | nil => simp [eq_comm]
  | cons e es ih =>
    rw [List.foldlM_cons, Option.bind_eq_bind, Option.bind_eq_some_iff, List.foldl_cons]
    obtain ⟨next, hnext, hone⟩ : ∃ next, modeMaxStep (some b) e = some next ∧
        (next = e ∨ next = b) := by
      rcases modeMaxStep_cases (some b) e with hstep | ⟨-, hstep⟩
      · exact ⟨e, hstep, Or.inl rfl⟩
      · exact ⟨b, hstep, Or.inr rfl⟩
    simp only [modeMaxStepInt32_eq_some, hnext]
    constructor
    · rintro ⟨_, ⟨⟨he, hb⟩, rfl⟩, hrest⟩
      obtain ⟨hes, hfound⟩ := (ih next).mp hrest
      refine ⟨Or.inr ⟨hb, fun x hx => ?_⟩, hfound⟩
      rcases List.mem_cons.mp hx with rfl | hx
      · exact he
      · exact (hes.resolve_left (List.ne_nil_of_mem hx)).2 x hx
    · rintro ⟨hes, hfound⟩
      obtain ⟨hb, hes⟩ := hes.resolve_left (List.cons_ne_nil e es)
      have he := hes e List.mem_cons_self
      have hfits : PixelsFit next.2 := by rcases hone with rfl | rfl <;> assumption
      refine ⟨some next, ⟨⟨he, hb⟩, rfl⟩, (ih next).mpr ⟨Or.inr ⟨hfits, ?_⟩, hfound⟩⟩
      exact fun x hx => hes x (List.mem_cons_of_mem e hx)

/-- The search of the source is the search above as long as every product fits. -/
theorem modeMaxInt32_eq_some {modes : Modes} {found : Option ModeEntry} :
    modeMaxInt32 modes = some found ↔ AllPixelsFit modes ∧ found = modeMax modes := by
  unfold modeMaxInt32 modeMax AllPixelsFit OrderedMap.vals
  cases modes.entries with
  | nil => simp [eq_comm]
  | cons b es =>
    have hfirst : (b :: es).foldlM modeMaxStepInt32 none =
        es.foldlM modeMaxStepInt32 (some b) := rfl
    have hstart : modeMaxStep none b = some b := rfl
    rw [hfirst, foldlM_modeMaxStepInt32, List.foldl_cons, hstart]
    refine and_congr_left fun _ => ?_
    cases es with
    | nil => simp
    | cons e es => simp [forall_comm (α := ZMode)]

/-! ### Every search answers with an entry of the map -/

theorem gaps_pos : ∀ gap ∈ gaps, 0 < gap := by simp [gaps]

theorem plistSort_perm {α : Type} (vals : List α) (lessThan : α → α → Bool) :
    (plistSort vals lessThan).Perm vals := by
  unfold plistSort
  exact Lib.ShellSort.sort_perm lessThan gaps_pos vals

theorem mem_modeCandidates {modes : Modes} {e : ModeEntry} :
    e ∈ modeCandidates modes ↔ e ∈ modes.entries := by
  rw [modeCandidates, (plistSort_perm _ _).mem_iff]

theorem modeMaxRefresh_mem {modeTarget : Mode} {modes : Modes} {e : ModeEntry}
    (h : modeMaxRefresh modeTarget modes = some e) : e ∈ modes.entries := by
  unfold modeMaxRefresh at h
  exact mem_modeCandidates.mp (List.mem_of_find?_eq_some h)

theorem modeBestSatisfying_mem {modeTarget : Mode} {modes : Modes} {e : ModeEntry}
    (h : modeBestSatisfying modeTarget modes = some e) : e ∈ modes.entries := by
  unfold modeBestSatisfying at h
  split at h
  · rename_i e' he'
    obtain rfl := Option.some.inj h
    exact mem_modeCandidates.mp (List.mem_of_find?_eq_some he')
  · exact mem_modeCandidates.mp (List.mem_of_find?_eq_some h)

private theorem foldl_modeMaxStep_mem (es : List ModeEntry) (best : Option ModeEntry)
    (h : best.isSome ∨ es ≠ []) :
    ∃ e, es.foldl modeMaxStep best = some e ∧ (e ∈ es ∨ best = some e) := by
  induction es generalizing best with
  | nil =>
    rcases h with h | h
    · obtain ⟨e, rfl⟩ := Option.isSome_iff_exists.mp h
      exact ⟨e, rfl, Or.inr rfl⟩
    · exact absurd rfl h
  | cons a es ih =>
    rcases modeMaxStep_cases best a with hstep | ⟨hbest, hstep⟩
    · obtain ⟨e, he, hmem⟩ := ih (some a) (Or.inl rfl)
      refine ⟨e, by rw [List.foldl_cons, hstep, he], Or.inl ?_⟩
      rcases hmem with hmem | hmem
      · exact List.mem_cons_of_mem _ hmem
      · exact Option.some.inj hmem ▸ List.mem_cons_self
    · obtain ⟨e, he, hmem⟩ := ih best (Or.inl hbest)
      refine ⟨e, by rw [List.foldl_cons, hstep, he], ?_⟩
      exact hmem.imp_left (List.mem_cons_of_mem _)

/-- The maximum exists as soon as there is a mode. -/
theorem exists_modeMax {modes : Modes} (h : modes.entries ≠ []) :
    ∃ e, modeMax modes = some e ∧ e ∈ modes.entries := by
  obtain ⟨e, he, hmem⟩ := foldl_modeMaxStep_mem modes.entries none (Or.inr h)
  exact ⟨e, he, hmem.resolve_right (by simp)⟩

end WayDisplays.Model
