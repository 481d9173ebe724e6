/- Boxes placed one after the other along an axis, and aligned across it. -/

import Mathlib.Algebra.Order.BigOperators.Group.List
import Mathlib.Algebra.Order.Group.Abs
import Mathlib.Algebra.Order.Group.Int
import Mathlib.Algebra.Ring.Int.Defs
import Mathlib.Data.Int.ConditionallyCompleteOrder
import Mathlib.Data.List.Basic
import Mathlib.Order.ConditionallyCompleteLattice.Basic

set_option autoImplicit false
set_option relaxedAutoImplicit false

namespace WayDisplays.Lib.Tiling

universe u

variable {α : Type u} (start length : α → Int)

/-- Each box starts where the one before it ends, the first one at the place given. -/
def Consecutive : Int → List α → Prop
  | _, [] => True
  | place, a :: as => start a = place ∧ Consecutive (place + length a) as

/-- The greatest length, which is that of some box. -/
def Extent (boxes : List α) (extent : Int) : Prop :=
  (∃ a ∈ boxes, length a = extent) ∧ ∀ a ∈ boxes, length a ≤ extent

theorem extent_map {β : Type u} (f : α → β) (length : β → Int) {boxes : List α} {extent : Int} :
    Extent (fun a => length (f a)) boxes extent ↔ Extent length (boxes.map f) extent := by
  simp [Extent]

section Along

variable {start length}

theorem Consecutive.start_eq {place : Int} {before after : List α} {a : α}
    (h : Consecutive start length place (before ++ a :: after)) :
    start a = place + (before.map length).sum := by
  induction before generalizing place with
  | nil => simpa using h.1
  | cons b before ih =>
    rw [ih h.2, List.map_cons, List.sum_cons, add_assoc]

/-- No box starts before the place, or ends after the sum of all lengths. -/
theorem Consecutive.within {place : Int} {boxes : List α}
    (h : Consecutive start length place boxes) (hlength : ∀ a ∈ boxes, 0 ≤ length a) {a : α}
    (ha : a ∈ boxes) :
    place ≤ start a ∧ start a + length a ≤ place + (boxes.map length).sum := by
  obtain ⟨before, after, rfl⟩ := List.append_of_mem ha
  have hbefore : 0 ≤ (before.map length).sum := List.sum_nonneg fun n hn => by
    obtain ⟨b, hb, rfl⟩ := List.mem_map.mp hn
    exact hlength b (List.mem_append_left _ hb)
  have hafter : 0 ≤ (after.map length).sum := List.sum_nonneg fun n hn => by
    obtain ⟨b, hb, rfl⟩ := List.mem_map.mp hn
    exact hlength b (List.mem_append_right _ (List.mem_cons_of_mem _ hb))
  rw [h.start_eq, List.map_append, List.sum_append, List.map_cons, List.sum_cons]
  omega

/-- Every box ends before each later one starts. -/
theorem Consecutive.ordered {place : Int} {boxes : List α}
    (h : Consecutive start length place boxes) (hlength : ∀ a ∈ boxes, 0 ≤ length a) :
    boxes.Pairwise (fun a b => start a + length a ≤ start b) := by
  induction boxes generalizing place with
  | nil => exact List.Pairwise.nil
  | cons a boxes ih =>
    obtain ⟨rfl, hrest⟩ := h
    have hlengths : ∀ b ∈ boxes, 0 ≤ length b := fun b hb => hlength b (List.mem_cons_of_mem _ hb)
    exact List.pairwise_cons.mpr
      ⟨fun b hb => (hrest.within hlengths hb).1, ih hrest hlengths⟩

end Along

/-! ### Across the axis -/

/-- Half of what is left beside a box, rounded up, centres it to within one unit. -/
theorem centred {extent length : Int} (h : length ≤ extent) :
    0 ≤ (extent - length + 1) / 2 ∧ (extent - length + 1) / 2 + length ≤ extent ∧
      |2 * ((extent - length + 1) / 2) + length - extent| ≤ 1 := by
  refine ⟨by omega, by omega, abs_le.mpr ⟨by omega, by omega⟩⟩

/-! ### The extent, by one pass -/

/-- The running maximum of the lengths of the boxes that count. -/
def runningMax (counts : α → Bool) (boxes : List α) (best : Int) : Int :=
  boxes.foldl (fun best a => if counts a && length a > best then length a else best) best

variable {length}

theorem runningMax_cons (counts : α → Bool) (a : α) (boxes : List α) (best : Int) :
    runningMax length counts (a :: boxes) best =
      runningMax length counts boxes (if counts a then max best (length a) else best) := by
  rw [runningMax, List.foldl_cons, ← runningMax]
  congr 1
  cases counts a with
  | false => rfl
  | true =>
    simp only [Bool.true_and, decide_eq_true_eq, if_true]
    omega

theorem runningMax_filter (counts : α → Bool) (boxes : List α) (best : Int) :
    runningMax length counts (boxes.filter counts) best =
      runningMax length counts boxes best := by
  induction boxes generalizing best with
  | nil => rfl
  | cons a boxes ih =>
    cases hcounts : counts a with
    | false => rw [List.filter_cons_of_neg (by simp [hcounts]), ih, runningMax_cons, hcounts]; rfl
    | true => rw [List.filter_cons_of_pos hcounts, runningMax_cons, ih, ← runningMax_cons]

theorem runningMax_spec (counts : α → Bool) (boxes : List α) (best : Int) :
    best ≤ runningMax length counts boxes best ∧
      (∀ a ∈ boxes.filter counts, length a ≤ runningMax length counts boxes best) ∧
      (runningMax length counts boxes best = best ∨
        ∃ a ∈ boxes.filter counts, length a = runningMax length counts boxes best) := by
  induction boxes generalizing best with
  | nil => exact ⟨Int.le_refl best, fun a ha => absurd ha List.not_mem_nil, Or.inl rfl⟩
  | cons a boxes ih =>
    rw [runningMax_cons]
    cases hcounts : counts a with
    | false =>
      rw [List.filter_cons_of_neg (by simp [hcounts])]
      exact ih best
    | true =>
      rw [List.filter_cons_of_pos hcounts, if_pos rfl]
      obtain ⟨hbest, hall, hsome⟩ := ih (max best (length a))
      refine ⟨le_of_max_le_left hbest, fun b hb => ?_, ?_⟩
      · rcases List.mem_cons.mp hb with rfl | hb
        · exact le_of_max_le_right hbest
        · exact hall b hb
      · rcases hsome with hsame | ⟨b, hb, hb2⟩
        · rcases max_choice best (length a) with hmax | hmax
          · exact Or.inl (hsame.trans hmax)
          · exact Or.inr ⟨a, List.mem_cons_self, hmax.symm.trans hsame.symm⟩
        · exact Or.inr ⟨b, List.mem_cons_of_mem _ hb, hb2⟩

/-- From below the extent the pass ends at the extent. -/
theorem runningMax_eq_extent {counts : α → Bool} {boxes : List α} {extent : Int}
    (h : Extent length (boxes.filter counts) extent) {best : Int} (hbest : best ≤ extent) :
    runningMax length counts boxes best = extent := by
  obtain ⟨-, hall, hsome⟩ := runningMax_spec counts boxes best
  obtain ⟨⟨a, ha, rfl⟩, hextent⟩ := h
  refine le_antisymm ?_ (hall a ha)
  rcases hsome with hsame | ⟨b, hb, hb2⟩
  · exact hsame.le.trans hbest
  · exact hb2.symm.le.trans (hextent b hb)

end WayDisplays.Lib.Tiling
