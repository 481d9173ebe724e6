/- A queue read a buffer at a time, until one holds what is looked for. -/

import Mathlib.Data.List.Infix

set_option autoImplicit false
set_option relaxedAutoImplicit false

namespace WayDisplays.Lib.Buffered

universe u

variable {α : Type u} (size : α → Nat) (capacity : Nat) (hit : α → Bool)

/-- As many elements as there is space for, and the others. -/
def fill : Nat → List α → List α × List α
  | _, [] => ([], [])
  | space, a :: queue =>
    if size a ≤ space then
      (a :: (fill (space - size a) queue).1, (fill (space - size a) queue).2)
    else ([], a :: queue)

/-- Read buffers until one holds a hit: it is given up with all it holds. -/
def scan : Nat → List α → Bool × List α
  | 0, queue => (false, queue)
  | reads + 1, queue =>
    let buffer := fill size capacity queue
    if buffer.1.isEmpty then (false, queue)
    else if buffer.1.any hit then (true, buffer.2)
    else scan reads buffer.2

/-- There are no more buffers than elements. -/
def search (queue : List α) : Bool × List α := scan size capacity hit queue.length queue

variable {size capacity hit}

theorem fill_append (space : Nat) (queue : List α) :
    (fill size space queue).1 ++ (fill size space queue).2 = queue := by
  induction queue generalizing space with
  | nil => rfl
  | cons a queue ih =>
    unfold fill
    split
    · exact congrArg (a :: ·) (ih (space - size a))
    · rfl

theorem fill_ne_nil {a : α} {queue : List α} {space : Nat} (h : size a ≤ space) :
    (fill size space (a :: queue)).1 ≠ [] := by
  rw [fill, if_pos h]
  simp

/-- What comes later does not fit a buffer that is full. -/
theorem fill_snoc (space : Nat) (queue : List α) (a : α) (h : (fill size space queue).2 ≠ []) :
    fill size space (queue ++ [a]) =
      ((fill size space queue).1, (fill size space queue).2 ++ [a]) := by
  induction queue generalizing space with
  | nil => exact absurd rfl h
  | cons b queue ih =>
    by_cases hfits : size b ≤ space
    · rw [fill, if_pos hfits] at h ⊢
      rw [List.cons_append, fill, if_pos hfits, ih (space - size b) h]
    · rw [fill, if_neg hfits, List.cons_append, fill, if_neg hfits]

section Search

variable (hfits : ∀ a, size a ≤ capacity)

include hfits

theorem fill_rest_length {queue : List α} (h : queue ≠ []) :
    (fill size capacity queue).2.length < queue.length := by
  obtain ⟨a, rest, rfl⟩ := List.exists_cons_of_ne_nil h
  have hlength := congrArg List.length
    (@fill_append _ size capacity (a :: rest))
  have hne := List.length_pos_iff.mpr
    (@fill_ne_nil _ size a rest capacity (hfits a))
  rw [List.length_append] at hlength
  omega

theorem isEmpty_fill {queue : List α} (h : queue ≠ []) :
    (fill size capacity queue).1.isEmpty = false := by
  obtain ⟨a, rest, rfl⟩ := List.exists_cons_of_ne_nil h
  exact List.isEmpty_eq_false_iff.mpr (fill_ne_nil (hfits a))

/-- A search ends with the queue empty and no hit in it, or short of its first hit. -/
theorem scan_cases (reads : Nat) {queue : List α} (h : queue.length ≤ reads) :
    (scan size capacity hit reads queue = (false, []) ∧ queue.any hit = false) ∨
    ∃ rest, scan size capacity hit reads queue = (true, rest) ∧ rest <:+ queue ∧
      rest.length < queue.length ∧ queue.any hit = true := by
  induction reads generalizing queue with
  | zero =>
    obtain rfl := List.eq_nil_of_length_eq_zero (Nat.le_zero.mp h)
    exact .inl ⟨rfl, rfl⟩
  | succ reads ih =>
    by_cases hnil : queue = []
    · subst hnil
      exact .inl ⟨rfl, rfl⟩
    · have hlength := fill_rest_length hfits hnil
      have happend := @fill_append _ size capacity queue
      have hsuffix : (fill size capacity queue).2 <:+ queue := ⟨_, happend⟩
      have hany : queue.any hit = ((fill size capacity queue).1.any hit ||
          (fill size capacity queue).2.any hit) := by
        rw [← List.any_append, happend]
      have hempty := isEmpty_fill hfits hnil
      by_cases hhit : (fill size capacity queue).1.any hit = true
      · refine .inr ⟨_, ?_, hsuffix, hlength, by rw [hany, hhit, Bool.true_or]⟩
        simp [scan, hempty, hhit]
      · have hscan : scan size capacity hit (reads + 1) queue =
            scan size capacity hit reads (fill size capacity queue).2 := by
          simp only [scan, hempty, Bool.not_eq_true _ ▸ hhit]
          rfl
        have hnone : (fill size capacity queue).1.any hit = false := by simpa using hhit
        rw [hscan, hany, hnone, Bool.false_or]
        rcases @ih (fill size capacity queue).2 (by omega) with
          ⟨hfalse, hrest⟩ | ⟨rest, htrue, hrest, hlt, hfound⟩
        · exact .inl ⟨hfalse, hrest⟩
        · exact .inr ⟨rest, htrue, hrest.trans hsuffix, by omega, hfound⟩

theorem scan_snoc {reads reads' : Nat} {queue rest : List α} (a : α)
    (hreads : queue.length ≤ reads) (hreads' : queue.length < reads')
    (h : scan size capacity hit reads queue = (true, rest)) (hrest : rest ≠ []) :
    scan size capacity hit reads' (queue ++ [a]) = (true, rest ++ [a]) := by
  induction reads generalizing reads' queue with
  | zero => simp [scan] at h
  | succ reads ih =>
    obtain ⟨reads', rfl⟩ : ∃ n, reads' = n + 1 := ⟨reads' - 1, by omega⟩
    have hnil : queue ≠ [] := by
      rintro rfl
      simp [scan, fill] at h
    have hlength := fill_rest_length hfits hnil
    have hempty := isEmpty_fill hfits hnil
    have hsnoc (hne : (fill size capacity queue).2 ≠ []) :
        fill size capacity (queue ++ [a]) =
          ((fill size capacity queue).1, (fill size capacity queue).2 ++ [a]) :=
      fill_snoc capacity queue a hne
    by_cases hhit : (fill size capacity queue).1.any hit = true
    · have hend : (fill size capacity queue).2 = rest := by
        simpa [scan, hempty, hhit] using h
      have hnext := hsnoc (hend ▸ hrest)
      simp [scan, hnext, hempty, hhit, hend]
    · have hnone : (fill size capacity queue).1.any hit = false := by simpa using hhit
      have hscan : scan size capacity hit reads (fill size capacity queue).2 = (true, rest) := by
        rw [← h]
        simp [scan, hempty, hnone]
      have hne : (fill size capacity queue).2 ≠ [] := by
        intro hzero
        rw [hzero] at hscan
        cases reads <;> simp [scan, fill] at hscan
      have hnext := hsnoc hne
      have hmore : scan size capacity hit reads' ((fill size capacity queue).2 ++ [a]) =
          (true, rest ++ [a]) := ih (by omega) (by omega) hscan
      simp only [scan, hnext, hempty, hnone]
      exact hmore

theorem search_cases (queue : List α) :
    (search size capacity hit queue = (false, []) ∧ queue.any hit = false) ∨
    ∃ rest, search size capacity hit queue = (true, rest) ∧ rest <:+ queue ∧
      rest.length < queue.length ∧ queue.any hit = true :=
  scan_cases hfits queue.length (le_refl _)

/-- What comes after a search has come to its end does not change where it ends. -/
theorem search_snoc {queue rest : List α} (a : α)
    (h : search size capacity hit queue = (true, rest)) (hrest : rest ≠ []) :
    search size capacity hit (queue ++ [a]) = (true, rest ++ [a]) := by
  unfold search at h ⊢
  exact scan_snoc hfits a (le_refl _) (by simp) h hrest

end Search

end WayDisplays.Lib.Buffered
