/- Bounded blocks of memory that hold a list at their front. -/

import Mathlib.Data.List.Basic
import Mathlib.Data.List.Infix

set_option autoImplicit false
set_option relaxedAutoImplicit false

namespace WayDisplays.Lib

universe u

/-- The slots of an allocated block, null where nothing was stored. -/
abbrev Block (α : Type u) := List (Option α)

namespace Block

variable {α : Type u}

def calloc (n : Nat) : Block α := List.replicate n none

/-- An access beyond the block yields nothing. -/
def load (b : Block α) (i : Nat) : Option (Option α) := b[i]?

def store (b : Block α) (i : Nat) (x : Option α) : Option (Block α) :=
  if i < b.length then some (b.set i x) else none

def copy (b source : Block α) (n : Nat) : Option (Block α) :=
  if n ≤ b.length ∧ n ≤ source.length then some (source.take n ++ b.drop n) else none

/-- Null the first `n` slots. -/
def clear (b : Block α) (n : Nat) : Option (Block α) :=
  if n ≤ b.length then some (List.replicate n none ++ b.drop n) else none

/-- The first slot that passes, of the `n` from `i` up. -/
def search (p : Option α → Bool) (b : Block α) : Nat → Nat → Option (Option Nat)
  | 0, _ => some none
  | n + 1, i =>
    (b.load i).bind (fun x => if p x then some (some i) else search p b n (i + 1))

/-- Shift the `n` slots above `i` down over it, then null the last of them. -/
def shiftDown : Nat → Nat → Block α → Option (Block α)
  | 0, i, b => b.store i none
  | n + 1, i, b =>
    (b.load (i + 1)).bind (fun x => (b.store i x).bind (fun b => shiftDown n (i + 1) b))

/-- Shift the `n` slots below `i` up, the last of them into `i`. -/
def shiftUp : Nat → Nat → Block α → Option (Block α)
  | 0, _, b => some b
  | n + 1, i, b =>
    (b.load (i - 1)).bind (fun x => (b.store i x).bind (fun b => shiftUp n (i - 1) b))

/-! ### Single slots -/

theorem load_append (front : List (Option α)) (x : Option α) (rest : List (Option α)) :
    load (front ++ x :: rest) front.length = some x := by
  rw [load, List.getElem?_append_right (Nat.le_refl _), Nat.sub_self, List.getElem?_cons_zero]

theorem store_append (front : List (Option α)) (x y : Option α) (rest : List (Option α)) :
    store (front ++ x :: rest) front.length y = some (front ++ y :: rest) := by
  have hlt : front.length < (front ++ x :: rest).length := by
    rw [List.length_append, List.length_cons]
    omega
  rw [store, if_pos hlt, List.set_append_right _ _ (Nat.le_refl _), Nat.sub_self,
    List.set_cons_zero]

theorem load_of_prefix {xs b : List (Option α)} (h : xs <+: b) {i : Nat} (hi : i < xs.length) :
    load b i = some xs[i] := by
  obtain ⟨rest, rfl⟩ := h
  rw [load, List.getElem?_append_left hi, List.getElem?_eq_getElem hi]

theorem store_of_prefix {xs b : List (Option α)} (h : xs <+: b) {i : Nat} (hi : i < xs.length)
    (x : Option α) : ∃ b', store b i x = some b' ∧ xs.set i x <+: b' ∧ b'.length = b.length := by
  obtain ⟨rest, rfl⟩ := h
  have hlt : i < (xs ++ rest).length := by
    rw [List.length_append]
    omega
  refine ⟨(xs ++ rest).set i x, if_pos hlt, ?_, List.length_set⟩
  rw [List.set_append_left _ _ hi]
  exact List.prefix_append _ _

/-- There is room behind the list. -/
theorem store_snoc {xs b : List (Option α)} (h : xs <+: b) (hroom : xs.length < b.length)
    (x : Option α) :
    ∃ b', store b xs.length x = some b' ∧ xs ++ [x] <+: b' ∧ b'.length = b.length := by
  obtain ⟨rest, rfl⟩ := h
  cases rest with
  | nil => simp at hroom
  | cons y rest =>
    refine ⟨xs ++ x :: rest, store_append xs y x rest, ?_, by simp⟩
    exact ⟨rest, by rw [List.append_assoc, List.singleton_append]⟩

/-! ### Whole blocks -/

theorem copy_of_prefix {xs b : List (Option α)} (h : xs <+: b) {n : Nat} (hn : b.length ≤ n) :
    ∃ b', copy (calloc n) b b.length = some b' ∧ xs <+: b' ∧ b'.length = n := by
  have hcalloc : (calloc n : Block α).length = n := List.length_replicate
  refine ⟨b.take b.length ++ (calloc n).drop b.length, if_pos ⟨by omega, Nat.le_refl _⟩, ?_, ?_⟩
  · rw [List.take_length]
    exact h.trans (List.prefix_append _ _)
  · rw [List.length_append, List.take_length, List.length_drop, hcalloc]
    omega

theorem clear_of_le {b : Block α} {n : Nat} (h : n ≤ b.length) :
    ∃ b', clear b n = some b' ∧ b'.length = b.length := by
  refine ⟨List.replicate n none ++ b.drop n, if_pos h, ?_⟩
  rw [List.length_append, List.length_replicate, List.length_drop]
  omega

/-! ### Loops -/

theorem search_append (p : Option α → Bool) (front xs rest : List (Option α)) :
    search p (front ++ (xs ++ rest)) xs.length front.length =
      some ((xs.findIdx? p).map (· + front.length)) := by
  induction xs generalizing front with
  | nil => rw [List.length_nil, search, List.findIdx?_nil, Option.map_none]
  | cons x xs ih =>
    have hload := load_append front x (xs ++ rest)
    have hrest := ih (front ++ [x])
    rw [List.length_append, List.length_singleton, List.append_assoc] at hrest
    rw [List.length_cons, search, List.cons_append, hload, List.findIdx?_cons]
    by_cases hpass : p x = true
    · simp [hpass]
    · rw [Bool.not_eq_true] at hpass
      simp only [hpass, Bool.false_eq_true, if_false, Option.bind_some]
      refine hrest.trans ?_
      rw [Option.map_map]
      refine congrArg (fun f => some (Option.map f _)) (funext fun i => ?_)
      simp only [Function.comp]
      omega

theorem search_of_prefix {xs b : List (Option α)} (h : xs <+: b) (p : Option α → Bool) :
    search p b xs.length 0 = some (xs.findIdx? p) := by
  obtain ⟨rest, rfl⟩ := h
  have hsearch := search_append p [] xs rest
  simpa using hsearch

theorem shiftDown_append (front : List (Option α)) (x : Option α) (ys rest : List (Option α)) :
    shiftDown ys.length front.length (front ++ x :: (ys ++ rest)) =
      some (front ++ (ys ++ none :: rest)) := by
  induction ys generalizing front x with
  | nil => exact store_append front x none rest
  | cons y ys ih =>
    have hload := load_append (front ++ [x]) y (ys ++ rest)
    rw [List.length_append, List.length_singleton, List.append_assoc] at hload
    have hstore := store_append front x y (y :: (ys ++ rest))
    have hrest := ih (front ++ [y]) y
    rw [List.length_append, List.length_singleton, List.append_assoc, List.append_assoc] at hrest
    rw [List.length_cons, shiftDown, List.cons_append]
    simp only [List.singleton_append] at hload hrest
    rw [hload, Option.bind_some, hstore, Option.bind_some, hrest]
    rfl

/-- The list closes over the slot that is shifted over. -/
theorem shiftDown_of_prefix {xs b : List (Option α)} (h : xs <+: b) {i : Nat}
    (hi : i < xs.length) :
    ∃ b', shiftDown (xs.length - 1 - i) i b = some b' ∧ xs.eraseIdx i <+: b' ∧
      b'.length = b.length := by
  obtain ⟨rest, rfl⟩ := h
  have hsplit : xs = xs.take i ++ xs[i] :: xs.drop (i + 1) := by
    rw [List.getElem_cons_drop hi, List.take_append_drop]
  have htake : (xs.take i).length = i := by
    rw [List.length_take]
    omega
  have hdrop : (xs.drop (i + 1)).length = xs.length - 1 - i := by
    rw [List.length_drop]
    omega
  have hshift := shiftDown_append (xs.take i) xs[i] (xs.drop (i + 1)) rest
  have hblock : xs.take i ++ xs[i] :: (xs.drop (i + 1) ++ rest) = xs ++ rest := by
    rw [← List.cons_append, ← List.append_assoc, ← hsplit]
  rw [htake, hdrop, hblock] at hshift
  refine ⟨_, hshift, ?_, ?_⟩
  · rw [List.eraseIdx_eq_take_drop_succ, ← List.append_assoc]
    exact List.prefix_append _ _
  · rw [List.length_append, List.length_append, List.length_append, htake, hdrop,
      List.length_cons]
    omega

theorem shiftUp_append (front ys : List (Option α)) (z : Option α) (rest : List (Option α)) :
    ∃ x, shiftUp ys.length (front ++ ys).length (front ++ (ys ++ z :: rest)) =
      some (front ++ x :: (ys ++ rest)) := by
  induction ys using List.reverseRecOn generalizing z rest with
  | nil => exact ⟨z, rfl⟩
  | append_singleton ys y ih =>
    have hlength : (front ++ (ys ++ [y])).length - 1 = (front ++ ys).length := by simp
    have hload := load_append (front ++ ys) y (z :: rest)
    have hstore := store_append (front ++ (ys ++ [y])) z y rest
    simp only [List.append_assoc, List.singleton_append] at hload hstore
    obtain ⟨x, hrest⟩ := ih y (y :: rest)
    refine ⟨x, ?_⟩
    simp only [List.length_append, List.length_singleton, List.append_assoc,
      List.singleton_append] at *
    rw [shiftUp, hlength, hload, Option.bind_some, hstore, Option.bind_some, hrest]

theorem insertIdx_eq {xs : List (Option α)} {i : Nat} (h : i ≤ xs.length) (x : Option α) :
    xs.insertIdx i x = xs.take i ++ x :: xs.drop i := by
  induction i generalizing xs with
  | zero => rfl
  | succ i ih =>
    cases xs with
    | nil => simp at h
    | cons y xs =>
      rw [List.insertIdx_succ_cons, ih (Nat.le_of_succ_le_succ h)]
      rfl

/-- A list makes room for a value in its middle, given a slot behind it. -/
theorem shiftUp_of_prefix {xs b : List (Option α)} (h : xs <+: b) (hroom : xs.length < b.length)
    {i : Nat} (hi : i ≤ xs.length) (x : Option α) :
    ∃ b' b'', shiftUp (xs.length - i) xs.length b = some b' ∧ store b' i x = some b'' ∧
      xs.insertIdx i x <+: b'' ∧ b''.length = b.length := by
  obtain ⟨rest, rfl⟩ := h
  cases rest with
  | nil => simp at hroom
  | cons z rest =>
    have htake : (xs.take i).length = i := by
      rw [List.length_take]
      omega
    obtain ⟨y, hshift⟩ := shiftUp_append (xs.take i) (xs.drop i) z rest
    have hstore := store_append (xs.take i) y x (xs.drop i ++ rest)
    rw [List.length_drop, ← List.append_assoc, List.take_append_drop] at hshift
    rw [htake] at hstore
    refine ⟨_, _, hshift, hstore, ?_, ?_⟩
    · rw [insertIdx_eq hi, ← List.cons_append, ← List.append_assoc]
      exact List.prefix_append _ _
    · rw [List.length_append, List.length_cons, List.length_append, List.length_append, htake,
        List.length_drop, List.length_cons]
      omega

end Block

end WayDisplays.Lib
