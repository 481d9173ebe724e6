/- Cursors that remove what they come to, as they go along a list. -/

import Mathlib.Data.List.Basic

set_option autoImplicit false
set_option relaxedAutoImplicit false

namespace WayDisplays.Lib

universe u

/-- A position in a list, or one in front of the first while it is not attached. -/
structure Cursor (α : Type u) where
  vals : List α
  position : Nat
  attached : Bool

namespace Cursor

variable {α : Type u}

def front (vals : List α) : Cursor α := { vals := vals, position := 0, attached := false }

/-- Where the search for the next value begins. -/
def start (c : Cursor α) : Nat := if c.attached then c.position + 1 else 0

def next (p : α → Bool) (c : Cursor α) : Option (Cursor α) :=
  ((c.vals.drop c.start).findIdx? p).map
    (fun i => { c with position := c.start + i, attached := true })

/-- Remove the value at the cursor, which steps back to the one before it. -/
def remove (c : Cursor α) : Cursor α :=
  { vals := c.vals.eraseIdx c.position
    position := c.position - 1
    attached := decide (0 < c.position) }

theorem next_eq_none {p : α → Bool} {c : Cursor α} (h : c.next p = none) :
    ∀ a ∈ c.vals.drop c.start, p a = false := by
  intro a ha
  have hnone := Option.map_eq_none_iff.mp h
  exact List.findIdx?_eq_none_iff.mp hnone a ha

theorem next_eq_some {p : α → Bool} {c c' : Cursor α} (h : c.next p = some c') :
    ∃ before a after, c.vals = before ++ a :: after ∧ p a = true ∧
      (∀ b ∈ before.drop c.start, p b = false) ∧
      c' = { c with position := before.length, attached := true } := by
  obtain ⟨i, hfind, hc⟩ := Option.map_eq_some_iff.mp h
  obtain ⟨hlt, hpass, hbefore⟩ := List.findIdx?_eq_some_iff_getElem.mp hfind
  rw [List.length_drop] at hlt
  have hi : c.start + i < c.vals.length := by omega
  have hlength : (c.vals.take (c.start + i)).length = c.start + i := by
    rw [List.length_take]
    omega
  refine ⟨c.vals.take (c.start + i), c.vals[c.start + i], c.vals.drop (c.start + i + 1), ?_,
    ?_, ?_, ?_⟩
  · rw [List.getElem_cons_drop hi, List.take_append_drop]
  · rw [List.getElem_drop] at hpass
    exact hpass
  · intro b hb
    obtain ⟨j, hj, rfl⟩ := List.getElem_of_mem hb
    rw [List.length_drop, hlength] at hj
    have hnot := hbefore j (by omega)
    rw [List.getElem_drop] at hnot
    rw [List.getElem_drop, List.getElem_take]
    exact Bool.eq_false_iff.mpr hnot
  · rw [hlength]
    exact hc.symm

theorem vals_remove {c : Cursor α} {before after : List α} {a : α}
    (hvals : c.vals = before ++ a :: after) (hposition : c.position = before.length) :
    c.remove.vals = before ++ after := by
  rw [remove, hvals, hposition, List.eraseIdx_append_of_length_le (Nat.le_refl _), Nat.sub_self,
    List.eraseIdx_cons_zero]

theorem length_remove_lt {p : α → Bool} {c c' : Cursor α} (h : c.next p = some c') :
    c'.remove.vals.length < c.vals.length := by
  obtain ⟨before, a, after, hvals, -, -, rfl⟩ := next_eq_some h
  have hleft := vals_remove (c := { c with position := before.length, attached := true })
    hvals rfl
  rw [hleft, hvals, List.length_append, List.length_append, List.length_cons]
  omega

/-- What is left once every value that passes was removed as the cursor came to it. -/
def removeEach (p : α → Bool) (c : Cursor α) : List α :=
  match h : c.next p with
  | none => c.vals
  | some c' =>
    have := length_remove_lt h
    removeEach p c'.remove
termination_by c.vals.length

/-- After a removal the search goes on where the removed value was. -/
theorem start_remove (c : Cursor α) : c.remove.start = c.position := by
  simp only [start, remove, decide_eq_true_eq]
  split <;> omega

/-- None is skipped and none is taken along, whatever the runs of values that pass. -/
theorem removeEach_eq_filter (p : α → Bool) (c : Cursor α)
    (h : ∀ a ∈ c.vals.take c.start, p a = false) :
    c.removeEach p = c.vals.filter (fun a => !p a) := by
  fun_induction removeEach p c with
  | case1 c hnext =>
    refine (List.filter_eq_self.mpr fun a ha => ?_).symm
    rw [← List.take_append_drop c.start c.vals] at ha
    rcases List.mem_append.mp ha with hseen | hrest
    · rw [h a hseen, Bool.not_false]
    · rw [next_eq_none hnext a hrest, Bool.not_false]
  | case2 c c' hnext _ ih =>
    obtain ⟨before, a, after, hvals, hpass, hskipped, rfl⟩ := next_eq_some hnext
    rw [hvals] at h
    have hleft := vals_remove (c := { c with position := before.length, attached := true })
      hvals rfl
    rw [ih ?_, hleft, hvals, List.filter_append, List.filter_append,
      List.filter_cons_of_neg (by simp [hpass])]
    intro b hb
    rw [start_remove, hleft, List.take_left, ← List.take_append_drop c.start before] at hb
    rcases List.mem_append.mp hb with hseen | hrest
    · refine h b ?_
      rw [List.take_append]
      exact List.mem_append_left _ hseen
    · exact hskipped b hrest

theorem removeEach_front (p : α → Bool) (vals : List α) :
    (front vals).removeEach p = vals.filter (fun a => !p a) :=
  removeEach_eq_filter p (front vals) fun _ ha => absurd ha List.not_mem_nil

/-! ### Loops that remove some of what they come to -/

/-- Go along the values that pass and remove some: those that were come to, and what is left. -/
def walk (p drop : α → Bool) : Nat → Cursor α → Option (List α × List α)
  | 0, _ => none
  | n + 1, c =>
    match c.next p with
    | none => some ([], c.vals)
    | some c' =>
      match c'.vals[c'.position]? with
      | none => none
      | some a =>
        (walk p drop n (if drop a then c'.remove else c')).map (fun r => (a :: r.1, r.2))

theorem next_cons_pos {p : α → Bool} {c : Cursor α} {seen : List α} {a : α} {rest : List α}
    (hvals : c.vals = seen ++ a :: rest) (hstart : c.start = seen.length) (ha : p a = true) :
    c.next p = some { vals := c.vals, position := seen.length, attached := true } := by
  rw [next, hvals, hstart, List.drop_left, List.findIdx?_cons, if_pos ha]
  rfl

theorem next_cons_neg {p : α → Bool} {c : Cursor α} {seen : List α} {a : α} {rest : List α}
    (hvals : c.vals = seen ++ a :: rest) (hstart : c.start = seen.length) (ha : p a = false) :
    c.next p = { vals := c.vals, position := seen.length, attached := true : Cursor α }.next p := by
  have hdrop : (seen ++ a :: rest).drop (seen.length + 1) = rest := by
    rw [List.drop_length_add_append, List.drop_succ_cons, List.drop_zero]
  have hpassed : { vals := c.vals, position := seen.length, attached := true : Cursor α }.start =
      seen.length + 1 := rfl
  rw [next, next, hpassed, hstart, hvals, List.drop_left, hdrop, List.findIdx?_cons,
    if_neg (by simp [ha]), Option.map_map]
  refine congrArg (fun f => Option.map f _) (funext fun i => ?_)
  simp only [Function.comp]
  congr 1
  omega

/-- Every value that passes is come to once and in order, whatever is removed on the way. -/
theorem walk_eq (p drop : α → Bool) (rest : List α) :
    ∀ (seen : List α) (c : Cursor α) (n : Nat), c.vals = seen ++ rest → c.start = seen.length →
      rest.length < n → c.walk p drop n =
        some (rest.filter p, seen ++ rest.filter (fun a => !(p a && drop a))) := by
  induction rest with
  | nil =>
    intro seen c n hvals hstart hn
    obtain ⟨n, rfl⟩ : ∃ k, n = k + 1 := ⟨n - 1, by rw [List.length_nil] at hn; omega⟩
    have hnone : c.next p = none := by
      rw [next, hvals, hstart, List.drop_left]
      rfl
    rw [walk, hnone, hvals]
    rfl
  | cons a rest ih =>
    intro seen c n hvals hstart hn
    obtain ⟨n, rfl⟩ : ∃ k, n = k + 1 := ⟨n - 1, by rw [List.length_cons] at hn; omega⟩
    rw [List.length_cons] at hn
    have hsplit : seen ++ a :: rest = (seen ++ [a]) ++ rest := by
      rw [List.append_assoc, List.singleton_append]
    have hlength : (seen ++ [a]).length = seen.length + 1 := List.length_append
    by_cases ha : p a = true
    · have hget : c.vals[seen.length]? = some a := by
        rw [hvals, List.getElem?_append_right (Nat.le_refl _), Nat.sub_self,
          List.getElem?_cons_zero]
      rw [walk, next_cons_pos hvals hstart ha]
      simp only [hget]
      by_cases hd : drop a = true
      · have hleft := vals_remove
          (c := { vals := c.vals, position := seen.length, attached := true }) hvals rfl
        have hrest := ih seen _ n hleft (start_remove _) (by omega)
        rw [if_pos hd, hrest, List.filter_cons_of_pos ha,
          List.filter_cons_of_neg (by simp [ha, hd])]
        rfl
      · have hrest := ih (seen ++ [a])
          { vals := c.vals, position := seen.length, attached := true } n
          (hvals.trans hsplit) hlength.symm (by omega)
        rw [if_neg hd, hrest, List.filter_cons_of_pos ha, List.filter_cons_of_pos (by simp [hd]),
          List.append_assoc]
        rfl
    · rw [Bool.not_eq_true] at ha
      have hrest := ih (seen ++ [a])
        { vals := c.vals, position := seen.length, attached := true } (n + 1)
        (hvals.trans hsplit) hlength.symm (by omega)
      rw [walk] at hrest
      rw [walk, next_cons_neg hvals hstart ha, hrest, List.filter_cons_of_neg (by simp [ha]),
        List.filter_cons_of_pos (by simp [ha]), List.append_assoc]
      rfl

theorem walk_front (p drop : α → Bool) (vals : List α) :
    (front vals).walk p drop (vals.length + 1) =
      some (vals.filter p, vals.filter (fun a => !(p a && drop a))) :=
  walk_eq p drop vals [] (front vals) _ rfl rfl (Nat.lt_succ_self _)

end Cursor

end WayDisplays.Lib
