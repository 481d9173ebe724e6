/- Insertion-ordered sets, distinct up to a decidable comparison of their values. -/

import Mathlib.Data.List.Basic
import Mathlib.Data.List.Perm.Subperm

set_option autoImplicit false
set_option relaxedAutoImplicit false

namespace WayDisplays.Lib

universe u

/-- A set that keeps its values in the order in which they were added. -/
structure OrderedSet (α : Type u) (eqVal : α → α → Bool) where
  vals : List α
  distinct : vals.Pairwise (fun a b => eqVal a b = false)

namespace OrderedSet

variable {α : Type u} {eqVal : α → α → Bool}

def empty : OrderedSet α eqVal := ⟨[], List.Pairwise.nil⟩

instance : Inhabited (OrderedSet α eqVal) := ⟨empty⟩

def size (s : OrderedSet α eqVal) : Nat := s.vals.length

def contains (s : OrderedSet α eqVal) (a : α) : Bool := s.vals.any (fun v => eqVal v a)

/-- Append a value that equals none of those present. -/
def add (s : OrderedSet α eqVal) (a : α) : OrderedSet α eqVal :=
  if h : s.contains a then s
  else ⟨s.vals ++ [a], by
    refine List.pairwise_append.mpr ⟨s.distinct, List.pairwise_singleton _ a, ?_⟩
    intro v hv b hb
    obtain rfl := List.mem_singleton.mp hb
    have hnone : ¬ s.vals.any (fun v => eqVal v b) = true := h
    simpa using fun hvb => hnone (List.any_eq_true.mpr ⟨v, hv, hvb⟩)⟩

/-- Remove the first value that equals the argument. -/
def remove (s : OrderedSet α eqVal) (a : α) : OrderedSet α eqVal :=
  ⟨s.vals.eraseP (fun v => eqVal v a), s.distinct.sublist List.eraseP_sublist⟩

def addAll (s from_ : OrderedSet α eqVal) : OrderedSet α eqVal := from_.vals.foldl add s

def removeIn (s in_ : OrderedSet α eqVal) : OrderedSet α eqVal := in_.vals.foldl remove s

/-- The same size, and every value present in both: the order is not compared. -/
def equal (s t : OrderedSet α eqVal) : Bool :=
  decide (s.size = t.size) && t.vals.all s.contains

theorem mem_vals_add {s : OrderedSet α eqVal} {a b : α} (h : b ∈ (s.add a).vals) :
    b = a ∨ b ∈ s.vals := by
  unfold add at h
  split at h
  · exact Or.inr h
  · rcases List.mem_append.mp h with hs | ha
    · exact Or.inr hs
    · exact Or.inl (List.mem_singleton.mp ha)

@[ext] theorem ext {s t : OrderedSet α eqVal} (h : s.vals = t.vals) : s = t := by
  cases s
  cases t
  cases h
  rfl

theorem remove_of_not_contains {s : OrderedSet α eqVal} {a : α} (h : s.contains a = false) :
    s.remove a = s :=
  ext (List.eraseP_of_forall_not (List.any_eq_false.mp h))

/-- Distinct values that are added in turn follow the old ones. -/
theorem vals_foldl_add {s : OrderedSet α eqVal} {vals : List α}
    (h : (s.vals ++ vals).Pairwise (fun a b => eqVal a b = false)) :
    (vals.foldl add s).vals = s.vals ++ vals := by
  induction vals generalizing s with
  | nil => exact (List.append_nil _).symm
  | cons a vals ih =>
    have hnew : s.contains a = false := by
      refine List.any_eq_false.mpr fun v hv => ?_
      rw [(List.pairwise_append.mp h).2.2 v hv a List.mem_cons_self]
      exact Bool.false_ne_true
    have hadd : (s.add a).vals = s.vals ++ [a] := by
      rw [add, dif_neg (by rw [hnew]; exact Bool.false_ne_true)]
    have hdistinct : ((s.add a).vals ++ vals).Pairwise (fun a b => eqVal a b = false) := by
      rw [hadd, List.append_assoc]
      exact h
    rw [List.foldl_cons, ih hdistinct, hadd, List.append_assoc]
    rfl

/-- The values of a set added to an empty one make the set again. -/
theorem addAll_empty (s : OrderedSet α eqVal) : empty.addAll s = s :=
  ext (vals_foldl_add (s := empty) s.distinct)

theorem equal_self (heq : ∀ a, eqVal a a = true) (s : OrderedSet α eqVal) :
    s.equal s = true := by
  rw [equal, decide_eq_true rfl, Bool.true_and, List.all_eq_true]
  intro a ha
  exact List.any_eq_true.mpr ⟨a, ha, heq a⟩

/-! ### Values compared by equality -/

section Equality

variable [DecidableEq α] {s t : OrderedSet α (fun a b => a == b)}

theorem nodup (s : OrderedSet α (fun a b => a == b)) : s.vals.Nodup :=
  s.distinct.imp (fun h => by simpa using h)

theorem contains_iff {a : α} : s.contains a = true ↔ a ∈ s.vals := by simp [contains]

theorem mem_add {a b : α} : b ∈ (s.add a).vals ↔ b = a ∨ b ∈ s.vals := by
  unfold add
  split
  · rename_i hmem
    have ha := contains_iff.mp hmem
    constructor
    · exact Or.inr
    · rintro (rfl | hb)
      · exact ha
      · exact hb
  · rw [List.mem_append, List.mem_singleton, Or.comm]

theorem vals_remove (s : OrderedSet α (fun a b => a == b)) (a : α) :
    (s.remove a).vals = s.vals.filter (fun b => b != a) := by
  have herase : (s.remove a).vals = s.vals.erase a := (List.erase_eq_eraseP' a s.vals).symm
  rw [herase, s.nodup.erase_eq_filter]

theorem mem_remove {a b : α} : b ∈ (s.remove a).vals ↔ b ∈ s.vals ∧ b ≠ a := by
  rw [vals_remove, List.mem_filter]
  simp

theorem mem_addAll {a : α} : a ∈ (s.addAll t).vals ↔ a ∈ t.vals ∨ a ∈ s.vals := by
  unfold addAll
  induction t.vals generalizing s with
  | nil => simp
  | cons b vals ih =>
    rw [List.foldl_cons, ih, mem_add, List.mem_cons]
    tauto

theorem mem_removeIn {a : α} : a ∈ (s.removeIn t).vals ↔ a ∈ s.vals ∧ a ∉ t.vals := by
  unfold removeIn
  induction t.vals generalizing s with
  | nil => simp
  | cons b vals ih =>
    rw [List.foldl_cons, ih, mem_remove, List.mem_cons, not_or, and_assoc]

/-- A value that is added is not seen by a filter that drops it. -/
theorem filter_add {p : α → Bool} {a : α} (ha : p a = false) :
    (s.add a).vals.filter p = s.vals.filter p := by
  unfold add
  split
  · rfl
  · simp [List.filter_append, ha]

theorem filter_remove {p : α → Bool} {a : α} (ha : p a = false) :
    (s.remove a).vals.filter p = s.vals.filter p := by
  rw [vals_remove, List.filter_filter]
  refine List.filter_congr fun b _ => ?_
  by_cases hb : b = a
  · simp [hb, ha]
  · simp [hb]

theorem filter_addAll {p : α → Bool} (h : ∀ a ∈ t.vals, p a = false) :
    (s.addAll t).vals.filter p = s.vals.filter p := by
  unfold addAll
  revert h
  induction t.vals generalizing s with
  | nil => exact fun _ => rfl
  | cons b vals ih =>
    intro h
    rw [List.foldl_cons, ih (fun a ha => h a (List.mem_cons_of_mem b ha)),
      filter_add (h b List.mem_cons_self)]

theorem filter_removeIn {p : α → Bool} (h : ∀ a ∈ t.vals, p a = false) :
    (s.removeIn t).vals.filter p = s.vals.filter p := by
  unfold removeIn
  revert h
  induction t.vals generalizing s with
  | nil => exact fun _ => rfl
  | cons b vals ih =>
    intro h
    rw [List.foldl_cons, ih (fun a ha => h a (List.mem_cons_of_mem b ha)),
      filter_remove (h b List.mem_cons_self)]

/-- The comparison is blind to the order in which the sets were filled. -/
theorem equal_iff_perm : s.equal t = true ↔ s.vals.Perm t.vals := by
  rw [equal, Bool.and_eq_true, decide_eq_true_eq, List.all_eq_true]
  simp only [contains_iff, size]
  constructor
  · rintro ⟨hlength, hsubset⟩
    have hsubperm : t.vals.Subperm s.vals := List.subperm_of_subset t.nodup hsubset
    exact (hsubperm.perm_of_length_le (Nat.le_of_eq hlength)).symm
  · intro hperm
    exact ⟨hperm.length_eq, fun val hval => hperm.mem_iff.mpr hval⟩

theorem equal_of_mem_iff (h : ∀ a, a ∈ s.vals ↔ a ∈ t.vals) : s.equal t = true :=
  equal_iff_perm.mpr ((List.perm_ext_iff_of_nodup s.nodup t.nodup).mpr h)

theorem add_of_mem {a : α} (h : a ∈ s.vals) : s.add a = s := dif_pos (contains_iff.mpr h)

/-- A set that is equal to itself before a value was added has that value already. -/
theorem add_of_equal {a : α} (h : (s.add a).equal s = true) : s.add a = s :=
  add_of_mem ((equal_iff_perm.mp h).mem_iff.mp (mem_add.mpr (Or.inl rfl)))

end Equality

end OrderedSet

end WayDisplays.Lib
