/- Assignments carried out one after the other, and what the last one to a place leaves there. -/

import Mathlib.Logic.Function.Basic

set_option autoImplicit false
set_option relaxedAutoImplicit false

namespace WayDisplays.Lib.Assign

universe u v

variable {ι : Type u} {α : Type v} [DecidableEq ι]

def run (store : ι → α) (assignments : List (ι × α)) : ι → α :=
  assignments.foldl (fun s a => Function.update s a.1 a.2) store

/-- What was last assigned to a place. -/
def last (i : ι) (assignments : List (ι × α)) : Option α :=
  ((assignments.filter (fun a => decide (a.1 = i))).getLast?).map Prod.snd

@[simp] theorem run_nil (store : ι → α) : run store [] = store := rfl

theorem run_cons (store : ι → α) (a : ι × α) (assignments : List (ι × α)) :
    run store (a :: assignments) = run (Function.update store a.1 a.2) assignments := rfl

theorem run_append (store : ι → α) (as bs : List (ι × α)) :
    run store (as ++ bs) = run (run store as) bs := List.foldl_append

@[simp] theorem last_nil (i : ι) : last i ([] : List (ι × α)) = none := rfl

theorem last_cons (i : ι) (a : ι × α) (assignments : List (ι × α)) :
    last i (a :: assignments) =
      (last i assignments).or (if a.1 = i then some a.2 else none) := by
  unfold last
  by_cases h : a.1 = i
  · rw [List.filter_cons_of_pos (by simpa using h), List.getLast?_cons, if_pos h]
    cases List.getLast? _ <;> rfl
  · rw [List.filter_cons_of_neg (by simpa using h), if_neg h, Option.or_none]

theorem last_append (i : ι) (as bs : List (ι × α)) :
    last i (as ++ bs) = (last i bs).or (last i as) := by
  induction as with
  | nil => simp
  | cons a as ih => rw [List.cons_append, last_cons, ih, last_cons, Option.or_assoc]

/-- Where each place is assigned to once, that assignment is the last. -/
theorem last_eq_some_iff {assignments : List (ι × α)} (h : (assignments.map Prod.fst).Nodup)
    {i : ι} {a : α} : last i assignments = some a ↔ (i, a) ∈ assignments := by
  induction assignments generalizing a with
  | nil => simp
  | cons b assignments ih =>
    obtain ⟨hnew, hrest⟩ := List.nodup_cons.mp h
    rw [last_cons, List.mem_cons, Prod.ext_iff]
    by_cases hb : b.1 = i
    · have habsent (c : α) : (i, c) ∉ assignments := fun hc =>
        hnew (hb ▸ List.mem_map_of_mem (f := Prod.fst) hc)
      have hnone : last i assignments = none :=
        Option.eq_none_iff_forall_ne_some.mpr fun c hc => habsent c ((ih hrest).mp hc)
      simp [hnone, habsent, hb, eq_comm]
    · rw [if_neg hb, Option.or_none, ih hrest]
      simp [Ne.symm hb]

/-- A place holds what was last assigned to it, or what it held before. -/
theorem run_apply (store : ι → α) (assignments : List (ι × α)) (i : ι) :
    run store assignments i = (last i assignments).getD (store i) := by
  induction assignments generalizing store with
  | nil => rfl
  | cons a assignments ih =>
    rw [run_cons, ih, last_cons]
    by_cases h : a.1 = i
    · subst h
      cases last a.1 assignments <;> simp
    · rw [if_neg h, Option.or_none, Function.update_of_ne (Ne.symm h)]

/-- It is as it was exactly if the last assignment put that there. -/
theorem run_apply_eq_iff {store : ι → α} {assignments : List (ι × α)} {i : ι} :
    run store assignments i = store i ↔ ∀ a, last i assignments = some a → store i = a := by
  rw [run_apply]
  cases last i assignments with
  | none => simp
  | some a => simp [eq_comm]

end WayDisplays.Lib.Assign
