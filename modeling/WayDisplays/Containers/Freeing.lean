/- Values that are freed once each, however often they are come by. -/

import WayDisplays.Model.Containers

set_option autoImplicit false
set_option relaxedAutoImplicit false

namespace WayDisplays.Containers.Freeing

open Lib (Block)
open Model.Containers

variable {ν : Type} [DecidableEq ν]

/-- Some pointers were freed, each once and in the order in which they were come by. -/
structure FreedOf (olds : List (Option ν)) (f : Freed ν) : Prop where
  calls : f.calls.map some <+: f.freed
  nf : f.nf = f.calls.length
  nodup : f.calls.Nodup
  mem : ∀ val, val ∈ f.calls ↔ some val ∈ olds
  le : f.calls.length ≤ olds.length

omit [DecidableEq ν] in
theorem freedOf_init (size : Nat) : FreedOf [] (freedInit (ν := ν) size) where
  calls := List.nil_prefix
  nf := rfl
  nodup := List.nodup_nil
  mem := fun _ => iff_of_false List.not_mem_nil List.not_mem_nil
  le := Nat.le_refl _

variable {olds : List (Option ν)} {f : Freed ν}

theorem FreedOf.search (h : FreedOf olds f) (val : ν) :
    Block.search (fun x => x == some val) f.freed f.nf 0 =
      some (f.calls.findIdx? (fun v => decide (v = val))) := by
  have hsearch := Block.search_of_prefix h.calls (fun x => x == some val)
  rw [List.length_map, ← h.nf, List.findIdx?_map] at hsearch
  refine hsearch.trans (congrArg (fun p => some (f.calls.findIdx? p)) (funext fun v => ?_))
  rw [Function.comp, Option.some_beq_some]
  rfl

theorem FreedOf.free_of_mem (h : FreedOf olds f) {val : ν} (hval : val ∈ f.calls) :
    f.free val = some f := by
  obtain ⟨i, hi⟩ : ∃ i, f.calls.findIdx? (fun v => decide (v = val)) = some i := by
    rw [← Option.isSome_iff_exists, List.findIdx?_isSome]
    exact List.any_eq_true.mpr ⟨val, hval, decide_eq_true rfl⟩
  rw [Freed.free, h.search, hi]
  rfl

theorem FreedOf.free_of_not_mem (h : FreedOf olds f) (hroom : olds.length < f.freed.length)
    {val : ν} (hval : val ∉ f.calls) :
    ∃ f', f.free val = some f' ∧ FreedOf (olds ++ [some val]) f' ∧
      f'.freed.length = f.freed.length := by
  have hnone : f.calls.findIdx? (fun v => decide (v = val)) = none :=
    List.findIdx?_eq_none_iff.mpr fun w hw => decide_eq_false fun heq => hval (heq ▸ hw)
  have hslot : (f.calls.map some).length < f.freed.length := by
    rw [List.length_map]
    exact lt_of_le_of_lt h.le hroom
  obtain ⟨freed, hstore, hprefix, hlength⟩ := Block.store_snoc h.calls hslot (some val)
  rw [List.length_map, ← h.nf] at hstore
  refine ⟨{ freed := freed, nf := f.nf + 1, calls := f.calls ++ [val] }, ?_, ?_, hlength⟩
  · rw [Freed.free, h.search, hnone]
    simp only [Option.bind_eq_bind, Option.bind_some, hstore]
  · exact {
      calls := by
        rw [List.map_append]
        exact hprefix
      nf := by rw [List.length_append, h.nf, List.length_singleton]
      nodup := by
        refine List.nodup_append.mpr ⟨h.nodup, List.nodup_singleton val, ?_⟩
        rintro a ha b hb rfl
        exact hval (List.mem_singleton.mp hb ▸ ha)
      mem := fun w => by
        rw [List.mem_append, List.mem_append, h.mem, List.mem_singleton, List.mem_singleton,
          Option.some.injEq]
      le := by
        rw [List.length_append, List.length_append]
        exact Nat.add_le_add_right h.le 1 }

theorem FreedOf.step (h : FreedOf olds f) (hroom : olds.length < f.freed.length)
    (old : Option ν) :
    ∃ f', f.freeOld true old = some f' ∧ FreedOf (olds ++ [old]) f' ∧
      f'.freed.length = f.freed.length := by
  have hle : f.calls.length ≤ (olds ++ [old]).length := by
    rw [List.length_append]
    exact le_trans h.le (Nat.le_add_right _ _)
  cases old with
  | none =>
    refine ⟨f, rfl, { h with mem := fun val => ?_, le := hle }, rfl⟩
    rw [h.mem, List.mem_append]
    simp
  | some val =>
    by_cases hval : val ∈ f.calls
    · refine ⟨f, h.free_of_mem hval, { h with mem := fun w => ?_, le := hle }, rfl⟩
      rw [h.mem, List.mem_append, List.mem_singleton]
      constructor
      · exact Or.inl
      · rintro (hw | hw)
        · exact hw
        · exact (h.mem w).mp (Option.some.inj hw ▸ hval)
    · exact h.free_of_not_mem hroom hval

/-- The loop over the values from `i` up, when those before were freed. -/
theorem freeVals_loop {b : Block ν} (rest : List (Option ν)) :
    ∀ (seen : List (Option ν)) (f : Freed ν), seen ++ rest <+: b → FreedOf seen f →
      (seen ++ rest).length = f.freed.length →
      ∃ f', freeVals b rest.length seen.length f = some f' ∧ FreedOf (seen ++ rest) f' := by
  induction rest with
  | nil =>
    intro seen f _ hfreed _
    refine ⟨f, rfl, ?_⟩
    rwa [List.append_nil]
  | cons old rest ih =>
    intro seen f hprefix hfreed hlength
    have hsplit : seen ++ old :: rest = (seen ++ [old]) ++ rest := by
      rw [List.append_assoc, List.singleton_append]
    have hlt : seen.length < (seen ++ old :: rest).length := by
      rw [List.length_append, List.length_cons]
      omega
    have hload : b.load seen.length = some old := by
      refine (Block.load_of_prefix hprefix hlt).trans (congrArg some ?_)
      rw [List.getElem_append_right (Nat.le_refl _)]
      simp only [Nat.sub_self, List.getElem_cons_zero]
    obtain ⟨f₁, hfree, hfreed₁, hlength₁⟩ := hfreed.step (hlength ▸ hlt) old
    have hnext : (seen ++ [old]).length = seen.length + 1 := List.length_append
    obtain ⟨f', hrest, hfreed'⟩ := ih (seen ++ [old]) f₁ (hsplit ▸ hprefix) hfreed₁
      (by rw [← hsplit, hlength, hlength₁])
    rw [hnext] at hrest
    refine ⟨f', ?_, hsplit ▸ hfreed'⟩
    rw [List.length_cons, freeVals]
    simp only [hload, hfree, hrest, Option.bind_eq_bind, Option.bind_some]

/-- A container frees each of its values once, and has room to remember them all. -/
theorem freeVals_freedOf {b : Block ν} {vals : List (Option ν)} (h : vals <+: b) :
    ∃ f, freeVals b vals.length 0 (freedInit vals.length) = some f ∧ FreedOf vals f :=
  freeVals_loop vals [] (freedInit vals.length) h (freedOf_init _) List.length_replicate.symm

end WayDisplays.Containers.Freeing
