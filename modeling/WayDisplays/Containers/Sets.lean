/- A set of pointers holds the values of an ordered set, and keeps within its block. -/

import WayDisplays.Containers.Iterators
import WayDisplays.Lib.OrderedSet

set_option autoImplicit false
set_option relaxedAutoImplicit false

namespace WayDisplays.Containers.Sets

open Lib (Block OrderedSet)
open Model.Containers

variable {α : Type} {eqVal : α → α → Bool}

/-- The values lie at the front of the block; what is behind them is left as it is. -/
structure Represents (set : Pset α) (s : OrderedSet α eqVal) : Prop where
  equalVal : set.params.equalVal = eqVal
  allocVal : ∀ val, set.params.allocVal val = some val
  vals : s.vals.map some <+: set.vals
  size : set.size = s.size
  capacity : set.vals.length = set.capacity

variable {set : Pset α} {s : OrderedSet α eqVal}

theorem length_vals (s : OrderedSet α eqVal) : (s.vals.map some).length = s.size :=
  List.length_map _

theorem represents_init {params : PsetParams α} (h : ∀ val, params.allocVal val = some val) :
    Represents (Pset.init params) (OrderedSet.empty : OrderedSet α params.equalVal) where
  equalVal := rfl
  allocVal := h
  vals := List.nil_prefix
  size := rfl
  capacity := List.length_replicate

theorem position_eq (h : Represents set s) (val : α) :
    set.position val = some (s.vals.findIdx? (fun v => eqVal v val)) := by
  have hsearch := Block.search_of_prefix h.vals
    (fun v => equalPtr set.params.equalVal v (some val))
  rw [length_vals, ← h.size, List.findIdx?_map] at hsearch
  rw [Pset.position, hsearch, h.equalVal]
  rfl

theorem contains_eq (s : OrderedSet α eqVal) (val : α) :
    s.contains val = (s.vals.findIdx? (fun v => eqVal v val)).isSome := by
  rw [OrderedSet.contains, List.findIdx?_isSome]

theorem growBlock_represents (h : Represents set s) :
    ∃ set', set.growBlock = some set' ∧ Represents set' s ∧ set.capacity < set'.capacity := by
  have hgrown : set.capacity < grownCapacity set.capacity set.params.grow := by
    unfold grownCapacity defaultGrow
    split <;> omega
  set capacity := grownCapacity set.capacity set.params.grow with hcapacity
  have hroom : set.vals.length ≤ capacity := by
    rw [h.capacity]
    exact le_of_lt hgrown
  obtain ⟨vals, hvals, hprefix, hlength⟩ := Block.copy_of_prefix h.vals hroom
  rw [h.capacity, hcapacity] at hvals
  refine ⟨{ set with vals := vals, capacity := capacity }, ?_, ?_, hgrown⟩
  · rw [Pset.growBlock]
    simp only [hvals, Option.bind_eq_bind, Option.bind_some]
    rfl
  · exact { h with vals := hprefix, capacity := hlength }

theorem room_represents (h : Represents set s) :
    ∃ set', set.room = some set' ∧ Represents set' s ∧ s.size < set'.capacity := by
  by_cases hfull : set.capacity ≤ set.size
  · obtain ⟨set', hgrow, hrepresents, hgrown⟩ := growBlock_represents h
    have hfits : set.size ≤ set.capacity := by
      have hlength := h.vals.length_le
      rwa [length_vals, ← h.size, h.capacity] at hlength
    refine ⟨set', ?_, hrepresents, by rw [← h.size]; omega⟩
    rw [Pset.room, if_pos hfull, hgrow]
  · exact ⟨set, if_neg hfull, h, by rw [← h.size]; omega⟩

theorem add_represents (h : Represents set s) (val : α) :
    ∃ set', set.add (some val) = some (set', !s.contains val) ∧ Represents set' (s.add val) := by
  rw [Pset.add]
  simp only [position_eq h, Option.bind_eq_bind, Option.bind_some]
  cases hfind : s.vals.findIdx? (fun v => eqVal v val) with
  | some i =>
    have hcontains : s.contains val = true := by rw [contains_eq, hfind]; rfl
    refine ⟨set, by rw [hcontains]; rfl, ?_⟩
    rwa [OrderedSet.add, dif_pos hcontains]
  | none =>
    have hcontains : s.contains val = false := by rw [contains_eq, hfind]; rfl
    have hadd : (s.add val).vals = s.vals ++ [val] := by
      rw [OrderedSet.add, dif_neg (by simp [hcontains])]
    obtain ⟨set', hroom, hrepresents, hlt⟩ := room_represents h
    have hslot : (s.vals.map some).length < set'.vals.length := by
      rwa [length_vals, hrepresents.capacity]
    obtain ⟨vals, hstore, hprefix, hlength⟩ :=
      Block.store_snoc hrepresents.vals hslot (some val)
    rw [length_vals, ← hrepresents.size] at hstore
    refine ⟨{ set' with vals := vals, size := set'.size + 1 }, ?_, ?_⟩
    · simp only [h.allocVal, hroom, hstore, Option.bind_some, hcontains, Bool.not_false]
    · exact { hrepresents with
        vals := by
          rw [hadd, List.map_append]
          exact hprefix
        size := by
          rw [OrderedSet.size, hadd, List.length_append, hrepresents.size]
          rfl
        capacity := hlength.trans hrepresents.capacity }

theorem remove_represents (h : Represents set s) (val : α) :
    ∃ set', set.remove (some val) = some (set', s.vals.find? (fun v => eqVal v val)) ∧
      Represents set' (s.remove val) := by
  rw [Pset.remove]
  simp only [position_eq h, Option.bind_eq_bind, Option.bind_some]
  cases hfind : s.vals.findIdx? (fun v => eqVal v val) with
  | none =>
    have hcontains : s.contains val = false := by rw [contains_eq, hfind]; rfl
    have hnone : s.vals.find? (fun v => eqVal v val) = none :=
      List.find?_eq_none.mpr fun v hv => by simp [List.findIdx?_eq_none_iff.mp hfind v hv]
    refine ⟨set, by rw [hnone], ?_⟩
    rwa [OrderedSet.remove_of_not_contains hcontains]
  | some i =>
    obtain ⟨hi, hpass, hbefore⟩ := List.findIdx?_eq_some_iff_getElem.mp hfind
    have hfound : s.vals.find? (fun v => eqVal v val) = some s.vals[i] :=
      List.find?_eq_some_iff_getElem.mpr
        ⟨hpass, i, hi, rfl, fun j hj => by simpa using hbefore j hj⟩
    have herase : (s.remove val).vals = s.vals.eraseIdx i := by
      have heq : s.vals.eraseP (fun v => eqVal v val) = _ := List.eraseP_eq_eraseIdx
      rw [hfind] at heq
      exact heq
    have hik : i < (s.vals.map some).length := by rwa [List.length_map]
    have hload := Block.load_of_prefix h.vals hik
    rw [List.getElem_map] at hload
    obtain ⟨vals₁, hvals₁, hprefix₁, hlength₁⟩ := Block.store_of_prefix h.vals hik none
    obtain ⟨vals₂, hvals₂, hprefix₂, hlength₂⟩ :=
      Block.shiftDown_of_prefix hprefix₁ (by rwa [List.length_set])
    rw [List.length_set, length_vals, ← h.size] at hvals₂
    rw [List.eraseIdx_set_eq] at hprefix₂
    refine ⟨{ set with vals := vals₂, size := set.size - 1 }, ?_, ?_⟩
    · simp only [hload, hvals₁, hvals₂, Option.bind_some, hfound]
    · exact { h with
        vals := by
          rw [herase, ← List.eraseIdx_map]
          exact hprefix₂
        size := by
          rw [OrderedSet.size, herase, List.length_eraseIdx_of_lt hi, h.size]
          rfl
        capacity := hlength₂.trans (hlength₁.trans h.capacity) }

/-- The old pointers stay in the block, behind the end. -/
theorem removeAll_represents (h : Represents set s) :
    ∃ set', set.removeAll = some (set', s.size) ∧
      Represents set' (OrderedSet.empty : OrderedSet α eqVal) := by
  have hclear : Block.clear set.vals 0 = some set.vals := by
    rw [Block.clear, if_pos (Nat.zero_le _), List.replicate_zero, List.nil_append, List.drop_zero]
  refine ⟨{ set with size := 0 }, ?_, { h with vals := List.nil_prefix, size := rfl }⟩
  rw [Pset.removeAll, ← h.size]
  simp only [hclear, Option.bind_eq_bind, Option.bind_some]

theorem contains_represents (h : Represents set s) (val : α) :
    set.contains (some val) = some (s.contains val) := by
  rw [Pset.contains, position_eq h, contains_eq]
  rfl

theorem load_val {s : OrderedSet α eqVal} (h : Represents set s) {seen rest : List α} {val : α}
    (hvals : s.vals = seen ++ val :: rest) : set.vals.load seen.length = some (some val) := by
  have hlt : seen.length < (s.vals.map some).length := by
    rw [List.length_map, hvals, List.length_append, List.length_cons]
    omega
  rw [Block.load_of_prefix h.vals hlt]
  simp [hvals]

/-! ### Many values at once -/

/-- How many of some values are added, one after the other. -/
def added (s : OrderedSet α eqVal) : List α → Nat
  | [] => 0
  | val :: vals => (if s.contains val then 0 else 1) + added (s.add val) vals

/-- How many of some values are removed, one after the other. -/
def removed (s : OrderedSet α eqVal) : List α → Nat
  | [] => 0
  | val :: vals => (if s.contains val then 1 else 0) + removed (s.remove val) vals

section Loops

variable {eqVal' : α → α → Bool} {source : Pset α} {t : OrderedSet α eqVal'}
  (hsource : Represents source t)

include hsource

theorem addAll_loop (rest : List α) :
    ∀ (seen : List α) (setNow : Pset α) (sNow : OrderedSet α eqVal) (n : Nat),
      t.vals = seen ++ rest → Represents setNow sNow →
      ∃ set', Pset.addAll source rest.length seen.length (setNow, n) =
          some (set', n + added sNow rest) ∧
        Represents set' (rest.foldl OrderedSet.add sNow) := by
  induction rest with
  | nil => exact fun _ setNow _ _ _ h => ⟨setNow, rfl, h⟩
  | cons val rest ih =>
    intro seen setNow sNow n hvals h
    obtain ⟨set₁, hadd, h₁⟩ := add_represents h val
    obtain ⟨set', hrest, h'⟩ := ih (seen ++ [val]) set₁ _
      (n + if sNow.contains val then 0 else 1)
      (by rw [hvals, List.append_assoc, List.singleton_append]) h₁
    rw [List.length_append, List.length_singleton, Nat.add_assoc] at hrest
    refine ⟨set', ?_, h'⟩
    rw [List.length_cons, Pset.addAll, added, ← hrest]
    simp only [load_val hsource hvals, hadd, Option.bind_eq_bind, Option.bind_some]
    cases sNow.contains val <;> rfl

theorem removeIn_loop (rest : List α) :
    ∀ (seen : List α) (setNow : Pset α) (sNow : OrderedSet α eqVal) (n : Nat),
      t.vals = seen ++ rest → Represents setNow sNow →
      ∃ set', Pset.removeIn source rest.length seen.length (setNow, n) =
          some (set', n + removed sNow rest) ∧
        Represents set' (rest.foldl OrderedSet.remove sNow) := by
  induction rest with
  | nil => exact fun _ setNow _ _ _ h => ⟨setNow, rfl, h⟩
  | cons val rest ih =>
    intro seen setNow sNow n hvals h
    obtain ⟨set₁, hremove, h₁⟩ := remove_represents h val
    obtain ⟨set', hrest, h'⟩ := ih (seen ++ [val]) set₁ _
      (n + if sNow.contains val then 1 else 0)
      (by rw [hvals, List.append_assoc, List.singleton_append]) h₁
    rw [List.length_append, List.length_singleton, Nat.add_assoc] at hrest
    have hfound : (sNow.vals.find? (fun v => eqVal v val)).isSome = sNow.contains val := by
      rw [Bool.eq_iff_iff, List.find?_isSome, OrderedSet.contains, List.any_eq_true]
    refine ⟨set', ?_, h'⟩
    rw [List.length_cons, Pset.removeIn, removed, ← hrest]
    simp only [load_val hsource hvals, hremove, Option.bind_eq_bind, Option.bind_some, hfound]
    cases sNow.contains val <;> rfl

theorem addAll_represents (h : Represents set s) :
    ∃ set', Pset.addAll source source.size 0 (set, 0) = some (set', added s t.vals) ∧
      Represents set' (t.vals.foldl OrderedSet.add s) := by
  have hloop := addAll_loop hsource t.vals [] set s 0 rfl h
  rwa [Nat.zero_add, ← OrderedSet.size, ← hsource.size] at hloop

theorem removeIn_represents (h : Represents set s) :
    ∃ set', Pset.removeIn source source.size 0 (set, 0) = some (set', removed s t.vals) ∧
      Represents set' (t.vals.foldl OrderedSet.remove s) := by
  have hloop := removeIn_loop hsource t.vals [] set s 0 rfl h
  rwa [Nat.zero_add, ← OrderedSet.size, ← hsource.size] at hloop

end Loops

end WayDisplays.Containers.Sets
