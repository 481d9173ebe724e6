/- A list of pointers holds a list at the front of its block, and is sorted in place. -/

import WayDisplays.Containers.Freeing
import WayDisplays.Containers.Iterators

set_option autoImplicit false
set_option relaxedAutoImplicit false

namespace WayDisplays.Containers.Lists

open Lib (Block ShellSort.Sorted ShellSort.StrictWeak)
open Model (gaps plistSort plistSort_perm)
open Model.Containers Freeing

variable {α : Type}

/-- The values lie at the front of the block; a copy is as good as what was copied. -/
structure Represents (list : Plist α) (xs : List (Option α)) : Prop where
  allocVal : ∀ val, list.params.allocVal val = val
  vals : xs <+: list.vals
  size : list.size = xs.length
  capacity : list.vals.length = list.capacity
  storable : ∀ val ∈ xs, list.storable val = true

variable {list : Plist α} {xs : List (Option α)}

theorem represents_init {params : PlistParams α} (h : ∀ val, params.allocVal val = val) :
    Represents (Plist.init params) [] where
  allocVal := h
  vals := List.nil_prefix
  size := rfl
  capacity := List.length_replicate
  storable := fun _ hmem => absurd hmem List.not_mem_nil

theorem load_eq (h : Represents list xs) (i : Nat) (hi : i < xs.length) :
    list.vals.load i = some xs[i] := Block.load_of_prefix h.vals hi

/-! ### Inserting -/

theorem growBlock_represents (h : Represents list xs) :
    ∃ list', list.growBlock = some list' ∧ Represents list' xs ∧
      list.capacity < list'.capacity ∧ list'.params = list.params := by
  have hgrown : list.capacity < grownCapacity list.capacity list.params.grow := by
    unfold grownCapacity defaultGrow
    split <;> omega
  set capacity := grownCapacity list.capacity list.params.grow with hcapacity
  have hroom : list.vals.length ≤ capacity := by
    rw [h.capacity]
    exact le_of_lt hgrown
  obtain ⟨vals, hvals, hprefix, hlength⟩ := Block.copy_of_prefix h.vals hroom
  rw [h.capacity, hcapacity] at hvals
  refine ⟨{ list with vals := vals, capacity := capacity }, ?_, ?_, hgrown, rfl⟩
  · rw [Plist.growBlock]
    simp only [hvals, Option.bind_eq_bind, Option.bind_some]
    rfl
  · exact { h with vals := hprefix, capacity := hlength }

theorem room_represents (h : Represents list xs) :
    ∃ list', list.room = some list' ∧ Represents list' xs ∧ xs.length < list'.capacity ∧
      list'.params = list.params := by
  by_cases hfull : list.capacity ≤ list.size
  · obtain ⟨list', hgrow, hrepresents, hgrown, hparams⟩ := growBlock_represents h
    have hfits : list.size ≤ list.capacity := by
      rw [h.size, ← h.capacity]
      exact h.vals.length_le
    refine ⟨list', ?_, hrepresents, by rw [← h.size]; omega, hparams⟩
    rw [Plist.room, if_pos hfull, hgrow]
  · exact ⟨list, if_neg hfull, h, by rw [← h.size]; omega, rfl⟩

/-- A value goes where the index says, or to the end. -/
theorem insert_represents (h : Represents list xs) (index : Nat) (val : Option α) :
    ∃ list', list.insert index val = some (list', list.storable val) ∧
      Represents list' (if list.storable val then xs.insertIdx (min index xs.length) val else xs) ∧
      list'.params = list.params := by
  by_cases hval : list.storable val = true
  · obtain ⟨list', hroom, hrepresents, hlt, hparams⟩ := room_represents h
    have hindex : (if list.size < index then list.size else index) = min index xs.length := by
      rw [h.size]
      split <;> omega
    have hle : min index xs.length ≤ xs.length := Nat.min_le_right _ _
    generalize min index xs.length = place at hindex hle ⊢
    obtain ⟨b, vals, hshift, hstore, hprefix, hlength⟩ := Block.shiftUp_of_prefix hrepresents.vals
      (by rw [hrepresents.capacity]; exact hlt) hle val
    rw [← hrepresents.size] at hshift
    refine ⟨{ list' with vals := vals, size := list'.size + 1 }, ?_, ?_, hparams⟩
    · rw [Plist.insert, h.allocVal, hindex]
      simp only [hval, Bool.not_true, Bool.false_eq_true, if_false, hroom, hshift, hstore,
        Option.bind_eq_bind, Option.bind_some]
    · rw [if_pos hval]
      exact {
        allocVal := hrepresents.allocVal
        vals := hprefix
        size := by
          rw [List.length_insertIdx_of_le_length hle, hrepresents.size]
        capacity := hlength.trans hrepresents.capacity
        storable := by
          intro w hw
          rcases (List.mem_insertIdx hle).mp hw with hnew | hw
          · rw [hnew]
            simpa only [Plist.storable, hparams] using hval
          · exact hrepresents.storable w hw }
  · rw [Bool.not_eq_true] at hval
    refine ⟨list, ?_, by simpa [hval] using h, rfl⟩
    rw [Plist.insert, hval]
    rfl

theorem append_represents (h : Represents list xs) (val : Option α) :
    ∃ list', list.insert list.size val = some (list', list.storable val) ∧
      Represents list' (xs ++ if list.storable val then [val] else []) ∧
      list'.params = list.params := by
  obtain ⟨list', hinsert, hrepresents, hparams⟩ := insert_represents h list.size val
  refine ⟨list', hinsert, ?_, hparams⟩
  rw [h.size, Nat.min_self, List.insertIdx_length_self] at hrepresents
  by_cases hval : list.storable val = true
  · rwa [if_pos hval] at hrepresents ⊢
  · rw [if_neg hval] at hrepresents ⊢
    rwa [List.append_nil]

theorem appendAll_loop {source : Plist α} {ys : List (Option α)} (hsource : Represents source ys)
    (rest : List (Option α)) :
    ∀ (seen : List (Option α)) (listNow : Plist α) (xsNow : List (Option α)) (n : Nat),
      ys = seen ++ rest → Represents listNow xsNow → listNow.params = list.params →
      ∃ list', Plist.appendAll source rest.length seen.length (listNow, n) =
          some (list', n + (rest.filter list.storable).length) ∧
        Represents list' (xsNow ++ rest.filter list.storable) ∧ list'.params = list.params := by
  induction rest with
  | nil =>
    intro seen listNow xsNow n _ h hparams
    exact ⟨listNow, rfl, by rwa [List.filter_nil, List.append_nil], hparams⟩
  | cons val rest ih =>
    intro seen listNow xsNow n hys h hparams
    have hstorable : listNow.storable val = list.storable val := by
      rw [Plist.storable, Plist.storable, hparams]
    have hload : source.vals.load seen.length = some val := by
      have hlt : seen.length < ys.length := by
        rw [hys, List.length_append, List.length_cons]
        omega
      rw [load_eq hsource _ hlt]
      simp [hys]
    obtain ⟨list₁, hinsert, h₁, hparams₁⟩ := append_represents h val
    rw [hstorable] at hinsert h₁
    obtain ⟨list', hrest, h', hparams'⟩ := ih (seen ++ [val]) list₁ _
      (if list.storable val then n + 1 else n)
      (by rw [hys, List.append_assoc, List.singleton_append]) h₁ (hparams₁.trans hparams)
    rw [List.length_append, List.length_singleton] at hrest
    refine ⟨list', ?_, ?_, hparams'⟩
    · rw [List.length_cons, Plist.appendAll]
      simp only [hload, hinsert, hrest, Option.bind_eq_bind, Option.bind_some]
      by_cases hval : list.storable val = true
      · rw [if_pos hval, List.filter_cons_of_pos hval, List.length_cons, Nat.add_right_comm,
          Nat.add_assoc]
      · rw [if_neg hval, List.filter_cons_of_neg hval]
    · rw [List.append_assoc] at h'
      by_cases hval : list.storable val = true
      · rwa [if_pos hval, List.singleton_append, ← List.filter_cons_of_pos hval] at h'
      · rwa [if_neg hval, List.nil_append, ← List.filter_cons_of_neg hval] at h'

/-! ### Removing and finding -/

theorem removeAt_represents (h : Represents list xs) (i : Nat) :
    ∃ list', list.removeAt i = some (list', xs[i]?.join) ∧ Represents list' (xs.eraseIdx i) ∧
      list'.params = list.params := by
  by_cases hi : i < xs.length
  · obtain ⟨vals₁, hvals₁, hprefix₁, hlength₁⟩ := Block.store_of_prefix h.vals hi none
    obtain ⟨vals₂, hvals₂, hprefix₂, hlength₂⟩ :=
      Block.shiftDown_of_prefix hprefix₁ (by rwa [List.length_set])
    rw [List.length_set, ← h.size] at hvals₂
    rw [List.eraseIdx_set_eq] at hprefix₂
    refine ⟨{ list with vals := vals₂, size := list.size - 1 }, ?_, ?_, rfl⟩
    · rw [Plist.removeAt, if_neg (by rw [h.size]; omega)]
      simp only [load_eq h i hi, hvals₁, hvals₂, Option.bind_eq_bind, Option.bind_some,
        List.getElem?_eq_getElem hi, Option.join_some]
    · exact {
        allocVal := h.allocVal
        vals := hprefix₂
        size := by rw [List.length_eraseIdx_of_lt hi, ← h.size]
        capacity := hlength₂.trans (hlength₁.trans h.capacity)
        storable := fun val hval => h.storable val (List.mem_of_mem_eraseIdx hval) }
  · refine ⟨list, ?_, ?_, rfl⟩
    · rw [Plist.removeAt, if_pos (by rw [h.size]; omega), List.getElem?_eq_none (by omega)]
      rfl
    · rwa [List.eraseIdx_of_length_le (by omega)]

theorem removeAll_represents (h : Represents list xs) :
    ∃ list', list.removeAll = some (list', xs.length) ∧ Represents list' [] ∧
      list'.params = list.params := by
  have hfits : list.size ≤ list.vals.length := by
    rw [h.size]
    exact h.vals.length_le
  obtain ⟨vals, hvals, hlength⟩ := Block.clear_of_le hfits
  refine ⟨{ list with vals := vals, size := 0 }, ?_, ?_, rfl⟩
  · rw [Plist.removeAll, ← h.size]
    simp only [hvals, Option.bind_eq_bind, Option.bind_some]
  · exact { (represents_init h.allocVal) with
      vals := List.nil_prefix
      size := rfl
      capacity := hlength.trans h.capacity
      storable := fun _ hmem => absurd hmem List.not_mem_nil }

theorem find_represents (h : Represents list xs) (passes : Option α → Bool) :
    list.find passes = some (xs.find? passes).join := by
  have hsearch := Block.search_of_prefix h.vals passes
  rw [← h.size] at hsearch
  rw [Plist.find, hsearch]
  cases hfind : xs.findIdx? passes with
  | none =>
    have hnone : xs.find? passes = none :=
      List.find?_eq_none.mpr fun x hx => by simp [List.findIdx?_eq_none_iff.mp hfind x hx]
    rw [hnone]
    rfl
  | some i =>
    obtain ⟨hi, hpass, hbefore⟩ := List.findIdx?_eq_some_iff_getElem.mp hfind
    have hfound : xs.find? passes = some xs[i] :=
      List.find?_eq_some_iff_getElem.mpr
        ⟨hpass, i, hi, rfl, fun j hj => by simpa using hbefore j hj⟩
    rw [hfound]
    exact load_eq h i hi

theorem indexOf_represents (h : Represents list xs) (val : Option α) :
    list.indexOf val =
      some (if list.storable val then xs.findIdx? (fun v => list.params.equalVal v val)
        else none) := by
  have hsearch := Block.search_of_prefix h.vals (fun v => list.params.equalVal v val)
  rw [← h.size] at hsearch
  rw [Plist.indexOf, hsearch]
  cases list.storable val <;> rfl

theorem freeVals_represents [DecidableEq α] (h : Represents list xs) :
    ∃ f, freeVals list.vals list.size 0 (freedInit list.size) = some f ∧ FreedOf xs f := by
  rw [h.size]
  exact freeVals_freedOf h.vals

/-! ### Loops around iterators -/

theorem iterable (params : PlistParams α) (passes : Option α → Bool) :
    Iterators.Iterable (Plist.itNext passes) Plist.itRemove passes none
      (fun list xs => Represents list xs ∧ list.params = params) where
  next := by
    intro list xs it h
    have hnext := Iterators.next_eq (load_eq h.1) passes it
    rwa [← h.1.size] at hnext
  remove := by
    intro list xs it h _
    obtain ⟨list', hremove, hrepresents, hparams⟩ := removeAt_represents h.1 it.position
    refine ⟨list', ?_, hrepresents, hparams.trans h.2⟩
    rw [Plist.itRemove, hremove]
    rfl

/-- The loop that takes out whatever passes, as it comes to it. -/
theorem each_remove_represents (h : Represents list xs) (passes : Option α → Bool) :
    ∃ list', It.each (Plist.itNext passes) Plist.itRemove (fun _ => true) (xs.length + 1) list
        (It.init none) = some (list', xs.filter passes) ∧
      Represents list' (xs.filter (fun val => !passes val)) ∧ list'.params = list.params := by
  have heach := (iterable list.params passes).each_init (fun _ => true) ⟨h, rfl⟩
  simpa only [Bool.and_true] using heach

/-! ### Sorting -/

theorem sink_represents (lessThan : Option α → Option α → Bool) (gap : Nat) (tmp : Option α)
    (fuel : Nat) : ∀ (j : Nat) (xs : List (Option α)) (b : Block α), xs <+: b → j < xs.length →
      ∃ b', Plist.sink lessThan gap tmp fuel j b = some b' ∧
        Lib.ShellSort.sink lessThan gap tmp fuel j xs <+: b' ∧ b'.length = b.length ∧
        (Lib.ShellSort.sink lessThan gap tmp fuel j xs).length = xs.length := by
  induction fuel with
  | zero =>
    intro j xs b h hj
    obtain ⟨b', hstore, hprefix, hlength⟩ := Block.store_of_prefix h hj tmp
    exact ⟨b', hstore, hprefix, hlength, List.length_set⟩
  | succ fuel ih =>
    intro j xs b h hj
    obtain ⟨last, hstore, hprefix, hlength⟩ := Block.store_of_prefix h hj tmp
    rw [Plist.sink, Lib.ShellSort.sink]
    by_cases hgap : gap ≤ j
    · have hbelow : j - gap < xs.length := by omega
      have hload := Block.load_of_prefix h hbelow
      rw [if_pos hgap, if_pos hgap, List.getElem?_eq_getElem hbelow]
      simp only [hload, Option.bind_eq_bind, Option.bind_some]
      by_cases hless : lessThan tmp xs[j - gap] = true
      · obtain ⟨b₁, hstore₁, hprefix₁, hlength₁⟩ := Block.store_of_prefix h hj xs[j - gap]
        obtain ⟨b', hsink, hprefix', hlength', hcount⟩ :=
          ih (j - gap) (xs.set j xs[j - gap]) b₁ hprefix₁ (by rwa [List.length_set])
        refine ⟨b', ?_, ?_, hlength'.trans hlength₁, ?_⟩
        · rw [if_pos hless, hstore₁, Option.bind_some, hsink]
        · rwa [if_pos hless]
        · rw [if_pos hless, hcount, List.length_set]
      · rw [if_neg hless, if_neg hless]
        exact ⟨last, hstore, hprefix, hlength, List.length_set⟩
    · rw [if_neg hgap, if_neg hgap]
      exact ⟨last, hstore, hprefix, hlength, List.length_set⟩

theorem pass_represents (lessThan : Option α → Option α → Bool) (gap n : Nat) :
    ∀ (i : Nat) (xs : List (Option α)) (b : Block α), xs <+: b → i + n ≤ xs.length →
      ∃ b', Plist.pass lessThan gap n i b = some b' ∧
        (List.range' i n).foldl (fun vals i => Lib.ShellSort.insertAt lessThan gap i vals) xs <+:
          b' ∧ b'.length = b.length := by
  induction n with
  | zero => exact fun i xs b h _ => ⟨b, rfl, h, rfl⟩
  | succ n ih =>
    intro i xs b h hi
    have hlt : i < xs.length := by omega
    obtain ⟨b₁, hsink, hprefix₁, hlength₁, hcount⟩ :=
      sink_represents lessThan gap xs[i] i i xs b h hlt
    have hinsert : Lib.ShellSort.insertAt lessThan gap i xs =
        Lib.ShellSort.sink lessThan gap xs[i] i i xs := by
      rw [Lib.ShellSort.insertAt, List.getElem?_eq_getElem hlt]
    obtain ⟨b', hpass, hprefix', hlength'⟩ := ih (i + 1) _ b₁ hprefix₁ (by rw [hcount]; omega)
    refine ⟨b', ?_, ?_, hlength'.trans hlength₁⟩
    · rw [Plist.pass]
      simp only [Block.load_of_prefix h hlt, hsink, hpass, Option.bind_eq_bind, Option.bind_some]
    · rwa [List.range'_succ, List.foldl_cons, hinsert]

theorem passes_represents (lessThan : Option α → Option α → Bool) (size : Nat) (gs : List Nat) :
    (∀ gap ∈ gs, 0 < gap) → ∀ (xs : List (Option α)) (b : Block α), xs <+: b → size = xs.length →
      ∃ b', gs.foldlM (fun vals gap => Plist.pass lessThan gap (size - gap) gap vals) b = some b' ∧
        Lib.ShellSort.sort lessThan gs xs <+: b' ∧ b'.length = b.length := by
  induction gs with
  | nil => exact fun _ xs b h _ => ⟨b, rfl, h, rfl⟩
  | cons gap gs ih =>
    intro hpos xs b h hsize
    have hperm := Lib.ShellSort.pass_perm lessThan (hpos gap List.mem_cons_self) xs
    by_cases hgap : gap ≤ size
    · obtain ⟨b₁, hpass, hprefix₁, hlength₁⟩ :=
        pass_represents lessThan gap (size - gap) gap xs b h (by omega)
      rw [hsize] at hprefix₁
      obtain ⟨b', hrest, hprefix', hlength'⟩ :=
        ih (fun g hg => hpos g (List.mem_cons_of_mem gap hg)) _ b₁ hprefix₁
          (hsize.trans hperm.length_eq.symm)
      refine ⟨b', ?_, hprefix', hlength'.trans hlength₁⟩
      rw [List.foldlM_cons, hpass]
      exact hrest
    · have hzero : size - gap = 0 := by omega
      have hsame : Lib.ShellSort.pass lessThan gap xs = xs := by
        rw [Lib.ShellSort.pass, ← hsize, hzero]
        rfl
      obtain ⟨b', hrest, hprefix', hlength'⟩ :=
        ih (fun g hg => hpos g (List.mem_cons_of_mem gap hg)) xs b h hsize
      refine ⟨b', ?_, ?_, hlength'⟩
      · rw [List.foldlM_cons, hzero]
        exact hrest
      · rw [Lib.ShellSort.sort, List.foldl_cons, hsame]
        exact hprefix'

/-- Sorting in place moves values about, within the block, as the sort of the list does. -/
theorem sort_represents (h : Represents list xs) (lessThan : Option α → Option α → Bool) :
    ∃ list', list.sort lessThan = some list' ∧ Represents list' (plistSort xs lessThan) ∧
      list'.params = list.params := by
  obtain ⟨vals, hvals, hprefix, hlength⟩ :=
    passes_represents lessThan list.size gaps Model.gaps_pos xs list.vals h.vals h.size
  have hperm := plistSort_perm xs lessThan
  refine ⟨{ list with vals := vals }, ?_, ?_, rfl⟩
  · rw [Plist.sort, hvals]
    rfl
  · exact {
      allocVal := h.allocVal
      vals := hprefix
      size := h.size.trans hperm.length_eq.symm
      capacity := hlength.trans h.capacity
      storable := fun val hval => h.storable val (hperm.mem_iff.mp hval) }

end WayDisplays.Containers.Lists
