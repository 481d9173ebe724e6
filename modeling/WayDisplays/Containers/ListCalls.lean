/- Whatever calls are made on lists, they are answered as lists answer them, sorts and loops that
remove what they come to among them. -/

import Mathlib.Logic.Function.Basic
import WayDisplays.Containers.Lists
import WayDisplays.Lib.Calls

set_option autoImplicit false
set_option relaxedAutoImplicit false

namespace WayDisplays.Containers.ListCalls

open Model (plistSort)
open Model.Containers Containers.Lists

/-- A call on a list of some name, which may take the values of another. -/
inductive Call (ι α : Type) where
  | insert (at_ : ι) (index : Nat) (val : Option α)
  | append (at_ : ι) (val : Option α)
  | removeAt (at_ : ι) (i : Nat)
  | remove (at_ : ι) (val : Option α)
  | removeAll (at_ : ι)
  | indexOf (at_ : ι) (val : Option α)
  | find (at_ : ι) (passes : Option α → Bool)
  | appendAll (at_ from_ : ι)
  | removeEach (at_ : ι) (passes : Option α → Bool)
  | sort (at_ : ι) (lessThan : Option α → Option α → Bool)

inductive Answer (α : Type) where
  | pointer (val : Option α)
  | pointers (vals : List (Option α))
  | index (i : Option Nat)
  | flag (b : Bool)
  | count (n : Nat)
  | done

variable {ι α : Type} [DecidableEq ι]

def call (lists : ι → Plist α) : Call ι α → Option ((ι → Plist α) × Answer α)
  | .insert i index val => do
    let (list, inserted) ← (lists i).insert index val
    some (Function.update lists i list, .flag inserted)
  | .append i val => do
    let (list, inserted) ← (lists i).insert (lists i).size val
    some (Function.update lists i list, .flag inserted)
  | .removeAt i n => do
    let (list, old) ← (lists i).removeAt n
    some (Function.update lists i list, .pointer old)
  | .remove i val => do
    let (list, old) ← (lists i).remove val
    some (Function.update lists i list, .pointer old)
  | .removeAll i => do
    let (list, n) ← (lists i).removeAll
    some (Function.update lists i list, .count n)
  | .indexOf i val => do
    let n ← (lists i).indexOf val
    some (lists, .index n)
  | .find i passes => do
    let val ← (lists i).find passes
    some (lists, .pointer val)
  | .appendAll i j => do
    let (list, n) ← Plist.appendAll (lists j) (lists j).size 0 (lists i, 0)
    some (Function.update lists i list, .count n)
  | .removeEach i passes => do
    let (list, vals) ← It.each (Plist.itNext passes) Plist.itRemove (fun _ => true)
      ((lists i).size + 1) (lists i) (It.init none)
    some (Function.update lists i list, .pointers vals)
  | .sort i lessThan => do
    let list ← (lists i).sort lessThan
    some (Function.update lists i list, .done)

def Legal : Call ι α → Prop
  | .appendAll i j => i ≠ j
  | _ => True

/-! ### Lists -/

/-- A list that may or may not hold null values, with how they are compared. -/
structure Abstract (α : Type) where
  vals : List (Option α)
  allowNullVal : Bool
  equalVal : Option α → Option α → Bool

namespace Abstract

def storable (l : Abstract α) (val : Option α) : Bool := val.isSome || l.allowNullVal

def insert (l : Abstract α) (index : Nat) (val : Option α) : Abstract α :=
  { l with vals := if l.storable val then l.vals.insertIdx (min index l.vals.length) val
    else l.vals }

def indexOf (l : Abstract α) (val : Option α) : Option Nat :=
  if l.storable val then l.vals.findIdx? (fun v => l.equalVal v val) else none

def removeAt (l : Abstract α) : Option Nat → Abstract α
  | some i => { l with vals := l.vals.eraseIdx i }
  | none => l

def at? (l : Abstract α) : Option Nat → Option α
  | some i => l.vals[i]?.join
  | none => none

end Abstract

def next (ls : ι → Abstract α) : Call ι α → ι → Abstract α
  | .insert i index val => Function.update ls i ((ls i).insert index val)
  | .append i val => Function.update ls i ((ls i).insert (ls i).vals.length val)
  | .removeAt i n => Function.update ls i ((ls i).removeAt (some n))
  | .remove i val => Function.update ls i ((ls i).removeAt ((ls i).indexOf val))
  | .removeAll i => Function.update ls i { ls i with vals := [] }
  | .indexOf _ _ => ls
  | .find _ _ => ls
  | .appendAll i j => Function.update ls i
    { ls i with vals := (ls i).vals ++ (ls j).vals.filter (ls i).storable }
  | .removeEach i passes => Function.update ls i
    { ls i with vals := (ls i).vals.filter (fun val => !passes val) }
  | .sort i lessThan => Function.update ls i { ls i with vals := plistSort (ls i).vals lessThan }

def answer (ls : ι → Abstract α) : Call ι α → Answer α
  | .insert i _ val => .flag ((ls i).storable val)
  | .append i val => .flag ((ls i).storable val)
  | .removeAt i n => .pointer ((ls i).at? (some n))
  | .remove i val => .pointer ((ls i).at? ((ls i).indexOf val))
  | .removeAll i => .count (ls i).vals.length
  | .indexOf i val => .index ((ls i).indexOf val)
  | .find i passes => .pointer ((ls i).vals.find? passes).join
  | .appendAll i j => .count ((ls j).vals.filter (ls i).storable).length
  | .removeEach i passes => .pointers ((ls i).vals.filter passes)
  | .sort _ _ => .done

/-! ### Calls refine -/

structure Stands (list : Plist α) (l : Abstract α) : Prop where
  represents : Represents list l.vals
  allowNullVal : list.params.allowNullVal = l.allowNullVal
  equalVal : list.params.equalVal = l.equalVal

def AllStand (lists : ι → Plist α) (ls : ι → Abstract α) : Prop := ∀ i, Stands (lists i) (ls i)

theorem Stands.storable {list : Plist α} {l : Abstract α} (h : Stands list l) (val : Option α) :
    list.storable val = l.storable val := by
  rw [Plist.storable, Abstract.storable, h.allowNullVal]

theorem Stands.indexOf {list : Plist α} {l : Abstract α} (h : Stands list l) (val : Option α) :
    list.indexOf val = some (l.indexOf val) := by
  rw [indexOf_represents h.represents, h.storable, h.equalVal, Abstract.indexOf]

theorem Stands.of_params {list list' : Plist α} {l : Abstract α} {xs : List (Option α)}
    (h : Stands list l) (hparams : list'.params = list.params) (hrepresents : Represents list' xs) :
    Stands list' { l with vals := xs } :=
  ⟨hrepresents, hparams ▸ h.allowNullVal, hparams ▸ h.equalVal⟩

theorem AllStand.update {lists : ι → Plist α} {ls : ι → Abstract α} (h : AllStand lists ls)
    {i : ι} {list : Plist α} {l : Abstract α} (hi : Stands list l) :
    AllStand (Function.update lists i list) (Function.update ls i l) := by
  intro j
  by_cases hj : j = i
  · subst hj
    rwa [Function.update_self, Function.update_self]
  · rw [Function.update_of_ne hj, Function.update_of_ne hj]
    exact h j

theorem insert_stands {list : Plist α} {l : Abstract α} (h : Stands list l) (index : Nat)
    (val : Option α) : ∃ list', list.insert index val = some (list', l.storable val) ∧
      Stands list' (l.insert index val) := by
  obtain ⟨list', hinsert, hrepresents, hparams⟩ := insert_represents h.represents index val
  rw [h.storable] at hinsert hrepresents
  exact ⟨list', hinsert, h.of_params hparams hrepresents⟩

theorem removeAt_stands {list : Plist α} {l : Abstract α} (h : Stands list l) (n : Nat) :
    ∃ list', list.removeAt n = some (list', l.at? (some n)) ∧
      Stands list' (l.removeAt (some n)) := by
  obtain ⟨list', hremove, hrepresents, hparams⟩ := removeAt_represents h.represents n
  exact ⟨list', hremove, h.of_params hparams hrepresents⟩

theorem remove_stands {list : Plist α} {l : Abstract α} (h : Stands list l) (val : Option α) :
    ∃ list', list.remove val = some (list', l.at? (l.indexOf val)) ∧
      Stands list' (l.removeAt (l.indexOf val)) := by
  rw [Plist.remove, h.indexOf]
  cases l.indexOf val with
  | none => exact ⟨list, rfl, h⟩
  | some n => exact removeAt_stands h n

theorem call_refines : Lib.Calls.Refines (@call ι α _) next
    (fun ls c a => a = answer ls c) AllStand Legal where
  step := by
    intro lists ls c h hlegal
    cases c with
    | insert i index val =>
      obtain ⟨list', hinsert, hstands⟩ := insert_stands (h i) index val
      refine ⟨Function.update lists i list', _, ?_, rfl, h.update hstands⟩
      rw [call, hinsert]
      rfl
    | append i val =>
      obtain ⟨list', hinsert, hstands⟩ := insert_stands (h i) (lists i).size val
      rw [(h i).represents.size] at hstands
      refine ⟨Function.update lists i list', _, ?_, rfl, h.update hstands⟩
      rw [call, hinsert]
      rfl
    | removeAt i n =>
      obtain ⟨list', hremove, hstands⟩ := removeAt_stands (h i) n
      refine ⟨Function.update lists i list', _, ?_, rfl, h.update hstands⟩
      rw [call, hremove]
      rfl
    | remove i val =>
      obtain ⟨list', hremove, hstands⟩ := remove_stands (h i) val
      refine ⟨Function.update lists i list', _, ?_, rfl, h.update hstands⟩
      rw [call, hremove]
      rfl
    | removeAll i =>
      obtain ⟨list', hremove, hrepresents, hparams⟩ := removeAll_represents (h i).represents
      refine ⟨Function.update lists i list', _, ?_, rfl,
        h.update ((h i).of_params hparams hrepresents)⟩
      rw [call, hremove]
      rfl
    | indexOf i val =>
      refine ⟨lists, _, ?_, rfl, h⟩
      rw [call, (h i).indexOf]
      rfl
    | find i passes =>
      refine ⟨lists, _, ?_, rfl, h⟩
      rw [call, find_represents (h i).represents]
      rfl
    | appendAll i j =>
      have hkept : (ls j).vals.filter (lists i).storable = (ls j).vals.filter (ls i).storable :=
        List.filter_congr fun val _ => (h i).storable val
      obtain ⟨list', hall, hrepresents, hparams⟩ := @appendAll_loop α (lists i) _ _
        (h j).represents (ls j).vals [] (lists i) _ 0 rfl (h i).represents rfl
      rw [hkept, Nat.zero_add, ← (h j).represents.size] at hall
      rw [hkept] at hrepresents
      refine ⟨Function.update lists i list', _, ?_, rfl,
        h.update ((h i).of_params hparams hrepresents)⟩
      rw [call]
      simp only [List.length_nil] at hall
      rw [hall]
      rfl
    | removeEach i passes =>
      obtain ⟨list', heach, hrepresents, hparams⟩ :=
        each_remove_represents (h i).represents passes
      rw [← (h i).represents.size] at heach
      refine ⟨Function.update lists i list', _, ?_, rfl,
        h.update ((h i).of_params hparams hrepresents)⟩
      rw [call, heach]
      rfl
    | sort i lessThan =>
      obtain ⟨list', hsort, hrepresents, hparams⟩ := sort_represents (h i).represents lessThan
      refine ⟨Function.update lists i list', _, ?_, rfl,
        h.update ((h i).of_params hparams hrepresents)⟩
      rw [call, hsort]
      rfl

/-- Lists of any parameters, from when they are made: no call accesses memory beyond a block, and
each is answered as lists answer it. -/
theorem listCalls_answered (params : ι → PlistParams α)
    (hparams : ∀ i val, (params i).allocVal val = val) (calls : List (Call ι α))
    (hlegal : ∀ c ∈ calls, Legal c) :
    ∃ lists answers, Lib.Calls.run call (fun i => Plist.init (params i)) calls =
        some (lists, answers) ∧
      Lib.Calls.Answered next (fun ls c a => a = answer ls c)
        (fun i => ⟨[], (params i).allowNullVal, (params i).equalVal⟩) calls answers ∧
      AllStand lists
        (calls.foldl next (fun i => ⟨[], (params i).allowNullVal, (params i).equalVal⟩)) :=
  call_refines.run (fun i => ⟨represents_init (hparams i), rfl, rfl⟩) calls hlegal

/-- A list of numbers that is added to another, sorted and thinned out. -/
theorem listCalls_answered_sorted :
    ∃ lists answers, Lib.Calls.run call
        (fun _ => Plist.init ⟨fun a b => a == b, id, false, 1, 1⟩)
        ([.append true (some 3), .append true (some 1), .append true none, .appendAll false true,
          .sort false (fun a b => a.getD 0 < b.getD 0),
          .removeEach false (fun a => a == some 1)] : List (Call Bool Nat)) =
        some (lists, answers) ∧
      Lib.Calls.Answered next (fun ls c a => a = answer ls c)
        (fun _ => ⟨[], false, fun a b => a == b⟩)
        ([.append true (some 3), .append true (some 1), .append true none, .appendAll false true,
          .sort false (fun a b => a.getD 0 < b.getD 0),
          .removeEach false (fun a => a == some 1)] : List (Call Bool Nat)) answers ∧
      AllStand lists
        (([.append true (some 3), .append true (some 1), .append true none, .appendAll false true,
          .sort false (fun a b => a.getD 0 < b.getD 0),
          .removeEach false (fun a => a == some 1)] : List (Call Bool Nat)).foldl next
            (fun _ => ⟨[], false, fun a b => a == b⟩)) :=
  listCalls_answered (fun _ => ⟨fun a b => a == b, id, false, 1, 1⟩) (fun _ _ => rfl) _ (by
    simp [Legal])

end WayDisplays.Containers.ListCalls
