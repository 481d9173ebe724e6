/- Whatever calls are made on sets, they are answered as ordered sets answer them. -/

import Mathlib.Logic.Function.Basic
import WayDisplays.Containers.Sets
import WayDisplays.Lib.Calls

set_option autoImplicit false
set_option relaxedAutoImplicit false

namespace WayDisplays.Containers.SetCalls

open Lib (OrderedSet)
open Model.Containers Sets

/-- A call on a set of some name, which may take the values of another. -/
inductive Call (ι α : Type) where
  | add (at_ : ι) (val : Option α)
  | remove (at_ : ι) (val : Option α)
  | removeAll (at_ : ι)
  | contains (at_ : ι) (val : Option α)
  | addAll (at_ from_ : ι)
  | removeIn (at_ in_ : ι)

inductive Answer (α : Type) where
  | pointer (val : Option α)
  | flag (b : Bool)
  | count (n : Nat)

variable {ι α : Type} [DecidableEq ι]

def call (sets : ι → Pset α) : Call ι α → Option ((ι → Pset α) × Answer α)
  | .add i val => do
    let (set, added) ← (sets i).add val
    some (Function.update sets i set, .flag added)
  | .remove i val => do
    let (set, old) ← (sets i).remove val
    some (Function.update sets i set, .pointer old)
  | .removeAll i => do
    let (set, n) ← (sets i).removeAll
    some (Function.update sets i set, .count n)
  | .contains i val => do
    let b ← (sets i).contains val
    some (sets, .flag b)
  | .addAll i j => do
    let (set, n) ← Pset.addAll (sets j) (sets j).size 0 (sets i, 0)
    some (Function.update sets i set, .count n)
  | .removeIn i j => do
    let (set, n) ← Pset.removeIn (sets j) (sets j).size 0 (sets i, 0)
    some (Function.update sets i set, .count n)

def Legal : Call ι α → Prop
  | .addAll i j => i ≠ j
  | .removeIn i j => i ≠ j
  | _ => True

variable {eqVal : ι → α → α → Bool}

def next (ss : (i : ι) → OrderedSet α (eqVal i)) : Call ι α → (i : ι) → OrderedSet α (eqVal i)
  | .add _ none => ss
  | .add i (some val) => Function.update ss i ((ss i).add val)
  | .remove _ none => ss
  | .remove i (some val) => Function.update ss i ((ss i).remove val)
  | .removeAll i => Function.update ss i .empty
  | .contains _ _ => ss
  | .addAll i j => Function.update ss i ((ss j).vals.foldl OrderedSet.add (ss i))
  | .removeIn i j => Function.update ss i ((ss j).vals.foldl OrderedSet.remove (ss i))

/-- What ordered sets answer: a null value is never in one. -/
def answer (ss : (i : ι) → OrderedSet α (eqVal i)) : Call ι α → Answer α
  | .add _ none => .flag false
  | .add i (some val) => .flag (!(ss i).contains val)
  | .remove _ none => .pointer none
  | .remove i (some val) => .pointer ((ss i).vals.find? (fun v => eqVal i v val))
  | .removeAll i => .count (ss i).size
  | .contains _ none => .flag false
  | .contains i (some val) => .flag ((ss i).contains val)
  | .addAll i j => .count (added (ss i) (ss j).vals)
  | .removeIn i j => .count (removed (ss i) (ss j).vals)

def AllRepresent (sets : ι → Pset α) (ss : (i : ι) → OrderedSet α (eqVal i)) : Prop :=
  ∀ i, Represents (sets i) (ss i)

theorem AllRepresent.update {sets : ι → Pset α} {ss : (i : ι) → OrderedSet α (eqVal i)}
    (h : AllRepresent sets ss) {i : ι} {set : Pset α} {s : OrderedSet α (eqVal i)}
    (hi : Represents set s) :
    AllRepresent (Function.update sets i set) (Function.update ss i s) := by
  intro j
  by_cases hj : j = i
  · subst hj
    rwa [Function.update_self, Function.update_self]
  · rw [Function.update_of_ne hj, Function.update_of_ne hj]
    exact h j

theorem call_refines : Lib.Calls.Refines (@call ι α _) (@next ι α _ eqVal)
    (fun ss c a => a = answer ss c) AllRepresent Legal where
  step := by
    intro sets ss c h hlegal
    cases c with
    | add i val =>
      cases val with
      | none =>
        refine ⟨Function.update sets i (sets i), .flag false, rfl, rfl, ?_⟩
        rwa [Function.update_eq_self]
      | some val =>
        obtain ⟨set', hadd, hrepresents⟩ := add_represents (h i) val
        refine ⟨Function.update sets i set', _, ?_, rfl, h.update hrepresents⟩
        rw [call, hadd]
        rfl
    | remove i val =>
      cases val with
      | none =>
        refine ⟨Function.update sets i (sets i), .pointer none, rfl, rfl, ?_⟩
        rwa [Function.update_eq_self]
      | some val =>
        obtain ⟨set', hremove, hrepresents⟩ := remove_represents (h i) val
        refine ⟨Function.update sets i set', _, ?_, rfl, h.update hrepresents⟩
        rw [call, hremove]
        rfl
    | removeAll i =>
      obtain ⟨set', hremove, hrepresents⟩ := removeAll_represents (h i)
      refine ⟨Function.update sets i set', _, ?_, rfl, h.update hrepresents⟩
      rw [call, hremove]
      rfl
    | contains i val =>
      cases val with
      | none => exact ⟨sets, .flag false, rfl, rfl, h⟩
      | some val =>
        refine ⟨sets, _, ?_, rfl, h⟩
        rw [call, contains_represents (h i)]
        rfl
    | addAll i j =>
      obtain ⟨set', hadd, hrepresents⟩ := addAll_represents (h j) (h i)
      refine ⟨Function.update sets i set', _, ?_, rfl, h.update hrepresents⟩
      rw [call, hadd]
      rfl
    | removeIn i j =>
      obtain ⟨set', hremove, hrepresents⟩ := removeIn_represents (h j) (h i)
      refine ⟨Function.update sets i set', _, ?_, rfl, h.update hrepresents⟩
      rw [call, hremove]
      rfl

/-- Sets of any parameters, from when they are made: no call accesses memory beyond a block, and
each is answered as ordered sets answer it. -/
theorem setCalls_answered (params : ι → PsetParams α)
    (hparams : ∀ i val, (params i).allocVal val = some val) (calls : List (Call ι α))
    (hlegal : ∀ c ∈ calls, Legal c) :
    ∃ sets answers, Lib.Calls.run call (fun i => Pset.init (params i)) calls =
        some (sets, answers) ∧
      Lib.Calls.Answered next (fun ss c a => a = answer ss c)
        (fun i => (.empty : OrderedSet α (params i).equalVal)) calls answers ∧
      AllRepresent sets
        (calls.foldl next (fun i => (.empty : OrderedSet α (params i).equalVal))) :=
  call_refines.run (fun i => represents_init (hparams i)) calls hlegal

/-- A set that grows by one as another is added to it, and that is then emptied. -/
theorem setCalls_answered_grown :
    ∃ sets answers, Lib.Calls.run call (fun _ => Pset.init ⟨fun a b => a == b, some, 1, 1⟩)
        ([.add false (some 1), .add true (some 2), .add true (some 1), .addAll false true,
          .removeAll false, .add false (some 2)] : List (Call Bool Nat)) = some (sets, answers) ∧
      Lib.Calls.Answered next (fun ss c a => a = answer ss c)
        (fun _ => (.empty : OrderedSet Nat (fun a b => a == b)))
        ([.add false (some 1), .add true (some 2), .add true (some 1), .addAll false true,
          .removeAll false, .add false (some 2)] : List (Call Bool Nat)) answers ∧
      AllRepresent sets
        (([.add false (some 1), .add true (some 2), .add true (some 1), .addAll false true,
          .removeAll false, .add false (some 2)] : List (Call Bool Nat)).foldl next
            (fun _ => (.empty : OrderedSet Nat (fun a b => a == b)))) :=
  setCalls_answered (fun _ => ⟨fun a b => a == b, some, 1, 1⟩) (fun _ _ => rfl) _ (by simp [Legal])

end WayDisplays.Containers.SetCalls
