/- Whatever calls are made on maps, they are answered as ordered maps answer them. -/

import Mathlib.Logic.Function.Basic
import WayDisplays.Containers.Maps
import WayDisplays.Lib.Calls

set_option autoImplicit false
set_option relaxedAutoImplicit false

namespace WayDisplays.Containers.MapCalls

open Lib (OrderedMap)
open Model.Containers Freeing Maps

/-- A call on a map of some name, which may take the entries or the keys of another. -/
inductive Call (ι κ ν : Type) where
  | put (at_ : ι) (key : κ) (val : Option ν)
  | putIfAbsent (at_ : ι) (key : κ) (val : Option ν)
  | remove (at_ : ι) (key : κ)
  | removeAll (at_ : ι)
  | get (at_ : ι) (key : κ)
  | containsKey (at_ : ι) (key : κ)
  | putAllFree (at_ from_ : ι)
  | removeInFree (at_ in_ : ι)
  /-- The loop over the entries that pass, which removes some through its iterator. -/
  | removeEach (at_ : ι) (passes drop : Option κ × Option ν → Bool)

/-- A pointer, a flag, the entries that a loop came to, or how many entries were overwritten or
removed and what was freed. -/
inductive Answer (κ ν : Type) where
  | pointer (val : Option ν)
  | entries (es : List (Option κ × Option ν))
  | flag (b : Bool)
  | count (n : Nat) (freed : List ν)

variable {ι κ ν : Type} [DecidableEq ι] [DecidableEq κ] [DecidableEq ν]

def call (maps : ι → PPmap κ ν) : Call ι κ ν → Option ((ι → PPmap κ ν) × Answer κ ν)
  | .put i key val => do
    let outcome ← (maps i).put (some key) val
    some (Function.update maps i outcome.map, .pointer outcome.valOld)
  | .putIfAbsent i key val => do
    let outcome ← (maps i).putIfAbsent (some key) val
    some (Function.update maps i outcome.map, .pointer outcome.valOld)
  | .remove i key => do
    let outcome ← (maps i).remove (some key)
    some (Function.update maps i outcome.map, .pointer outcome.valOld)
  | .removeAll i => do
    let (map, n) ← (maps i).removeAll
    some (Function.update maps i map, .count n [])
  | .get i key => do
    let val ← (maps i).get (some key)
    some (maps, .pointer val)
  | .containsKey i key => do
    let b ← (maps i).containsKey (some key)
    some (maps, .flag b)
  | .putAllFree i j => do
    let (map, n, freed) ← (maps i).putAllFree (maps j)
    some (Function.update maps i map, .count n freed.calls)
  | .removeInFree i j => do
    let (map, n, freed) ← (maps i).removeInFree (maps j)
    some (Function.update maps i map, .count n freed.calls)
  | .removeEach i passes drop => do
    let (map, es) ← It.each (PPmap.itNext passes) PPmap.itRemove drop ((maps i).size + 1) (maps i)
      (It.init (none, none))
    some (Function.update maps i map, .entries es)

def Legal : Call ι κ ν → Prop
  | .putAllFree i j => i ≠ j
  | .removeInFree i j => i ≠ j
  | _ => True

/-! ### Ordered maps -/

/-- An ordered map that may or may not hold null values. -/
structure Abstract (κ ν : Type) where
  map : OrderedMap κ (Option ν)
  allowNullVal : Bool

namespace Abstract

def storable (m : Abstract κ ν) (val : Option ν) : Bool := val.isSome || m.allowNullVal

def kept (m : Abstract κ ν) (es : List (κ × Option ν)) : List (κ × Option ν) :=
  es.filter (fun e => m.storable e.2)

def pointer (m : Abstract κ ν) (key : κ) : Option ν := (m.map.get? key).join

def put (m : Abstract κ ν) (key : κ) (val : Option ν) : Abstract κ ν :=
  { m with map := if m.storable val then m.map.put key val else m.map }

def putIfAbsent (m : Abstract κ ν) (key : κ) (val : Option ν) : Abstract κ ν :=
  { m with map := if m.storable val && !m.map.contains key then m.map.put key val else m.map }

def hits (m : Abstract κ ν) (keys : List κ) : List κ := keys.filter m.map.contains

def Frees (m : Abstract κ ν) (keys : List κ) (freed : List ν) : Prop :=
  freed.Nodup ∧ ∀ val, val ∈ freed ↔ ∃ key ∈ keys, m.pointer key = some val

end Abstract

def next (ms : ι → Abstract κ ν) : Call ι κ ν → ι → Abstract κ ν
  | .put i key val => Function.update ms i ((ms i).put key val)
  | .putIfAbsent i key val => Function.update ms i ((ms i).putIfAbsent key val)
  | .remove i key => Function.update ms i { ms i with map := (ms i).map.remove key }
  | .removeAll i => Function.update ms i { ms i with map := .empty }
  | .get _ _ => ms
  | .containsKey _ _ => ms
  | .putAllFree i j =>
    Function.update ms i
      { ms i with map := (ms i).map.putAll ((ms i).kept (ms j).map.entries) }
  | .removeInFree i j =>
    Function.update ms i { ms i with map := (ms i).map.removeAll (ms j).map.keys }
  | .removeEach i passes drop => Function.update ms i
    { ms i with
      map := (ms i).map.filter
        (fun key val => !(passes (some key, val) && drop (some key, val))) }

/-- What ordered maps answer; the order in which values are freed is left open. -/
def Answers (ms : ι → Abstract κ ν) : Call ι κ ν → Answer κ ν → Prop
  | .put i key val, answer =>
    answer = .pointer (if (ms i).storable val then (ms i).pointer key else none)
  | .putIfAbsent i key val, answer =>
    answer = .pointer (if (ms i).storable val then (ms i).pointer key else none)
  | .remove i key, answer => answer = .pointer ((ms i).pointer key)
  | .removeAll i, answer => answer = .count (ms i).map.size []
  | .get i key, answer => answer = .pointer ((ms i).pointer key)
  | .containsKey i key, answer => answer = .flag ((ms i).map.contains key)
  | .putAllFree i j, answer =>
    ∃ freed, answer =
        .count ((ms i).hits (((ms i).kept (ms j).map.entries).map Prod.fst)).length freed ∧
      (ms i).Frees ((ms i).hits (((ms i).kept (ms j).map.entries).map Prod.fst)) freed
  | .removeInFree i j, answer =>
    ∃ freed, answer = .count ((ms i).hits (ms j).map.keys).length freed ∧
      (ms i).Frees ((ms i).hits (ms j).map.keys) freed
  | .removeEach i passes _, answer => answer = .entries ((slots (ms i).map).filter passes)

/-! ### Calls refine -/

structure Stands (map : PPmap κ ν) (m : Abstract κ ν) : Prop where
  represents : Represents map m.map
  allowNullVal : map.params.allowNullVal = m.allowNullVal

def AllStand (maps : ι → PPmap κ ν) (ms : ι → Abstract κ ν) : Prop := ∀ i, Stands (maps i) (ms i)

omit [DecidableEq ν] in
theorem Stands.storable {map : PPmap κ ν} {m : Abstract κ ν} (h : Stands map m) (val : Option ν) :
    map.storable val = m.storable val := by
  rw [PPmap.storable, Abstract.storable, h.allowNullVal]

omit [DecidableEq ν] in
theorem Stands.kept {map : PPmap κ ν} {m : Abstract κ ν} (h : Stands map m)
    (es : List (κ × Option ν)) : Maps.kept map es = m.kept es :=
  List.filter_congr fun e _ => h.storable e.2

omit [DecidableEq ν] in
theorem Stands.of_params {map map' : PPmap κ ν} {m : Abstract κ ν} {map₁ : OrderedMap κ (Option ν)}
    (h : Stands map m) (hparams : map'.params = map.params) (hrepresents : Represents map' map₁) :
    Stands map' { m with map := map₁ } :=
  ⟨hrepresents, hparams ▸ h.allowNullVal⟩

omit [DecidableEq ν] in
theorem AllStand.update {maps : ι → PPmap κ ν} {ms : ι → Abstract κ ν} (h : AllStand maps ms)
    {i : ι} {map : PPmap κ ν} {m : Abstract κ ν} (hi : Stands map m) :
    AllStand (Function.update maps i map) (Function.update ms i m) := by
  intro j
  by_cases hj : j = i
  · subst hj
    rwa [Function.update_self, Function.update_self]
  · rw [Function.update_of_ne hj, Function.update_of_ne hj]
    exact h j

omit [DecidableEq ν] in
theorem frees_of_freedOf {m : Abstract κ ν} {hits : List κ} {freed : Freed ν}
    (h : FreedOf (olds m.map hits) freed) : m.Frees hits freed.calls :=
  ⟨h.nodup, fun val => (h.mem val).trans List.mem_map⟩

omit [DecidableEq ν] in
theorem putWith_stands {map : PPmap κ ν} {m : Abstract κ ν} (h : Stands map m) (key : κ)
    (val : Option ν) (overwrite : Bool) :
    ∃ outcome, map.putWith (some key) val map.params.allocVal overwrite = some outcome ∧
      outcome.valOld = (if m.storable val then m.pointer key else none) ∧
      Stands outcome.map
        { m with map := if m.storable val && (overwrite || !m.map.contains key)
          then m.map.put key val else m.map } := by
  obtain ⟨map', hput, hrepresents, hparams⟩ :=
    putWith_represents h.represents key val overwrite
  rw [h.represents.copies.allocVal_eq, hput, h.storable]
  refine ⟨_, rfl, rfl, h.of_params hparams ?_⟩
  rw [h.storable, decide_not] at hrepresents
  exact hrepresents

theorem call_refines :
    Lib.Calls.Refines (@call ι κ ν _ _) next Answers AllStand Legal where
  step := by
    intro maps ms c h hlegal
    cases c with
    | put i key val =>
      obtain ⟨outcome, hput, hold, hstands⟩ := putWith_stands (h i) key val true
      refine ⟨Function.update maps i outcome.map, .pointer outcome.valOld, ?_, ?_, h.update ?_⟩
      · rw [call, PPmap.put, hput]
        rfl
      · rw [Answers, hold]
      · simpa only [Bool.true_or, Bool.and_true, Abstract.put] using hstands
    | putIfAbsent i key val =>
      obtain ⟨outcome, hput, hold, hstands⟩ := putWith_stands (h i) key val false
      refine ⟨Function.update maps i outcome.map, .pointer outcome.valOld, ?_, ?_, h.update ?_⟩
      · rw [call, PPmap.putIfAbsent, hput]
        rfl
      · rw [Answers, hold]
      · simpa only [Bool.false_or, Abstract.putIfAbsent] using hstands
    | remove i key =>
      obtain ⟨map', hremove, hrepresents, hparams⟩ := remove_represents (h i).represents key
      refine ⟨Function.update maps i map', .pointer ((ms i).pointer key), ?_, rfl,
        h.update ((h i).of_params hparams hrepresents)⟩
      rw [call, hremove]
      rfl
    | removeAll i =>
      obtain ⟨map', hremove, hrepresents, hparams⟩ := removeAll_represents (h i).represents
      refine ⟨Function.update maps i map', .count (ms i).map.size [], ?_, rfl,
        h.update ((h i).of_params hparams hrepresents)⟩
      rw [call, hremove]
      rfl
    | get i key =>
      refine ⟨maps, .pointer ((ms i).pointer key), ?_, rfl, h⟩
      rw [call, get_represents (h i).represents]
      rfl
    | containsKey i key =>
      refine ⟨maps, .flag ((ms i).map.contains key), ?_, rfl, h⟩
      rw [call, containsKey_represents (h i).represents]
      rfl
    | putAllFree i j =>
      obtain ⟨map', freed, hput, hrepresents, hparams, hfreed⟩ :=
        putAllFree_represents (h i).represents (h j).represents
      rw [(h i).kept] at hrepresents
      have hhits : overwritten (maps i) (ms i).map (ms j).map.entries =
          (ms i).hits (((ms i).kept (ms j).map.entries).map Prod.fst) := by
        rw [overwritten, (h i).kept]
        rfl
      rw [hhits] at hput hfreed
      refine ⟨Function.update maps i map', _, ?_, ⟨freed.calls, rfl, frees_of_freedOf hfreed⟩,
        h.update ((h i).of_params hparams hrepresents)⟩
      rw [call, hput]
      rfl
    | removeInFree i j =>
      obtain ⟨map', freed, hremove, hrepresents, hparams, hfreed⟩ :=
        removeInFree_represents (h i).represents (h j).represents
      refine ⟨Function.update maps i map', _, ?_, ⟨freed.calls, rfl, frees_of_freedOf hfreed⟩,
        h.update ((h i).of_params hparams hrepresents)⟩
      rw [call, hremove]
      rfl
    | removeEach i passes drop =>
      obtain ⟨map', heach, hrepresents, hparams⟩ :=
        each_represents (h i).represents passes drop
      rw [← (h i).represents.size] at heach
      refine ⟨Function.update maps i map', _, ?_, rfl,
        h.update ((h i).of_params hparams hrepresents)⟩
      rw [call, heach]
      rfl

/-- Maps of any parameters, from when they are made: no call accesses memory beyond a block, and
each is answered as ordered maps answer it, with every value that it frees freed once. -/
theorem mapCalls_answered (params : ι → PPmapParams κ ν) (hparams : ∀ i, Copies (params i))
    (calls : List (Call ι κ ν)) (hlegal : ∀ c ∈ calls, Legal c) :
    ∃ maps answers, Lib.Calls.run call (fun i => PPmap.init (params i)) calls =
        some (maps, answers) ∧
      Lib.Calls.Answered next Answers (fun i => ⟨.empty, (params i).allowNullVal⟩) calls answers ∧
      AllStand maps (calls.foldl next (fun i => ⟨.empty, (params i).allowNullVal⟩)) :=
  call_refines.run (fun i => ⟨represents_init (hparams i), rfl⟩) calls hlegal

def sharedParams : PPmapParams Nat Nat :=
  ⟨fun a b => decide (a = b), fun a b => decide (a = b), some, id, false, 1, 1⟩

/-- Two maps that share a value, which one frees when the other's takes its place, and a loop
that takes the first entry out. -/
def sharedCalls : List (Call Bool Nat Nat) :=
  [.put false 1 (some 5), .put false 2 (some 5), .put true 1 (some 6), .put true 2 (some 7),
    .putAllFree false true, .removeEach false (fun _ => true) (fun e => e.1 == some 1)]

theorem mapCalls_answered_shared :
    ∃ maps answers, Lib.Calls.run (@call Bool Nat Nat _ _) (fun _ => PPmap.init sharedParams)
        sharedCalls = some (maps, answers) ∧
      Lib.Calls.Answered next Answers (fun _ => ⟨.empty, false⟩) sharedCalls answers ∧
      AllStand maps (sharedCalls.foldl next (fun _ => ⟨.empty, false⟩)) :=
  mapCalls_answered (fun _ => sharedParams) (fun _ => ⟨fun _ _ => rfl, fun _ => rfl, fun _ => rfl⟩)
    sharedCalls (by simp [sharedCalls, Legal])

end WayDisplays.Containers.MapCalls
