/- The array backed containers: maps, sets and lists of pointers, and their iterators. Every
operation fails where the code would access memory beyond a block. -/

import WayDisplays.Lib.Block
import WayDisplays.Model.Mode

set_option autoImplicit false
set_option relaxedAutoImplicit false

namespace WayDisplays.Model.Containers

open Lib (Block)

def defaultInitial : Nat := 10

def defaultGrow : Nat := 10

def initialCapacity (initial : Nat) : Nat := if initial = 0 then defaultInitial else initial

def grownCapacity (capacity grow : Nat) : Nat :=
  capacity + if grow = 0 then defaultGrow else grow

/-- Two pointers that may be null, both of them or as compared. -/
def equalPtr {α : Type} (equal : α → α → Bool) : Option α → Option α → Bool
  | some a, some b => equal a b
  | none, none => true
  | _, _ => false

/-! ### Values freed once -/

/-- The values freed so far, each once, and the calls that freed them. -/
structure Freed (ν : Type) where
  freed : Block ν
  nf : Nat
  calls : List ν

def freedInit {ν : Type} (size : Nat) : Freed ν :=
  { freed := Block.calloc size, nf := 0, calls := [] }

def Freed.free {ν : Type} [DecidableEq ν] (f : Freed ν) (val : ν) : Option (Freed ν) := do
  match ← Block.search (fun x => x == some val) f.freed f.nf 0 with
  | some _ => some f
  | none =>
    let freed ← f.freed.store f.nf (some val)
    some { freed := freed, nf := f.nf + 1, calls := f.calls ++ [val] }

def Freed.freeOld {ν : Type} [DecidableEq ν] (f : Freed ν) (doFree : Bool) :
    Option ν → Option (Freed ν)
  | some val => if doFree then f.free val else some f
  | none => some f

/-- Free the values of the `n` slots from `i` up. -/
def freeVals {ν : Type} [DecidableEq ν] (vals : Block ν) : Nat → Nat → Freed ν → Option (Freed ν)
  | 0, _, f => some f
  | n + 1, i, f => do
    let val ← vals.load i
    let f ← f.freeOld true val
    freeVals vals n (i + 1) f

/-! ### Maps -/

/-- What a map is made with; where no function is given, pointers are compared and kept. -/
structure PPmapParams (κ ν : Type) where
  equalKey : κ → κ → Bool
  equalVal : Option ν → Option ν → Bool
  allocKey : κ → Option κ
  allocVal : Option ν → Option ν
  allowNullVal : Bool
  initial : Nat
  grow : Nat

structure PPmap (κ ν : Type) where
  params : PPmapParams κ ν
  keys : Block κ
  vals : Block ν
  capacity : Nat
  size : Nat

/-- What a map returns of an operation on a key. -/
structure Outcome (κ ν : Type) where
  map : PPmap κ ν
  valOld : Option ν
  found : Bool

namespace PPmap

variable {κ ν : Type}

def init (params : PPmapParams κ ν) : PPmap κ ν :=
  { params := params
    keys := Block.calloc (initialCapacity params.initial)
    vals := Block.calloc (initialCapacity params.initial)
    capacity := initialCapacity params.initial
    size := 0 }

def growBlocks (map : PPmap κ ν) : Option (PPmap κ ν) := do
  let newCapacity := grownCapacity map.capacity map.params.grow
  let keys ← Block.copy (Block.calloc newCapacity) map.keys map.capacity
  let vals ← Block.copy (Block.calloc newCapacity) map.vals map.capacity
  some { map with keys := keys, vals := vals, capacity := newCapacity }

/-- Grow for a new entry, if need be. -/
def room (map : PPmap κ ν) : Option (PPmap κ ν) :=
  if map.capacity ≤ map.size then map.growBlocks else some map

def position (map : PPmap κ ν) (key : Option κ) : Option (Option Nat) :=
  Block.search (fun k => equalPtr map.params.equalKey k key) map.keys map.size 0

def storable (map : PPmap κ ν) (val : Option ν) : Bool := val.isSome || map.params.allowNullVal

def overwriteAt (map : PPmap κ ν) (i : Nat) (val : Option ν) (alloc : Option ν → Option ν)
    (overwrite : Bool) : Option (Outcome κ ν) := do
  let valOld ← map.vals.load i
  if !overwrite then some ⟨map, valOld, true⟩
  else if !map.storable (alloc val) then some ⟨map, none, false⟩
  else
    let vals ← map.vals.store i (alloc val)
    some ⟨{ map with vals := vals }, valOld, true⟩

def append (map : PPmap κ ν) (key : Option κ) (val : Option ν) (alloc : Option ν → Option ν) :
    Option (Outcome κ ν) :=
  match key.bind map.params.allocKey with
  | none => some ⟨map, none, false⟩
  | some keyNew =>
    if !map.storable (alloc val) then some ⟨map, none, false⟩
    else do
      let map ← map.room
      let keys ← map.keys.store map.size (some keyNew)
      let vals ← map.vals.store map.size (alloc val)
      some ⟨{ map with keys := keys, vals := vals, size := map.size + 1 }, none, false⟩

def putWith (map : PPmap κ ν) (key : Option κ) (val : Option ν) (alloc : Option ν → Option ν)
    (overwrite : Bool) : Option (Outcome κ ν) :=
  if !map.storable val then some ⟨map, none, false⟩
  else do
    match ← map.position key with
    | some i => map.overwriteAt i val alloc overwrite
    | none => map.append key val alloc

def put (map : PPmap κ ν) (key : Option κ) (val : Option ν) : Option (Outcome κ ν) :=
  map.putWith key val map.params.allocVal true

def putIfAbsent (map : PPmap κ ν) (key : Option κ) (val : Option ν) : Option (Outcome κ ν) :=
  map.putWith key val map.params.allocVal false

def removeAt (map : PPmap κ ν) (i : Nat) : Option (Outcome κ ν) := do
  let keys ← map.keys.store i none
  let valOld ← map.vals.load i
  let vals ← map.vals.store i none
  let size := map.size - 1
  let keys ← Block.shiftDown (size - i) i keys
  let vals ← Block.shiftDown (size - i) i vals
  some ⟨{ map with keys := keys, vals := vals, size := size }, valOld, true⟩

def remove (map : PPmap κ ν) (key : Option κ) : Option (Outcome κ ν) :=
  if key.isNone then some ⟨map, none, false⟩
  else do
    match ← map.position key with
    | some i => map.removeAt i
    | none => some ⟨map, none, false⟩

/-- Also the number removed. -/
def removeAll (map : PPmap κ ν) : Option (PPmap κ ν × Nat) := do
  let keys ← map.keys.clear map.size
  let vals ← map.vals.clear map.size
  some ({ map with keys := keys, vals := vals, size := 0 }, map.size)

def get (map : PPmap κ ν) (key : Option κ) : Option (Option ν) :=
  if key.isNone then some none
  else do
    match ← map.position key with
    | some i => map.vals.load i
    | none => some none

def containsKey (map : PPmap κ ν) (key : Option κ) : Option Bool :=
  if key.isNone then some false else (map.position key).map Option.isSome

/-- Every value of the second is the one that the first has under its key. -/
def equalFrom (a b : PPmap κ ν) : Nat → Nat → Option Bool
  | 0, _ => some true
  | n + 1, i => do
    let bk ← b.keys.load i
    let bv ← b.vals.load i
    let av ← a.get bk
    if a.params.equalVal av bv then equalFrom a b n (i + 1) else some false

def equal (a b : PPmap κ ν) : Option Bool :=
  if a.size ≠ b.size then some false else equalFrom a b b.size 0

section All

variable [DecidableEq ν]

/-- The number overwritten, and what was freed of them. -/
def putAll (clone : Option ν → Option ν) (doFree : Bool) (source : PPmap κ ν) :
    Nat → Nat → PPmap κ ν × Nat × Freed ν → Option (PPmap κ ν × Nat × Freed ν)
  | 0, _, state => some state
  | n + 1, i, (map, overwritten, freed) => do
    let key ← source.keys.load i
    let val ← source.vals.load i
    let outcome ← map.putWith key val clone true
    if outcome.found then
      let freed ← freed.freeOld doFree outcome.valOld
      putAll clone doFree source n (i + 1) (outcome.map, overwritten + 1, freed)
    else putAll clone doFree source n (i + 1) (outcome.map, overwritten, freed)

def putAllFree (map source : PPmap κ ν) : Option (PPmap κ ν × Nat × Freed ν) :=
  putAll map.params.allocVal true source source.size 0 (map, 0, freedInit map.size)

/-- The number removed, and what was freed of them. -/
def removeIn (doFree : Bool) (source : PPmap κ ν) :
    Nat → Nat → PPmap κ ν × Nat × Freed ν → Option (PPmap κ ν × Nat × Freed ν)
  | 0, _, state => some state
  | n + 1, i, (map, removed, freed) => do
    let key ← source.keys.load i
    let outcome ← map.remove key
    if outcome.found then
      let freed ← freed.freeOld doFree outcome.valOld
      removeIn doFree source n (i + 1) (outcome.map, removed + 1, freed)
    else removeIn doFree source n (i + 1) (outcome.map, removed, freed)

def removeInFree (map source : PPmap κ ν) : Option (PPmap κ ν × Nat × Freed ν) :=
  removeIn true source source.size 0 (map, 0, freedInit map.size)

end All

end PPmap

/-! ### Iterators -/

/-- An iterator at an entry, or in front of the first while it is not attached. -/
structure It (β : Type) where
  entry : β
  position : Nat
  attached : Bool

namespace It

variable {β γ : Type}

def init (null : β) : It β := { entry := null, position := 0, attached := false }

/-- The first entry that passes, of the `n` from `i` up. -/
def scan (load : Nat → Option β) (passes : β → Bool) : Nat → Nat → Option (Option (It β))
  | 0, _ => some none
  | n + 1, i => do
    let entry ← load i
    if passes entry then some (some ⟨entry, i, true⟩) else scan load passes n (i + 1)

def next (load : Nat → Option β) (passes : β → Bool) (size : Nat) (it : It β) :
    Option (Option (It β)) :=
  let position := if it.attached then it.position + 1 else 0
  scan load passes (size - position) position

/-- Step back from an entry that was removed. -/
def back (null : β) (it : It β) : It β :=
  { entry := null, position := it.position - 1
    attached := it.attached && decide (0 < it.position) }

/-- The loop around an iterator, which removes some of the entries that it comes to: the container
after it, and the entries. -/
def each (next : γ → It β → Option (Option (It β))) (remove : γ → It β → Option (γ × It β))
    (drop : β → Bool) : Nat → γ → It β → Option (γ × List β)
  | 0, _, _ => none
  | n + 1, container, it => do
    match ← next container it with
    | none => some (container, [])
    | some it =>
      let (container, it') ← if drop it.entry then remove container it else some (container, it)
      let (container, entries) ← each next remove drop n container it'
      some (container, it.entry :: entries)

end It

namespace PPmap

variable {κ ν : Type}

def entry (map : PPmap κ ν) (i : Nat) : Option (Option κ × Option ν) := do
  let key ← map.keys.load i
  let val ← map.vals.load i
  some (key, val)

def itNext (passes : Option κ × Option ν → Bool) (map : PPmap κ ν)
    (it : It (Option κ × Option ν)) : Option (Option (It (Option κ × Option ν))) :=
  it.next map.entry passes map.size

def filterIt (passes : Option κ × Option ν → Bool) (map : PPmap κ ν) :
    Option (Option (It (Option κ × Option ν))) :=
  if map.size = 0 then some none else map.itNext passes (It.init (none, none))

def itRemove (map : PPmap κ ν) (it : It (Option κ × Option ν)) :
    Option (PPmap κ ν × It (Option κ × Option ν)) := do
  let outcome ← map.remove it.entry.1
  some (outcome.map, it.back (none, none))

end PPmap

/-! ### Sets -/

structure PsetParams (α : Type) where
  equalVal : α → α → Bool
  allocVal : α → Option α
  initial : Nat
  grow : Nat

structure Pset (α : Type) where
  params : PsetParams α
  vals : Block α
  capacity : Nat
  size : Nat

namespace Pset

variable {α : Type}

def init (params : PsetParams α) : Pset α :=
  { params := params
    vals := Block.calloc (initialCapacity params.initial)
    capacity := initialCapacity params.initial
    size := 0 }

def growBlock (set : Pset α) : Option (Pset α) := do
  let newCapacity := grownCapacity set.capacity set.params.grow
  let vals ← Block.copy (Block.calloc newCapacity) set.vals set.capacity
  some { set with vals := vals, capacity := newCapacity }

def room (set : Pset α) : Option (Pset α) :=
  if set.capacity ≤ set.size then set.growBlock else some set

def position (set : Pset α) (val : α) : Option (Option Nat) :=
  Block.search (fun v => equalPtr set.params.equalVal v (some val)) set.vals set.size 0

/-- Also whether the value was added. -/
def add (set : Pset α) : Option α → Option (Pset α × Bool)
  | none => some (set, false)
  | some val => do
    match ← set.position val with
    | some _ => some (set, false)
    | none =>
      match set.params.allocVal val with
      | none => some (set, false)
      | some new =>
        let set ← set.room
        let vals ← set.vals.store set.size (some new)
        some ({ set with vals := vals, size := set.size + 1 }, true)

/-- Also the value removed. -/
def remove (set : Pset α) : Option α → Option (Pset α × Option α)
  | none => some (set, none)
  | some val => do
    match ← set.position val with
    | none => some (set, none)
    | some i =>
      let removed ← set.vals.load i
      let vals ← set.vals.store i none
      let vals ← Block.shiftDown (set.size - 1 - i) i vals
      some ({ set with vals := vals, size := set.size - 1 }, removed)

/-- The size is reset before that many slots are nulled. -/
def removeAll (set : Pset α) : Option (Pset α × Nat) := do
  let emptied := { set with size := 0 }
  let vals ← emptied.vals.clear emptied.size
  some ({ emptied with vals := vals }, set.size)

def contains (set : Pset α) : Option α → Option Bool
  | none => some false
  | some val => (set.position val).map Option.isSome

/-- Also the number added. -/
def addAll (source : Pset α) : Nat → Nat → Pset α × Nat → Option (Pset α × Nat)
  | 0, _, state => some state
  | n + 1, i, (set, added) => do
    let val ← source.vals.load i
    let (set, wasAdded) ← set.add val
    addAll source n (i + 1) (set, if wasAdded then added + 1 else added)

/-- Also the number removed. -/
def removeIn (source : Pset α) : Nat → Nat → Pset α × Nat → Option (Pset α × Nat)
  | 0, _, state => some state
  | n + 1, i, (set, removed) => do
    let val ← source.vals.load i
    let (set, old) ← set.remove val
    removeIn source n (i + 1) (set, if old.isSome then removed + 1 else removed)

end Pset

/-! ### Lists -/

structure PlistParams (α : Type) where
  equalVal : Option α → Option α → Bool
  allocVal : Option α → Option α
  allowNullVal : Bool
  initial : Nat
  grow : Nat

structure Plist (α : Type) where
  params : PlistParams α
  vals : Block α
  capacity : Nat
  size : Nat

namespace Plist

variable {α : Type}

def init (params : PlistParams α) : Plist α :=
  { params := params
    vals := Block.calloc (initialCapacity params.initial)
    capacity := initialCapacity params.initial
    size := 0 }

def growBlock (list : Plist α) : Option (Plist α) := do
  let newCapacity := grownCapacity list.capacity list.params.grow
  let vals ← Block.copy (Block.calloc newCapacity) list.vals list.capacity
  some { list with vals := vals, capacity := newCapacity }

def room (list : Plist α) : Option (Plist α) :=
  if list.capacity ≤ list.size then list.growBlock else some list

def storable (list : Plist α) (val : Option α) : Bool := val.isSome || list.params.allowNullVal

/-- Also whether the value was inserted; an index behind the end is the end. -/
def insert (list : Plist α) (index : Nat) (val : Option α) : Option (Plist α × Bool) :=
  if !list.storable val then some (list, false)
  else
    let index := if list.size < index then list.size else index
    let new := list.params.allocVal val
    if !list.storable new then some (list, false)
    else do
      let list ← list.room
      let vals ← Block.shiftUp (list.size - index) list.size list.vals
      let vals ← vals.store index new
      some ({ list with vals := vals, size := list.size + 1 }, true)

/-- Also the value removed. -/
def removeAt (list : Plist α) (i : Nat) : Option (Plist α × Option α) :=
  if list.size ≤ i then some (list, none)
  else do
    let old ← list.vals.load i
    let vals ← list.vals.store i none
    let vals ← Block.shiftDown (list.size - 1 - i) i vals
    some ({ list with vals := vals, size := list.size - 1 }, old)

def indexOf (list : Plist α) (val : Option α) : Option (Option Nat) :=
  if !list.storable val then some none
  else Block.search (fun v => list.params.equalVal v val) list.vals list.size 0

/-- Also the value removed. -/
def remove (list : Plist α) (val : Option α) : Option (Plist α × Option α) := do
  match ← list.indexOf val with
  | none => some (list, none)
  | some i => list.removeAt i

/-- Also the number removed. -/
def removeAll (list : Plist α) : Option (Plist α × Nat) := do
  let vals ← list.vals.clear list.size
  some ({ list with vals := vals, size := 0 }, list.size)

def find (passes : Option α → Bool) (list : Plist α) : Option (Option α) := do
  match ← Block.search passes list.vals list.size 0 with
  | some i => list.vals.load i
  | none => some none

/-- Also the number appended. -/
def appendAll (source : Plist α) : Nat → Nat → Plist α × Nat → Option (Plist α × Nat)
  | 0, _, state => some state
  | n + 1, i, (list, appended) => do
    let val ← source.vals.load i
    let (list, wasInserted) ← list.insert list.size val
    appendAll source n (i + 1) (list, if wasInserted then appended + 1 else appended)

def itNext (passes : Option α → Bool) (list : Plist α) (it : It (Option α)) :
    Option (Option (It (Option α))) :=
  it.next list.vals.load passes list.size

def filterIt (passes : Option α → Bool) (list : Plist α) : Option (Option (It (Option α))) :=
  if list.size = 0 then some none else list.itNext passes (It.init none)

def itRemove (list : Plist α) (it : It (Option α)) : Option (Plist α × It (Option α)) := do
  let (list, _) ← list.removeAt it.position
  some (list, it.back none)

/-- Shift values up by `gap` below the hole at `j`, then store `tmp` in the last hole. -/
def sink (lessThan : Option α → Option α → Bool) (gap : Nat) (tmp : Option α) :
    Nat → Nat → Block α → Option (Block α)
  | 0, j, vals => vals.store j tmp
  | fuel + 1, j, vals =>
    if gap ≤ j then do
      let v ← vals.load (j - gap)
      if lessThan tmp v then do
        let vals ← vals.store j v
        sink lessThan gap tmp fuel (j - gap) vals
      else vals.store j tmp
    else vals.store j tmp

/-- The loop over the elements, of the `n` from `i` up. -/
def pass (lessThan : Option α → Option α → Bool) (gap : Nat) :
    Nat → Nat → Block α → Option (Block α)
  | 0, _, vals => some vals
  | n + 1, i, vals => do
    let tmp ← vals.load i
    let vals ← sink lessThan gap tmp i i vals
    pass lessThan gap n (i + 1) vals

def sort (list : Plist α) (lessThan : Option α → Option α → Bool) : Option (Plist α) := do
  let vals ← gaps.foldlM (fun vals gap => pass lessThan gap (list.size - gap) gap vals) list.vals
  some { list with vals := vals }

end Plist

end WayDisplays.Model.Containers
