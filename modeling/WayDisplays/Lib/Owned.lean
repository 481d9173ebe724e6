/- Objects that were allocated for somebody, and containers of them that clone and free. -/

import WayDisplays.Lib.OrderedMap
import WayDisplays.Lib.OrderedSet
import WayDisplays.Lib.Traced

set_option autoImplicit false
set_option relaxedAutoImplicit false

namespace WayDisplays.Lib

/-- An object, with whom it was allocated for. -/
structure Owned (ω α : Type) where
  owner : ω
  val : α

/-- What is done to an object that is there already. -/
inductive Touch (ω : Type)
  | write (owner : ω)
  | free (owner : ω)

def Touch.owner {ω : Type} : Touch ω → ω
  | write owner => owner
  | free owner => owner

namespace Owned

variable {ω α κ ν β : Type}

def write (o : Owned ω α) (a : α) : Traced (Touch ω) (Owned ω α) :=
  .emit (.write o.owner) { o with val := a }

def free (o : Owned ω α) : Traced (Touch ω) Unit := .emit (.free o.owner) ()

/-- How a container clones its values, for a new owner, and frees them. -/
structure Handling (ω ν : Type) where
  clone : ω → ν → ν
  free : ν → Traced (Touch ω) Unit

/-- Values without objects of their own. -/
def Handling.inPlace : Handling ω ν where
  clone := fun _ v => v
  free := fun _ => pure ()

/-- Values that are single objects. -/
def Handling.single : Handling ω (Owned ω α) where
  clone := fun owner o => ⟨owner, o.val⟩
  free := Owned.free

section Map

variable [DecidableEq κ] (how : Handling ω ν)

/-- A new container, with clones of the values. -/
def cloneDeep (owner : ω) (m : Owned ω (OrderedMap κ ν)) : Owned ω (OrderedMap κ ν) :=
  ⟨owner, m.val.mapVals (fun _ => how.clone owner)⟩

/-- Put a clone, and free the value it replaces. -/
def putCloneFree (owner : ω) (m : Owned ω (OrderedMap κ ν)) (e : κ × ν) :
    Traced (Touch ω) (Owned ω (OrderedMap κ ν)) := do
  let valNew := how.clone owner e.2
  match m.val.get? e.1 with
  | some valOld =>
    let m ← m.write (m.val.put e.1 valNew)
    how.free valOld
    pure m
  | none => m.write (m.val.put e.1 valNew)

def putAllCloneFree (owner : ω) (m : Owned ω (OrderedMap κ ν)) (es : List (κ × ν)) :
    Traced (Touch ω) (Owned ω (OrderedMap κ ν)) := es.foldlM (putCloneFree how owner) m

def removeFree (m : Owned ω (OrderedMap κ ν)) (k : κ) :
    Traced (Touch ω) (Owned ω (OrderedMap κ ν)) :=
  match m.val.get? k with
  | some valOld => do
    let m ← m.write (m.val.remove k)
    how.free valOld
    pure m
  | none => pure m

def removeInFree (m : Owned ω (OrderedMap κ ν)) (ks : List κ) :
    Traced (Touch ω) (Owned ω (OrderedMap κ ν)) := ks.foldlM (removeFree how) m

/-- Free a container and its values. -/
def freeVals (m : Owned ω (OrderedMap κ ν)) : Traced (Touch ω) Unit := do
  m.val.vals.foldlM (fun _ => how.free) ()
  m.free

end Map

section Set

variable {eqVal : α → α → Bool}

def add (s : Owned ω (OrderedSet α eqVal)) (a : α) :
    Traced (Touch ω) (Owned ω (OrderedSet α eqVal)) :=
  if s.val.contains a then pure s else s.write (s.val.add a)

def addAll (s : Owned ω (OrderedSet α eqVal)) (as : List α) :
    Traced (Touch ω) (Owned ω (OrderedSet α eqVal)) := as.foldlM add s

def remove (s : Owned ω (OrderedSet α eqVal)) (a : α) :
    Traced (Touch ω) (Owned ω (OrderedSet α eqVal)) :=
  if s.val.contains a then s.write (s.val.remove a) else pure s

def removeIn (s : Owned ω (OrderedSet α eqVal)) (as : List α) :
    Traced (Touch ω) (Owned ω (OrderedSet α eqVal)) := as.foldlM remove s

end Set

/-! ### Rules -/

/-- A handling that makes values private to an owner, and frees no others with them. -/
structure Handling.Private (how : Handling ω ν) (owner : ω) (own : ν → Prop) (abs : ν → β) :
    Prop where
  own_clone : ∀ v, own (how.clone owner v)
  abs_clone : ∀ v, abs (how.clone owner v) = abs v
  all_free : ∀ v, own v → (how.free v).All (fun touch => touch.owner = owner)

theorem private_inPlace (owner : ω) :
    (Handling.inPlace : Handling ω ν).Private owner (fun _ => True) (fun v => v) where
  own_clone := fun _ => True.intro
  abs_clone := fun _ => rfl
  all_free := fun _ _ => Traced.all_pure ()

theorem private_single (owner : ω) :
    (Handling.single : Handling ω (Owned ω α)).Private owner (fun o => o.owner = owner)
      Owned.val where
  own_clone := fun _ => rfl
  abs_clone := fun _ => rfl
  all_free := fun _ h => Traced.all_emit.mpr h

/-- A private container that stands for a map of what its values stand for. -/
structure Represents (owner : ω) (own : ν → Prop) (abs : ν → β) (m : Owned ω (OrderedMap κ ν))
    (g : OrderedMap κ β) : Prop where
  owner : m.owner = owner
  vals : ∀ v ∈ m.val.vals, own v
  abs : m.val.mapVals (fun _ => abs) = g

variable {owner : ω} {own : ν → Prop} {abs : ν → β} {how : Handling ω ν}

theorem yields_write {o : Owned ω α} {Q : Owned ω α → Prop} {a : α} (howner : o.owner = owner)
    (h : Q { o with val := a }) :
    Traced.Yields (fun touch : Touch ω => touch.owner = owner) (o.write a) Q := .emit howner h

theorem yields_free {o : Owned ω α} (howner : o.owner = owner) :
    Traced.Yields (fun touch : Touch ω => touch.owner = owner) o.free (fun _ => True) :=
  .emit howner True.intro

/-- A private object with a known value. -/
structure Is (owner : ω) (o : Owned ω α) (a : α) : Prop where
  owner : o.owner = owner
  val : o.val = a

section Set

variable {eqVal : α → α → Bool} {s : Owned ω (OrderedSet α eqVal)} {t : OrderedSet α eqVal}

theorem yields_add (h : Is owner s t) (a : α) :
    Traced.Yields (fun touch => touch.owner = owner) (s.add a) (Is owner · (t.add a)) := by
  obtain ⟨howner, rfl⟩ := h
  unfold add
  split
  · rename_i hmem
    refine .pure ⟨howner, ?_⟩
    rw [OrderedSet.add, dif_pos hmem]
  · exact yields_write howner ⟨howner, rfl⟩

theorem yields_remove (h : Is owner s t) (a : α) :
    Traced.Yields (fun touch => touch.owner = owner) (s.remove a) (Is owner · (t.remove a)) := by
  obtain ⟨howner, rfl⟩ := h
  unfold remove
  split
  · exact yields_write howner ⟨howner, rfl⟩
  · rename_i hmem
    exact .pure ⟨howner, (OrderedSet.remove_of_not_contains (by simpa using hmem)).symm⟩

theorem yields_addAll (h : Is owner s t) (as : List α) :
    Traced.Yields (fun touch => touch.owner = owner) (s.addAll as)
      (Is owner · (as.foldl OrderedSet.add t)) :=
  Traced.Yields.foldlM (I := Is owner) (fun _ _ a _ h => yields_add h a) h

theorem yields_removeIn (h : Is owner s t) (as : List α) :
    Traced.Yields (fun touch => touch.owner = owner) (s.removeIn as)
      (Is owner · (as.foldl OrderedSet.remove t)) :=
  Traced.Yields.foldlM (I := Is owner) (fun _ _ a _ h => yields_remove h a) h

end Set

variable [DecidableEq κ] {m : Owned ω (OrderedMap κ ν)} {g : OrderedMap κ β}

omit [DecidableEq κ] in
theorem represents_cloneDeep (hhow : how.Private owner own abs)
    (h : m.val.mapVals (fun _ => abs) = g) :
    Represents owner own abs (cloneDeep how owner m) g where
  owner := rfl
  vals := by
    intro v hv
    rw [cloneDeep, OrderedMap.vals_mapVals] at hv
    obtain ⟨e, -, rfl⟩ := List.mem_map.mp hv
    exact hhow.own_clone e.2
  abs := by
    rw [← h]
    apply OrderedMap.ext
    simp [cloneDeep, OrderedMap.mapVals, hhow.abs_clone]

private theorem own_of_get? {k : κ} {v : ν} (h : Represents owner own abs m g)
    (hget : m.val.get? k = some v) : own v := h.vals v (OrderedMap.mem_vals_of_get? hget)

private theorem represents_put (hhow : how.Private owner own abs)
    (h : Represents owner own abs m g) (k : κ) (v : ν) :
    Represents owner own abs { m with val := m.val.put k (how.clone owner v) }
      (g.put k (abs v)) where
  owner := h.owner
  vals := fun w hw => by
    rcases OrderedMap.mem_vals_put hw with rfl | hw
    · exact hhow.own_clone v
    · exact h.vals w hw
  abs := by
    rw [← h.abs, ← hhow.abs_clone v]
    exact OrderedMap.mapVals_put m.val abs k (how.clone owner v)

private theorem represents_remove (h : Represents owner own abs m g) (k : κ) :
    Represents owner own abs { m with val := m.val.remove k } (g.remove k) where
  owner := h.owner
  vals := fun w hw => h.vals w (OrderedMap.mem_vals_remove hw)
  abs := by
    rw [← h.abs]
    exact OrderedMap.mapVals_remove m.val abs k

theorem yields_putCloneFree (hhow : how.Private owner own abs) (h : Represents owner own abs m g)
    (e : κ × ν) :
    Traced.Yields (fun touch => touch.owner = owner) (putCloneFree how owner m e)
      (Represents owner own abs · (g.put e.1 (abs e.2))) := by
  have hput := represents_put hhow h e.1 e.2
  unfold putCloneFree
  cases hget : m.val.get? e.1 with
  | none => exact yields_write h.owner hput
  | some valOld =>
    refine Traced.Yields.bind (yields_write (Q := (Represents owner own abs · _)) h.owner hput)
      fun m' hm' => ?_
    have hfree := hhow.all_free valOld (own_of_get? h hget)
    exact (Traced.Yields.mk (Q := fun _ => True) True.intro hfree).bind fun _ _ => .pure hm'

theorem yields_putAllCloneFree (hhow : how.Private owner own abs)
    (h : Represents owner own abs m g) (es : List (κ × ν)) :
    Traced.Yields (fun touch => touch.owner = owner) (putAllCloneFree how owner m es)
      (Represents owner own abs · (g.putAll (es.map (fun e => (e.1, abs e.2))))) := by
  rw [OrderedMap.putAll, List.foldl_map]
  exact Traced.Yields.foldlM (I := Represents owner own abs)
    (fun _ _ e _ h => yields_putCloneFree hhow h e) h

theorem yields_removeFree (hhow : how.Private owner own abs) (h : Represents owner own abs m g)
    (k : κ) :
    Traced.Yields (fun touch => touch.owner = owner) (removeFree how m k)
      (Represents owner own abs · (g.remove k)) := by
  have hremove := represents_remove h k
  unfold removeFree
  cases hget : m.val.get? k with
  | none =>
    have hnone : k ∉ m.val.keys := OrderedMap.get?_eq_none_iff.mp hget
    refine .pure ?_
    rwa [OrderedMap.remove_of_not_mem hnone] at hremove
  | some valOld =>
    refine Traced.Yields.bind (yields_write (Q := (Represents owner own abs · _)) h.owner hremove)
      fun m' hm' => ?_
    have hfree := hhow.all_free valOld (own_of_get? h hget)
    exact (Traced.Yields.mk (Q := fun _ => True) True.intro hfree).bind fun _ _ => .pure hm'

theorem yields_removeInFree (hhow : how.Private owner own abs) (h : Represents owner own abs m g)
    (ks : List κ) :
    Traced.Yields (fun touch => touch.owner = owner) (removeInFree how m ks)
      (Represents owner own abs · (g.removeAll ks)) :=
  Traced.Yields.foldlM (I := Represents owner own abs)
    (fun _ _ k _ h => yields_removeFree hhow h k) h

omit [DecidableEq κ] in
theorem yields_freeVals (hhow : how.Private owner own abs) (h : Represents owner own abs m g) :
    Traced.Yields (fun touch => touch.owner = owner) (freeVals how m) (fun _ => True) := by
  refine Traced.Yields.bind (Q := fun _ => True) ?_ fun _ _ => yields_free h.owner
  exact Traced.Yields.foldlM (I := fun _ (_ : Unit) => True) (g := fun d _ => d) (d := ())
    (fun _ _ v hv _ => ⟨True.intro, hhow.all_free v (h.vals v hv)⟩) True.intro

end Owned

end WayDisplays.Lib
