/- Computations that record what they do on the way, and rules for what they return. -/

import Mathlib.Data.List.Basic

set_option autoImplicit false
set_option relaxedAutoImplicit false

namespace WayDisplays.Lib

/-- A value, with what was done to come by it. -/
structure Traced (ε α : Type) where
  val : α
  events : List ε

namespace Traced

variable {ε α β γ : Type}

instance : Monad (Traced ε) where
  pure a := ⟨a, []⟩
  bind x f := ⟨(f x.val).val, x.events ++ (f x.val).events⟩

/-- A single event. -/
def emit (event : ε) (a : α) : Traced ε α := ⟨a, [event]⟩

/-- Go on with a value that is there. -/
def andThen (x : Traced ε (Option α)) (f : α → Traced ε (Option β)) : Traced ε (Option β) := do
  match ← x with
  | some a => f a
  | none => pure none

/-- Every event is as it has to be. -/
def All (P : ε → Prop) (x : Traced ε α) : Prop := ∀ event ∈ x.events, P event

@[simp] theorem val_pure (a : α) : (pure a : Traced ε α).val = a := rfl

@[simp] theorem val_bind (x : Traced ε α) (f : α → Traced ε β) :
    (x >>= f).val = (f x.val).val := rfl

@[simp] theorem val_map (f : α → β) (x : Traced ε α) : (f <$> x).val = f x.val := rfl

theorem val_andThen (x : Traced ε (Option α)) (f : α → Traced ε (Option β)) :
    (x.andThen f).val = x.val.bind (fun a => (f a).val) := by
  rw [andThen, val_bind]
  cases x.val <;> rfl

theorem val_foldlM (f : γ → α → Traced ε γ) (as : List α) (c : γ) :
    (as.foldlM f c).val = as.foldl (fun c a => (f c a).val) c := by
  induction as generalizing c with
  | nil => rfl
  | cons a as ih => rw [List.foldlM_cons, val_bind, ih, List.foldl_cons]

variable {P : ε → Prop}

theorem all_pure (a : α) : (pure a : Traced ε α).All P := fun _ h => absurd h List.not_mem_nil

theorem all_emit {event : ε} {a : α} : (emit event a).All P ↔ P event := by
  simp [All, emit]

theorem all_bind {x : Traced ε α} {f : α → Traced ε β} :
    (x >>= f).All P ↔ x.All P ∧ (f x.val).All P := List.forall_mem_append

theorem all_map {x : Traced ε α} {f : α → β} : (f <$> x).All P ↔ x.All P :=
  all_bind.trans (and_iff_left (all_pure (f x.val)))

theorem all_andThen {x : Traced ε (Option α)} {f : α → Traced ε (Option β)} :
    (x.andThen f).All P ↔ x.All P ∧ ∀ a, x.val = some a → (f a).All P := by
  rw [Traced.andThen, all_bind]
  refine and_congr_right fun _ => ?_
  cases x.val with
  | none => exact iff_of_true (all_pure none) (fun _ h => absurd h (by simp))
  | some a => exact ⟨fun h b hb => Option.some.inj hb ▸ h, fun h => h a rfl⟩

/-- Steps that go wrong or not whatever came before them. -/
theorem all_foldlM {f : γ → α → Traced ε γ} {as : List α} {Q : α → Prop}
    (h : ∀ c, ∀ a ∈ as, (f c a).All P ↔ Q a) (c : γ) :
    (as.foldlM f c).All P ↔ ∀ a ∈ as, Q a := by
  induction as generalizing c with
  | nil => exact iff_of_true (all_pure c) (fun _ h => absurd h List.not_mem_nil)
  | cons a as ih =>
    rw [List.foldlM_cons, all_bind, h c a List.mem_cons_self,
      ih (fun c b hb => h c b (List.mem_cons_of_mem a hb)), List.forall_mem_cons]

/-- A value, by way of events that are all as they have to be. -/
structure Returns (P : ε → Prop) (x : Traced ε α) (a : α) : Prop where
  val : x.val = a
  all : x.All P

namespace Returns

protected theorem pure (a : α) : Returns P (pure a) a := ⟨rfl, all_pure a⟩

theorem emit {event : ε} (h : P event) (a : α) : Returns P (emit event a) a :=
  ⟨rfl, all_emit.mpr h⟩

theorem bind {x : Traced ε α} {a : α} {f : α → Traced ε β} {b : β} (hx : Returns P x a)
    (hf : Returns P (f a) b) : Returns P (x >>= f) b := by
  obtain rfl := hx.val
  exact ⟨hf.val, all_bind.mpr ⟨hx.all, hf.all⟩⟩

theorem map {x : Traced ε α} {a : α} (h : Returns P x a) (f : α → β) :
    Returns P (f <$> x) (f a) := ⟨congrArg f h.val, all_map.mpr h.all⟩

theorem andThen {x : Traced ε (Option α)} {a : Option α} {f : α → Traced ε (Option β)}
    {g : α → Option β} (hx : Returns P x a) (hf : ∀ a, Returns P (f a) (g a)) :
    Returns P (x.andThen f) (a.bind g) := by
  refine hx.bind ?_
  cases a with
  | none => exact .pure none
  | some a => exact hf a

theorem foldlM {f : γ → α → Traced ε γ} {g : γ → α → γ} (h : ∀ c a, Returns P (f c a) (g c a))
    (as : List α) (c : γ) : Returns P (as.foldlM f c) (as.foldl g c) where
  val := by
    rw [val_foldlM]
    exact congrArg (fun step => as.foldl step c) (funext fun c => funext fun a => (h c a).val)
  all := (all_foldlM (Q := fun _ => True) (fun c a _ => iff_of_true (h c a).all trivial) c).mpr
    (fun _ _ => trivial)

end Returns

/-- A value that meets a condition, by way of events that are all as they have to be. -/
structure Yields (P : ε → Prop) (x : Traced ε α) (Q : α → Prop) : Prop where
  val : Q x.val
  all : x.All P

namespace Yields

variable {Q : α → Prop} {R : β → Prop}

protected theorem pure {a : α} (h : Q a) : Yields P (pure a) Q := ⟨h, all_pure a⟩

theorem emit {event : ε} {a : α} (h : P event) (ha : Q a) : Yields P (emit event a) Q :=
  ⟨ha, all_emit.mpr h⟩

theorem bind {x : Traced ε α} {f : α → Traced ε β} (hx : Yields P x Q)
    (hf : ∀ a, Q a → Yields P (f a) R) : Yields P (x >>= f) R :=
  ⟨(hf x.val hx.val).val, all_bind.mpr ⟨hx.all, (hf x.val hx.val).all⟩⟩

theorem mono {Q' : α → Prop} {x : Traced ε α} (h : Yields P x Q) (hQ : ∀ a, Q a → Q' a) :
    Yields P x Q' := ⟨hQ x.val h.val, h.all⟩

theorem map {x : Traced ε α} {f : α → β} (h : Yields P x (fun a => R (f a))) :
    Yields P (f <$> x) R := ⟨h.val, all_map.mpr h.all⟩

/-- Steps that keep an invariant of what there is so far and of what it stands for. -/
theorem foldlM {δ : Type} {I : γ → δ → Prop} {f : γ → α → Traced ε γ} {g : δ → α → δ}
    {as : List α} (h : ∀ c d, ∀ a ∈ as, I c d → Yields P (f c a) (I · (g d a))) {c : γ} {d : δ}
    (hc : I c d) : Yields P (as.foldlM f c) (I · (as.foldl g d)) := by
  induction as generalizing c d with
  | nil => exact .pure hc
  | cons a as ih =>
    rw [List.foldlM_cons, List.foldl_cons]
    exact (h c d a List.mem_cons_self hc).bind fun c hc =>
      ih (fun c d b hb => h c d b (List.mem_cons_of_mem a hb)) hc

end Yields

end Traced

end WayDisplays.Lib
