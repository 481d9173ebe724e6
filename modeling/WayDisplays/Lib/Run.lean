/- Runs of a partial labelled step function: invariants, exact conditions and outputs. -/

import Mathlib.Data.List.Basic

set_option autoImplicit false
set_option relaxedAutoImplicit false

namespace WayDisplays.Lib.Run

universe u v w

variable {σ : Type u} {ε : Type v} {ο : Type w} (step : σ → ε → Option σ)

/-- The state after a list of labels, provided every step is enabled. -/
def run : σ → List ε → Option σ
  | s, [] => some s
  | s, e :: es => (step s e).bind (fun s' => run s' es)

/-- A property of every state a run passes through, the first and the last included. -/
def Always (P : σ → Prop) : σ → List ε → Prop
  | s, [] => P s
  | s, e :: es => P s ∧ ∀ s', step s e = some s' → Always P s' es

/-- A condition met by every step a run takes, read in the state before the step. -/
def Along (C : σ → ε → Prop) : σ → List ε → Prop
  | _, [] => True
  | s, e :: es => ∀ s', step s e = some s' → C s e ∧ Along C s' es

/-- What the steps of a run emit, in order. -/
def outputs (out : σ → ε → List ο) : σ → List ε → List ο
  | _, [] => []
  | s, e :: es => match step s e with
    | none => []
    | some s' => out s e ++ outputs out s' es

def Reachable (s₀ s : σ) : Prop := ∃ es, run step s₀ es = some s

variable {step}

@[simp] theorem run_nil (s : σ) : run step s [] = some s := rfl

theorem run_cons {s s' : σ} {e : ε} (h : step s e = some s') (es : List ε) :
    run step s (e :: es) = run step s' es := by
  rw [run, h, Option.bind_some]

theorem run_cons_eq_some {s t : σ} {e : ε} {es : List ε} :
    run step s (e :: es) = some t ↔ ∃ s', step s e = some s' ∧ run step s' es = some t := by
  rw [run, Option.bind_eq_some_iff]

theorem run_append (s : σ) (es fs : List ε) :
    run step s (es ++ fs) = (run step s es).bind (fun s' => run step s' fs) := by
  induction es generalizing s with
  | nil => rfl
  | cons e es ih =>
    simp only [List.cons_append, run]
    cases step s e with
    | none => rfl
    | some s' => exact ih s'

theorem outputs_cons {s s' : σ} {e : ε} (h : step s e = some s') (out : σ → ε → List ο)
    (es : List ε) : outputs step out s (e :: es) = out s e ++ outputs step out s' es := by
  simp only [outputs, h]

theorem Along.head {C : σ → ε → Prop} {s s' : σ} {e : ε} {es : List ε}
    (h : Along step C s (e :: es)) (hstep : step s e = some s') : C s e :=
  (h s' hstep).1

theorem Along.tail {C : σ → ε → Prop} {s s' : σ} {e : ε} {es : List ε}
    (h : Along step C s (e :: es)) (hstep : step s e = some s') : Along step C s' es :=
  (h s' hstep).2

theorem Along.of_append {C : σ → ε → Prop} {s t : σ} {es fs : List ε}
    (h : Along step C s (es ++ fs)) (hrun : run step s es = some t) : Along step C t fs := by
  induction es generalizing s with
  | nil => exact Option.some.inj hrun ▸ h
  | cons e es ih =>
    obtain ⟨s', hstep, hrun⟩ := run_cons_eq_some.mp hrun
    exact ih (h s' hstep).2 hrun

/-- Conditions that agree on the steps there are. -/
theorem along_congr {C D : σ → ε → Prop}
    (h : ∀ s e s', step s e = some s' → (C s e ↔ D s e)) (s : σ) (es : List ε) :
    Along step C s es ↔ Along step D s es := by
  induction es generalizing s with
  | nil => exact Iff.rfl
  | cons e es ih =>
    constructor
    · exact fun hC s' hs' => ⟨(h s e s' hs').mp (hC s' hs').1, (ih s').mp (hC s' hs').2⟩
    · exact fun hD s' hs' => ⟨(h s e s' hs').mpr (hD s' hs').1, (ih s').mpr (hD s' hs').2⟩

theorem along_of_forall {C : σ → ε → Prop} (h : ∀ s e, C s e) (s : σ) (es : List ε) :
    Along step C s es := by
  induction es generalizing s with
  | nil => exact True.intro
  | cons e es ih => exact fun s' _ => ⟨h s e, ih s'⟩

/-- A condition on the labels alone. -/
theorem along_of_mem {C : ε → Prop} {es : List ε} (h : ∀ e ∈ es, C e) (s : σ) :
    Along step (fun _ e => C e) s es := by
  induction es generalizing s with
  | nil => exact True.intro
  | cons e es ih =>
    exact fun s' _ => ⟨h e List.mem_cons_self, ih (fun f hf => h f (List.mem_cons_of_mem e hf)) s'⟩

theorem Always.first {P : σ → Prop} {s : σ} {es : List ε} (h : Always step P s es) : P s := by
  cases es with
  | nil => exact h
  | cons e es => exact h.1

theorem Always.last {P : σ → Prop} {s t : σ} {es : List ε} (h : Always step P s es)
    (hrun : run step s es = some t) : P t := by
  induction es generalizing s with
  | nil => exact Option.some.inj hrun ▸ h
  | cons e es ih =>
    obtain ⟨s', hstep, hrun⟩ := run_cons_eq_some.mp hrun
    exact ih (h.2 s' hstep) hrun

theorem Along.mono {C D : σ → ε → Prop} (hCD : ∀ s e, C s e → D s e) {s : σ} {es : List ε}
    (h : Along step C s es) : Along step D s es := by
  induction es generalizing s with
  | nil => exact True.intro
  | cons e es ih => exact fun s' hstep => ⟨hCD s e (h.head hstep), ih (h.tail hstep)⟩

theorem Always.mono {P Q : σ → Prop} (hPQ : ∀ s, P s → Q s) {s : σ} {es : List ε}
    (h : Always step P s es) : Always step Q s es := by
  induction es generalizing s with
  | nil => exact hPQ s h
  | cons e es ih => exact ⟨hPQ s h.1, fun s' hstep => ih (h.2 s' hstep)⟩

theorem always_and {P Q : σ → Prop} {s : σ} {es : List ε} :
    Always step (fun s => P s ∧ Q s) s es ↔ Always step P s es ∧ Always step Q s es := by
  constructor
  · exact fun h => ⟨h.mono fun _ hs => hs.1, h.mono fun _ hs => hs.2⟩
  · rintro ⟨hP, hQ⟩
    induction es generalizing s with
    | nil => exact ⟨hP, hQ⟩
    | cons e es ih =>
      exact ⟨⟨hP.1, hQ.1⟩, fun s' hstep => ih (hP.2 s' hstep) (hQ.2 s' hstep)⟩

/-- Properties that agree on the states a run passes through. -/
theorem always_congr_of {I P Q : σ → Prop} (hPQ : ∀ s, I s → (P s ↔ Q s)) {s : σ} {es : List ε}
    (hI : Always step I s es) : Always step P s es ↔ Always step Q s es := by
  constructor
  · exact fun h => (always_and.mpr ⟨hI, h⟩).mono fun s hs => (hPQ s hs.1).mp hs.2
  · exact fun h => (always_and.mpr ⟨hI, h⟩).mono fun s hs => (hPQ s hs.1).mpr hs.2

/-- An invariant of the steps that meet `C` holds along every run whose steps all do. -/
theorem always_of_along {I : σ → Prop} {C : σ → ε → Prop}
    (hstep : ∀ s e s', I s → C s e → step s e = some s' → I s')
    {s : σ} {es : List ε} (hs : I s) (hC : Along step C s es) : Always step I s es := by
  induction es generalizing s with
  | nil => exact hs
  | cons e es ih =>
    exact ⟨hs, fun s' h => ih (hstep s e s' hs (hC.head h) h) (hC.tail h)⟩

/-- An invariant of states and of what was emitted so far. -/
theorem run_outputs_inv {I : σ → List ο → Prop} {C : σ → ε → Prop} {out : σ → ε → List ο}
    (hstep : ∀ s e s' acc, I s acc → C s e → step s e = some s' → I s' (acc ++ out s e))
    {s t : σ} {es : List ε} {acc : List ο} (hs : I s acc) (hC : Along step C s es)
    (hrun : run step s es = some t) : I t (acc ++ outputs step out s es) := by
  induction es generalizing s acc with
  | nil =>
    obtain rfl := Option.some.inj hrun
    simpa [outputs] using hs
  | cons e es ih =>
    obtain ⟨s', h, hrest⟩ := run_cons_eq_some.mp hrun
    rw [outputs_cons h, ← List.append_assoc]
    exact ih (hstep s e s' acc hs (hC.head h) h) (hC.tail h) hrest

/-- Under an invariant `J` of the steps with labels in `E`, `C` is the exact condition for `P`
over runs of such steps: one that meets it keeps `P`, and one that does not lands in a state
without it. -/
theorem always_iff_along_of {E : ε → Prop} {J P : σ → Prop} {C : σ → ε → Prop}
    (hJ : ∀ s e s', E e → J s → step s e = some s' → J s')
    (hstep : ∀ s e s', E e → J s → P s → step s e = some s' → (P s' ↔ C s e))
    {s : σ} {es : List ε} (hes : ∀ e ∈ es, E e) (hs : J s) (hP : P s) :
    Always step P s es ↔ Along step C s es := by
  induction es generalizing s with
  | nil => exact iff_of_true hP True.intro
  | cons e es ih =>
    have he := hes e List.mem_cons_self
    have hrest (e' : ε) (he' : e' ∈ es) : E e' := hes e' (List.mem_cons_of_mem e he')
    constructor
    · intro h s' h'
      have hP' : P s' := (h.2 s' h').first
      have hafter := (ih hrest (hJ s e s' he hs h') hP').mp (h.2 s' h')
      exact ⟨(hstep s e s' he hs hP h').mp hP', hafter⟩
    · intro h
      refine ⟨hP, fun s' h' => ?_⟩
      have hP' : P s' := (hstep s e s' he hs hP h').mpr (h.head h')
      exact (ih hrest (hJ s e s' he hs h') hP').mpr (h.tail h')

theorem always_iff_along {J P : σ → Prop} {C : σ → ε → Prop}
    (hJ : ∀ s e s', J s → step s e = some s' → J s')
    (hstep : ∀ s e s', J s → P s → step s e = some s' → (P s' ↔ C s e))
    {s : σ} {es : List ε} (hs : J s) (hP : P s) : Always step P s es ↔ Along step C s es :=
  always_iff_along_of (E := fun _ => True) (fun s e s' _ => hJ s e s')
    (fun s e s' _ => hstep s e s') (fun _ _ => True.intro) hs hP

/-- An invariant of every step holds of every state reached. -/
theorem Reachable.invariant {I : σ → Prop} {s₀ s : σ} (h₀ : I s₀)
    (hstep : ∀ s e s', I s → step s e = some s' → I s') (h : Reachable step s₀ s) : I s := by
  obtain ⟨es, hes⟩ := h
  induction es generalizing s₀ with
  | nil =>
    obtain rfl := Option.some.inj hes
    exact h₀
  | cons e es ih =>
    obtain ⟨s₁, h₁, hrest⟩ := run_cons_eq_some.mp hes
    exact ih (hstep s₀ e s₁ h₀ h₁) hrest

/-- What a run brings about was brought about by one of its steps. -/
theorem exists_cause {P : σ → Prop} {C : σ → ε → Prop}
    (hstep : ∀ s e s', ¬ P s → step s e = some s' → P s' → C s e) {s t : σ} {es : List ε}
    (hs : ¬ P s) (hrun : run step s es = some t) (ht : P t) :
    ∃ before e after u, es = before ++ e :: after ∧ run step s before = some u ∧ C u e := by
  induction es generalizing s with
  | nil =>
    obtain rfl := Option.some.inj hrun
    exact absurd ht hs
  | cons e es ih =>
    obtain ⟨s', h, hrest⟩ := run_cons_eq_some.mp hrun
    by_cases hs' : P s'
    · exact ⟨[], e, es, s, rfl, rfl, hstep s e s' hs h hs'⟩
    · obtain ⟨before, e', after, u, rfl, hbefore, hcause⟩ := ih hs' hrest
      exact ⟨e :: before, e', after, u, rfl, (run_cons h before).trans hbefore, hcause⟩

theorem Reachable.refl (s : σ) : Reachable step s s := ⟨[], rfl⟩

theorem Reachable.snoc {s₀ s s' : σ} {e : ε} (h : Reachable step s₀ s)
    (hstep : step s e = some s') : Reachable step s₀ s' := by
  obtain ⟨es, hes⟩ := h
  refine ⟨es ++ [e], ?_⟩
  rw [run_append, hes, Option.bind_some, run_cons hstep, run_nil]

end WayDisplays.Lib.Run
