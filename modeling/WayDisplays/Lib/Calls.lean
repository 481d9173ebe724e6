/- Calls on a component that may fail, answered as those on what it stands for. -/

import Mathlib.Data.List.Basic

set_option autoImplicit false
set_option relaxedAutoImplicit false

namespace WayDisplays.Lib.Calls

universe u v w x

variable {σ : Type u} {τ : Type v} {ε : Type w} {ο : Type x}

/-- Make calls one after the other, until one fails. -/
def run (step : σ → ε → Option (σ × ο)) : σ → List ε → Option (σ × List ο)
  | s, [] => some (s, [])
  | s, c :: cs => do
    let (s, answer) ← step s c
    let (s, answers) ← run step s cs
    some (s, answer :: answers)

/-- Every answer is one that may be given when its call is made. -/
def Answered (next : τ → ε → τ) (allowed : τ → ε → ο → Prop) : τ → List ε → List ο → Prop
  | _, [], answers => answers = []
  | t, c :: cs, answers => ∃ answer rest, answers = answer :: rest ∧ allowed t c answer ∧
      Answered next allowed (next t c) cs rest

/-- A call that may be made does not fail, and leads to what it stands for. -/
structure Refines (step : σ → ε → Option (σ × ο)) (next : τ → ε → τ)
    (allowed : τ → ε → ο → Prop) (rel : σ → τ → Prop) (legal : ε → Prop) : Prop where
  step : ∀ s t c, rel s t → legal c →
    ∃ s' answer, step s c = some (s', answer) ∧ allowed t c answer ∧ rel s' (next t c)

variable {step : σ → ε → Option (σ × ο)} {next : τ → ε → τ} {allowed : τ → ε → ο → Prop}
  {rel : σ → τ → Prop} {legal : ε → Prop}

theorem Refines.run (h : Refines step next allowed rel legal) {s : σ} {t : τ} (hrel : rel s t)
    (cs : List ε) (hlegal : ∀ c ∈ cs, legal c) :
    ∃ s' answers, Calls.run step s cs = some (s', answers) ∧ Answered next allowed t cs answers ∧
      rel s' (cs.foldl next t) := by
  induction cs generalizing s t with
  | nil => exact ⟨s, [], rfl, rfl, hrel⟩
  | cons c cs ih =>
    obtain ⟨s₁, answer, hstep, hallowed, hrel₁⟩ :=
      h.step s t c hrel (hlegal c List.mem_cons_self)
    obtain ⟨s', answers, hrun, hanswered, hrel'⟩ :=
      ih hrel₁ (fun c' hc' => hlegal c' (List.mem_cons_of_mem c hc'))
    refine ⟨s', answer :: answers, ?_, ⟨answer, answers, rfl, hallowed, hanswered⟩, hrel'⟩
    rw [Calls.run]
    simp only [hstep, hrun, Option.bind_eq_bind, Option.bind_some]

end WayDisplays.Lib.Calls
