/- What the events of the compositor change of the display, and what they leave alone. -/

import WayDisplays.Model.Act

set_option autoImplicit false
set_option relaxedAutoImplicit false

namespace WayDisplays.Act.Listeners

open Lib (OrderedMap)
open Model

theorem displFinishedHead_delta (displ : Displ) (zhead : ZHead) :
    (displFinishedHead displ zhead).delta = displ.delta := by
  unfold displFinishedHead
  split <;> rfl

theorem displFinishedHead_heads (displ : Displ) (zhead : ZHead) :
    (displFinishedHead displ zhead).heads = displ.heads.remove zhead := by
  unfold displFinishedHead
  split
  · rename_i hnone
    refine OrderedMap.ext (List.filter_eq_self.mpr fun e he => ?_).symm
    have hne : e.1 ≠ zhead := fun h =>
      OrderedMap.get?_eq_none_iff.mp hnone (h ▸ List.mem_map_of_mem he)
    exact decide_eq_true hne
  · rfl

theorem displFinishedHead_state (displ : Displ) (zhead : ZHead) :
    (displFinishedHead displ zhead).state = displ.state := by
  unfold displFinishedHead
  split <;> rfl

theorem displListener_delta (displ : Displ) (event : WlEvent) :
    (displListener displ event).delta = displ.delta := by
  cases event with
  | headFinished zhead => exact displFinishedHead_delta displ zhead
  | _ => rfl

theorem displListener_state {displ : Displ} {event : WlEvent}
    (h : ∀ reply, event ≠ .configuration reply) :
    (displListener displ event).state = displ.state := by
  cases event with
  | configuration reply => exact absurd rfl (h reply)
  | headFinished zhead => exact displFinishedHead_state displ zhead
  | _ => rfl

theorem mem_keys_displListener {displ : Displ} {event : WlEvent} {z : ZHead} :
    z ∈ (displListener displ event).heads.keys ↔
      (z ∈ displ.heads.keys ∧ event ≠ .headFinished z) ∨ event = .managerHead z := by
  cases event with
  | managerHead zhead =>
    simp only [displListener, displAddHead, OrderedMap.mem_keys_put]
    constructor
    · rintro (rfl | h)
      · exact Or.inr rfl
      · exact Or.inl ⟨h, by simp⟩
    · rintro (⟨h, _⟩ | h)
      · exact Or.inr h
      · injection h with h
        exact Or.inl h.symm
  | head zhead event => simp [displListener]
  | headFinished zhead =>
    simp [displListener, displFinishedHead_heads, OrderedMap.mem_keys_remove, eq_comm]
  | mode zhead zmode event => simp [displListener]
  | configuration reply => simp [displListener]

/-- A head after an event is new, or the head there was, which a listener may have changed. -/
theorem get?_displListener {displ : Displ} {event : WlEvent} {z : ZHead} {head' : Head}
    (h : (displListener displ event).heads.get? z = some head') :
    (event = .managerHead z ∧ head' = headInit) ∨
      ∃ head, displ.heads.get? z = some head ∧
        ((∃ e, event = .head z e ∧ head' = headListener head e) ∨
          (∃ zmode e, event = .mode z zmode e ∧ head' = modeListener head zmode e) ∨
          head' = head ∧ (∀ e, event ≠ .head z e) ∧ ∀ zmode e, event ≠ .mode z zmode e) := by
  cases event with
  | managerHead zhead =>
    by_cases hz : z = zhead
    · subst hz
      simp only [displListener, displAddHead, OrderedMap.get?_put_self] at h
      exact Or.inl ⟨rfl, (Option.some.inj h).symm⟩
    · simp only [displListener, displAddHead] at h
      rw [OrderedMap.get?_put_ne _ _ hz] at h
      exact Or.inr ⟨head', h, Or.inr (Or.inr ⟨rfl, by simp, by simp⟩)⟩
  | head zhead e =>
    simp only [displListener, OrderedMap.get?_modify] at h
    split at h
    · rename_i hz
      subst hz
      obtain ⟨head, hget, rfl⟩ := Option.map_eq_some_iff.mp h
      exact Or.inr ⟨head, hget, Or.inl ⟨e, rfl, rfl⟩⟩
    · rename_i hz
      exact Or.inr ⟨head', h, Or.inr (Or.inr ⟨rfl, by simp [Ne.symm hz], by simp⟩)⟩
  | headFinished zhead =>
    simp only [displListener, displFinishedHead_heads] at h
    have hz : z ≠ zhead := by
      rintro rfl
      simp at h
    rw [OrderedMap.get?_remove_ne _ hz] at h
    exact Or.inr ⟨head', h, Or.inr (Or.inr ⟨rfl, by simp, by simp⟩)⟩
  | mode zhead zmode e =>
    simp only [displListener, OrderedMap.get?_modify] at h
    split at h
    · rename_i hz
      subst hz
      obtain ⟨head, hget, rfl⟩ := Option.map_eq_some_iff.mp h
      exact Or.inr ⟨head, hget, Or.inr (Or.inl ⟨zmode, e, rfl, rfl⟩)⟩
    · rename_i hz
      exact Or.inr ⟨head', h, Or.inr (Or.inr ⟨rfl, by simp, by simp [Ne.symm hz]⟩)⟩
  | configuration reply =>
    exact Or.inr ⟨head', h, Or.inr (Or.inr ⟨rfl, by simp, by simp⟩)⟩

end WayDisplays.Act.Listeners
