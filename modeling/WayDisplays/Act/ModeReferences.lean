/- Where the server may hold on to a mode, and how each step passes the references on. -/

import WayDisplays.Act.Listeners
import WayDisplays.Act.Requests
import WayDisplays.Act.Spec
import WayDisplays.Model.System

set_option autoImplicit false
set_option relaxedAutoImplicit false

namespace WayDisplays.Act.ModeReferences

open Lib (OrderedMap)
open Model
open Spec (Called Handled HandledHead Stage)

/-- The five places of a head that can hold a mode. -/
def HeadRefers (head : Head) (zmode : ZMode) : Prop :=
  zmode ∈ head.modes.keys ∨ zmode ∈ head.modesFailed.keys ∨ head.zmodePref = some zmode ∨
    head.cur.zmode = some zmode ∨ head.des.zmode = some zmode

/-- A mode held by a head, or by the delta on its behalf. -/
def Refers (displ : Displ) (zhead : ZHead) (zmode : ZMode) : Prop :=
  (∃ head, displ.heads.get? zhead = some head ∧ HeadRefers head zmode) ∨
    (displ.delta.head = some zhead ∧ displ.delta.zmode = some zmode)

def SetsMode (configuration : Configuration) (zmode : ZMode) : Prop :=
  ∃ zhead changes, (zhead, HeadConfig.enable changes) ∈ configuration ∧
    HeadChange.setMode (some zmode) ∈ changes

/-! ### Events -/

private theorem headRefers_headListener {head : Head} {event : HeadEvent} {zmode : ZMode}
    (h : HeadRefers (headListener head event) zmode) :
    HeadRefers head zmode ∨ event = .mode zmode ∨ event = .currentMode zmode := by
  cases event with
  | mode z =>
    simp only [HeadRefers, headListener, OrderedMap.mem_keys_put] at h ⊢
    rcases h with (rfl | h) | h
    · exact Or.inr (Or.inl rfl)
    · exact Or.inl (Or.inl h)
    · exact Or.inl (Or.inr h)
  | currentMode z =>
    simp only [HeadRefers, headListener, Option.some.injEq] at h ⊢
    rcases h with h | h | h | rfl | h
    · exact Or.inl (Or.inl h)
    · exact Or.inl (Or.inr (Or.inl h))
    · exact Or.inl (Or.inr (Or.inr (Or.inl h)))
    · exact Or.inr (Or.inr rfl)
    · exact Or.inl (Or.inr (Or.inr (Or.inr (Or.inr h))))
  | _ => exact Or.inl h

private theorem headRefers_headReleaseMode {head : Head} {zmode z : ZMode} :
    HeadRefers (headReleaseMode head z) zmode ↔
      (zmode ≠ z ∧ HeadRefers head zmode) ∨ zmode ∈ head.modesFailed.keys := by
  have hclear (o : Option ZMode) :
      (if o = some z then none else o) = some zmode ↔ zmode ≠ z ∧ o = some zmode := by
    split
    · rename_i ho
      simp [ho, eq_comm]
    · rename_i ho
      constructor
      · rintro rfl
        exact ⟨fun hz => ho (by rw [hz]), rfl⟩
      · exact And.right
  simp only [HeadRefers, headReleaseMode, OrderedMap.mem_keys_remove, hclear]
  tauto

private theorem headRefers_modeListener {head : Head} {z zmode : ZMode} {event : ModeEvent}
    (h : HeadRefers (modeListener head z event) zmode) :
    HeadRefers head zmode ∨ (event = .preferred ∧ z = zmode) := by
  cases event with
  | size width height =>
    simp only [HeadRefers, modeListener, OrderedMap.keys_modify] at h
    exact Or.inl h
  | refresh refreshMhz =>
    simp only [HeadRefers, modeListener, OrderedMap.keys_modify] at h
    exact Or.inl h
  | preferred =>
    simp only [modeListener, headSetModePref] at h
    split at h
    · exact Or.inl h
    · simp only [HeadRefers, Option.some.injEq] at h ⊢
      rcases h with h | h | rfl | h
      · exact Or.inl (Or.inl h)
      · exact Or.inl (Or.inr (Or.inl h))
      · exact Or.inr (by simp)
      · exact Or.inl (Or.inr (Or.inr (Or.inr h)))
  | finished =>
    rcases headRefers_headReleaseMode.mp h with ⟨_, h⟩ | h
    · exact Or.inl h
    · exact Or.inl (Or.inr (Or.inl h))

private theorem not_headRefers_headInit (zmode : ZMode) : ¬ HeadRefers headInit zmode := by
  simp [HeadRefers, headInit, headStateInit]

/-- An event lets a head hold no other mode than the one the event is about. -/
theorem refers_displListener {displ : Displ} {event : WlEvent} {zhead : ZHead} {zmode : ZMode}
    (h : Refers (displListener displ event) zhead zmode) :
    Refers displ zhead zmode ∨ event = .head zhead (.mode zmode) ∨
      event = .head zhead (.currentMode zmode) ∨ event = .mode zhead zmode .preferred := by
  rcases h with ⟨head', hget', hrefers⟩ | hdelta
  · rcases Listeners.get?_displListener hget' with ⟨_, rfl⟩ | ⟨head, hget, hhead⟩
    · exact absurd hrefers (not_headRefers_headInit zmode)
    · rcases hhead with ⟨e, rfl, rfl⟩ | ⟨z, e, rfl, rfl⟩ | ⟨rfl, _⟩
      · rcases headRefers_headListener hrefers with hrefers | rfl | rfl
        · exact Or.inl (Or.inl ⟨head, hget, hrefers⟩)
        · exact Or.inr (Or.inl rfl)
        · exact Or.inr (Or.inr (Or.inl rfl))
      · rcases headRefers_modeListener hrefers with hrefers | ⟨rfl, rfl⟩
        · exact Or.inl (Or.inl ⟨head, hget, hrefers⟩)
        · exact Or.inr (Or.inr (Or.inr rfl))
      · exact Or.inl (Or.inl ⟨head', hget, hrefers⟩)
  · rw [Listeners.displListener_delta] at hdelta
    exact Or.inl (Or.inr hdelta)

/-- What a finished mode is still held by is what the release leaves out. -/
theorem refers_finished {displ : Displ} {zhead z : ZHead} {zmode : ZMode}
    (h : Refers (displListener displ (.mode zhead zmode .finished)) z zmode) :
    (z = zhead ∧ ∃ head, displ.heads.get? zhead = some head ∧ zmode ∈ head.modesFailed.keys) ∨
      (z ≠ zhead ∧ Refers displ z zmode) ∨ displ.delta.zmode = some zmode := by
  rcases h with ⟨head', hget', hrefers⟩ | hdelta
  · rcases Listeners.get?_displListener hget' with ⟨hnew, _⟩ | ⟨head, hget, hhead⟩
    · exact absurd hnew (by simp)
    · rcases hhead with ⟨e, he, _⟩ | ⟨z', e, he, rfl⟩ | ⟨rfl, _, hother⟩
      · exact absurd he (by simp)
      · obtain ⟨rfl, rfl, rfl⟩ : zhead = z ∧ zmode = z' ∧ .finished = e := by simpa using he
        refine Or.inl ⟨rfl, head, hget, ?_⟩
        exact (headRefers_headReleaseMode.mp hrefers).resolve_left (fun h => h.1 rfl)
      · have hz : z ≠ zhead := fun hz => hother zmode .finished (by rw [hz])
        exact Or.inr (Or.inl ⟨hz, Or.inl ⟨head', hget, hrefers⟩⟩)
  · rw [Listeners.displListener_delta] at hdelta
    exact Or.inr (Or.inr hdelta.2)

theorem refers_finished_of_failed {displ : Displ} {zhead : ZHead} {zmode : ZMode} {head : Head}
    (hget : displ.heads.get? zhead = some head) (h : zmode ∈ head.modesFailed.keys) :
    Refers (displListener displ (.mode zhead zmode .finished)) zhead zmode := by
  refine Or.inl ⟨headReleaseMode head zmode, ?_, headRefers_headReleaseMode.mpr (Or.inr h)⟩
  simp [displListener, modeListener, hget]

/-! ### Calls of act -/

private theorem headRefers_headFailMode {head : Head} {failed : Option ZMode} {zmode : ZMode}
    (h : HeadRefers (headFailMode head failed) zmode) : HeadRefers head zmode := by
  cases failed with
  | none =>
    simp only [HeadRefers, headFailMode] at h ⊢
    tauto
  | some z =>
    cases hget : head.modes.get? z with
    | none =>
      simp only [HeadRefers, headFailMode, hget, OrderedMap.mem_keys_remove] at h ⊢
      tauto
    | some mode =>
      simp only [HeadRefers, headFailMode, hget, OrderedMap.mem_keys_remove,
        OrderedMap.mem_keys_put] at h ⊢
      rcases h with h | (rfl | h) | h | h | h
      · exact Or.inl h.1
      · exact Or.inl (OrderedMap.mem_keys_of_get? hget)
      · exact Or.inr (Or.inl h)
      · exact Or.inr (Or.inr (Or.inl h))
      · exact absurd h (by simp)
      · exact Or.inr (Or.inr (Or.inr (Or.inr h)))

private theorem refers_handledHead {displ : Displ} {zhead : ZHead} {head head' : Head}
    {zmode : ZMode} (hget : displ.heads.get? zhead = some head)
    (h : HandledHead displ zhead head head') (hrefers : HeadRefers head' zmode) :
    Refers displ zhead zmode := by
  cases h with
  | same => exact Or.inl ⟨head, hget, hrefers⟩
  | modeSucceeded _ _ hhead =>
    simp only [HeadRefers] at hrefers
    rcases hrefers with h | h | h | h | h
    · exact Or.inl ⟨head, hget, Or.inl h⟩
    · exact Or.inl ⟨head, hget, Or.inr (Or.inl h)⟩
    · exact Or.inl ⟨head, hget, Or.inr (Or.inr (Or.inl h))⟩
    · exact Or.inr ⟨hhead, h⟩
    · exact Or.inl ⟨head, hget, Or.inr (Or.inr (Or.inr (Or.inr h)))⟩
  | modeFailed => exact Or.inl ⟨head, hget, headRefers_headFailMode hrefers⟩
  | adaptiveSyncFailed => exact Or.inl ⟨head, hget, hrefers⟩

section Call

variable [Platform]

theorem headRefers_desired {cfg : Cfg} {lid : Option Lid} {heads : Heads} {head head' : Head}
    (h : Desire.Heads.Desired cfg lid heads head head') {zmode : ZMode}
    (hrefers : HeadRefers head' zmode) : HeadRefers head zmode := by
  rcases hrefers with hr | hr | hr | hr | hr
  · exact Or.inl (h.modes ▸ hr)
  · exact Or.inr (Or.inl (h.modesFailed ▸ hr))
  · exact Or.inr (Or.inr (Or.inl (h.zmodePref.trans hr)))
  · exact Or.inr (Or.inr (Or.inr (Or.inl (h.cur ▸ hr))))
  · cases hactive : Desire.Spec.active cfg lid heads head with
    | false =>
      rw [h.inactive hactive] at hr
      exact Or.inr (Or.inr (Or.inr (Or.inl hr)))
    | true =>
      rw [(h.active hactive).1] at hr
      exact Or.inl (Desire.Spec.chosenMode_mem hr)

private theorem refers_desire {displ : Displ} {heads : Heads} (hhandled : Handled displ heads)
    (cfg : Cfg) (lid : Option Lid) {zhead : ZHead} {head : Head} {zmode : ZMode}
    (hget : (desire cfg lid heads).2.get? zhead = some head) (hrefers : HeadRefers head zmode) :
    Refers displ zhead zmode := by
  obtain ⟨head₁, hget₁, hdesired⟩ := (Desire.Heads.desired_desire cfg lid heads).2 zhead head hget
  obtain ⟨head₀, hget₀, hhead⟩ := hhandled.head hget₁
  exact refers_handledHead hget₀ hhead (headRefers_desired hdesired hrefers)

/-- A call of act holds on to no mode that was not held before. -/
theorem refers_called {s s' : Server} {configuration : Option Configuration}
    (h : Called s s' configuration) {zhead : ZHead} {zmode : ZMode}
    (hrefers : Refers s'.gDispl zhead zmode) : Refers s.gDispl zhead zmode := by
  cases h with
  | waits _ _ hheads hdelta =>
    rwa [Refers, hheads, hdelta] at hrefers
  | applies _ hhandled _ _ hstage =>
    rcases hrefers with ⟨head', hget', hr⟩ | ⟨hhead, hzmode⟩
    · obtain ⟨head, hget, hsame⟩ := hstage.head hget'
      refine refers_desire hhandled _ _ hget ?_
      rcases hsame with rfl | rfl
      · exact hr
      · exact hr
    · obtain ⟨head, hget, hdes⟩ := hstage.delta_zmode hhead hzmode
      exact refers_desire hhandled _ _ hget (Or.inr (Or.inr (Or.inr (Or.inr hdes))))

omit [Platform] in
theorem setsMode_stage {heads heads' : Heads} {delta : DisplDelta} {configuration : Configuration}
    (h : Stage heads heads' delta (some configuration)) {zmode : ZMode}
    (hsets : SetsMode configuration zmode) :
    ∃ zhead head, heads.get? zhead = some head ∧ head.des.zmode = some zmode := by
  obtain ⟨zhead, changes, hmem, hset⟩ := hsets
  cases h with
  | reapply => simp at hmem
  | adaptiveSync =>
    simp only [List.mem_singleton, Prod.mk.injEq, HeadConfig.enable.injEq] at hmem
    rw [hmem.2] at hset
    simp at hset
  | mode hget =>
    simp only [List.mem_singleton, Prod.mk.injEq, HeadConfig.enable.injEq] at hmem
    rw [hmem.2] at hset
    simp only [List.mem_singleton, HeadChange.setMode.injEq] at hset
    exact ⟨_, _, hget, hset.symm⟩
  | rest =>
    obtain ⟨e, _, he⟩ := List.mem_map.mp hmem
    obtain ⟨_, hconfig⟩ := Prod.mk.inj he
    simp only [headConfig] at hconfig
    split at hconfig
    · obtain rfl := HeadConfig.enable.inj hconfig
      simp at hset
    · exact absurd hconfig (by simp)

/-- A mode that a configuration asks for was held before the call that sent it. -/
theorem refers_sent {s s' : Server} {configuration : Configuration}
    (h : Called s s' (some configuration)) {zmode : ZMode}
    (hsets : SetsMode configuration zmode) : ∃ zhead, Refers s.gDispl zhead zmode := by
  cases h with
  | applies _ hhandled _ _ hstage =>
    obtain ⟨zhead, head, hget, hdes⟩ := setsMode_stage hstage hsets
    exact ⟨zhead, refers_desire hhandled _ _ hget (Or.inr (Or.inr (Or.inr (Or.inr hdes))))⟩

theorem refers_request {s : Server} {request : IpcRequest} {zhead : ZHead} {zmode : ZMode}
    (hrefers : Refers (serverRequest s request).1.gDispl zhead zmode) :
    Refers s.gDispl zhead zmode := by
  rcases hrefers with ⟨head', hget', hr⟩ | hdelta
  · obtain ⟨head, hget, hhead⟩ := Requests.serverRequest_get? s request hget'
    refine Or.inl ⟨head, hget, ?_⟩
    cases hhead with
    | overrides o => exact hr
    | reapply o =>
      simp only [HeadRefers, headReapply, OrderedMap.mem_keys_putAll] at hr ⊢
      rcases hr with (h | h) | h | h | h | h
      · exact Or.inl h
      · exact Or.inr (Or.inl h)
      · exact absurd h (by simp)
      · exact Or.inr (Or.inr (Or.inl h))
      · exact absurd h (by simp)
      · exact Or.inr (Or.inr (Or.inr (Or.inr h)))
  · rw [Requests.serverRequest_delta] at hdelta
    exact Or.inr hdelta

end Call

end WayDisplays.Act.ModeReferences
