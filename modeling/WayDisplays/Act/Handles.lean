/- The handles of heads and modes: what the server holds is what the compositor announced. -/

import WayDisplays.Act.ModeReferences

set_option autoImplicit false
set_option relaxedAutoImplicit false

namespace WayDisplays.Act.Handles

open Lib (OrderedMap)
open Lib.Run
open Model
open ModeReferences
open Spec (Called)

/-! ### Ownership -/

/-- Every mode that is held was announced for the head that holds it. -/
structure Owned (sys : System) : Prop where
  owner : ∀ zhead zmode, Refers sys.server.gDispl zhead zmode →
    ∃ a, sys.compositor.modes.get? zmode = some a ∧ a.zhead = zhead
  deltaHead : ∀ zmode, sys.server.gDispl.delta.zmode = some zmode →
    ∃ zhead, sys.server.gDispl.delta.head = some zhead

private theorem owned_of_refers {sys sys' : System} (howned : Owned sys)
    (hrefers : ∀ zhead zmode, Refers sys'.server.gDispl zhead zmode →
      Refers sys.server.gDispl zhead zmode)
    (hdelta : ∀ zmode, sys'.server.gDispl.delta.zmode = some zmode →
      ∃ zhead, sys'.server.gDispl.delta.head = some zhead)
    (hmodes : sys'.compositor.modes = sys.compositor.modes) : Owned sys' where
  owner zhead zmode h := by
    rw [hmodes]
    exact howned.owner zhead zmode (hrefers zhead zmode h)
  deltaHead := hdelta

theorem hasMode_iff {c : Compositor} {zhead : ZHead} {zmode : ZMode} :
    c.hasMode zhead zmode = true ↔ zhead ∈ c.heads ∧
      ∃ a, c.modes.get? zmode = some a ∧ a.zhead = zhead ∧ a.finished = false := by
  simp only [Compositor.hasMode, Bool.and_eq_true, decide_eq_true_eq, Option.any_eq_true]
  simp

/-- An announced mode keeps its head, and finishes only by its own event. -/
theorem sends_modes {c : Compositor} {event : WlEvent} (hadmits : c.admits event = true)
    {zmode : ZMode} {a : AnnouncedMode} (hget : c.modes.get? zmode = some a) :
    ∃ a', (c.sends event).modes.get? zmode = some a' ∧ a'.zhead = a.zhead ∧
      (a'.finished = a.finished ∨ ∃ zhead, event = .mode zhead zmode .finished) := by
  have hsame : (c.sends event).modes = c.modes → _ := fun hmodes =>
    (⟨a, by rw [hmodes, hget], rfl, Or.inl rfl⟩ : ∃ a',
      (c.sends event).modes.get? zmode = some a' ∧ a'.zhead = a.zhead ∧
        (a'.finished = a.finished ∨ ∃ zhead, event = .mode zhead zmode .finished))
  cases event with
  | managerHead zhead => exact hsame rfl
  | headFinished zhead => exact hsame rfl
  | configuration reply => exact hsame rfl
  | head zhead e =>
    cases e with
    | mode z =>
      have hne : zmode ≠ z := by
        rintro rfl
        simp [Compositor.admits, hget] at hadmits
      exact ⟨a, (OrderedMap.get?_put_ne _ _ hne).trans hget, rfl, Or.inl rfl⟩
    | _ => exact hsame rfl
  | mode zhead z e =>
    simp only [Compositor.sends, OrderedMap.get?_modify, hget, Option.map_some]
    split
    · rename_i hz
      subst hz
      cases e with
      | finished => exact ⟨_, rfl, rfl, Or.inr ⟨zhead, rfl⟩⟩
      | _ => exact ⟨_, rfl, rfl, Or.inl rfl⟩
    · exact ⟨a, rfl, rfl, Or.inl rfl⟩

theorem newly_held {c : Compositor} {event : WlEvent} (hadmits : c.admits event = true)
    {zhead : ZHead} {zmode : ZMode}
    (h : event = .head zhead (.mode zmode) ∨ event = .head zhead (.currentMode zmode) ∨
      event = .mode zhead zmode .preferred) :
    ∃ a, (c.sends event).modes.get? zmode = some a ∧ a.zhead = zhead ∧ a.finished = false := by
  rcases h with rfl | rfl | rfl
  · exact ⟨_, OrderedMap.get?_put_self _ _ _, rfl, rfl⟩
  · obtain ⟨_, a, hget, howner, hlive⟩ := hasMode_iff.mp hadmits
    exact ⟨a, hget, howner, hlive⟩
  · obtain ⟨_, a, hget, howner, hlive⟩ := hasMode_iff.mp hadmits
    refine ⟨a, ?_, howner, hlive⟩
    simp [Compositor.sends, hget, AnnouncedMode.update]

theorem owned_dispatch {sys : System} {event : WlEvent} (howned : Owned sys)
    (hadmits : sys.compositor.admits event = true) : Owned (sys.dispatch event) where
  owner zhead zmode hrefers := by
    rcases refers_displListener hrefers with hrefers | hnew
    · obtain ⟨a, hget, howner⟩ := howned.owner zhead zmode hrefers
      obtain ⟨a', hget', hsame, _⟩ := sends_modes hadmits hget
      exact ⟨a', hget', hsame.trans howner⟩
    · obtain ⟨a, hget, howner, _⟩ := newly_held hadmits hnew
      exact ⟨a, hget, howner⟩
  deltaHead zmode hdelta := by
    simp only [System.dispatch, Listeners.displListener_delta] at hdelta ⊢
    exact howned.deltaHead zmode hdelta

theorem owned_systemInit (cfg : Cfg) (lid : Option Lid) : Owned (systemInit cfg lid) := by
  refine ⟨?_, fun zmode hzmode => ?_⟩
  · rintro zhead zmode (⟨head, hget, _⟩ | ⟨hhead, _⟩)
    · simp [systemInit, displInit] at hget
    · simp [systemInit, displInit, displDeltaNone] at hhead
  · simp [systemInit, displInit, displDeltaNone] at hzmode

/-! ### Tracked heads -/

/-- The heads that are tracked are those that are there, and no handle is used twice. -/
structure Tracked (sys : System) : Prop where
  keys : ∀ zhead, zhead ∈ sys.server.gDispl.heads.keys ↔ zhead ∈ sys.compositor.heads
  nodup : sys.compositor.heads.Nodup
  gone : ∀ zhead ∈ sys.compositor.departed, zhead ∉ sys.compositor.heads
  owner : ∀ zmode a, sys.compositor.modes.get? zmode = some a →
    a.zhead ∈ sys.compositor.heads ∨ a.zhead ∈ sys.compositor.departed

/-- A mode after an event is new, or a mode there was, which the event may have described. -/
theorem announced_sends {c : Compositor} {event : WlEvent}
    (hadmits : c.admits event = true) {zmode : ZMode} {a' : AnnouncedMode}
    (h : (c.sends event).modes.get? zmode = some a') :
    (event = .head a'.zhead (.mode zmode) ∧ a'.mode = modeInit ∧ a'.zhead ∈ c.heads) ∨
      ∃ a, c.modes.get? zmode = some a ∧ a.zhead = a'.zhead ∧
        ((∃ e, event = .mode a'.zhead zmode e ∧ a' = a.update e) ∨
          a' = a ∧ (∀ z, event ≠ .head z (.mode zmode)) ∧ ∀ z e, event ≠ .mode z zmode e) := by
  cases event with
  | managerHead zhead => exact Or.inr ⟨a', h, rfl, Or.inr ⟨rfl, by simp, by simp⟩⟩
  | headFinished zhead => exact Or.inr ⟨a', h, rfl, Or.inr ⟨rfl, by simp, by simp⟩⟩
  | configuration reply => exact Or.inr ⟨a', h, rfl, Or.inr ⟨rfl, by simp, by simp⟩⟩
  | head zhead e =>
    cases e with
    | mode z =>
      simp only [Compositor.admits, Bool.and_eq_true, decide_eq_true_eq] at hadmits
      by_cases hz : zmode = z
      · subst hz
        obtain rfl := Option.some.inj ((OrderedMap.get?_put_self _ _ _).symm.trans h)
        exact Or.inl ⟨rfl, rfl, hadmits.1⟩
      · refine Or.inr ⟨a', (OrderedMap.get?_put_ne _ _ hz).symm.trans h, rfl, Or.inr ⟨rfl, ?_⟩⟩
        simp [Ne.symm hz]
    | _ => exact Or.inr ⟨a', h, rfl, Or.inr ⟨rfl, by simp, by simp⟩⟩
  | mode zhead z e =>
    obtain ⟨_, b, hb, howner, _⟩ := hasMode_iff.mp hadmits
    simp only [Compositor.sends, OrderedMap.get?_modify] at h
    split at h
    · rename_i hz
      subst hz
      obtain ⟨a, ha, rfl⟩ := Option.map_eq_some_iff.mp h
      obtain rfl := Option.some.inj (ha.symm.trans hb)
      have hzhead : (a.update e).zhead = a.zhead := by cases e <;> rfl
      exact Or.inr ⟨a, ha, hzhead.symm, Or.inl ⟨e, by rw [hzhead, howner], rfl⟩⟩
    · rename_i hz
      exact Or.inr ⟨a', h, rfl, Or.inr ⟨rfl, by simp, by simp [Ne.symm hz]⟩⟩

theorem tracked_of_same {sys sys' : System} (h : Tracked sys)
    (hkeys : sys'.server.gDispl.heads.keys = sys.server.gDispl.heads.keys)
    (hheads : sys'.compositor.heads = sys.compositor.heads)
    (hdeparted : sys'.compositor.departed = sys.compositor.departed)
    (howner : ∀ zmode a', sys'.compositor.modes.get? zmode = some a' →
      a'.zhead ∈ sys.compositor.heads ∨ ∃ a, sys.compositor.modes.get? zmode = some a ∧
        a.zhead = a'.zhead) : Tracked sys' where
  keys zhead := by rw [hkeys, hheads, h.keys]
  nodup := hheads ▸ h.nodup
  gone := by rw [hdeparted, hheads]; exact h.gone
  owner zmode a' hget := by
    rw [hheads, hdeparted]
    rcases howner zmode a' hget with hlive | ⟨a, ha, hsame⟩
    · exact Or.inl hlive
    · exact hsame ▸ h.owner zmode a ha

theorem tracked_dispatch {sys : System} {event : WlEvent} (h : Tracked sys)
    (hadmits : sys.compositor.admits event = true) : Tracked (sys.dispatch event) := by
  have howner : ∀ zmode a', (sys.dispatch event).compositor.modes.get? zmode = some a' →
      a'.zhead ∈ sys.compositor.heads ∨ ∃ a, sys.compositor.modes.get? zmode = some a ∧
        a.zhead = a'.zhead := by
    intro zmode a' hget
    rcases announced_sends hadmits hget with ⟨_, _, hlive⟩ | ⟨a, ha, hsame, _⟩
    · exact Or.inl hlive
    · exact Or.inr ⟨a, ha, hsame⟩
  cases event with
  | managerHead zhead =>
    simp only [Compositor.admits, Bool.and_eq_true, decide_eq_true_eq] at hadmits
    refine ⟨fun z => ?_, ?_, ?_, fun zmode a hget => ?_⟩
    · simp [System.dispatch, Compositor.sends, Listeners.mem_keys_displListener, h.keys, eq_comm]
    · simpa [System.dispatch, Compositor.sends, List.nodup_append, h.nodup] using
        fun z hz (heq : z = zhead) => hadmits.1 (heq ▸ hz)
    · intro z hz
      have hne : z ≠ zhead := fun heq => hadmits.2 (heq ▸ hz)
      simp [System.dispatch, Compositor.sends, h.gone z hz, hne]
    · exact (h.owner zmode a hget).imp_left (List.mem_append_left _)
  | headFinished zhead =>
    have hlive : zhead ∈ sys.compositor.heads := by simpa [Compositor.admits] using hadmits
    refine ⟨fun z => ?_, h.nodup.erase zhead, fun z hz => ?_, fun zmode a hget => ?_⟩
    · simp [System.dispatch, Compositor.sends, Listeners.mem_keys_displListener, h.keys,
        h.nodup.mem_erase_iff, and_comm, eq_comm]
    · simp only [System.dispatch, Compositor.sends, List.mem_append, List.mem_singleton] at hz
      simp only [System.dispatch, Compositor.sends, h.nodup.mem_erase_iff]
      rintro ⟨hne, hmem⟩
      rcases hz with hz | hz
      · exact h.gone z hz hmem
      · exact hne hz
    · simp only [System.dispatch, Compositor.sends, h.nodup.mem_erase_iff, List.mem_append,
        List.mem_singleton]
      by_cases hz : a.zhead = zhead
      · exact Or.inr (Or.inr hz)
      · exact (h.owner zmode a hget).imp (fun hmem => ⟨hz, hmem⟩) Or.inl
  | head zhead e =>
    have hheads : (sys.compositor.sends (.head zhead e)).heads = sys.compositor.heads := by
      cases e <;> rfl
    have hdeparted :
        (sys.compositor.sends (.head zhead e)).departed = sys.compositor.departed := by
      cases e <;> rfl
    exact tracked_of_same h (OrderedMap.keys_modify _ _ _) hheads hdeparted howner
  | mode zhead z e => exact tracked_of_same h (OrderedMap.keys_modify _ _ _) rfl rfl howner
  | configuration reply => exact tracked_of_same h rfl rfl rfl howner

theorem tracked_systemInit (cfg : Cfg) (lid : Option Lid) : Tracked (systemInit cfg lid) := by
  constructor <;> simp [systemInit, displInit, compositorInit]

/-! ### Steps -/

variable [Platform]

private theorem owned_act {sys : System} (howned : Owned sys) : Owned sys.act := by
  unfold System.act
  cases hact : Model.act sys.server with
  | error halt => exact ⟨howned.owner, howned.deltaHead⟩
  | ok result =>
    obtain ⟨server, configuration⟩ := result
    have hcalled := Spec.act_called hact
    refine owned_of_refers howned (fun _ _ h => refers_called hcalled h) ?_ rfl
    intro zmode hzmode
    cases hcalled with
    | waits _ _ _ hdelta =>
      rw [hdelta] at hzmode ⊢
      exact howned.deltaHead zmode hzmode
    | applies _ _ _ _ hstage => exact hstage.delta_head_isSome hzmode

theorem owned_step {sys sys' : System} {event : Event} (howned : Owned sys)
    (h : sys.step event = some sys') : Owned sys' := by
  cases event with
  | dispatch event =>
    obtain ⟨hadmits, rfl⟩ := System.step_dispatch h
    exact owned_dispatch howned hadmits
  | act =>
    obtain rfl := System.step_act h
    exact owned_act howned
  | request request =>
    obtain rfl := System.step_request h
    refine owned_of_refers howned (fun _ _ h => refers_request h) ?_ rfl
    simp only [Requests.serverRequest_delta]
    exact howned.deltaHead
  | reload cfg =>
    obtain rfl := System.step_reload h
    exact ⟨howned.owner, howned.deltaHead⟩
  | lid closed =>
    obtain rfl := System.step_lid h
    have hlid := gLidUpdate_gDispl sys.server closed
    refine ⟨?_, ?_⟩
    · simp only [hlid]
      exact howned.owner
    · simp only [hlid]
      exact howned.deltaHead

theorem tracked_step {sys sys' : System} {event : Event} (htracked : Tracked sys)
    (h : sys.step event = some sys') : Tracked sys' := by
  have hsame : ∀ zmode a, sys.compositor.modes.get? zmode = some a →
      a.zhead ∈ sys.compositor.heads ∨ ∃ b, sys.compositor.modes.get? zmode = some b ∧
        b.zhead = a.zhead := fun _ a ha => Or.inr ⟨a, ha, rfl⟩
  cases event with
  | dispatch event =>
    obtain ⟨hadmits, rfl⟩ := System.step_dispatch h
    exact tracked_dispatch htracked hadmits
  | act =>
    obtain rfl := System.step_act h
    unfold System.act
    cases hact : Model.act sys.server with
    | error halt => exact tracked_of_same htracked rfl rfl rfl hsame
    | ok result =>
      obtain ⟨server, configuration⟩ := result
      exact tracked_of_same htracked (Spec.act_called hact).keys rfl rfl hsame
  | request request =>
    obtain rfl := System.step_request h
    exact tracked_of_same htracked (Requests.serverRequest_keys _ _) rfl rfl hsame
  | reload cfg =>
    obtain rfl := System.step_reload h
    exact tracked_of_same htracked rfl rfl rfl hsame
  | lid closed =>
    obtain rfl := System.step_lid h
    exact tracked_of_same htracked (by rw [gLidUpdate_gDispl]) rfl rfl hsame

theorem reachable_tracked {cfg : Cfg} {lid : Option Lid} {sys : System}
    (h : System.Reachable cfg lid sys) : Tracked sys :=
  h.invariant (tracked_systemInit cfg lid) (fun _ _ _ => tracked_step)

end WayDisplays.Act.Handles
