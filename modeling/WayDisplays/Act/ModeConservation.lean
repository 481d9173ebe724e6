/- Modes move between two maps: none is lost, and none is in both. -/

import WayDisplays.Act.Handles

set_option autoImplicit false
set_option relaxedAutoImplicit false

namespace WayDisplays.Act.ModeConservation

open Lib (OrderedMap)
open Lib.Run
open Model
open Handles
open ModeReferences
open Spec (Called HandledHead)

/-! ### One head -/

/-- The mode is a key of exactly one of the two maps, with its value. -/
def Holds (head : Head) (zmode : ZMode) (mode : Mode) : Prop :=
  (head.modes.get? zmode = some mode ∧ head.modesFailed.get? zmode = none) ∨
    (head.modes.get? zmode = none ∧ head.modesFailed.get? zmode = some mode)

private theorem holds_of_maps {head head' : Head} {zmode : ZMode} {mode : Mode}
    (h : Holds head zmode mode) (hmodes : head'.modes = head.modes)
    (hfailed : head'.modesFailed = head.modesFailed) : Holds head' zmode mode := by
  unfold Holds
  rw [hmodes, hfailed]
  exact h

theorem holds_headFailMode {head : Head} {zmode : ZMode} {mode : Mode}
    (h : Holds head zmode mode) (failed : Option ZMode) :
    Holds (headFailMode head failed) zmode mode := by
  cases failed with
  | none => exact holds_of_maps h rfl rfl
  | some z =>
    by_cases hz : zmode = z
    · subst hz
      rcases h with ⟨hin, _⟩ | ⟨hout, hfailed⟩
      · exact Or.inr ⟨OrderedMap.get?_remove_self _ _, by simp [headFailMode, hin]⟩
      · exact Or.inr ⟨OrderedMap.get?_remove_self _ _, by simpa [headFailMode, hout] using hfailed⟩
    · have hmodes : (headFailMode head (some z)).modes.get? zmode = head.modes.get? zmode :=
        OrderedMap.get?_remove_ne _ hz
      have hfailed : (headFailMode head (some z)).modesFailed.get? zmode =
          head.modesFailed.get? zmode := by
        simp only [headFailMode]
        split
        · exact OrderedMap.get?_put_ne _ _ hz
        · rfl
      unfold Holds
      rw [hmodes, hfailed]
      exact h

/-- A reapply leaves no failed mode: all are back. -/
theorem get?_headReapply {head : Head} {zmode : ZMode} {mode : Mode}
    (h : Holds head zmode mode) : (headReapply head).modes.get? zmode = some mode := by
  simp only [headReapply]
  rcases h with ⟨hin, hnot⟩ | ⟨_, hfailed⟩
  · rw [OrderedMap.get?_putAll_of_not_mem _ _ (OrderedMap.get?_eq_none_iff.mp hnot)]
    exact hin
  · exact OrderedMap.get?_putAll_of_mem _ _ (OrderedMap.keys_nodup _)
      (OrderedMap.get?_eq_some_iff.mp hfailed)

private theorem holds_headReapply {head : Head} {zmode : ZMode} {mode : Mode}
    (h : Holds head zmode mode) : Holds (headReapply head) zmode mode :=
  Or.inl ⟨get?_headReapply h, OrderedMap.get?_empty _⟩

private theorem holds_handledHead {displ : Displ} {zhead : ZHead} {head head' : Head}
    {zmode : ZMode} {mode : Mode} (h : HandledHead displ zhead head head')
    (hholds : Holds head zmode mode) : Holds head' zmode mode := by
  cases h with
  | same => exact hholds
  | modeSucceeded => exact holds_of_maps hholds rfl rfl
  | modeFailed => exact holds_headFailMode hholds _
  | adaptiveSyncFailed => exact holds_of_maps hholds rfl rfl

private theorem holds_requested {request : IpcRequest} {head head' : Head} {zmode : ZMode}
    {mode : Mode} (h : Requests.RequestedHead request head head')
    (hholds : Holds head zmode mode) : Holds head' zmode mode := by
  cases h with
  | overrides => exact holds_of_maps hholds rfl rfl
  | reapply => exact holds_headReapply (holds_of_maps hholds rfl rfl)

private theorem holds_headListener {head : Head} {event : HeadEvent} {zmode : ZMode}
    {mode : Mode} (hne : event ≠ .mode zmode) (h : Holds head zmode mode) :
    Holds (headListener head event) zmode mode := by
  cases event with
  | mode z =>
    have hz : zmode ≠ z := fun hz => hne (by rw [hz])
    unfold Holds
    simp only [headListener]
    rw [OrderedMap.get?_put_ne _ _ hz]
    exact h
  | _ => exact holds_of_maps h rfl rfl

private theorem modesFailed_modeListener (head : Head) (z : ZMode) (event : ModeEvent) :
    (modeListener head z event).modesFailed = head.modesFailed := by
  cases event with
  | preferred =>
    simp only [modeListener, headSetModePref]
    split <;> rfl
  | _ => rfl

/-- A mode that is described before it fails keeps the value that is announced. -/
private theorem holds_modeListener {head : Head} {z zmode : ZMode} {event : ModeEvent}
    {a : AnnouncedMode} (hnot : event ≠ .finished)
    (hfresh : z = zmode → event = .preferred ∨ zmode ∉ head.modesFailed.keys)
    (h : Holds head zmode a.mode) :
    Holds (modeListener head z event) zmode (if zmode = z then a.update event else a).mode := by
  have hdescribed (f : Mode → Mode) (hupdate : (a.update event).mode = f a.mode)
      (hmodes : (modeListener head z event).modes = head.modes.modify z f)
      (hpreferred : event ≠ .preferred) :
      Holds (modeListener head z event) zmode (if zmode = z then a.update event else a).mode := by
    have hfailed := modesFailed_modeListener head z event
    unfold Holds
    rw [hmodes, hfailed, OrderedMap.get?_modify]
    by_cases hz : zmode = z
    · rw [if_pos hz, if_pos hz, hupdate]
      have hnone := OrderedMap.get?_eq_none_iff.mpr
        ((hfresh hz.symm).resolve_left hpreferred)
      rcases h with ⟨hin, _⟩ | ⟨_, hsome⟩
      · exact Or.inl ⟨by rw [hin, Option.map_some], hnone⟩
      · exact absurd (hnone.symm.trans hsome) (by simp)
    · rw [if_neg hz, if_neg hz]
      exact h
  cases event with
  | size width height =>
    exact hdescribed (fun m => { m with width := width, height := height }) rfl rfl (by simp)
  | refresh refreshMhz =>
    exact hdescribed (fun m => { m with refreshMhz := refreshMhz }) rfl rfl (by simp)
  | preferred =>
    have hsame : (if zmode = z then a.update .preferred else a).mode = a.mode := by
      split <;> rfl
    rw [hsame]
    refine holds_of_maps h ?_ (modesFailed_modeListener head z .preferred)
    simp only [modeListener, headSetModePref]
    split <;> rfl
  | finished => exact absurd rfl hnot

/-! ### Announcements -/

/-- A run with the modes announced since the last answer: these are yet to be described. -/
structure Announcing where
  sys : System
  fresh : List ZMode

/-- No mode finishes, and the size and refresh of a mode follow its announcement before the
compositor answers a configuration again. -/
def Announcing.permits (a : Announcing) : Event → Bool
  | .dispatch (.mode _ zmode (.size _ _)) => decide (zmode ∈ a.fresh)
  | .dispatch (.mode _ zmode (.refresh _)) => decide (zmode ∈ a.fresh)
  | .dispatch (.mode _ _ .finished) => false
  | _ => true

def freshAfter (fresh : List ZMode) : Event → List ZMode
  | .dispatch (.head _ (.mode zmode)) => zmode :: fresh
  | .dispatch (.configuration _) => []
  | _ => fresh

def announcingInit (cfg : Cfg) (lid : Option Lid) : Announcing :=
  { sys := systemInit cfg lid, fresh := [] }

/-- Every announced mode is held by its head. -/
def Conserved (sys : System) : Prop :=
  ∀ zmode a head, sys.compositor.modes.get? zmode = some a →
    sys.server.gDispl.heads.get? a.zhead = some head → Holds head zmode a.mode

/-- The modes yet to be described have not failed, nor are they about to. -/
structure Fresh (a : Announcing) : Prop where
  available : ∀ zmode ∈ a.fresh, ∀ zhead head,
    a.sys.server.gDispl.heads.get? zhead = some head → zmode ∉ head.modesFailed.keys
  untried : a.sys.server.gDispl.state ≠ .outstanding → ∀ zmode ∈ a.fresh,
    a.sys.server.gDispl.delta.zmode ≠ some zmode

/-! ### Events -/

/-- The modes of the heads that are there, after one of these is announced or described. -/
private theorem conserved_dispatch {a : Announcing} {event : WlEvent} (howned : Owned a.sys)
    (htracked : Tracked a.sys) (hfresh : Fresh a) (h : Conserved a.sys)
    (hadmits : a.sys.compositor.admits event = true)
    (hpermits : a.permits (.dispatch event) = true) : Conserved (a.sys.dispatch event) := by
  intro zmode m' head' hmode hget'
  rcases announced_sends hadmits hmode with ⟨rfl, hinit, _⟩ | ⟨m, hm, hzhead, hcase⟩
  · -- the new mode was not held before
    have hnew : a.sys.compositor.modes.get? zmode = none := by
      simpa [Compositor.admits] using (Bool.and_eq_true_iff.mp hadmits).2
    simp only [System.dispatch, displListener, OrderedMap.get?_modify_self] at hget'
    obtain ⟨head, hget, rfl⟩ := Option.map_eq_some_iff.mp hget'
    rw [hinit]
    refine Or.inl ⟨OrderedMap.get?_put_self _ _ _, OrderedMap.get?_eq_none_iff.mpr ?_⟩
    intro hfailed
    obtain ⟨b, hb, _⟩ := howned.owner _ zmode (Or.inl ⟨head, hget, Or.inr (Or.inl hfailed)⟩)
    exact absurd (hnew.symm.trans hb) (by simp)
  · rcases Listeners.get?_displListener hget' with ⟨rfl, rfl⟩ | ⟨head, hget, hhead⟩
    · -- a new head has no mode yet
      simp only [Compositor.admits, Bool.and_eq_true, decide_eq_true_eq, ← hzhead] at hadmits
      rcases htracked.owner zmode m hm with hlive | hgone
      · exact absurd hlive hadmits.1
      · exact absurd hgone hadmits.2
    · rw [← hzhead] at hget
      have hholds := h zmode m head hm hget
      rcases hhead with ⟨e, rfl, rfl⟩ | ⟨z, e, rfl, rfl⟩ | ⟨rfl, _, hnoMode⟩
      · rcases hcase with ⟨_, he, _⟩ | ⟨rfl, hother, _⟩
        · exact absurd he (by simp)
        · exact holds_headListener (fun he => hother _ (by rw [he])) hholds
      · have hm' : m' = if zmode = z then m.update e else m := by
          rcases hcase with ⟨e', he, rfl⟩ | ⟨rfl, _, hother⟩
          · obtain ⟨rfl, rfl⟩ : z = zmode ∧ e = e' := by simpa using he
            rw [if_pos rfl]
          · have hz : zmode ≠ z := fun hz => hother _ e (by rw [hz])
            rw [if_neg hz]
        rw [hm']
        refine holds_modeListener ?_ ?_ hholds
        · rintro rfl
          exact absurd hpermits (by simp [Announcing.permits])
        · rintro rfl
          cases e with
          | preferred => exact Or.inl rfl
          | finished => exact absurd hpermits (by simp [Announcing.permits])
          | size width height =>
            have hmem : z ∈ a.fresh := by simpa [Announcing.permits] using hpermits
            exact Or.inr (hfresh.available z hmem _ head hget)
          | refresh refreshMhz =>
            have hmem : z ∈ a.fresh := by simpa [Announcing.permits] using hpermits
            exact Or.inr (hfresh.available z hmem _ head hget)
      · rcases hcase with ⟨e, he, _⟩ | ⟨rfl, _⟩
        · exact absurd he (hnoMode zmode e)
        · exact hholds

/-- An event moves no mode to the failed ones. -/
private theorem modesFailed_displListener {displ : Displ} {event : WlEvent} {z : ZHead}
    {head' : Head} (h : (displListener displ event).heads.get? z = some head') {zmode : ZMode}
    (hfailed : zmode ∈ head'.modesFailed.keys) :
    ∃ head, displ.heads.get? z = some head ∧ zmode ∈ head.modesFailed.keys := by
  rcases Listeners.get?_displListener h with ⟨_, rfl⟩ | ⟨head, hget, hhead⟩
  · simp [headInit] at hfailed
  · refine ⟨head, hget, ?_⟩
    rcases hhead with ⟨e, _, rfl⟩ | ⟨z', e, _, rfl⟩ | ⟨rfl, _⟩
    · cases e <;> exact hfailed
    · rwa [modesFailed_modeListener] at hfailed
    · exact hfailed

private theorem fresh_dispatch {a : Announcing} {event : WlEvent} (howned : Owned a.sys)
    (h : Fresh a) (hadmits : a.sys.compositor.admits event = true) :
    Fresh { sys := a.sys.dispatch event, fresh := freshAfter a.fresh (.dispatch event) } := by
  have hnew : ∀ zhead zmode, event = .head zhead (.mode zmode) → ∀ z,
      ¬ Refers a.sys.server.gDispl z zmode := by
    rintro zhead zmode rfl z hrefers
    obtain ⟨b, hb, _⟩ := howned.owner z zmode hrefers
    simp [Compositor.admits, hb] at hadmits
  have hfresh : ∀ zmode ∈ freshAfter a.fresh (.dispatch event),
      (∀ reply, event ≠ .configuration reply) ∧
        (zmode ∈ a.fresh ∨ ∃ zhead, event = .head zhead (.mode zmode)) := by
    intro zmode hmem
    cases event with
    | configuration reply => simp [freshAfter] at hmem
    | head zhead e =>
      cases e with
      | mode z =>
        rcases List.mem_cons.mp hmem with rfl | hmem
        · exact ⟨by simp, Or.inr ⟨zhead, rfl⟩⟩
        · exact ⟨by simp, Or.inl hmem⟩
      | _ => exact ⟨by simp, Or.inl hmem⟩
    | _ => exact ⟨by simp, Or.inl hmem⟩
  constructor
  · intro zmode hmem z head' hget' hfailed
    obtain ⟨head, hget, hfailed⟩ := modesFailed_displListener hget' hfailed
    rcases (hfresh zmode hmem).2 with hold | ⟨zhead, he⟩
    · exact h.available zmode hold z head hget hfailed
    · exact hnew zhead zmode he z (Or.inl ⟨head, hget, Or.inr (Or.inl hfailed)⟩)
  · intro hstate zmode hmem hdelta
    obtain ⟨hnoReply, hcase⟩ := hfresh zmode hmem
    simp only [System.dispatch, Listeners.displListener_state hnoReply,
      Listeners.displListener_delta] at hstate hdelta
    rcases hcase with hold | ⟨zhead, he⟩
    · exact h.untried hstate zmode hold hdelta
    · obtain ⟨z, hz⟩ := howned.deltaHead zmode hdelta
      exact hnew zhead zmode he z (Or.inr ⟨hz, hdelta⟩)

/-! ### Calls of act, and requests -/

section Steps

variable [Platform]

/-- The maps of a head after a call are those it has once the answer is handled. -/
private theorem maps_called {s s' : Server} {configuration : Option Configuration}
    (h : Called s s' configuration) {zhead : ZHead} {head' : Head}
    (hget' : s'.gDispl.heads.get? zhead = some head') :
    ∃ head handled, s.gDispl.heads.get? zhead = some head ∧
      HandledHead s.gDispl zhead head handled ∧ head'.modes = handled.modes ∧
      head'.modesFailed = handled.modesFailed := by
  cases h with
  | waits _ _ hheads => exact ⟨head', head', hheads ▸ hget', .same, rfl, rfl⟩
  | applies _ hhandled _ _ hstage =>
    obtain ⟨desired, hgetDesired, hstaged⟩ := hstage.head hget'
    obtain ⟨handled, hgetHandled, hd⟩ :=
      (Desire.Heads.desired_desire _ _ _).2 zhead desired hgetDesired
    obtain ⟨head, hget, hhead⟩ := hhandled.head hgetHandled
    refine ⟨head, handled, hget, hhead, ?_⟩
    rcases hstaged with rfl | rfl
    · exact ⟨hd.modes.symm, hd.modesFailed.symm⟩
    · exact ⟨hd.modes.symm, hd.modesFailed.symm⟩

omit [Platform] in
private theorem mem_modesFailed_handledHead {displ : Displ} {zhead : ZHead} {head head' : Head}
    (h : HandledHead displ zhead head head') {zmode : ZMode}
    (hfailed : zmode ∈ head'.modesFailed.keys) :
    zmode ∈ head.modesFailed.keys ∨ displ.state = .failed ∧ displ.delta.zmode = some zmode := by
  cases h with
  | same => exact Or.inl hfailed
  | modeSucceeded => exact Or.inl hfailed
  | adaptiveSyncFailed => exact Or.inl hfailed
  | modeFailed hstate =>
    cases hzmode : displ.delta.zmode with
    | none => exact Or.inl (by simpa [hzmode, headFailMode] using hfailed)
    | some z =>
      simp only [hzmode, headFailMode] at hfailed
      split at hfailed
      · rcases OrderedMap.mem_keys_put.mp hfailed with rfl | hfailed
        · exact Or.inr ⟨hstate, rfl⟩
        · exact Or.inl hfailed
      · exact Or.inl hfailed

private theorem conserving_called {sys : System} {server : Server} {fresh : List ZMode}
    {configuration : Option Configuration} (hconserved : Conserved sys)
    (hfresh : Fresh ⟨sys, fresh⟩) (h : Called sys.server server configuration) :
    let sys' := { sys with
      server := server, compositor := sys.compositor.receives configuration }
    Conserved sys' ∧ Fresh ⟨sys', fresh⟩ := by
  refine ⟨?_, ?_, ?_⟩
  · intro zmode a head' hmode hget'
    obtain ⟨head, handled, hget, hhandled, hmodes, hfailed⟩ := maps_called h hget'
    exact holds_of_maps (holds_handledHead hhandled (hconserved zmode a head hmode hget))
      hmodes hfailed
  · intro zmode hmem zhead head' hget' hfailed'
    obtain ⟨head, handled, hget, hhandled, _, hfailed⟩ := maps_called h hget'
    rw [hfailed] at hfailed'
    rcases mem_modesFailed_handledHead hhandled hfailed' with hold | ⟨hstate, hdelta⟩
    · exact hfresh.available zmode hmem zhead head hget hold
    · exact hfresh.untried (by simp [hstate]) zmode hmem hdelta
  · intro hstate zmode hmem hdelta
    cases h with
    | waits _ _ _ hsame hstates =>
      simp only [hsame] at hdelta
      rcases hstates with ⟨_, hafter⟩ | ⟨hbefore, _⟩
      · exact hstate hafter
      · exact hfresh.untried (by simp [hbefore]) zmode hmem hdelta
    | applies _ _ _ _ hstage hafter =>
      cases configuration with
      | some c => exact hstate hafter
      | none => simp [hstage.delta_of_none, displDeltaNone] at hdelta

private theorem conserving_act {sys : System} {fresh : List ZMode} (hconserved : Conserved sys)
    (hfresh : Fresh ⟨sys, fresh⟩) : Conserved sys.act ∧ Fresh ⟨sys.act, fresh⟩ := by
  unfold System.act
  cases hact : Model.act sys.server with
  | error halt => exact ⟨hconserved, hfresh.available, hfresh.untried⟩
  | ok result =>
    obtain ⟨server, configuration⟩ := result
    exact conserving_called hconserved hfresh (Spec.act_called hact)

private theorem conserving_request {sys : System} {fresh : List ZMode} (request : IpcRequest)
    (hconserved : Conserved sys) (hfresh : Fresh ⟨sys, fresh⟩) :
    let sys' := { sys with server := (serverRequest sys.server request).1 }
    Conserved sys' ∧ Fresh ⟨sys', fresh⟩ := by
  refine ⟨?_, ?_, ?_⟩
  · intro zmode a head' hmode hget'
    obtain ⟨head, hget, hrequested⟩ := Requests.serverRequest_get? _ _ hget'
    exact holds_requested hrequested (hconserved zmode a head hmode hget)
  · intro zmode hmem zhead head' hget' hfailed
    obtain ⟨head, hget, hrequested⟩ := Requests.serverRequest_get? _ _ hget'
    cases hrequested with
    | overrides => exact hfresh.available zmode hmem zhead head hget hfailed
    | reapply => simp [headReapply] at hfailed
  · intro hstate zmode hmem hdelta
    simp only [Requests.serverRequest_state, Requests.serverRequest_delta] at hstate hdelta
    exact hfresh.untried hstate zmode hmem hdelta

/-! ### Runs -/

def Announcing.step (a : Announcing) (event : Event) : Option Announcing :=
  if a.permits event then
    (a.sys.step event).map (fun sys => { sys := sys, fresh := freshAfter a.fresh event })
  else none

/-- What every run without finished modes keeps. -/
structure Conserving (a : Announcing) : Prop where
  owned : Owned a.sys
  tracked : Tracked a.sys
  conserved : Conserved a.sys
  fresh : Fresh a

theorem conserving_step {a a' : Announcing} {event : Event} (h : Conserving a)
    (hstep : a.step event = some a') : Conserving a' := by
  unfold Announcing.step at hstep
  split at hstep
  · rename_i hpermits
    obtain ⟨sys', hsys, rfl⟩ := Option.map_eq_some_iff.mp hstep
    have howned := owned_step h.owned hsys
    have htracked := tracked_step h.tracked hsys
    obtain ⟨sys, fresh⟩ := a
    cases event with
    | dispatch event =>
      obtain ⟨hadmits, rfl⟩ := System.step_dispatch hsys
      exact ⟨howned, htracked,
        conserved_dispatch h.owned h.tracked h.fresh h.conserved hadmits hpermits,
        fresh_dispatch h.owned h.fresh hadmits⟩
    | act =>
      obtain rfl := System.step_act hsys
      obtain ⟨hconserved, hfresh⟩ := conserving_act h.conserved h.fresh
      exact ⟨howned, htracked, hconserved, hfresh⟩
    | request request =>
      obtain rfl := System.step_request hsys
      obtain ⟨hconserved, hfresh⟩ := conserving_request request h.conserved h.fresh
      exact ⟨howned, htracked, hconserved, hfresh⟩
    | reload cfg =>
      obtain rfl := System.step_reload hsys
      exact ⟨howned, htracked, h.conserved, h.fresh.available, h.fresh.untried⟩
    | lid closed =>
      obtain rfl := System.step_lid hsys
      have hlid := gLidUpdate_gDispl sys.server closed
      refine ⟨howned, htracked, ?_, ?_, ?_⟩
      · have hconserved := h.conserved
        unfold Conserved at hconserved ⊢
        simpa only [hlid] using hconserved
      · simpa only [hlid, freshAfter] using h.fresh.available
      · simpa only [hlid, freshAfter] using h.fresh.untried
  · exact absurd hstep (by simp)

omit [Platform] in
theorem conserving_init (cfg : Cfg) (lid : Option Lid) : Conserving (announcingInit cfg lid) where
  owned := owned_systemInit cfg lid
  tracked := tracked_systemInit cfg lid
  conserved := by
    intro zmode a head hmode
    simp [announcingInit, systemInit, compositorInit] at hmode
  fresh := by
    constructor <;> simp [announcingInit]

/-- In every state of a run without finished modes, each announced mode of a head that is there
is a key of exactly one of its two maps, with the value announced; and a reapply at that moment
leaves no mode failed, and all of them available. -/
theorem modes_conserved {cfg : Cfg} {lid : Option Lid} {a : Announcing}
    (hreachable : Reachable Announcing.step (announcingInit cfg lid) a) {zmode : ZMode}
    {m : AnnouncedMode} (hmode : a.sys.compositor.modes.get? zmode = some m)
    (hlive : m.zhead ∈ a.sys.compositor.heads) :
    ∃ head, a.sys.server.gDispl.heads.get? m.zhead = some head ∧ Holds head zmode m.mode ∧
      ∃ head', (headsReapply a.sys.server.gDispl.heads).get? m.zhead = some head' ∧
        head'.modesFailed = .empty ∧ head'.modes.get? zmode = some m.mode := by
  have h : Conserving a := hreachable.invariant (conserving_init cfg lid)
    (fun _ _ _ => conserving_step)
  obtain ⟨head, hget⟩ := OrderedMap.exists_get?_of_mem_keys ((h.tracked.keys m.zhead).mpr hlive)
  have hholds := h.conserved zmode m head hmode hget
  refine ⟨head, hget, hholds, headReapply head, ?_, rfl, get?_headReapply hholds⟩
  rw [headsReapply, OrderedMap.get?_mapVals, hget, Option.map_some]

def failedOnce : List Event :=
  [.dispatch (.managerHead ⟨0⟩), .dispatch (.head ⟨0⟩ (.name "DP-1")),
    .dispatch (.head ⟨0⟩ (.mode ⟨0⟩)), .dispatch (.mode ⟨0⟩ ⟨0⟩ (.size 1920 1080)), .act,
    .dispatch (.configuration .failed), .act]

omit [Platform] in
/-- It is still there, and a reapply makes it available again. -/
theorem modes_conserved_failedOnce :
    ∃ a : Announcing,
      run (@Announcing.step plainPlatform) (announcingInit (cfgApplyDefaults cfgInit) none)
          failedOnce = some a ∧
        ∃ head', (headsReapply a.sys.server.gDispl.heads).get? ⟨0⟩ = some head' ∧
          head'.modes.get? ⟨0⟩ = some { modeInit with width := 1920, height := 1080 } := by
  have hrun : (run (@Announcing.step plainPlatform)
      (announcingInit (cfgApplyDefaults cfgInit) none) failedOnce).map (fun a =>
        (a.sys.compositor.modes.get? ⟨0⟩, decide (⟨0⟩ ∈ a.sys.compositor.heads))) =
      some (some ⟨⟨0⟩, { modeInit with width := 1920, height := 1080 }, false⟩, true) := by
    decide +kernel
  obtain ⟨a, ha, hvalue⟩ := Option.map_eq_some_iff.mp hrun
  obtain ⟨hmode, hlive⟩ := Prod.mk.inj hvalue
  obtain ⟨_, _, _, head', hget, _, hback⟩ := @modes_conserved plainPlatform _ _ _ ⟨failedOnce, ha⟩
    _ _ hmode (of_decide_eq_true hlive)
  exact ⟨a, ha, head', hget, hback⟩

end Steps

end WayDisplays.Act.ModeConservation
