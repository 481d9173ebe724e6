/- A change of adaptive sync that does not show: it is the last one tried for its head. -/

import WayDisplays.Act.Discipline
import WayDisplays.Act.Handles

set_option autoImplicit false
set_option relaxedAutoImplicit false

namespace WayDisplays.Act.AdaptiveSync

open Lib (OrderedMap)
open Lib.Run
open Model
open Discipline
open Handles
open Spec (Called Handled HandledHead Stage)

/-! ### What is sent for a head -/

def syncAttempts (zhead : ZHead) (configuration : Configuration) : List Model.AdaptiveSync :=
  configuration.flatMap (fun e => match e.2 with
    | .enable changes =>
      if e.1 = zhead then
        changes.filterMap (fun change => match change with
          | .setAdaptiveSync state => some state
          | _ => none)
      else []
    | .disable => [])

private theorem syncAttempts_headConfig (zhead : ZHead) (heads : Heads) :
    syncAttempts zhead (heads.mapVals (fun _ head => headConfig head)).entries = [] := by
  apply List.flatMap_eq_nil_iff.mpr
  intro e he
  obtain ⟨⟨z, head⟩, _, rfl⟩ := List.mem_map.mp he
  simp only [headConfig]
  split
  · rename_i changes hconfig
    split at hconfig
    · obtain rfl := HeadConfig.enable.inj hconfig
      split <;> rfl
    · contradiction
  · rfl

private theorem syncAttempts_stage {heads heads' : Heads} {delta : DisplDelta}
    {configuration : Configuration} (h : Stage heads heads' delta (some configuration))
    {zhead : ZHead}
    (hsame : ∀ head, heads.get? zhead = some head → head.des.adaptiveSync = head.cur.adaptiveSync) :
    syncAttempts zhead configuration = [] := by
  cases h with
  | reapply => simp [syncAttempts]
  | mode => simp [syncAttempts]
  | @adaptiveSync z head hget _ _ hdiffers =>
    have hne : z ≠ zhead := by
      rintro rfl
      exact hdiffers (hsame head hget)
    simp [syncAttempts, hne]
  | rest => exact syncAttempts_headConfig zhead _

def attempts [Platform] (zhead : ZHead) (sys : System) (event : Event) :
    List Model.AdaptiveSync :=
  (sys.sent event).flatMap (syncAttempts zhead)

/-! ### Heads that are given up -/

/-- The change of adaptive sync is answered, and the head is not as it was desired. -/
def Unheeded (zhead : ZHead) (sys : System) : Prop :=
  (sys.server.gDispl.state = .succeeded ∨ sys.server.gDispl.state = .failed) ∧
    sys.server.gDispl.delta.element = some .vrrOff ∧
    sys.server.gDispl.delta.head = some zhead ∧
    ∃ head, sys.server.gDispl.heads.get? zhead = some head ∧
      headCurrentAdaptiveSyncNotDesired head = true

/-- The head is there, and its adaptive sync is given up. -/
def GivenUp (zhead : ZHead) (sys : System) : Prop :=
  ∃ head, sys.server.gDispl.heads.get? zhead = some head ∧ head.adaptiveSyncFailed = true

def Over (zhead : ZHead) (sys : System) : Prop :=
  GivenUp zhead sys ∨
    sys.server.gDispl.heads.get? zhead = none ∧ zhead ∈ sys.compositor.departed

private theorem failed_headListener (head : Head) (event : HeadEvent) :
    (headListener head event).adaptiveSyncFailed = head.adaptiveSyncFailed := by
  cases event <;> rfl

private theorem failed_modeListener (head : Head) (zmode : ZMode) (event : ModeEvent) :
    (modeListener head zmode event).adaptiveSyncFailed = head.adaptiveSyncFailed := by
  cases event with
  | preferred =>
    simp only [modeListener, headSetModePref]
    split <;> rfl
  | _ => rfl

private theorem failed_displListener {displ : Displ} {event : WlEvent} {zhead : ZHead}
    {head' : Head} (h : (displListener displ event).heads.get? zhead = some head') :
    (event = .managerHead zhead ∧ head'.adaptiveSyncFailed = false) ∨
      ∃ head, displ.heads.get? zhead = some head ∧
        head'.adaptiveSyncFailed = head.adaptiveSyncFailed := by
  rcases Listeners.get?_displListener h with ⟨hnew, rfl⟩ | ⟨head, hget, hcase⟩
  · exact Or.inl ⟨hnew, rfl⟩
  · refine Or.inr ⟨head, hget, ?_⟩
    rcases hcase with ⟨e, _, rfl⟩ | ⟨zmode, e, _, rfl⟩ | ⟨rfl, _⟩
    · exact failed_headListener head e
    · exact failed_modeListener head zmode e
    · rfl

private theorem failed_handled {displ : Displ} {heads : Heads} (h : Handled displ heads)
    {zhead : ZHead} {head head' : Head} (hget : displ.heads.get? zhead = some head)
    (hget' : heads.get? zhead = some head') :
    head'.adaptiveSyncFailed = head.adaptiveSyncFailed ∨
      head'.adaptiveSyncFailed = true ∧
        (displ.state = .succeeded ∨ displ.state = .failed) ∧
        displ.delta.element = some .vrrOff ∧ displ.delta.head = some zhead ∧
        headCurrentAdaptiveSyncNotDesired head = true := by
  have hput {z : ZHead} {new : Head} (hne : zhead ≠ z)
      (hnew : (displ.heads.put z new).get? zhead = some head') : head' = head := by
    rw [OrderedMap.get?_put_ne _ _ hne, hget] at hnew
    exact (Option.some.inj hnew).symm
  cases h with
  | same =>
    obtain rfl := Option.some.inj (hget.symm.trans hget')
    exact Or.inl rfl
  | @modeSucceeded z head₀ _ _ _ hget₀ =>
    apply Or.inl
    by_cases hz : zhead = z
    · subst hz
      obtain rfl := Option.some.inj (hget.symm.trans hget₀)
      rw [OrderedMap.get?_put_self] at hget'
      rw [← Option.some.inj hget']
    · rw [hput hz hget']
  | @modeFailed z head₀ _ _ _ hget₀ =>
    apply Or.inl
    by_cases hz : zhead = z
    · subst hz
      obtain rfl := Option.some.inj (hget.symm.trans hget₀)
      rw [OrderedMap.get?_put_self] at hget'
      rw [← Option.some.inj hget']
      rfl
    · rw [hput hz hget']
  | @adaptiveSyncFailed z head₀ hstate helement hhead hget₀ hdiffers =>
    by_cases hz : zhead = z
    · subst hz
      obtain rfl := Option.some.inj (hget.symm.trans hget₀)
      rw [OrderedMap.get?_put_self] at hget'
      rw [← Option.some.inj hget']
      exact Or.inr ⟨rfl, hstate, helement, hhead, hdiffers⟩
    · exact Or.inl (by rw [hput hz hget'])

section Calls

variable [Platform]

private theorem failed_called {s s' : Server} {configuration : Option Configuration}
    (h : Called s s' configuration) {zhead : ZHead} {head' : Head}
    (hget' : s'.gDispl.heads.get? zhead = some head') :
    ∃ head, s.gDispl.heads.get? zhead = some head ∧
      (head'.adaptiveSyncFailed = head.adaptiveSyncFailed ∨
        head'.adaptiveSyncFailed = true ∧
          (s.gDispl.state = .succeeded ∨ s.gDispl.state = .failed) ∧
          s.gDispl.delta.element = some .vrrOff ∧ s.gDispl.delta.head = some zhead ∧
          headCurrentAdaptiveSyncNotDesired head = true) := by
  cases h with
  | waits _ _ hheads => exact ⟨head', hheads ▸ hget', Or.inl rfl⟩
  | applies _ hhandled _ _ hstage =>
    obtain ⟨head₂, hget₂, hstaged⟩ := hstage.head hget'
    obtain ⟨head₁, hget₁, hd⟩ := (Desire.Heads.desired_desire _ _ _).2 zhead head₂ hget₂
    obtain ⟨head, hget, _⟩ := hhandled.head hget₁
    have hkept : head'.adaptiveSyncFailed = head₁.adaptiveSyncFailed := by
      rw [hd.adaptiveSyncFailed]
      rcases hstaged with rfl | rfl
      · rfl
      · rfl
    rw [hkept]
    exact ⟨head, hget, failed_handled hhandled hget hget₁⟩

/-- Nothing is set for a head that is marked once the answer is handled, nor for one that is
not there. -/
private theorem called_silent {s s' : Server} {configuration : Option Configuration}
    (h : Called s s' configuration) {zhead : ZHead}
    (hmarked : ∀ head', s'.gDispl.heads.get? zhead = some head' →
      head'.adaptiveSyncFailed = true) :
    configuration.toList.flatMap (syncAttempts zhead) = [] := by
  cases h with
  | waits => rfl
  | applies _ hhandled _ _ hstage =>
    cases configuration with
    | none => rfl
    | some sent =>
      rw [Option.toList_some, List.flatMap_singleton]
      apply syncAttempts_stage hstage
      intro head₂ hget₂
      obtain ⟨head₁, hget₁, hd⟩ := (Desire.Heads.desired_desire _ _ _).2 zhead head₂ hget₂
      have hmem := OrderedMap.mem_keys_of_get? hget₂
      rw [← hstage.keys] at hmem
      obtain ⟨head', hget'⟩ := OrderedMap.exists_get?_of_mem_keys hmem
      obtain ⟨head₂', hget₂', hstaged⟩ := hstage.head hget'
      obtain rfl := Option.some.inj (hget₂.symm.trans hget₂')
      have hfailed : head₁.adaptiveSyncFailed = true := by
        rw [hd.adaptiveSyncFailed]
        have := hmarked head' hget'
        rcases hstaged with rfl | rfl
        · exact this
        · exact this
      rw [← hd.cur]
      -- what is given up is desired as it is, on a head that is off as well
      cases hactive : Desire.Spec.active _ _ _ head₁ with
      | false => rw [hd.inactive hactive]
      | true => rw [(hd.active hactive).2.2.2.2, if_pos hfailed]

/-! ### Steps -/

/-- A call that handles an answer that was not heeded gives the head up. -/
private theorem givenUp_act {sys : System} {zhead : ZHead} (h : Unheeded zhead sys) :
    GivenUp zhead sys.act ∧ attempts zhead sys .act = [] := by
  obtain ⟨hstate, helement, hhead, head, hget, hdiffers⟩ := h
  unfold attempts System.sent System.act
  cases hact : Model.act sys.server with
  | error halt =>
    rcases Spec.act_error hact with ⟨_, _, _, hnot⟩ | ⟨_, _, z, hz, hgone⟩
    · exact absurd helement hnot
    · obtain rfl := Option.some.inj (hhead.symm.trans hz)
      exact absurd (OrderedMap.mem_keys_of_get? hget) hgone
  | ok result =>
    obtain ⟨server, configuration⟩ := result
    have hcalled := Spec.act_called hact
    have hmarked : ∀ head', server.gDispl.heads.get? zhead = some head' →
        head'.adaptiveSyncFailed = true := by
      intro head' hget'
      cases hcalled with
      | waits _ _ _ _ hwaits =>
        rcases hwaits with ⟨hout, _⟩ | ⟨hout, _⟩
        · simp [hout] at hstate
        · simp [hout] at hstate
      | applies _ hhandled _ _ hstage =>
        obtain ⟨head₂, hget₂, hstaged⟩ := hstage.head hget'
        obtain ⟨head₁, hget₁, hd⟩ := (Desire.Heads.desired_desire _ _ _).2 zhead head₂ hget₂
        have hfailed : head₁.adaptiveSyncFailed = true := by
          cases hhandled with
          | same hunaffected =>
            have := (hunaffected hstate zhead hhead).2 helement head hget
            simp [hdiffers] at this
          | modeSucceeded _ helement' => simp [helement] at helement'
          | modeFailed _ helement' => simp [helement] at helement'
          | adaptiveSyncFailed _ _ hhead' =>
            obtain rfl := Option.some.inj (hhead.symm.trans hhead')
            rw [OrderedMap.get?_put_self] at hget₁
            rw [← Option.some.inj hget₁]
        rw [hd.adaptiveSyncFailed] at hfailed
        rcases hstaged with rfl | rfl
        · exact hfailed
        · exact hfailed
    have hmem : zhead ∈ server.gDispl.heads.keys := by
      rw [hcalled.keys]
      exact OrderedMap.mem_keys_of_get? hget
    obtain ⟨head', hget'⟩ := OrderedMap.exists_get?_of_mem_keys hmem
    have hsilent := called_silent hcalled hmarked
    cases configuration with
    | none => exact ⟨⟨head', hget', hmarked head' hget'⟩, rfl⟩
    | some sent => exact ⟨⟨head', hget', hmarked head' hget'⟩, hsilent⟩

/-- What is over stays so, and nothing more is set of it. -/
private theorem over_step {sys sys' : System} {event : Event} {zhead : ZHead}
    (h : Tracked sys ∧ Over zhead sys) (hstep : sys.step event = some sys') :
    (Tracked sys' ∧ Over zhead sys') ∧ attempts zhead sys event = [] := by
  obtain ⟨htracked, h⟩ := h
  refine and_assoc.mpr ⟨tracked_step htracked hstep, ?_⟩
  cases event with
  | dispatch event =>
    obtain ⟨hadmits, rfl⟩ := System.step_dispatch hstep
    refine ⟨?_, rfl⟩
    have hdeparted : sys.compositor.departed ⊆ (sys.compositor.sends event).departed := by
      cases event with
      | headFinished z => exact List.subset_append_left _ _
      | head z e => cases e <;> exact List.Subset.refl _
      | _ => exact List.Subset.refl _
    cases hget' : (displListener sys.server.gDispl event).heads.get? zhead with
    | none =>
      refine Or.inr ⟨hget', ?_⟩
      rcases h with ⟨head, hget, _⟩ | ⟨_, hleft⟩
      · -- only its own end takes a head away
        by_contra hnot
        have hmem := OrderedMap.mem_keys_of_get? hget
        have hgone := OrderedMap.get?_eq_none_iff.mp hget'
        rw [Listeners.mem_keys_displListener] at hgone
        have hfinished : event = .headFinished zhead := by
          by_contra hother
          exact hgone (Or.inl ⟨hmem, hother⟩)
        subst hfinished
        exact hnot (List.mem_append_right _ (List.mem_singleton_self _))
      · exact hdeparted hleft
    | some head' =>
      rcases failed_displListener hget' with ⟨rfl, _⟩ | ⟨head, hget, hsame⟩
      · simp only [Compositor.admits, Bool.and_eq_true, decide_eq_true_eq] at hadmits
        rcases h with ⟨head, hget, _⟩ | ⟨_, hleft⟩
        · exact absurd ((htracked.keys zhead).mp (OrderedMap.mem_keys_of_get? hget)) hadmits.1
        · exact absurd hleft hadmits.2
      · rcases h with ⟨head₀, hget₀, hfailed⟩ | ⟨hnone, _⟩
        · obtain rfl := Option.some.inj (hget.symm.trans hget₀)
          exact Or.inl ⟨head', hget', hsame.trans hfailed⟩
        · simp [hnone] at hget
  | act =>
    obtain rfl := System.step_act hstep
    unfold attempts System.sent System.act
    cases hact : Model.act sys.server with
    | error halt =>
      refine ⟨?_, rfl⟩
      exact h
    | ok result =>
      obtain ⟨server, configuration⟩ := result
      have hcalled := Spec.act_called hact
      have hmarked : ∀ head', server.gDispl.heads.get? zhead = some head' →
          head'.adaptiveSyncFailed = true := by
        intro head' hget'
        obtain ⟨head, hget, hcase⟩ := failed_called hcalled hget'
        rcases h with ⟨head₀, hget₀, hfailed⟩ | ⟨hnone, _⟩
        · obtain rfl := Option.some.inj (hget.symm.trans hget₀)
          rcases hcase with hsame | ⟨hset, _⟩
          · exact hsame.trans hfailed
          · exact hset
        · simp [hnone] at hget
      have hover : Over zhead
          { sys with server := server, compositor := sys.compositor.receives configuration } := by
        rcases h with ⟨head, hget, _⟩ | ⟨hnone, hleft⟩
        · have hmem : zhead ∈ server.gDispl.heads.keys := by
            rw [hcalled.keys]
            exact OrderedMap.mem_keys_of_get? hget
          obtain ⟨head', hget'⟩ := OrderedMap.exists_get?_of_mem_keys hmem
          exact Or.inl ⟨head', hget', hmarked head' hget'⟩
        · refine Or.inr ⟨OrderedMap.get?_eq_none_iff.mpr ?_, hleft⟩
          rw [hcalled.keys]
          exact OrderedMap.get?_eq_none_iff.mp hnone
      have hsilent := called_silent hcalled hmarked
      cases configuration with
      | none => exact ⟨hover, rfl⟩
      | some sent => exact ⟨hover, hsilent⟩
  | request request =>
    obtain rfl := System.step_request hstep
    refine ⟨?_, rfl⟩
    rcases h with ⟨head, hget, hfailed⟩ | ⟨hnone, hleft⟩
    · have hmem : zhead ∈ (serverRequest sys.server request).1.gDispl.heads.keys := by
        rw [Requests.serverRequest_keys]
        exact OrderedMap.mem_keys_of_get? hget
      obtain ⟨head', hget'⟩ := OrderedMap.exists_get?_of_mem_keys hmem
      obtain ⟨head₀, hget₀, hrequested⟩ := Requests.serverRequest_get? _ _ hget'
      obtain rfl := Option.some.inj (hget.symm.trans hget₀)
      refine Or.inl ⟨head', hget', ?_⟩
      cases hrequested with
      | overrides => exact hfailed
      | reapply => exact hfailed
    · refine Or.inr ⟨OrderedMap.get?_eq_none_iff.mpr ?_, hleft⟩
      rw [Requests.serverRequest_keys]
      exact OrderedMap.get?_eq_none_iff.mp hnone
  | reload cfg =>
    obtain rfl := System.step_reload hstep
    exact ⟨h, rfl⟩
  | lid closed =>
    obtain rfl := System.step_lid hstep
    refine ⟨?_, rfl⟩
    have hlid := gLidUpdate_gDispl sys.server closed
    rcases h with ⟨head, hget, hfailed⟩ | ⟨hnone, hleft⟩
    · exact Or.inl ⟨head, hlid ▸ hget, hfailed⟩
    · exact Or.inr ⟨hlid ▸ hnone, hleft⟩

/-- Only a call that handles an answer that was not heeded gives a head up. -/
private theorem unheeded_of_givenUp {sys sys' : System} {event : Event} {zhead : ZHead}
    (hnot : ¬ GivenUp zhead sys) (hstep : sys.step event = some sys')
    (h : GivenUp zhead sys') : event = .act ∧ Unheeded zhead sys := by
  obtain ⟨head', hget', hfailed⟩ := h
  cases event with
  | dispatch event =>
    obtain ⟨_, rfl⟩ := System.step_dispatch hstep
    rcases failed_displListener hget' with ⟨_, hfresh⟩ | ⟨head, hget, hsame⟩
    · simp [hfresh] at hfailed
    · exact absurd ⟨head, hget, hsame ▸ hfailed⟩ hnot
  | act =>
    obtain rfl := System.step_act hstep
    unfold System.act at hget'
    cases hact : Model.act sys.server with
    | error halt =>
      simp only [hact] at hget'
      exact absurd ⟨head', hget', hfailed⟩ hnot
    | ok result =>
      obtain ⟨server, configuration⟩ := result
      simp only [hact] at hget'
      obtain ⟨head, hget, hcase⟩ := failed_called (Spec.act_called hact) hget'
      rcases hcase with hsame | ⟨_, hstate, helement, hhead, hdiffers⟩
      · exact absurd ⟨head, hget, hsame ▸ hfailed⟩ hnot
      · exact ⟨rfl, hstate, helement, hhead, head, hget, hdiffers⟩
  | request request =>
    obtain rfl := System.step_request hstep
    obtain ⟨head, hget, hrequested⟩ := Requests.serverRequest_get? _ _ hget'
    refine absurd ⟨head, hget, ?_⟩ hnot
    cases hrequested with
    | overrides => exact hfailed
    | reapply => exact hfailed
  | reload cfg =>
    obtain rfl := System.step_reload hstep
    exact absurd ⟨head', hget', hfailed⟩ hnot
  | lid closed =>
    obtain rfl := System.step_lid hstep
    rw [gLidUpdate_gDispl] at hget'
    exact absurd ⟨head', hget', hfailed⟩ hnot

/-! ### Runs -/

private theorem over_run {sys sys' : System} {zhead : ZHead} {events : List Event}
    (h : Tracked sys ∧ Over zhead sys) (hrun : run System.step sys events = some sys') :
    Over zhead sys' ∧ outputs System.step (attempts zhead) sys events = [] := by
  have hinv : (Tracked sys' ∧ Over zhead sys') ∧
      [] ++ outputs System.step (attempts zhead) sys events = [] :=
    run_outputs_inv (I := fun s acc => (Tracked s ∧ Over zhead s) ∧ acc = [])
      (C := fun _ _ => True)
      (fun s e s' acc hI _ hstep => by
        obtain ⟨hover, hsilent⟩ := over_step hI.1 hstep
        exact ⟨hover, by rw [hI.2, hsilent, List.append_nil]⟩)
      ⟨h, rfl⟩ (along_of_forall (fun _ _ => True.intro) sys events) hrun
  exact ⟨hinv.1.2, hinv.2⟩

/-- After the answer to a change that does not show, nothing that happens makes the server set
the adaptive sync of that head again: no reapply, reload or request does, and it stays given up
until it leaves. -/
theorem adaptiveSync_last {cfg : Cfg} {lid : Option Lid} {s sys : System} {zhead : ZHead}
    {after : List Event} (hreachable : System.Reachable cfg lid s)
    (hunheeded : Unheeded zhead s) (hrun : run System.step s (.act :: after) = some sys) :
    outputs System.step (attempts zhead) s (.act :: after) = [] ∧
      ∀ head, sys.server.gDispl.heads.get? zhead = some head →
        head.adaptiveSyncFailed = true := by
  obtain ⟨s', hstep, hrest⟩ := run_cons_eq_some.mp hrun
  have htracked := tracked_step (reachable_tracked hreachable) hstep
  obtain rfl := System.step_act hstep
  obtain ⟨hgivenUp, hsilent⟩ := givenUp_act hunheeded
  obtain ⟨hover, hquiet⟩ := over_run ⟨htracked, Or.inl hgivenUp⟩ hrest
  refine ⟨?_, ?_⟩
  · rw [outputs_cons hstep, hsilent, hquiet, List.append_nil]
  · intro head hget
    rcases hover with ⟨head', hget', hfailed⟩ | ⟨hnone, _⟩
    · obtain rfl := Option.some.inj (hget.symm.trans hget')
      exact hfailed
    · simp [hnone] at hget

def notSynced : List Event :=
  [.dispatch (.managerHead ⟨0⟩), .dispatch (.head ⟨0⟩ (.name "DP-1")),
    .dispatch (.head ⟨0⟩ (.mode ⟨0⟩)), .dispatch (.mode ⟨0⟩ ⟨0⟩ (.size 1920 1080)),
    .dispatch (.head ⟨0⟩ (.currentMode ⟨0⟩)), .act, .dispatch (.configuration .failed)]

def reapplied : List Event :=
  [.dispatch (.configuration .succeeded),
    .request { (ipcRequestInit none) with command := some .reapply }, .act,
    .dispatch (.configuration .succeeded), .act, .dispatch (.configuration .succeeded), .act]

omit [Platform] in
/-- The reapply disables the head, then sets its mode and the rest. -/
theorem adaptiveSync_last_reapplied :
    ∃ s sys : System, run (@System.step plainPlatform)
        (systemInit (cfgApplyDefaults cfgInit) none) notSynced = some s ∧
      run (@System.step plainPlatform) s (.act :: reapplied) = some sys ∧
      (outputs (@System.step plainPlatform) (@System.sent plainPlatform) s
        (.act :: reapplied)).length = 4 ∧
      outputs (@System.step plainPlatform) (@attempts plainPlatform ⟨0⟩) s
        (.act :: reapplied) = [] := by
  have hvalue : (run (@System.step plainPlatform) (systemInit (cfgApplyDefaults cfgInit) none)
      notSynced).map (fun s => (s.server.gDispl.state, s.server.gDispl.delta,
        (s.server.gDispl.heads.get? ⟨0⟩).map headCurrentAdaptiveSyncNotDesired,
        (run (@System.step plainPlatform) s (.act :: reapplied)).isSome,
        (outputs (@System.step plainPlatform) (@System.sent plainPlatform) s
          (.act :: reapplied)).length)) =
      some (.failed, { element := some .vrrOff, head := some ⟨0⟩, zmode := none },
        some true, true, 4) := by
    decide +kernel
  obtain ⟨s, hs, hvalue⟩ := Option.map_eq_some_iff.mp hvalue
  obtain ⟨hstate, hvalue⟩ := Prod.mk.inj hvalue
  obtain ⟨hdelta, hvalue⟩ := Prod.mk.inj hvalue
  obtain ⟨hdiffers, hvalue⟩ := Prod.mk.inj hvalue
  obtain ⟨hrun, hlength⟩ := Prod.mk.inj hvalue
  obtain ⟨sys, hsys⟩ := Option.isSome_iff_exists.mp hrun
  have hunheeded : Unheeded ⟨0⟩ s :=
    ⟨Or.inr hstate, by rw [hdelta], by rw [hdelta], Option.map_eq_some_iff.mp hdiffers⟩
  have hlast := @adaptiveSync_last plainPlatform _ _ s sys ⟨0⟩ reapplied ⟨notSynced, hs⟩
    hunheeded hsys
  exact ⟨s, sys, hs, hsys, hlength, hlast.1⟩

/-- The heads that are given up are those with an answer that was not heeded behind them. -/
theorem adaptiveSync_failed_iff {cfg : Cfg} {lid : Option Lid} {sys : System} {zhead : ZHead}
    {head : Head} {events : List Event}
    (hrun : run System.step (systemInit cfg lid) events = some sys)
    (hget : sys.server.gDispl.heads.get? zhead = some head) :
    head.adaptiveSyncFailed = true ↔ ∃ before after s, events = before ++ .act :: after ∧
      run System.step (systemInit cfg lid) before = some s ∧ Unheeded zhead s := by
  constructor
  · intro hfailed
    have hnot : ¬ GivenUp zhead (systemInit cfg lid) := by
      rintro ⟨head', hget', _⟩
      simp [systemInit, displInit] at hget'
    obtain ⟨before, event, after, s, rfl, hbefore, rfl, hunheeded⟩ :=
      exists_cause (P := GivenUp zhead) (C := fun s e => e = .act ∧ Unheeded zhead s)
        (fun _ _ _ hno hstep h => unheeded_of_givenUp hno hstep h) hnot hrun ⟨head, hget, hfailed⟩
    exact ⟨before, after, s, rfl, hbefore, hunheeded⟩
  · rintro ⟨before, after, s, rfl, hbefore, hunheeded⟩
    rw [run_append, hbefore, Option.bind_some] at hrun
    obtain ⟨s', hstep, hrest⟩ := run_cons_eq_some.mp hrun
    have htracked := tracked_step (reachable_tracked ⟨before, hbefore⟩) hstep
    obtain rfl := System.step_act hstep
    obtain ⟨hover, _⟩ := over_run ⟨htracked, Or.inl (givenUp_act hunheeded).1⟩ hrest
    rcases hover with ⟨head', hget', hfailed⟩ | ⟨hnone, _⟩
    · obtain rfl := Option.some.inj (hget.symm.trans hget')
      exact hfailed
    · simp [hnone] at hget

omit [Platform] in
/-- Once the answer that failed is handled, the head is given up. -/
theorem adaptiveSync_failed_marked :
    ∃ (sys : System) (head : Head),
      run (@System.step plainPlatform) (systemInit (cfgApplyDefaults cfgInit) none)
          (notSynced ++ [.act]) = some sys ∧
        sys.server.gDispl.heads.get? ⟨0⟩ = some head ∧ head.adaptiveSyncFailed = true ∧
        ∃ before after s, notSynced ++ [.act] = before ++ .act :: after ∧
          run (@System.step plainPlatform) (systemInit (cfgApplyDefaults cfgInit) none)
            before = some s ∧ Unheeded ⟨0⟩ s := by
  have hvalue : (run (@System.step plainPlatform) (systemInit (cfgApplyDefaults cfgInit) none)
      (notSynced ++ [.act])).map (fun sys =>
        (sys.server.gDispl.heads.get? ⟨0⟩).map Head.adaptiveSyncFailed) =
      some (some true) := by
    decide +kernel
  obtain ⟨sys, hsys, hvalue⟩ := Option.map_eq_some_iff.mp hvalue
  obtain ⟨head, hget, hfailed⟩ := Option.map_eq_some_iff.mp hvalue
  have hcause := (@adaptiveSync_failed_iff plainPlatform _ _ _ _ _ _ hsys hget).mp hfailed
  exact ⟨sys, head, hsys, hget, hfailed, hcause⟩

end Calls

end WayDisplays.Act.AdaptiveSync
