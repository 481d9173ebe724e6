/- The modes tried for one head while every one of them fails. -/

import WayDisplays.Act.Discipline
import WayDisplays.Act.Handles
import WayDisplays.Lib.Drain

set_option autoImplicit false
set_option relaxedAutoImplicit false

namespace WayDisplays.Act.Fallback

open Lib (OrderedMap)
open Lib.Drain
open Lib.Run
open Model
open Desire.Spec
open Discipline
open Handles
open Spec (Called Handled HandledHead Stage)

/-! ### What is sent for a head -/

def modeAttempts (zhead : ZHead) (configuration : Configuration) : List (Option ZMode) :=
  configuration.flatMap (fun e => match e.2 with
    | .enable changes =>
      if e.1 = zhead then
        changes.filterMap (fun change => match change with
          | .setMode zmode => some zmode
          | _ => none)
      else []
    | .disable => [])

/-- The change in flight is that of the mode of a head. -/
def Trying (delta : DisplDelta) (zhead : ZHead) : Prop :=
  delta.element = some .mode ∧ delta.head = some zhead

instance (delta : DisplDelta) (zhead : ZHead) : Decidable (Trying delta zhead) :=
  inferInstanceAs (Decidable (_ ∧ _))

private theorem modeAttempts_headConfig (zhead : ZHead) (heads : Heads) :
    modeAttempts zhead (heads.mapVals (fun _ head => headConfig head)).entries = [] := by
  refine List.flatMap_eq_nil_iff.mpr fun e he => ?_
  obtain ⟨⟨z, head⟩, _, rfl⟩ := List.mem_map.mp he
  simp only [headConfig]
  split
  · rename_i changes hconfig
    split at hconfig
    · obtain rfl := HeadConfig.enable.inj hconfig
      split <;> rfl
    · exact absurd hconfig (by simp)
  · rfl

theorem modeAttempts_stage {heads heads' : Heads} {delta : DisplDelta}
    {configuration : Configuration} (h : Stage heads heads' delta (some configuration))
    (zhead : ZHead) :
    modeAttempts zhead configuration = if Trying delta zhead then [delta.zmode] else [] := by
  cases h with
  | reapply => simp [modeAttempts, Trying]
  | mode => simp [modeAttempts, Trying]
  | adaptiveSync => simp [modeAttempts, Trying]
  | rest => simp [modeAttempts_headConfig, Trying, displDeltaNone]

/-- A mode in flight is the one the compositor is to answer. -/
def ModeSent (sys : System) : Prop :=
  ∀ configuration zhead, sys.compositor.outstanding = some configuration →
    Trying sys.server.gDispl.delta zhead →
      modeAttempts zhead configuration = [sys.server.gDispl.delta.zmode]

section Steps

variable [Platform]

private theorem modeSent_step {sys sys' : System} {event : Event} (h : ModeSent sys)
    (hstep : sys.step event = some sys') : ModeSent sys' := by
  intro configuration zhead houtstanding htrying
  cases event with
  | dispatch event =>
    obtain ⟨_, rfl⟩ := System.step_dispatch hstep
    have hdelta := Listeners.displListener_delta sys.server.gDispl event
    have hbefore : sys.compositor.outstanding = some configuration := by
      cases event with
      | configuration reply => simp [System.dispatch, Compositor.sends] at houtstanding
      | head z e => cases e <;> exact houtstanding
      | _ => exact houtstanding
    simp only [System.dispatch, Trying, hdelta] at htrying ⊢
    exact h configuration zhead hbefore htrying
  | act =>
    obtain rfl := System.step_act hstep
    unfold System.act at houtstanding htrying ⊢
    cases hact : Model.act sys.server with
    | error halt =>
      simp only [hact] at houtstanding htrying ⊢
      exact h configuration zhead houtstanding htrying
    | ok result =>
      obtain ⟨server, sent⟩ := result
      simp only [hact] at houtstanding htrying ⊢
      cases Spec.act_called hact with
      | waits _ _ _ hdelta =>
        rw [Trying, hdelta] at htrying
        rw [hdelta]
        exact h configuration zhead houtstanding htrying
      | applies _ _ _ _ hstage =>
        cases sent with
        | none =>
          simp [Trying, hstage.delta_of_none, displDeltaNone] at htrying
        | some sent =>
          obtain rfl : sent = configuration := Option.some.inj houtstanding
          rw [modeAttempts_stage hstage, if_pos htrying]
  | request request =>
    obtain rfl := System.step_request hstep
    simp only [Trying, Requests.serverRequest_delta] at htrying ⊢
    exact h configuration zhead houtstanding htrying
  | reload cfg =>
    obtain rfl := System.step_reload hstep
    exact h configuration zhead houtstanding htrying
  | lid closed =>
    obtain rfl := System.step_lid hstep
    simp only [gLidUpdate_gDispl] at htrying ⊢
    exact h configuration zhead houtstanding htrying

theorem reachable_modeSent {cfg : Cfg} {lid : Option Lid} {sys : System}
    (h : System.Reachable cfg lid sys) : ModeSent sys := by
  refine h.invariant ?_ (fun _ _ _ => modeSent_step)
  intro configuration zhead houtstanding
  simp [systemInit, compositorInit] at houtstanding

/-! ### The order of the fallback -/

/-- The first choices of `head_find_mode`, each made on the modes that remain. -/
def fallbackSequence (cfg : Cfg) (head : Head) : List ZMode :=
  drain (fun modes => (headFindMode cfg { head with modes := modes }).2.2) head.modes

/-- `desire_mode` would turn the head off. -/
def forcedOff (cfg : Cfg) (head : Head) : Bool :=
  !(desireMode cfg { head with des := { head.des with enabled := true } }).2.des.enabled

theorem forcedOff_iff {cfg : Cfg} {head : Head} :
    forcedOff cfg head = true ↔ head.modes.size = 0 := by
  have hnone := @chosenMode_eq_none _ cfg { head with des := { head.des with enabled := true } }
  rw [← hnone, forcedOff]
  cases hchosen : chosenMode cfg { head with des := { head.des with enabled := true } } with
  | none =>
    rw [desireMode_none (Or.inr hchosen)]
    exact iff_of_true rfl rfl
  | some zmode =>
    rw [desireMode_some rfl hchosen]
    exact iff_of_false (by simp) (by simp)

/-- The modes of a head, without the one in flight for it, which is about to fail. -/
inductive Remaining (displ : Displ) (zhead : ZHead) (head : Head) : Modes → Prop
  | resting (h : displ.state = .idle ∨ ¬ Trying displ.delta zhead) :
      Remaining displ zhead head head.modes
  | trying {zmode : ZMode} (hstate : displ.state = .outstanding ∨ displ.state = .failed)
      (htrying : Trying displ.delta zhead) (hzmode : displ.delta.zmode = some zmode)
      (hmem : zmode ∈ head.modes.keys) :
      Remaining displ zhead head (head.modes.remove zmode)

/-- What has been tried is the start of the sequence, and the rest is still to be chosen. -/
inductive Falling (zhead : ZHead) (choose : Modes → Option ZMode) (all : List ZMode)
    (sys : System) (tried : List (Option ZMode)) : Prop
  | present {head : Head} {remaining : Modes}
      (hget : sys.server.gDispl.heads.get? zhead = some head)
      (hchoose : ∀ modes,
        chosenMode sys.server.gCfg { head with modes := modes } = choose modes)
      (hremaining : Remaining sys.server.gDispl zhead head remaining)
      (htried : tried ++ (drain choose remaining).map some = all.map some)
  | gone (hget : sys.server.gDispl.heads.get? zhead = none)
      (hdeparted : zhead ∈ sys.compositor.departed) (htried : tried <+: all.map some)

/-- No mode event for the head, no change of its user MODE, no reapply, and each change of its
mode is answered failed. -/
def Undisturbed (zhead : ZHead) (sys : System) : Event → Prop
  | .dispatch (.head z event) => z = zhead → (∀ zmode, event ≠ .mode zmode) ∧
      ∀ head, sys.server.gDispl.heads.get? zhead = some head →
        userMode sys.server.gCfg (headListener head event) = userMode sys.server.gCfg head
  | .dispatch (.mode z _ _) => z ≠ zhead
  | .dispatch (.configuration reply) => ∀ configuration,
      sys.compositor.outstanding = some configuration → modeAttempts zhead configuration ≠ [] →
        reply = .failed
  | .request request => request.command ≠ some .reapply ∧
      ∀ head, sys.server.gDispl.heads.get? zhead = some head →
        userMode (serverRequest sys.server request).1.gCfg head = userMode sys.server.gCfg head
  | .reload cfg => ∀ head, sys.server.gDispl.heads.get? zhead = some head →
      userMode cfg head = userMode sys.server.gCfg head
  | _ => True

private theorem falling_of_kept {zhead : ZHead} {choose : Modes → Option ZMode}
    {all : List ZMode} {sys sys' : System} {tried : List (Option ZMode)} {head head' : Head}
    {remaining : Modes} (hget' : sys'.server.gDispl.heads.get? zhead = some head')
    (hchoose : ∀ modes, chosenMode sys.server.gCfg { head with modes := modes } = choose modes)
    (huser : userMode sys'.server.gCfg head' = userMode sys.server.gCfg head)
    (hpref : head'.zmodePref = head.zmodePref)
    (hremaining : Remaining sys'.server.gDispl zhead head' remaining)
    (htried : tried ++ (drain choose remaining).map some = all.map some) :
    Falling zhead choose all sys' tried := by
  refine .present hget' (fun modes => ?_) hremaining htried
  rw [← hchoose modes]
  exact chosenMode_of_userMode huser hpref rfl

omit [Platform] in
private theorem remaining_of_same {displ displ' : Displ} {zhead : ZHead} {head head' : Head}
    {remaining : Modes} (h : Remaining displ zhead head remaining)
    (hstate : displ'.state = displ.state) (hdelta : displ'.delta = displ.delta)
    (hmodes : head'.modes = head.modes) : Remaining displ' zhead head' remaining := by
  cases h with
  | resting h => exact hmodes ▸ .resting (by rwa [hstate, hdelta])
  | trying hs ht hz hm =>
    exact hmodes ▸ .trying (hstate ▸ hs) (hdelta ▸ ht) (hdelta ▸ hz) (hmodes ▸ hm)

/-! ### Events -/

omit [Platform] in
private theorem maps_headListener {head : Head} {event : HeadEvent}
    (h : ∀ zmode, event ≠ .mode zmode) :
    (headListener head event).modes = head.modes ∧
      (headListener head event).zmodePref = head.zmodePref := by
  cases event with
  | mode zmode => exact absurd rfl (h zmode)
  | _ => exact ⟨rfl, rfl⟩

private theorem falling_dispatch {zhead : ZHead} {choose : Modes → Option ZMode}
    {all : List ZMode} {sys : System} {tried : List (Option ZMode)} {event : WlEvent}
    (hsynced : Synced sys) (hsent : ModeSent sys) (htracked : Tracked sys)
    (h : Falling zhead choose all sys tried)
    (hundisturbed : Undisturbed zhead sys (.dispatch event))
    (hadmits : sys.compositor.admits event = true) :
    Falling zhead choose all (sys.dispatch event) tried := by
  have hkeys : zhead ∈ (displListener sys.server.gDispl event).heads.keys ↔ _ :=
    Listeners.mem_keys_displListener
  cases h with
  | gone hget hdeparted htried =>
    refine .gone (OrderedMap.get?_eq_none_iff.mpr fun hmem => ?_) ?_ htried
    · rcases hkeys.mp hmem with ⟨hold, _⟩ | rfl
      · exact OrderedMap.get?_eq_none_iff.mp hget hold
      · simp [Compositor.admits, hdeparted] at hadmits
    · cases event with
      | headFinished z => exact List.mem_append_left _ hdeparted
      | head z e => cases e <;> exact hdeparted
      | _ => exact hdeparted
  | @present head remaining hget hchoose hremaining htried =>
    have hmem := OrderedMap.mem_keys_of_get? hget
    by_cases hfinished : event = .headFinished zhead
    · subst hfinished
      refine .gone ?_ (List.mem_append_right _ (List.mem_singleton_self _)) ?_
      · simp [System.dispatch, displListener, Listeners.displFinishedHead_heads]
      · exact ⟨_, htried⟩
    · obtain ⟨head', hget'⟩ :=
        OrderedMap.exists_get?_of_mem_keys (hkeys.mpr (Or.inl ⟨hmem, hfinished⟩))
      have hdelta := Listeners.displListener_delta sys.server.gDispl event
      have hkept : head'.modes = head.modes ∧ head'.zmodePref = head.zmodePref ∧
          userMode sys.server.gCfg head' = userMode sys.server.gCfg head := by
        rcases Listeners.get?_displListener hget' with ⟨rfl, _⟩ | ⟨head₀, hget₀, hcase⟩
        · have hlive := (htracked.keys zhead).mp hmem
          simp [Compositor.admits, hlive] at hadmits
        · obtain rfl := Option.some.inj (hget.symm.trans hget₀)
          rcases hcase with ⟨e, rfl, rfl⟩ | ⟨zmode, e, rfl, _⟩ | ⟨rfl, _⟩
          · obtain ⟨hnoMode, huser⟩ := hundisturbed rfl
            obtain ⟨hmodes, hpref⟩ := @maps_headListener head e hnoMode
            exact ⟨hmodes, hpref, huser head hget⟩
          · exact absurd rfl hundisturbed
          · exact ⟨rfl, rfl, rfl⟩
      obtain ⟨hmodes, hpref, huser⟩ := hkept
      refine falling_of_kept hget' hchoose huser hpref ?_ htried
      by_cases hreply : ∃ reply, event = .configuration reply
      · obtain ⟨reply, rfl⟩ := hreply
        have hsome : sys.compositor.outstanding.isSome = true := hadmits
        have hstate := hsynced.mpr hsome
        cases hremaining with
        | resting hresting =>
          rcases hresting with hidle | hresting
          · simp [hidle] at hstate
          · exact hmodes ▸ .resting (Or.inr hresting)
        | trying _ htrying hzmode hmem =>
          -- the answer to the change of the mode can only be that it failed
          obtain ⟨configuration, hconfiguration⟩ := Option.isSome_iff_exists.mp hsome
          have hattempts := hsent configuration zhead hconfiguration htrying
          obtain rfl := hundisturbed configuration hconfiguration (by simp [hattempts])
          exact hmodes ▸ .trying (Or.inr rfl) htrying hzmode (hmodes ▸ hmem)
      · exact remaining_of_same hremaining
          (Listeners.displListener_state fun reply he => hreply ⟨reply, he⟩) hdelta hmodes

/-! ### Calls of act -/

omit [Platform] in
/-- Once the answer is handled the remaining modes are those of the head. -/
private theorem handled_remaining {displ : Displ} {heads : Heads} (h : Handled displ heads)
    (hstate : displ.state ≠ .outstanding) {zhead : ZHead} {head : Head} {remaining : Modes}
    (hget : displ.heads.get? zhead = some head)
    (hremaining : Remaining displ zhead head remaining) :
    ∃ head', heads.get? zhead = some head' ∧ head'.modes = remaining ∧
      head'.zmodePref = head.zmodePref ∧ head'.name = head.name ∧
      head'.description = head.description := by
  cases hremaining with
  | resting hresting =>
    have hnot (hstate' : displ.state = .succeeded ∨ displ.state = .failed) :
        ¬ Trying displ.delta zhead := by
      refine hresting.resolve_left fun hidle => ?_
      simp [hidle] at hstate'
    have hother {z : ZHead} (hstate' : displ.state = .succeeded ∨ displ.state = .failed)
        (helement : displ.delta.element = some .mode) (hhead : displ.delta.head = some z)
        (head' : Head) : (displ.heads.put z head').get? zhead = some head := by
      have hne : zhead ≠ z := fun hz => hnot hstate' ⟨helement, hz ▸ hhead⟩
      rw [OrderedMap.get?_put_ne _ _ hne, hget]
    cases h with
    | same => exact ⟨head, hget, rfl, rfl, rfl, rfl⟩
    | modeSucceeded hs helement hhead =>
      exact ⟨head, hother (Or.inl hs) helement hhead _, rfl, rfl, rfl, rfl⟩
    | modeFailed hs helement hhead =>
      exact ⟨head, hother (Or.inr hs) helement hhead _, rfl, rfl, rfl, rfl⟩
    | @adaptiveSyncFailed z head₀ _ _ _ hget₀ =>
      by_cases hz : zhead = z
      · subst hz
        obtain rfl := Option.some.inj (hget.symm.trans hget₀)
        exact ⟨_, OrderedMap.get?_put_self _ _ _, rfl, rfl, rfl, rfl⟩
      · exact ⟨head, by rw [OrderedMap.get?_put_ne _ _ hz, hget], rfl, rfl, rfl, rfl⟩
  | trying hs htrying hzmode =>
    obtain ⟨helement, hhead⟩ := htrying
    have hfailed : displ.state = .failed := hs.resolve_left hstate
    cases h with
    | same hunaffected =>
      exact absurd helement (hunaffected (Or.inr hfailed) zhead hhead).1
    | modeSucceeded hs' => simp [hfailed] at hs'
    | @modeFailed z head₀ _ _ hhead' hget₀ =>
      obtain rfl := Option.some.inj (hhead.symm.trans hhead')
      obtain rfl := Option.some.inj (hget.symm.trans hget₀)
      exact ⟨_, OrderedMap.get?_put_self _ _ _, by simp [headFailMode, hzmode], rfl, rfl, rfl⟩
    | adaptiveSyncFailed _ helement' => simp [helement] at helement'

omit [Platform] in
private theorem stage_trying {heads heads' : Heads} {delta : DisplDelta}
    {configuration : Option Configuration} (h : Stage heads heads' delta configuration)
    {zhead : ZHead} (htrying : Trying delta zhead) :
    ∃ head, heads.get? zhead = some head ∧ head.reapplyRequired = false ∧
      head.des.zmode ≠ head.cur.zmode ∧ delta.zmode = head.des.zmode := by
  obtain ⟨helement, hhead⟩ := htrying
  cases h with
  | settled => simp [displDeltaNone] at helement
  | reapply => simp at helement
  | adaptiveSync => simp at helement
  | rest => simp [displDeltaNone] at helement
  | mode hget hnoReapply hdiffers =>
    obtain rfl := Option.some.inj hhead
    exact ⟨_, hget, hnoReapply _ _ hget, hdiffers, rfl⟩

private theorem choose_mem {cfg : Cfg} {head : Head} {choose : Modes → Option ZMode}
    (hchoose : ∀ modes, chosenMode cfg { head with modes := modes } = choose modes)
    (modes : Modes) (zmode : ZMode) (h : choose modes = some zmode) : zmode ∈ modes.keys := by
  rw [← hchoose] at h
  exact chosenMode_mem h

private theorem falling_called {zhead : ZHead} {choose : Modes → Option ZMode}
    {all : List ZMode} {sys : System} {tried : List (Option ZMode)} {server : Server}
    {configuration : Option Configuration} (h : Falling zhead choose all sys tried)
    (hcalled : Called sys.server server configuration) :
    Falling zhead choose all
      { sys with server := server, compositor := sys.compositor.receives configuration }
      (tried ++ configuration.toList.flatMap (modeAttempts zhead)) := by
  cases h with
  | gone hget hdeparted htried =>
    have hgone : zhead ∉ sys.server.gDispl.heads.keys := OrderedMap.get?_eq_none_iff.mp hget
    have hnothing : configuration.toList.flatMap (modeAttempts zhead) = [] := by
      cases hcalled with
      | waits => rfl
      | applies _ hhandled _ _ hstage =>
        cases configuration with
        | none => rfl
        | some sent =>
          have hnot : ¬ Trying server.gDispl.delta zhead := fun htrying => by
            have hmem := hstage.delta_head htrying.2
            rw [Desire.Heads.keys_desire, hhandled.keys] at hmem
            exact hgone hmem
          simp [modeAttempts_stage hstage, hnot]
    rw [hnothing, List.append_nil]
    refine .gone (OrderedMap.get?_eq_none_iff.mpr ?_) hdeparted htried
    rw [hcalled.keys]
    exact hgone
  | @present head remaining hget hchoose hremaining htried =>
    cases hcalled with
    | waits hcfg _ hheads hdelta hstate =>
      refine falling_of_kept (hheads ▸ hget) hchoose (by rw [hcfg]) rfl ?_ (by simpa using htried)
      rcases hstate with ⟨hbefore, hafter⟩ | ⟨hbefore, hafter⟩
      · exact remaining_of_same hremaining (hafter.trans hbefore.symm) hdelta rfl
      · cases hremaining with
        | resting => exact .resting (Or.inl hafter)
        | trying hs => simp [hbefore] at hs
    | applies hstate hhandled hcfg _ hstage hstate' =>
      obtain ⟨head₁, hget₁, hmodes₁, hpref₁, hname₁, hdescription₁⟩ :=
        handled_remaining hhandled hstate hget hremaining
      obtain ⟨head₂, hget₂, hd⟩ :=
        Desire.Heads.exists_desired sys.server.gCfg sys.server.gLid _ hget₁
      have hmem : zhead ∈ server.gDispl.heads.keys := by
        rw [hstage.keys]
        exact OrderedMap.mem_keys_of_get? hget₂
      obtain ⟨head₃, hget₃⟩ := OrderedMap.exists_get?_of_mem_keys hmem
      obtain ⟨head₂', hget₂', hstaged⟩ := hstage.head hget₃
      obtain rfl := Option.some.inj (hget₂.symm.trans hget₂')
      have hquiet : quiet server.gCfg = quiet sys.server.gCfg := by
        rw [hcfg]
        exact Desire.Heads.quiet_desire _ _ _
      have hkept : head₃.modes = remaining ∧ head₃.zmodePref = head.zmodePref ∧
          userMode server.gCfg head₃ = userMode sys.server.gCfg head := by
        have hname := hd.name.symm.trans hname₁
        have hdescription := hd.description.symm.trans hdescription₁
        rcases hstaged with rfl | rfl
        · exact ⟨hd.modes.symm.trans hmodes₁, hd.zmodePref.symm.trans hpref₁,
            userMode_congr hquiet hname hdescription⟩
        · exact ⟨hd.modes.symm.trans hmodes₁, hd.zmodePref.symm.trans hpref₁,
            userMode_congr hquiet hname hdescription⟩
      obtain ⟨hmodes, hpref, huser⟩ := hkept
      have hmemChoice := choose_mem hchoose
      by_cases htrying : Trying server.gDispl.delta zhead
      · -- the first choice among what remains is tried next
        obtain ⟨head₂', hget₂', hreapply, hdiffers, hzmode⟩ := stage_trying hstage htrying
        obtain rfl := Option.some.inj (hget₂.symm.trans hget₂')
        obtain ⟨hactive, _⟩ := enabled_of_differs hd hreapply (Or.inl hdiffers)
        obtain ⟨zmode, hchosen⟩ := Option.isSome_iff_exists.mp (Bool.and_eq_true_iff.mp hactive).2
        rw [(hd.active hactive).1, hchosen] at hzmode
        have hchoice : choose remaining = some zmode := by
          rw [← hchoose remaining, ← hchosen]
          exact chosenMode_of_userMode (userMode_congr rfl hname₁.symm hdescription₁.symm)
            hpref₁.symm hmodes₁.symm
        cases configuration with
        | none => simp [Trying, hstage.delta_of_none, displDeltaNone] at htrying
        | some sent =>
          have hrest : Remaining server.gDispl zhead head₃ (remaining.remove zmode) := by
            rw [← hmodes]
            exact .trying (Or.inl hstate') htrying hzmode (hmodes ▸ hmemChoice _ _ hchoice)
          refine falling_of_kept hget₃ hchoose huser hpref hrest ?_
          rw [drain_of_some hmemChoice hchoice] at htried
          simp [modeAttempts_stage hstage, htrying, hzmode, ← htried]
      · have hnothing : configuration.toList.flatMap (modeAttempts zhead) = [] := by
          cases configuration with
          | none => rfl
          | some sent => simp [modeAttempts_stage hstage, htrying]
        rw [hnothing, List.append_nil]
        exact falling_of_kept hget₃ hchoose huser hpref (hmodes ▸ .resting (Or.inr htrying)) htried

/-! ### Runs -/

def attempts (zhead : ZHead) (sys : System) (event : Event) : List (Option ZMode) :=
  (sys.sent event).flatMap (modeAttempts zhead)

private theorem falling_act {zhead : ZHead} {choose : Modes → Option ZMode} {all : List ZMode}
    {sys : System} {tried : List (Option ZMode)} (h : Falling zhead choose all sys tried) :
    Falling zhead choose all sys.act (tried ++ attempts zhead sys .act) := by
  unfold attempts System.sent System.act
  cases hact : Model.act sys.server with
  | error halt =>
    rw [List.flatMap_nil, List.append_nil]
    cases h with
    | present hget hchoose hremaining htried => exact .present hget hchoose hremaining htried
    | gone hget hdeparted htried => exact .gone hget hdeparted htried
  | ok result =>
    obtain ⟨server, configuration⟩ := result
    have hcalled := falling_called h (Spec.act_called hact)
    cases configuration with
    | none => exact hcalled
    | some sent => exact hcalled

private theorem attempts_of_ne_act {zhead : ZHead} {sys : System} {event : Event}
    (h : event ≠ .act) : attempts zhead sys event = [] := by
  cases event with
  | act => exact absurd rfl h
  | _ => rfl

/-- What a step must keep for the sequence to go on. -/
structure Sound (sys : System) : Prop where
  synced : Synced sys
  sent : ModeSent sys
  tracked : Tracked sys

private theorem falling_step {zhead : ZHead} {choose : Modes → Option ZMode} {all : List ZMode}
    {sys sys' : System} {tried : List (Option ZMode)} {event : Event}
    (h : Sound sys ∧ Falling zhead choose all sys tried)
    (hundisturbed : Undisturbed zhead sys event) (hstep : sys.step event = some sys') :
    Sound sys' ∧ Falling zhead choose all sys' (tried ++ attempts zhead sys event) := by
  obtain ⟨⟨hsynced, hsent, htracked⟩, h⟩ := h
  refine ⟨⟨synced_step hsynced hstep, modeSent_step hsent hstep, tracked_step htracked hstep⟩, ?_⟩
  cases event with
  | dispatch event =>
    obtain ⟨hadmits, rfl⟩ := System.step_dispatch hstep
    rw [attempts_of_ne_act (by simp), List.append_nil]
    exact falling_dispatch hsynced hsent htracked h hundisturbed hadmits
  | act =>
    obtain rfl := System.step_act hstep
    exact falling_act h
  | request request =>
    obtain rfl := System.step_request hstep
    rw [attempts_of_ne_act (by simp), List.append_nil]
    obtain ⟨hnoReapply, huser⟩ := hundisturbed
    cases h with
    | gone hget hdeparted htried =>
      refine .gone (OrderedMap.get?_eq_none_iff.mpr ?_) hdeparted htried
      rw [Requests.serverRequest_keys]
      exact OrderedMap.get?_eq_none_iff.mp hget
    | @present head remaining hget hchoose hremaining htried =>
      have hmem : zhead ∈ (serverRequest sys.server request).1.gDispl.heads.keys := by
        rw [Requests.serverRequest_keys]
        exact OrderedMap.mem_keys_of_get? hget
      obtain ⟨head', hget'⟩ := OrderedMap.exists_get?_of_mem_keys hmem
      obtain ⟨head₀, hget₀, hrequested⟩ := Requests.serverRequest_get? _ _ hget'
      obtain rfl := Option.some.inj (hget.symm.trans hget₀)
      cases hrequested with
      | reapply _ hreapply => exact absurd hreapply hnoReapply
      | overrides =>
        refine falling_of_kept hget' hchoose (huser head hget) rfl ?_ htried
        exact remaining_of_same hremaining (Requests.serverRequest_state _ _)
          (Requests.serverRequest_delta _ _) rfl
  | reload cfg =>
    obtain rfl := System.step_reload hstep
    rw [attempts_of_ne_act (by simp), List.append_nil]
    cases h with
    | gone hget hdeparted htried => exact .gone hget hdeparted htried
    | present hget hchoose hremaining htried =>
      exact falling_of_kept hget hchoose (hundisturbed _ hget) rfl hremaining htried
  | lid closed =>
    obtain rfl := System.step_lid hstep
    rw [attempts_of_ne_act (by simp), List.append_nil]
    have hlid := gLidUpdate_gDispl sys.server closed
    have hcfg : (gLidUpdate sys.server closed).gCfg = sys.server.gCfg := by
      unfold gLidUpdate
      split <;> rfl
    cases h with
    | gone hget hdeparted htried => exact .gone (hlid ▸ hget) hdeparted htried
    | present hget hchoose hremaining htried =>
      exact falling_of_kept (hlid ▸ hget) hchoose (by rw [hcfg]) rfl
        (remaining_of_same hremaining (by rw [hlid]) (by rw [hlid]) rfl) htried

private theorem falling_initial {zhead : ZHead} {choose : Modes → Option ZMode}
    {all : List ZMode} {sys : System} {tried : List (Option ZMode)}
    (h : Falling zhead choose all sys tried) : tried <+: all.map some := by
  cases h with
  | present _ _ _ htried => exact ⟨_, htried⟩
  | gone _ _ htried => exact htried

private theorem falling_forcedOff {zhead : ZHead} {choose : Modes → Option ZMode}
    {all : List ZMode} {sys : System} {tried : List (Option ZMode)}
    (h : Falling zhead choose all sys tried) {head : Head}
    (hget : sys.server.gDispl.heads.get? zhead = some head)
    (hforced : forcedOff sys.server.gCfg head = true) : tried = all.map some := by
  cases h with
  | gone hgone => simp [hget] at hgone
  | @present head' remaining hget' _ hremaining htried =>
    obtain rfl := Option.some.inj (hget.symm.trans hget')
    have hsize := forcedOff_iff.mp hforced
    cases hremaining with
    | resting =>
      have hlength := @length_drain _ _ _ choose head.modes
      rw [hsize, Nat.le_zero, List.length_eq_zero_iff] at hlength
      simpa [hlength] using htried
    | trying _ _ _ hmem =>
      rw [OrderedMap.keys, List.length_eq_zero_iff.mp hsize] at hmem
      exact absurd hmem List.not_mem_nil

private theorem attempts_held {zhead : ZHead} {choose : Modes → Option ZMode}
    {all : List ZMode} {sys : System} {tried : List (Option ZMode)}
    (h : Falling zhead choose all sys.act tried) {next : Option ZMode}
    (hnext : next ∈ attempts zhead sys .act) :
    ∃ zmode head, next = some zmode ∧
      sys.act.server.gDispl.heads.get? zhead = some head ∧ zmode ∈ head.modes.keys := by
  unfold attempts System.sent at hnext
  unfold System.act at h ⊢
  cases hact : Model.act sys.server with
  | error halt => simp [hact] at hnext
  | ok result =>
    obtain ⟨server, configuration⟩ := result
    cases configuration with
    | none => simp [hact] at hnext
    | some sent =>
      simp only [hact] at hnext h ⊢
      cases Spec.act_called hact with
      | applies _ hhandled _ _ hstage hstate =>
        rw [List.flatMap_singleton, modeAttempts_stage hstage] at hnext
        by_cases htrying : Trying server.gDispl.delta zhead
        · rw [if_pos htrying, List.mem_singleton] at hnext
          cases h with
          | gone hget =>
            have hmem := hstage.delta_head htrying.2
            rw [← hstage.keys] at hmem
            exact absurd hmem (OrderedMap.get?_eq_none_iff.mp hget)
          | present hget _ hremaining _ =>
            cases hremaining with
            | resting hresting =>
              rcases hresting with hidle | hnot
              · simp [hstate] at hidle
              · exact absurd htrying hnot
            | trying _ _ hzmode hmem => exact ⟨_, _, hnext.trans hzmode, hget, hmem⟩
        · simp [htrying] at hnext

/-- While every mode sent for a head fails, and neither its modes nor its user MODE change and
nothing is reapplied: what is sent is the start of the fallback sequence of the modes there
were, so no mode is sent twice; the mode sent next is one the head has; and the head is turned
off for lack of a mode only once all of them were sent. -/
theorem mode_fallback {cfg : Cfg} {lid : Option Lid} {sys₀ sys : System} {zhead : ZHead}
    {head₀ : Head} {es : List Event} (hreachable : System.Reachable cfg lid sys₀)
    (hget : sys₀.server.gDispl.heads.get? zhead = some head₀)
    (hresting : sys₀.server.gDispl.state = .idle ∨ ¬ Trying sys₀.server.gDispl.delta zhead)
    (hundisturbed : Along System.step (Undisturbed zhead) sys₀ es)
    (hrun : run System.step sys₀ es = some sys) :
    ∃ tried : List ZMode, outputs System.step (attempts zhead) sys₀ es = tried.map some ∧
      tried <+: fallbackSequence sys₀.server.gCfg head₀ ∧ tried.Nodup ∧
      tried.length ≤ head₀.modes.size ∧
      (∀ next ∈ attempts zhead sys .act, ∃ zmode head, next = some zmode ∧
        sys.act.server.gDispl.heads.get? zhead = some head ∧ zmode ∈ head.modes.keys) ∧
      ∀ head, sys.server.gDispl.heads.get? zhead = some head →
        forcedOff sys.server.gCfg head = true → ∀ zmode ∈ head₀.modes.keys, zmode ∈ tried := by
  have hmemChoice : ∀ modes zmode,
      chosenMode sys₀.server.gCfg { head₀ with modes := modes } = some zmode →
        zmode ∈ modes.keys := choose_mem fun _ => rfl
  have hsound : Sound sys₀ :=
    ⟨reachable_synced hreachable, reachable_modeSent hreachable, reachable_tracked hreachable⟩
  have hstart : Falling zhead
      (fun modes => chosenMode sys₀.server.gCfg { head₀ with modes := modes })
      (fallbackSequence sys₀.server.gCfg head₀) sys₀ [] :=
    .present hget (fun _ => rfl) (.resting hresting) rfl
  obtain ⟨_, hfalling⟩ := run_outputs_inv
    (I := fun s acc => Sound s ∧ Falling zhead
      (fun modes => chosenMode sys₀.server.gCfg { head₀ with modes := modes })
      (fallbackSequence sys₀.server.gCfg head₀) s acc)
    (fun _ _ _ _ hI hC hstep => falling_step hI hC hstep) ⟨hsound, hstart⟩ hundisturbed hrun
  rw [List.nil_append] at hfalling
  obtain ⟨tried, hprefix, htried⟩ := List.prefix_map_iff.mp (falling_initial hfalling)
  refine ⟨tried, htried, hprefix, (nodup_drain hmemChoice _).sublist hprefix.sublist,
    hprefix.length_le.trans (length_drain _), ?_, ?_⟩
  · exact fun next hnext => attempts_held (falling_act hfalling) hnext
  · intro head hhead hforced zmode hzmode
    have hall := falling_forcedOff hfalling hhead hforced
    rw [htried] at hall
    have hsame := List.map_injective_iff.mpr (Option.some_injective ZMode) hall
    rw [hsame]
    exact mem_drain hmemChoice (fun _ => chosenMode_eq_none.mp) _ hzmode

def twoModes : List Event :=
  [.dispatch (.managerHead ⟨0⟩), .dispatch (.head ⟨0⟩ (.name "DP-1")),
    .dispatch (.head ⟨0⟩ (.mode ⟨0⟩)), .dispatch (.mode ⟨0⟩ ⟨0⟩ (.size 1280 720)),
    .dispatch (.head ⟨0⟩ (.mode ⟨1⟩)), .dispatch (.mode ⟨0⟩ ⟨1⟩ (.size 1920 1080))]

def firstFails : List Event := [.act, .dispatch (.configuration .failed), .act]

omit [Platform] in
/-- The larger mode is tried, then the other. -/
theorem mode_fallback_firstFails :
    ∃ sys₀ sys : System, ∃ head₀ : Head,
      run (@System.step plainPlatform) (systemInit (cfgApplyDefaults cfgInit) none) twoModes =
          some sys₀ ∧
        sys₀.server.gDispl.heads.get? ⟨0⟩ = some head₀ ∧
        run (@System.step plainPlatform) sys₀ firstFails = some sys ∧
        outputs (@System.step plainPlatform) (@attempts plainPlatform ⟨0⟩) sys₀ firstFails =
          [some ⟨1⟩, some ⟨0⟩] ∧
        [⟨1⟩, ⟨0⟩] <+: @fallbackSequence plainPlatform sys₀.server.gCfg head₀ := by
  have hstart : (run (@System.step plainPlatform) (systemInit (cfgApplyDefaults cfgInit) none)
      twoModes).map (fun sys => (sys.server.gDispl.state,
        (sys.server.gDispl.heads.get? ⟨0⟩).isSome,
        (run (@System.step plainPlatform) sys firstFails).isSome,
        outputs (@System.step plainPlatform) (@attempts plainPlatform ⟨0⟩) sys firstFails)) =
      some (.idle, true, true, [some ⟨1⟩, some ⟨0⟩]) := by
    decide +kernel
  obtain ⟨sys₀, hsys₀, hvalue⟩ := Option.map_eq_some_iff.mp hstart
  obtain ⟨hidle, hvalue⟩ := Prod.mk.inj hvalue
  obtain ⟨hhead, hvalue⟩ := Prod.mk.inj hvalue
  obtain ⟨hrun, houtputs⟩ := Prod.mk.inj hvalue
  obtain ⟨head₀, hget⟩ := Option.isSome_iff_exists.mp hhead
  obtain ⟨sys, hsys⟩ := Option.isSome_iff_exists.mp hrun
  have hundisturbed :
      Along (@System.step plainPlatform) (@Undisturbed plainPlatform ⟨0⟩) sys₀ firstFails :=
    fun _ _ => ⟨trivial, fun _ _ => ⟨fun _ _ _ => rfl, fun _ _ => ⟨trivial, trivial⟩⟩⟩
  obtain ⟨tried, htried, hprefix, _⟩ := @mode_fallback plainPlatform _ _ _ _ _ _ _
    ⟨twoModes, hsys₀⟩ hget (Or.inl hidle) hundisturbed hsys
  have hsame : tried = [⟨1⟩, ⟨0⟩] :=
    List.map_injective_iff.mpr (Option.some_injective ZMode) (htried.symm.trans houtputs)
  exact ⟨sys₀, sys, head₀, hsys₀, hget, hsys, houtputs, hsame ▸ hprefix⟩

end Steps

end WayDisplays.Act.Fallback
