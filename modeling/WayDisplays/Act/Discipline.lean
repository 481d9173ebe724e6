/- What a reachable server may send: one configuration at a time, in the order of the stages. -/

import WayDisplays.Act.Listeners
import WayDisplays.Act.Requests
import WayDisplays.Act.Spec
import WayDisplays.Model.System

set_option autoImplicit false
set_option relaxedAutoImplicit false

namespace WayDisplays.Act.Discipline

open Lib (OrderedMap)
open Lib.Run
open Model
open Spec (Called Stage)

/-! ### The configuration in flight -/

/-- The server waits for an answer exactly while the compositor owes one. -/
def Synced (sys : System) : Prop :=
  sys.server.gDispl.state = .outstanding ↔ sys.compositor.outstanding.isSome = true

private theorem synced_of_same {sys sys' : System} (hsynced : Synced sys)
    (hstate : sys'.server.gDispl.state = sys.server.gDispl.state)
    (houtstanding : sys'.compositor.outstanding = sys.compositor.outstanding) :
    Synced sys' := by
  unfold Synced
  rw [hstate, houtstanding]
  exact hsynced

private theorem synced_dispatch {sys : System} {event : WlEvent} (hsynced : Synced sys) :
    Synced (sys.dispatch event) := by
  cases event with
  | configuration reply =>
    have hanswered : reply.state ≠ .outstanding := by cases reply <;> simp [Reply.state]
    exact iff_of_false hanswered (by simp [System.dispatch, Compositor.sends])
  | head zhead e =>
    refine synced_of_same hsynced rfl ?_
    cases e <;> rfl
  | managerHead zhead => exact synced_of_same hsynced rfl rfl
  | mode zhead zmode e => exact synced_of_same hsynced rfl rfl
  | headFinished zhead =>
    exact synced_of_same hsynced (Listeners.displFinishedHead_state _ _) rfl

variable [Platform]

private theorem synced_called {sys : System} (hsynced : Synced sys) {server : Server}
    {configuration : Option Configuration} (h : Called sys.server server configuration) :
    Synced { sys with server := server, compositor := sys.compositor.receives configuration } := by
  simp only [Synced, Compositor.receives]
  cases h with
  | waits _ _ _ _ hstate =>
    rcases hstate with ⟨hbefore, hafter⟩ | ⟨hbefore, hafter⟩
    · exact iff_of_true hafter (hsynced.mp hbefore)
    · refine iff_of_false (by simp [hafter]) ?_
      intro hsome
      have := hsynced.mpr hsome
      simp [hbefore] at this
  | applies hidle _ _ _ _ hstate =>
    have hnone : sys.compositor.outstanding = none := by
      rw [← Option.not_isSome_iff_eq_none]
      exact fun hsome => hidle (hsynced.mpr hsome)
    rw [hstate, hnone, Option.or_none]
    split
    · rename_i hsome
      exact iff_of_true rfl hsome
    · rename_i hsome
      exact iff_of_false (by simp) hsome

theorem synced_step {sys sys' : System} {event : Event} (hsynced : Synced sys)
    (h : sys.step event = some sys') : Synced sys' := by
  cases event with
  | dispatch event =>
    obtain ⟨_, rfl⟩ := System.step_dispatch h
    exact synced_dispatch hsynced
  | act =>
    obtain rfl := System.step_act h
    unfold System.act
    cases hact : Model.act sys.server with
    | error halt => exact hsynced
    | ok result =>
      obtain ⟨server, configuration⟩ := result
      exact synced_called hsynced (Spec.act_called hact)
  | request request =>
    obtain rfl := System.step_request h
    exact synced_of_same hsynced (Requests.serverRequest_state _ _) rfl
  | reload cfg =>
    obtain rfl := System.step_reload h
    exact synced_of_same hsynced rfl rfl
  | lid closed =>
    obtain rfl := System.step_lid h
    exact synced_of_same hsynced (by rw [gLidUpdate_gDispl]) rfl

omit [Platform] in
theorem synced_systemInit (cfg : Cfg) (lid : Option Lid) : Synced (systemInit cfg lid) := by
  simp [Synced, systemInit, displInit, compositorInit]

theorem reachable_synced {cfg : Cfg} {lid : Option Lid} {sys : System}
    (h : System.Reachable cfg lid sys) : Synced sys :=
  h.invariant (synced_systemInit cfg lid) (fun _ _ _ => synced_step)

/-! ### What is sent -/

/-- A configuration as its stage allows it, against the heads and the delta it leaves. -/
inductive Disciplined (displ : Displ) : Configuration → Prop
  | reapply {zhead : ZHead} (helement : displ.delta.element = none)
      (hhead : displ.delta.head = some zhead) : Disciplined displ [(zhead, .disable)]
  | mode {zhead : ZHead} {head : Head} {zmode : ZMode} (helement : displ.delta.element = some .mode)
      (hhead : displ.delta.head = some zhead) (hget : displ.heads.get? zhead = some head)
      (henabled : head.des.enabled = true) (hmode : zmode ∈ head.modes.keys)
      (hnoReapply : ∀ z h, displ.heads.get? z = some h → h.reapplyRequired = false) :
      Disciplined displ [(zhead, .enable [.setMode (some zmode)])]
  | adaptiveSync {zhead : ZHead} {head : Head} (helement : displ.delta.element = some .vrrOff)
      (hhead : displ.delta.head = some zhead) (hget : displ.heads.get? zhead = some head)
      (henabled : head.des.enabled = true)
      (hnone : ∀ z h, displ.heads.get? z = some h →
        h.reapplyRequired = false ∧ headCurrentModeNotDesired h = false) :
      Disciplined displ [(zhead, .enable [.setAdaptiveSync head.des.adaptiveSync])]
  | rest {configuration : Configuration} (helement : displ.delta.element = none)
      (hhead : displ.delta.head = none)
      (hnone : ∀ zhead ∈ configuration.map Prod.fst, ∃ head,
        displ.heads.get? zhead = some head ∧ head.reapplyRequired = false ∧
          headCurrentModeNotDesired head = false ∧
          headCurrentAdaptiveSyncNotDesired head = false) :
      Disciplined displ configuration

theorem enabled_of_differs {cfg : Cfg} {lid : Option Lid} {heads : Heads}
    {head head' : Head} (h : Desire.Heads.Desired cfg lid heads head head')
    (hreapply : head'.reapplyRequired = false)
    (hdiffers : head'.des.zmode ≠ head'.cur.zmode ∨
      head'.des.adaptiveSync ≠ head'.cur.adaptiveSync) :
    Desire.Spec.active cfg lid heads head = true ∧ head'.des.enabled = true := by
  cases hactive : Desire.Spec.active cfg lid heads head with
  | false =>
    rw [h.inactive hactive, h.cur] at hdiffers
    simp at hdiffers
  | true =>
    obtain ⟨_, _, henabled, _⟩ := h.active hactive
    rw [h.reapplyRequired, hreapply] at henabled
    exact ⟨rfl, henabled⟩

private theorem disciplined_stage {cfg : Cfg} {lid : Option Lid} {heads : Heads} {displ : Displ}
    {configuration : Configuration}
    (h : Stage (desire cfg lid heads).2 displ.heads displ.delta (some configuration)) :
    Disciplined displ configuration := by
  have hdesired := (Desire.Heads.desired_desire cfg lid heads).2
  generalize (desire cfg lid heads).2 = desired at h hdesired
  generalize hconfiguration : some configuration = sent at h
  obtain ⟨heads', _, _, state, delta⟩ := displ
  dsimp only at h
  cases h with
  | settled => exact absurd hconfiguration (by simp)
  | reapply =>
    obtain rfl := Option.some.inj hconfiguration
    exact .reapply rfl rfl
  | mode hget hnoReapply hdiffers =>
    obtain rfl := Option.some.inj hconfiguration
    obtain ⟨head₀, _, hd⟩ := hdesired _ _ hget
    obtain ⟨hactive, henabled⟩ :=
      enabled_of_differs hd (hnoReapply _ _ hget) (Or.inl hdiffers)
    obtain ⟨zmode, hzmode⟩ := Option.isSome_iff_exists.mp (Bool.and_eq_true_iff.mp hactive).2
    rw [(hd.active hactive).1, hzmode]
    exact .mode rfl rfl hget henabled (hd.modes ▸ Desire.Spec.chosenMode_mem hzmode) hnoReapply
  | adaptiveSync hget hnoReapply hnoMode hdiffers =>
    obtain rfl := Option.some.inj hconfiguration
    obtain ⟨head₀, _, hd⟩ := hdesired _ _ hget
    obtain ⟨_, henabled⟩ := enabled_of_differs hd (hnoReapply _ _ hget) (Or.inr hdiffers)
    refine .adaptiveSync rfl rfl hget henabled fun z h hh => ⟨hnoReapply z h hh, ?_⟩
    simp [headCurrentModeNotDesired, hnoMode z h hh]
  | rest hnoReapply hnoMode hnoAdaptiveSync =>
    obtain rfl := Option.some.inj hconfiguration
    refine .rest rfl rfl fun zhead hmem => ?_
    have hkeys : zhead ∈ desired.keys := by
      change zhead ∈ ((desired.filter _).mapVals _).keys at hmem
      rw [OrderedMap.keys_mapVals] at hmem
      obtain ⟨e, he, rfl⟩ := List.mem_map.mp hmem
      exact List.mem_map_of_mem (List.mem_of_mem_filter he)
    obtain ⟨head, hget⟩ := OrderedMap.exists_get?_of_mem_keys hkeys
    refine ⟨head, hget, hnoReapply zhead head hget, ?_, ?_⟩
    · simp [headCurrentModeNotDesired, hnoMode zhead head hget]
    · simp [headCurrentAdaptiveSyncNotDesired, hnoAdaptiveSync zhead head hget]

omit [Platform] in
private theorem stage_nodup {heads heads' : Heads} {delta : DisplDelta}
    {configuration : Configuration} (h : Stage heads heads' delta (some configuration)) :
    (configuration.map Prod.fst).Nodup := by
  cases h with
  | reapply => exact List.nodup_singleton _
  | mode => exact List.nodup_singleton _
  | adaptiveSync => exact List.nodup_singleton _
  | rest => exact OrderedMap.keys_nodup _

/-- A reachable server sends a configuration only while none is in flight; it names each head
at most once, and is one reapply, one mode of an enabled head once nothing is to be reapplied,
one adaptive sync of an enabled head once no mode is to change either, or else the rest. -/
theorem sent_disciplined {cfg : Cfg} {lid : Option Lid} {sys : System}
    {configuration : Configuration} (hreachable : System.Reachable cfg lid sys)
    (hsent : configuration ∈ sys.sent .act) :
    sys.server.gDispl.state ≠ .outstanding ∧ sys.compositor.outstanding = none ∧
      sys.act.compositor.outstanding = some configuration ∧
      (configuration.map Prod.fst).Nodup ∧ Disciplined sys.act.server.gDispl configuration := by
  unfold System.sent at hsent
  unfold System.act
  cases hact : Model.act sys.server with
  | error halt => simp [hact] at hsent
  | ok result =>
    obtain ⟨server, sent⟩ := result
    cases sent with
    | none => simp [hact] at hsent
    | some sent =>
      simp only [hact, List.mem_singleton] at hsent
      subst hsent
      cases Spec.act_called hact with
      | applies hidle _ _ _ hstage _ =>
        have hnone : sys.compositor.outstanding = none := by
          rw [← Option.not_isSome_iff_eq_none]
          exact fun hsome => hidle ((reachable_synced hreachable).mpr hsome)
        exact ⟨hidle, hnone, rfl, stage_nodup hstage, disciplined_stage hstage⟩

def announced : List Event :=
  [.dispatch (.managerHead ⟨0⟩), .dispatch (.head ⟨0⟩ (.name "DP-1")),
    .dispatch (.head ⟨0⟩ (.mode ⟨0⟩)), .dispatch (.mode ⟨0⟩ ⟨0⟩ (.size 1920 1080))]

omit [Platform] in
/-- Its mode is sent first. -/
theorem sent_disciplined_announced :
    ∃ sys : System,
      run (@System.step plainPlatform) (systemInit (cfgApplyDefaults cfgInit) none) announced =
          some sys ∧
        Disciplined (@System.act plainPlatform sys).server.gDispl
          [(⟨0⟩, .enable [.setMode (some ⟨0⟩)])] := by
  have hrun : (run (@System.step plainPlatform) (systemInit (cfgApplyDefaults cfgInit) none)
      announced).map (fun sys => @System.sent plainPlatform sys .act) =
      some [[(⟨0⟩, .enable [.setMode (some ⟨0⟩)])]] := by
    decide +kernel
  obtain ⟨sys, hsys, hsent⟩ := Option.map_eq_some_iff.mp hrun
  have hmem : [(⟨0⟩, .enable [.setMode (some ⟨0⟩)])] ∈ @System.sent plainPlatform sys .act := by
    rw [hsent]
    exact List.mem_singleton_self _
  obtain ⟨_, _, _, _, h⟩ := @sent_disciplined plainPlatform _ _ _ _ ⟨announced, hsys⟩ hmem
  exact ⟨sys, hsys, h⟩

end WayDisplays.Act.Discipline
