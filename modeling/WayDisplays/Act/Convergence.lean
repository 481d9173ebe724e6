/- Against a compositor that answers what it is asked, act settles after a bounded number of
configurations and sends nothing more. -/

import WayDisplays.Act.Debt

set_option autoImplicit false
set_option relaxedAutoImplicit false

namespace WayDisplays.Act.Convergence

open Lib (OrderedMap)
open Model
open Spec Answers Debt
open Desire.Spec Desire.Heads Desire.Layout

/-! ### An exchange with the compositor -/

/-- The server and the events the compositor sent that are not dispatched yet. -/
structure Exchange where
  server : Server
  pending : List WlEvent

def Exchange.dispatch (server : Server) (event : WlEvent) (pending : List WlEvent) : Exchange :=
  { server := { server with gDispl := displListener server.gDispl event }, pending := pending }

/-- One act, which the compositor answers in time if it sends a configuration, or one event. -/
inductive Step [Platform] : Exchange → List Configuration → Exchange → Prop
  | act {server server' : Server} {pending : List WlEvent}
      (h : Model.act server = .ok (server', none)) :
      Step ⟨server, pending⟩ [] ⟨server', pending⟩
  | send {server server' : Server} {pending events : List WlEvent}
      {configuration : Configuration} (h : Model.act server = .ok (server', some configuration))
      (hanswer : Answer configuration events) :
      Step ⟨server, pending⟩ [configuration] ⟨server', pending ++ events⟩
  | dispatch (server : Server) (event : WlEvent) (pending : List WlEvent) :
      Step ⟨server, event :: pending⟩ [] (.dispatch server event pending)

/-- The configurations sent along an exchange, with its last state. -/
inductive Exec [Platform] : Exchange → List Configuration → Exchange → Prop
  | refl (x : Exchange) : Exec x [] x
  | snoc {x y z : Exchange} {sent sent' : List Configuration} (h : Exec x sent y)
      (hstep : Step y sent' z) : Exec x (sent ++ sent') z

def Settled (heads : Heads) : Prop :=
  ∀ zhead head, heads.get? zhead = some head → headCurrentNotDesired head = false

/-! ### What is due -/

/-- The answer to what is in flight is there and can be handled. -/
structure Answered (displ : Displ) (heads : Heads) : Prop where
  there : displ.state ≠ .outstanding
  kept : displ.state ≠ .cancelled
  handled : Handled displ heads
  blamed : displ.state = .failed →
    displ.delta.element = some .mode ∨ displ.delta.element = some .vrrOff
  live : displ.state ≠ .idle → ∀ zhead, displ.delta.head = some zhead → zhead ∈ displ.heads.keys

/-- The heads there will be once the pending events are dispatched and the answer handled. -/
inductive Due : Displ → List WlEvent → Heads → Prop
  | answered {displ : Displ} {heads : Heads} (h : Answered displ heads) : Due displ [] heads
  | owed {displ : Displ} {event : WlEvent} {events : List WlEvent} {heads : Heads}
      (hstate : displ.state = .outstanding) (h : Due (displListener displ event) events heads) :
      Due displ (event :: events) heads

theorem Answered.congr {displ displ' : Displ} {heads : Heads} (h : Answered displ heads)
    (hheads : displ'.heads = displ.heads) (hstate : displ'.state = displ.state)
    (hdelta : displ'.delta = displ.delta) : Answered displ' heads where
  there := hstate ▸ h.there
  kept := hstate ▸ h.kept
  handled := h.handled.congr hheads hstate hdelta
  blamed := by
    rw [hstate, hdelta]
    exact h.blamed
  live := by
    rw [hstate, hdelta, hheads]
    exact h.live

private theorem displListener_congr {displ displ' : Displ} (event : WlEvent)
    (hheads : displ'.heads = displ.heads) (hstate : displ'.state = displ.state) :
    (displListener displ' event).heads = (displListener displ event).heads ∧
      (displListener displ' event).state = (displListener displ event).state := by
  cases event with
  | headFinished zhead =>
    simp only [displListener, Listeners.displFinishedHead_heads,
      Listeners.displFinishedHead_state]
    exact ⟨by rw [hheads], hstate⟩
  | managerHead zhead => exact ⟨by simp only [displListener, displAddHead, hheads], hstate⟩
  | head zhead event => exact ⟨by simp only [displListener, hheads], hstate⟩
  | mode zhead zmode event => exact ⟨by simp only [displListener, hheads], hstate⟩
  | configuration reply => exact ⟨hheads, rfl⟩

theorem Due.congr {displ displ' : Displ} {events : List WlEvent} {heads : Heads}
    (h : Due displ events heads) (hheads : displ'.heads = displ.heads)
    (hstate : displ'.state = displ.state) (hdelta : displ'.delta = displ.delta) :
    Due displ' events heads := by
  induction h generalizing displ' with
  | answered h => exact .answered (h.congr hheads hstate hdelta)
  | owed hout _ ih =>
    obtain ⟨hheads', hstate'⟩ := displListener_congr _ hheads hstate
    refine .owed (hstate.trans hout) (ih hheads' hstate' ?_)
    rw [Listeners.displListener_delta, Listeners.displListener_delta, hdelta]

private theorem due_reports {displ : Displ} {events : List WlEvent} {reply : Reply}
    {heads : Heads} (hstate : displ.state = .outstanding)
    (hevents : ∀ event ∈ events, ∃ zhead e, event = .head zhead e)
    (h : Answered (displListener (events.foldl displListener displ) (.configuration reply))
      heads) : Due displ (events ++ [.configuration reply]) heads := by
  induction events generalizing displ with
  | nil => exact .owed hstate (.answered h)
  | cons event events ih =>
    obtain ⟨zhead, e, rfl⟩ := hevents event List.mem_cons_self
    exact .owed hstate (ih hstate (fun event' hmem => hevents event' (List.mem_cons_of_mem _ hmem))
      h)

private theorem mem_reports {configuration : Configuration} {event : WlEvent}
    (h : event ∈ reports configuration) : ∃ zhead e, event = .head zhead e := by
  obtain ⟨⟨zhead, config⟩, _, hmem⟩ := List.mem_flatMap.mp h
  obtain ⟨e, _, rfl⟩ := List.mem_map.mp hmem
  exact ⟨zhead, e, rfl⟩

/-- A granted configuration leaves what it requests, in whatever order that was reported. -/
private theorem due_granted {displ : Displ} {configuration : Configuration}
    {events : List WlEvent} {heads : Heads} (hstate : displ.state = .outstanding)
    (horderly : Orderly configuration) (hperm : events.Perm (reports configuration))
    (h : Answered { displ with
      heads := configuration.foldl (fun heads e => heads.modify e.1 (grant e.2)) displ.heads
      state := .succeeded } heads) :
    Due displ (events ++ [.configuration .succeeded]) heads := by
  refine due_reports hstate (fun event hmem => mem_reports (hperm.mem_iff.mp hmem)) ?_
  rw [foldl_perm_reports horderly hperm, foldl_reports]
  exact h

private theorem due_granted_one {displ : Displ} {zhead : ZHead} {config : HeadConfig}
    {events : List WlEvent} {heads : Heads} (hstate : displ.state = .outstanding)
    (horderly : Orderly [(zhead, config)]) (hperm : events.Perm (reports [(zhead, config)]))
    (h : Answered { displ with
      heads := displ.heads.modify zhead (grant config), state := .succeeded } heads) :
    Due displ (events ++ [.configuration .succeeded]) heads :=
  due_granted hstate horderly hperm h

/-! ### Every stage, answered -/

private theorem orderly_single (zhead : ZHead) {config : HeadConfig}
    (h : ∀ a ∈ headReports config, ∀ b ∈ headReports config, ∀ head,
      headListener (headListener head a) b = headListener (headListener head b) a) :
    Orderly [(zhead, config)] where
  nodup := List.nodup_singleton zhead
  commute := by
    intro e he
    obtain rfl := List.mem_singleton.mp he
    exact h

private theorem grant_setMode (zmode : Option ZMode) (head : Head) :
    ({ grant (.enable [.setMode zmode]) head with
        cur := { (grant (.enable [.setMode zmode]) head).cur with zmode := zmode } } : Head) =
      { head with cur := { head.cur with enabled := true, zmode := zmode } } := by
  cases zmode with
  | none => rfl
  | some zmode => rfl

private theorem handled_modeSucceeded {displ : Displ} {zhead : ZHead} {head head' : Head}
    (hstate : displ.state = .succeeded) (helement : displ.delta.element = some .mode)
    (hhead : displ.delta.head = some zhead) (hget : displ.heads.get? zhead = some head)
    (hset : { head with cur := { head.cur with zmode := displ.delta.zmode } } = head') :
    Handled displ (displ.heads.put zhead head') := by
  subst hset
  exact .modeSucceeded hstate helement hhead hget

private theorem changing_of_reapply {head : Head} (h : head.reapplyRequired = true) :
    headCurrentNotDesired head = true := by
  simp [headCurrentNotDesired, h]

private theorem changing_of_des {head : Head} (h : head.des ≠ head.cur) :
    headCurrentNotDesired head = true := by
  cases hchanging : headCurrentNotDesired head with
  | true => rfl
  | false => exact absurd (headCurrentNotDesired_eq_false.mp hchanging).2 h

private theorem mem_keys_of_delta {delta : DisplDelta} {zhead : ZHead}
    (hdelta : delta.head = some zhead) {heads : Heads} (hmem : zhead ∈ heads.keys) :
    ∀ z, delta.head = some z → z ∈ heads.keys := by
  intro z hz
  obtain rfl := Option.some.inj (hdelta.symm.trans hz)
  exact hmem

variable [Platform]

private theorem due_reapply {displ : Displ} {heads : Heads} {zhead : ZHead} {head : Head}
    {events : List WlEvent} (hstate : displ.state = .outstanding)
    (hget : heads.get? zhead = some head) (hreapply : head.reapplyRequired = true)
    (hheads : displ.heads = heads.modify zhead (fun head => { head with reapplyRequired := false }))
    (hdelta : displ.delta = { element := none, head := some zhead, zmode := none })
    (hanswer : Answer [(zhead, .disable)] events) :
    ∃ heads', Due displ events heads' ∧ Outcome heads heads' := by
  cases hanswer with
  | granted hperm =>
    have horderly : Orderly [(zhead, .disable)] := by
      refine orderly_single zhead fun a ha b hb head => ?_
      obtain rfl := List.mem_singleton.mp ha
      obtain rfl := List.mem_singleton.mp hb
      rfl
    refine ⟨displ.heads.modify zhead (grant .disable),
      due_granted_one hstate horderly hperm ⟨by simp, by simp, .same fun _ => ?_, by simp, ?_⟩, ?_⟩
    · intro z hz
      simp [hdelta]
    · intro _
      refine mem_keys_of_delta (by rw [hdelta]) ?_
      simpa [hheads] using OrderedMap.mem_keys_of_get? hget
    · refine .one zhead (by simp [hheads]) hget ?_ (fun z hz => ?_) (changing_of_reapply hreapply)
        ?_ ?_ (fun cfg lid hs head₀ _ => debt_reapplied hreapply)
      · rw [hheads, OrderedMap.get?_modify_self, OrderedMap.get?_modify_self, hget]
        rfl
      · rw [hheads, OrderedMap.get?_modify_ne _ _ hz, OrderedMap.get?_modify_ne _ _ hz]
      · rfl
      · rfl

private theorem due_mode {displ : Displ} {heads : Heads} {zhead : ZHead} {head : Head}
    {events : List WlEvent} (hstate : displ.state = .outstanding)
    (hget : heads.get? zhead = some head) (hdiffers : head.des.zmode ≠ head.cur.zmode)
    (hheads : displ.heads = heads)
    (hdelta : displ.delta =
      { element := some .mode, head := some zhead, zmode := head.des.zmode })
    (hanswer : Answer [(zhead, .enable [.setMode head.des.zmode])] events) :
    ∃ heads', Due displ events heads' ∧ Outcome heads heads' := by
  subst hheads
  have hmem := OrderedMap.mem_keys_of_get? hget
  have hchanging : headCurrentNotDesired head = true :=
    changing_of_des (fun h => hdiffers (congrArg HeadState.zmode h))
  cases hanswer with
  | granted hperm =>
    have horderly : Orderly [(zhead, .enable [.setMode head.des.zmode])] := by
      refine orderly_single zhead fun a ha b hb head' => ?_
      cases hzmode : head.des.zmode with
      | none =>
        rw [hzmode] at ha hb
        obtain rfl := List.mem_singleton.mp ha
        obtain rfl := List.mem_singleton.mp hb
        rfl
      | some zmode =>
        rw [hzmode] at ha hb
        simp only [headReports, report, List.filterMap_cons, Option.map_some, List.filterMap_nil,
          List.mem_cons, List.not_mem_nil, or_false] at ha hb
        rcases ha with rfl | rfl <;> rcases hb with rfl | rfl <;> rfl
    have hget' : (displ.heads.modify zhead (grant (.enable [.setMode head.des.zmode]))).get? zhead =
        some (grant (.enable [.setMode head.des.zmode]) head) := by
      rw [OrderedMap.get?_modify_self, hget, Option.map_some]
    -- the mode is set once more when the success is handled
    have hhandled := @handled_modeSucceeded
      { displ with
        heads := displ.heads.modify zhead (grant (.enable [.setMode head.des.zmode]))
        state := .succeeded } zhead _
      { head with cur := { head.cur with enabled := true, zmode := head.des.zmode } } rfl
      (by simp [hdelta]) (by simp only [hdelta]) hget'
      (by rw [hdelta]; exact grant_setMode head.des.zmode head)
    refine ⟨_, due_granted_one hstate horderly hperm ⟨by simp, by simp, hhandled, by simp, ?_⟩,
      .one zhead ?_ hget (OrderedMap.get?_put_self _ _ _) (fun z hz => ?_) hchanging rfl rfl
        (fun cfg lid hs head₀ h => debt_modeGranted h hdiffers)⟩
    · intro _
      exact mem_keys_of_delta (by rw [hdelta]) (by simpa using hmem)
    · rw [OrderedMap.keys_put_of_mem _ (OrderedMap.mem_keys_of_get? hget')]
      exact OrderedMap.keys_modify _ _ _
    · rw [OrderedMap.get?_put_ne _ _ hz]
      exact OrderedMap.get?_modify_ne _ _ hz
  | modeRefused =>
    refine ⟨displ.heads.put zhead (headFailMode head displ.delta.zmode),
      .owed hstate (.answered ⟨by simp [displListener, Reply.state], by
        simp [displListener, Reply.state], .modeFailed rfl ?_ ?_ hget, ?_, ?_⟩), ?_⟩
    · simp [displListener, hdelta]
    · simp [displListener, hdelta]
    · intro _
      exact Or.inl (by simp [displListener, hdelta])
    · intro _
      exact mem_keys_of_delta (by simp only [displListener, hdelta]) hmem
    · refine .one zhead (OrderedMap.keys_put_of_mem _ hmem) hget (OrderedMap.get?_put_self _ _ _)
        (fun z hz => OrderedMap.get?_put_ne _ _ hz) hchanging rfl rfl
        (fun cfg lid hs head₀ h => ?_)
      rw [hdelta]
      exact debt_modeRefused h hdiffers

private theorem due_adaptiveSync {displ : Displ} {heads : Heads} {zhead : ZHead} {head : Head}
    {events : List WlEvent} (hstate : displ.state = .outstanding)
    (hget : heads.get? zhead = some head)
    (hdiffers : head.des.adaptiveSync ≠ head.cur.adaptiveSync) (hheads : displ.heads = heads)
    (hdelta : displ.delta = { element := some .vrrOff, head := some zhead, zmode := none })
    (hanswer : Answer [(zhead, .enable [.setAdaptiveSync head.des.adaptiveSync])] events) :
    ∃ heads', Due displ events heads' ∧ Outcome heads heads' := by
  subst hheads
  have hmem := OrderedMap.mem_keys_of_get? hget
  have hchanging : headCurrentNotDesired head = true :=
    changing_of_des (fun h => hdiffers (congrArg HeadState.adaptiveSync h))
  cases hanswer with
  | granted hperm =>
    have horderly : Orderly [(zhead, .enable [.setAdaptiveSync head.des.adaptiveSync])] := by
      refine orderly_single zhead fun a ha b hb head' => ?_
      simp only [headReports, report, List.filterMap_cons, List.filterMap_nil, List.mem_cons,
        List.not_mem_nil, or_false] at ha hb
      rcases ha with rfl | rfl <;> rcases hb with rfl | rfl <;> rfl
    have hget' : (displ.heads.modify zhead
        (grant (.enable [.setAdaptiveSync head.des.adaptiveSync]))).get? zhead =
          some { head with
            cur := { head.cur with enabled := true, adaptiveSync := head.des.adaptiveSync } } := by
      rw [OrderedMap.get?_modify_self, hget]
      rfl
    refine ⟨displ.heads.modify zhead (grant (.enable [.setAdaptiveSync head.des.adaptiveSync])),
      due_granted_one hstate horderly hperm ⟨by simp, by simp, .same fun _ z hz => ?_, by simp, ?_⟩,
      ?_⟩
    · rw [hdelta] at hz
      obtain rfl := Option.some.inj hz
      refine ⟨by simp [hdelta], fun _ head' hhead' => ?_⟩
      obtain rfl := Option.some.inj (hget'.symm.trans hhead')
      simp [headCurrentAdaptiveSyncNotDesired]
    · intro _
      exact mem_keys_of_delta (by rw [hdelta]) (by simpa using hmem)
    · exact .one zhead (OrderedMap.keys_modify _ _ _) hget hget'
        (fun z hz => OrderedMap.get?_modify_ne _ _ hz) hchanging rfl rfl
        (fun cfg lid hs head₀ h => debt_adaptiveSyncGranted h hdiffers)
  | adaptiveSyncRefused hreply =>
    rename_i reply
    have hstate' : reply.state = .succeeded ∨ reply.state = .failed := by
      rcases hreply with rfl | rfl
      · exact Or.inr rfl
      · exact Or.inl rfl
    have hdiffers' : headCurrentAdaptiveSyncNotDesired head = true := by
      simpa [headCurrentAdaptiveSyncNotDesired] using hdiffers
    refine ⟨displ.heads.put zhead { head with adaptiveSyncFailed := true },
      .owed hstate (.answered ⟨?_, ?_, .adaptiveSyncFailed hstate' ?_ ?_ hget hdiffers', ?_, ?_⟩),
      .one zhead (OrderedMap.keys_put_of_mem _ hmem) hget (OrderedMap.get?_put_self _ _ _)
        (fun z hz => OrderedMap.get?_put_ne _ _ hz) hchanging rfl rfl
        (fun cfg lid hs head₀ h => debt_adaptiveSyncRefused h hdiffers)⟩
    · rcases hstate' with h | h <;> simp [displListener, h]
    · rcases hstate' with h | h <;> simp [displListener, h]
    · simp [displListener, hdelta]
    · simp [displListener, hdelta]
    · intro _
      exact Or.inr (by simp [displListener, hdelta])
    · intro _
      exact mem_keys_of_delta (by simp only [displListener, hdelta]) hmem

omit [Platform] in
private theorem commute_headConfig (head : Head) : ∀ a ∈ headReports (headConfig head),
    ∀ b ∈ headReports (headConfig head), ∀ h,
      headListener (headListener h a) b = headListener (headListener h b) a := by
  intro a ha b hb h
  unfold headConfig at ha hb
  split at ha
  · rename_i henabled
    rw [if_pos henabled] at hb
    simp only [headReports, report, List.filterMap_cons, List.filterMap_nil, List.mem_cons,
      List.not_mem_nil, or_false] at ha hb
    rcases ha with rfl | rfl | rfl | rfl <;> rcases hb with rfl | rfl | rfl | rfl <;> rfl
  · rename_i henabled
    rw [if_neg henabled] at hb
    obtain rfl := List.mem_singleton.mp ha
    obtain rfl := List.mem_singleton.mp hb
    rfl

omit [Platform] in
private theorem applied_withCur {head : Head} (hreapply : head.reapplyRequired = false)
    {cur : HeadState} (hcur : cur = head.des) : Applied head { head with cur := cur } where
  modes := rfl
  zmodePref := rfl
  name := rfl
  description := rfl
  widthMm := rfl
  heightMm := rfl
  cur := hcur
  settled := hreapply
  reapplyRequired := hreapply
  adaptiveSyncFailed := rfl
  overridedEnabled := rfl
  scaled := rfl

private theorem applied_grant {cfg : Cfg} {lid : Option Lid} {heads : Heads} {head₀ head : Head}
    (h : Desired cfg lid heads head₀ head) (hreapply : head.reapplyRequired = false)
    (hmode : head.des.zmode = head.cur.zmode)
    (hadaptive : head.des.adaptiveSync = head.cur.adaptiveSync) :
    Applied head (grant (headConfig head) head) := by
  unfold headConfig
  split
  · rename_i henabled
    refine applied_withCur hreapply ?_
    exact HeadState.ext hmode.symm rfl henabled.symm rfl rfl rfl hadaptive.symm
  · rename_i henabled
    refine applied_withCur hreapply ?_
    cases hactive : active cfg lid heads head₀ with
    | false =>
      rw [h.inactive hactive, h.cur]
    | true =>
      have hon := (h.active hactive).2.2.1
      rw [h.reapplyRequired, hreapply] at hon
      exact absurd hon henabled

private theorem due_rest {cfg : Cfg} {lid : Option Lid} {heads₀ : Heads} {displ : Displ}
    {heads : Heads} {events : List WlEvent} (hstate : displ.state = .outstanding)
    (hdesired : ∀ z head, heads.get? z = some head →
      ∃ head₀, Desired cfg lid heads₀ head₀ head)
    (hnoReapply : ∀ z h, heads.get? z = some h → h.reapplyRequired = false)
    (hnoMode : ∀ z h, heads.get? z = some h → h.des.zmode = h.cur.zmode)
    (hnoAdaptiveSync : ∀ z h, heads.get? z = some h → h.des.adaptiveSync = h.cur.adaptiveSync)
    (hchanging : ∃ z h, heads.get? z = some h ∧ headCurrentNotDesired h = true)
    (hheads : displ.heads = heads) (hdelta : displ.delta = displDeltaNone)
    (hanswer : Answer ((heads.filter (fun _ head => headCurrentNotDesired head)).mapVals
      (fun _ head => headConfig head)).entries events) :
    ∃ heads', Due displ events heads' ∧ Outcome heads heads' := by
  subst hheads
  have hmem {zhead : ZHead} {config : HeadConfig}
      (h : (zhead, config) ∈
        ((displ.heads.filter (fun _ head => headCurrentNotDesired head)).mapVals
          (fun _ head => headConfig head)).entries) :
      ∃ head, displ.heads.get? zhead = some head ∧ headCurrentNotDesired head = true ∧
        headConfig head = config := by
    obtain ⟨⟨z, head⟩, hin, heq⟩ := List.mem_map.mp h
    obtain ⟨rfl, rfl⟩ := Prod.mk.inj heq
    obtain ⟨hentry, hdiffers⟩ := List.mem_filter.mp hin
    exact ⟨head, OrderedMap.get?_eq_some_iff.mpr hentry, hdiffers, rfl⟩
  generalize hconfiguration :
    ((displ.heads.filter (fun _ head => headCurrentNotDesired head)).mapVals
      (fun _ head => headConfig head)).entries = configuration at hanswer hmem
  cases hanswer with
  | granted hperm =>
    have hnodup : (configuration.map Prod.fst).Nodup := hconfiguration ▸ OrderedMap.nodup _
    have horderly : Orderly configuration := by
      refine ⟨hnodup, fun e he => ?_⟩
      obtain ⟨head, _, _, hconfig⟩ := hmem he
      rw [← hconfig]
      exact commute_headConfig head
    refine ⟨configuration.foldl (fun heads e => heads.modify e.1 (grant e.2)) displ.heads,
      due_granted hstate horderly hperm ⟨by simp, by simp, .same fun _ z hz => ?_, by simp, ?_⟩,
      .all (keys_grants _ _) hchanging fun z head head' hget hget' => ?_⟩
    · simp [hdelta, displDeltaNone] at hz
    · intro _ z hz
      simp [hdelta, displDeltaNone] at hz
    · obtain ⟨head₀, hd⟩ := hdesired z head hget
      obtain ⟨hin, hout⟩ := get?_grants hnodup displ.heads z
      cases hdiffers : headCurrentNotDesired head with
      | true =>
        have hentry : (z, headConfig head) ∈ configuration := by
          rw [← hconfiguration]
          exact List.mem_map.mpr ⟨(z, head), List.mem_filter.mpr
            ⟨OrderedMap.get?_eq_some_iff.mp hget, hdiffers⟩, rfl⟩
        rw [hin _ hentry, hget, Option.map_some] at hget'
        obtain rfl := Option.some.inj hget'
        exact applied_grant hd (hnoReapply z head hget) (hnoMode z head hget)
          (hnoAdaptiveSync z head hget)
      | false =>
        have hnot : z ∉ configuration.map Prod.fst := by
          intro hz
          obtain ⟨⟨z, config⟩, he, rfl⟩ := List.mem_map.mp hz
          obtain ⟨h, hget'', hdiffers', _⟩ := hmem he
          obtain rfl := Option.some.inj (hget''.symm.trans hget)
          exact absurd (hdiffers.symm.trans hdiffers') (by simp)
        rw [hout hnot, hget] at hget'
        obtain rfl := Option.some.inj hget'
        obtain ⟨hreapply, hdes⟩ := headCurrentNotDesired_eq_false.mp hdiffers
        exact { toSameCore := (Frame.refl head).toSameCore, cur := hdes.symm, settled := hreapply,
                reapplyRequired := hreapply, adaptiveSyncFailed := rfl, overridedEnabled := rfl,
                scaled := rfl }
  | modeRefused =>
    obtain ⟨head, _, _, hconfig⟩ := hmem List.mem_cons_self
    unfold headConfig at hconfig
    split at hconfig <;> simp at hconfig
  | adaptiveSyncRefused =>
    obtain ⟨head, _, _, hconfig⟩ := hmem List.mem_cons_self
    unfold headConfig at hconfig
    split at hconfig <;> simp at hconfig

/-- Every stage of what is desired, once answered, leaves less to be done. -/
theorem due_stage {cfg : Cfg} {lid : Option Lid} {heads : Heads} {displ : Displ}
    {configuration : Configuration} {events : List WlEvent}
    (hstage : Stage (desire cfg lid heads).2 displ.heads displ.delta (some configuration))
    (hstate : displ.state = .outstanding) (hanswer : Answer configuration events) :
    ∃ heads', Due displ events heads' ∧ Outcome (desire cfg lid heads).2 heads' := by
  have hdesired : ∀ z head, (desire cfg lid heads).2.get? z = some head →
      ∃ head₀, Desired cfg lid heads head₀ head := by
    intro z head hget
    obtain ⟨head₀, _, hd⟩ := (desired_desire cfg lid heads).2 z head hget
    exact ⟨head₀, hd⟩
  generalize (desire cfg lid heads).2 = desired at hstage hdesired
  generalize hheads : displ.heads = heads' at hstage
  generalize hdelta : displ.delta = delta at hstage
  cases hstage with
  | reapply hget hreapply => exact due_reapply hstate hget hreapply hheads hdelta hanswer
  | mode hget _ hdiffers => exact due_mode hstate hget hdiffers hheads hdelta hanswer
  | adaptiveSync hget _ _ hdiffers =>
    exact due_adaptiveSync hstate hget hdiffers hheads hdelta hanswer
  | rest hnoReapply hnoMode hnoAdaptiveSync hchanging =>
    exact due_rest hstate hdesired hnoReapply hnoMode hnoAdaptiveSync hchanging hheads hdelta
      hanswer

/-! ### Runs of an exchange -/

/-- At most so many configurations are left to be sent. -/
structure Inv (n : Nat) (x : Exchange) : Prop where
  due : ∃ heads, Due x.server.gDispl x.pending heads ∧
    potential x.server.gCfg x.server.gLid heads ≤ n

/-- The call of act, where nothing is in flight: the heads it handles and the stage it applies. -/
private theorem called_answered {server server' : Server} {configuration : Option Configuration}
    {heads : Heads} (h : Model.act server = .ok (server', configuration))
    (hanswered : Answered server.gDispl heads) :
    quiet server'.gCfg = quiet server.gCfg ∧ server'.gLid = server.gLid ∧
      Stage (desire server.gCfg server.gLid heads).2 server'.gDispl.heads server'.gDispl.delta
        configuration ∧
      server'.gDispl.state = if configuration.isSome then .outstanding else .idle := by
  cases act_called h with
  | waits _ _ _ _ hstate =>
    rcases hstate with hstate | hstate
    · exact absurd hstate.1 hanswered.there
    · exact absurd hstate.1 hanswered.kept
  | applies hstate hhandled hcfg hlid hstage hstate' =>
    obtain rfl := hhandled.unique hanswered.handled
    refine ⟨?_, hlid, hstage, hstate'⟩
    rw [hcfg]
    exact quiet_desire _ _ _

private theorem called_owed {server server' : Server} {configuration : Option Configuration}
    (h : Model.act server = .ok (server', configuration))
    (hstate : server.gDispl.state = .outstanding) :
    configuration = none ∧ server'.gCfg = server.gCfg ∧ server'.gLid = server.gLid ∧
      server'.gDispl.heads = server.gDispl.heads ∧ server'.gDispl.delta = server.gDispl.delta ∧
      server'.gDispl.state = .outstanding := by
  cases act_called h with
  | waits hcfg hlid hheads hdelta hstate' =>
    rcases hstate' with ⟨_, hstate'⟩ | ⟨hcancelled, _⟩
    · exact ⟨rfl, hcfg, hlid, hheads, hdelta, hstate'⟩
    · exact absurd (hstate.symm.trans hcancelled) (by simp)
  | applies hne => exact absurd hstate hne

omit [Platform] in
private theorem answered_idle {displ : Displ} (hstate : displ.state = .idle) :
    Answered displ displ.heads where
  there := by simp [hstate]
  kept := by simp [hstate]
  handled := .same fun h => by simp [hstate] at h
  blamed h := by simp [hstate] at h
  live h := absurd hstate h

/-- What was settled is still so when it is desired once more. -/
private theorem not_restless_of_settled {cfg cfg' : Cfg} {lid : Option Lid} {heads : Heads}
    (hcfg : quiet cfg' = quiet cfg) (h : Settled (desire cfg lid heads).2) :
    ¬ Restless cfg' lid (desire cfg lid heads).2 := by
  rintro ⟨z, head, hget, hdiffers⟩
  have hagain := desire_again hcfg.symm (names_desire cfg lid heads).symm
    (keys_desire cfg lid heads) (fun zhead a b ha hb => by
      obtain rfl := Option.some.inj (ha.symm.trans hb)
      obtain ⟨hreapply, hdes⟩ := headCurrentNotDesired_eq_false.mp (h zhead a ha)
      exact { toSameCore := (Frame.refl a).toSameCore, cur := hdes.symm, settled := hreapply,
              reapplyRequired := hreapply, adaptiveSyncFailed := rfl, overridedEnabled := rfl,
              scaled := rfl }) hget
  exact absurd (hagain.symm.trans hdiffers) (by simp)

omit [Platform] in
private theorem changing_of_stage {heads heads' : Heads} {delta : DisplDelta}
    {configuration : Configuration} (h : Stage heads heads' delta (some configuration)) :
    ∃ zhead head, heads.get? zhead = some head ∧ headCurrentNotDesired head = true := by
  cases h with
  | reapply hget hreapply => exact ⟨_, _, hget, changing_of_reapply hreapply⟩
  | mode hget _ hdiffers =>
    exact ⟨_, _, hget, changing_of_des (fun h => hdiffers (congrArg HeadState.zmode h))⟩
  | adaptiveSync hget _ _ hdiffers =>
    exact ⟨_, _, hget, changing_of_des (fun h => hdiffers (congrArg HeadState.adaptiveSync h))⟩
  | rest _ _ _ hchanging => exact hchanging

private theorem settled_of_none {server server' : Server} {heads : Heads}
    (h : Model.act server = .ok (server', none)) (hanswered : Answered server.gDispl heads) :
    Settled server'.gDispl.heads ∧ server'.gDispl.state = .idle ∧
      server'.gDispl.heads = (desire server.gCfg server.gLid heads).2 ∧
      ¬ Restless server'.gCfg server'.gLid server'.gDispl.heads := by
  obtain ⟨hcfg, hlid, hstage, hstate⟩ := called_answered h hanswered
  generalize hheads : server'.gDispl.heads = heads' at hstage
  generalize server'.gDispl.delta = delta at hstage
  generalize hdesired : (desire server.gCfg server.gLid heads).2 = desired at hstage
  cases hstage with
  | settled hsettled =>
    refine ⟨hsettled, hstate, rfl, ?_⟩
    rw [hlid, ← hdesired]
    refine not_restless_of_settled hcfg ?_
    rw [hdesired]
    exact hsettled

theorem inv_step {n : Nat} {x y : Exchange} {sent : List Configuration} (hinv : Inv n x)
    (h : Step x sent y) : ∃ m, Inv m y ∧ m + sent.length ≤ n := by
  obtain ⟨heads, hdue, hle⟩ := hinv
  cases h with
  | @act server server' pending hact =>
    refine ⟨n, ⟨?_⟩, le_refl n⟩
    cases hdue with
    | answered hanswered =>
      obtain ⟨hsettled, hidle, hheads, hrest⟩ := settled_of_none hact hanswered
      obtain ⟨hcfg, hlid, _, _⟩ := called_answered hact hanswered
      refine ⟨_, .answered (answered_idle hidle), le_trans ?_ hle⟩
      rw [hlid, hheads] at hrest
      rw [hlid, hheads]
      exact potential_desire_le hcfg server.gLid hrest
    | owed hstate hdue =>
      obtain ⟨_, hcfg, hlid, hheads, hdelta, hstate'⟩ := called_owed hact hstate
      refine ⟨heads, Due.congr (.owed hstate hdue) hheads (hstate'.trans hstate.symm) hdelta, ?_⟩
      rw [hcfg, hlid]
      exact hle
  | @send server server' pending events configuration hact hanswer =>
    cases hdue with
    | answered hanswered =>
      obtain ⟨hcfg, hlid, hstage, hstate⟩ := called_answered hact hanswered
      obtain ⟨heads', hdue', houtcome⟩ := due_stage hstage hstate hanswer
      have hlt := potential_lt hcfg server.gLid houtcome
      refine ⟨n - 1, ⟨heads', hdue', ?_⟩, ?_⟩
      · dsimp only at hle ⊢
        rw [hlid]
        omega
      · dsimp only at hle
        simp only [List.length_cons, List.length_nil]
        omega
    | owed hstate _ => exact absurd (called_owed hact hstate).1 (by simp)
  | dispatch server event pending =>
    cases hdue with
    | owed hstate hdue => exact ⟨n, ⟨heads, hdue, hle⟩, le_refl n⟩

/-- What was sent so far and what is left to be sent keep within the bound. -/
theorem inv_exec {n : Nat} {x y : Exchange} {sent : List Configuration} (hinv : Inv n x)
    (h : Exec x sent y) : ∃ m, Inv m y ∧ m + sent.length ≤ n := by
  induction h with
  | refl => exact ⟨n, hinv, le_refl n⟩
  | snoc _ hstep ih =>
    obtain ⟨m, hm, hle⟩ := ih
    obtain ⟨m', hm', hle'⟩ := inv_step hm hstep
    refine ⟨m', hm', ?_⟩
    rw [List.length_append]
    omega

/-- Nothing is in flight and nothing is to change. -/
structure Quiet (x : Exchange) : Prop where
  pending : x.pending = []
  idle : x.server.gDispl.state = .idle
  settled : Settled x.server.gDispl.heads
  calm : ¬ Restless x.server.gCfg x.server.gLid x.server.gDispl.heads

theorem quiet_step {x y : Exchange} {sent : List Configuration} (hquiet : Quiet x)
    (h : Step x sent y) : Quiet y ∧ sent = [] := by
  obtain ⟨hpending, hidle, _, hcalm⟩ := hquiet
  cases h with
  | act hact =>
    obtain ⟨hsettled, hidle', _, hrest⟩ := settled_of_none hact (answered_idle hidle)
    exact ⟨⟨hpending, hidle', hsettled, hrest⟩, rfl⟩
  | send hact _ =>
    have hstage := (called_answered hact (answered_idle hidle)).2.2.1
    exact absurd (changing_of_stage hstage) hcalm
  | dispatch => exact absurd hpending (by simp)

theorem quiet_exec {x y : Exchange} {sent : List Configuration} (hquiet : Quiet x)
    (h : Exec x sent y) : Quiet y ∧ sent = [] := by
  induction h with
  | refl => exact ⟨hquiet, rfl⟩
  | snoc _ hstep ih =>
    obtain ⟨hq, rfl⟩ := ih
    obtain ⟨hq', rfl⟩ := quiet_step hq hstep
    exact ⟨hq', rfl⟩

private theorem act_ok {n : Nat} {x : Exchange} (hinv : Inv n x) (halt : Halt) :
    Model.act x.server ≠ .error halt := by
  intro h
  obtain ⟨heads, hdue, _⟩ := hinv
  have hout : x.server.gDispl.state = .outstanding ∨ Answered x.server.gDispl heads := by
    generalize x.pending = pending at hdue
    cases hdue with
    | answered hanswered => exact Or.inr hanswered
    | owed hstate _ => exact Or.inl hstate
  rcases hout with hstate | hanswered
  · rcases act_error h with ⟨_, hfailed, _⟩ | ⟨_, hfailed, _⟩
    · exact absurd (hstate.symm.trans hfailed) (by simp)
    · rcases hfailed with hfailed | hfailed <;>
        exact absurd (hstate.symm.trans hfailed) (by simp)
  · rcases act_error h with ⟨_, hfailed, hmode, hvrr⟩ | ⟨_, hstate, z, hz, hgone⟩
    · exact (hanswered.blamed hfailed).elim hmode hvrr
    · refine hgone (hanswered.live ?_ z hz)
      rcases hstate with hstate | hstate <;> simp [hstate]

/-! ### Convergence -/

/-- From any state in which nothing is in flight, an exchange with a compositor that answers
sends at most one configuration for each reapply, mode and head and one for the rest, never
halts, and once an act sends nothing with no event pending, every head is settled for good. -/
theorem converges {server : Server} (hidle : server.gDispl.state = .idle) {x : Exchange}
    {sent : List Configuration} (h : Exec ⟨server, []⟩ sent x) :
    sent.length ≤ (server.gDispl.heads.filter (fun _ head => head.reapplyRequired)).size +
        server.gDispl.heads.sumBy (fun head => head.modes.size) + server.gDispl.heads.size + 1 ∧
      (∀ halt, Model.act x.server ≠ .error halt) ∧
      ∀ server', x.pending = [] → Model.act x.server = .ok (server', none) →
        Settled server'.gDispl.heads ∧
          ∀ sent' y, Exec ⟨server', []⟩ sent' y → sent' = [] ∧ Settled y.server.gDispl.heads := by
  have hinv : Inv (potential server.gCfg server.gLid server.gDispl.heads) ⟨server, []⟩ :=
    ⟨_, .answered (answered_idle hidle), le_refl _⟩
  obtain ⟨m, hinv', hle⟩ := inv_exec hinv h
  refine ⟨?_, act_ok hinv', fun server' hpending hact => ?_⟩
  · have := potential_le server.gCfg server.gLid server.gDispl.heads
    omega
  · obtain ⟨heads, hdue, _⟩ := hinv'
    rw [hpending] at hdue
    cases hdue with
    | answered hanswered =>
      obtain ⟨hsettled, hidle', _, hcalm⟩ := settled_of_none hact hanswered
      refine ⟨hsettled, fun sent' y hexec => ?_⟩
      have hquiet : Quiet ⟨server', []⟩ := ⟨rfl, hidle', hsettled, hcalm⟩
      obtain ⟨hquiet', hnone⟩ := quiet_exec hquiet hexec
      exact ⟨hnone, hquiet'.settled⟩

def toReapply : Server :=
  { gCfg := cfgApplyDefaults cfgInit
    gDispl := { displInit with
      heads := OrderedMap.empty.put ⟨0⟩ { headInit with
        name := some "DP-1"
        modes := OrderedMap.empty.put ⟨0⟩ { modeInit with width := 1920, height := 1080 }
        cur := { headStateInit with enabled := true }
        reapplyRequired := true } }
    gLid := none
    gCancellationRetries := 0 }

def told (server : Server) (events : List WlEvent) : Server :=
  { server with gDispl := events.foldl displListener server.gDispl }

omit [Platform] in
/-- It is disabled, its mode is refused, and it stays disabled. -/
theorem converges_toReapply :
    ∃ x server', @Exec plainPlatform ⟨toReapply, []⟩
        [[(⟨0⟩, .disable)], [(⟨0⟩, .enable [.setMode (some ⟨0⟩)])]] x ∧
      x.pending = [] ∧ @Model.act plainPlatform x.server = .ok (server', none) ∧
      Settled server'.gDispl.heads := by
  let _ : Platform := plainPlatform
  have hvalue : (Model.act toReapply).toOption.bind (fun p =>
      (Model.act (told p.1 [.head ⟨0⟩ (.enabled false),
        .configuration .succeeded])).toOption.bind (fun q =>
          (Model.act (told q.1 [.configuration .failed])).toOption.map (fun r =>
            [p.2, q.2, r.2]))) =
      some [some [(⟨0⟩, .disable)], some [(⟨0⟩, .enable [.setMode (some ⟨0⟩)])], none] := by
    decide +kernel
  have hok {α : Type} {x : Except Halt α} {a : α} (h : x.toOption = some a) : x = .ok a := by
    cases x with
    | error halt => simp [Except.toOption] at h
    | ok b => rw [Option.some.inj h]
  obtain ⟨⟨s₁, c₁⟩, h₁, hvalue⟩ := Option.bind_eq_some_iff.mp hvalue
  obtain ⟨⟨s₂, c₂⟩, h₂, hvalue⟩ := Option.bind_eq_some_iff.mp hvalue
  obtain ⟨⟨s₃, c₃⟩, h₃, hvalue⟩ := Option.map_eq_some_iff.mp hvalue
  simp only [List.cons.injEq, and_true] at hvalue
  obtain ⟨rfl, rfl, rfl⟩ := hvalue
  have hdisabled : Answer [(⟨0⟩, .disable)]
      [.head ⟨0⟩ (.enabled false), .configuration .succeeded] := .granted (List.Perm.refl _)
  have hsent := (Exec.refl ⟨toReapply, []⟩).snoc (.send (hok h₁) hdisabled)
  have htold := (hsent.snoc (.dispatch _ _ _)).snoc
    (.dispatch (told s₁ [.head ⟨0⟩ (.enabled false)]) (.configuration .succeeded) [])
  have hexec : Exec ⟨toReapply, []⟩
      [[(⟨0⟩, .disable)], [(⟨0⟩, .enable [.setMode (some ⟨0⟩)])]]
      ⟨told s₂ [.configuration .failed], []⟩ :=
    (htold.snoc (.send (hok h₂) .modeRefused)).snoc (.dispatch s₂ (.configuration .failed) [])
  refine ⟨_, s₃, hexec, rfl, hok h₃, ?_⟩
  obtain ⟨_, _, hsettles⟩ := @converges plainPlatform toReapply rfl _ _ hexec
  exact (hsettles s₃ rfl (hok h₃)).1

end WayDisplays.Act.Convergence
