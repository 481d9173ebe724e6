/- Requests for heads that a condition may disable: when a set or a delete has its way. -/

import WayDisplays.Act.Requests
import WayDisplays.Desire.Spec
import WayDisplays.Request.Filter

set_option autoImplicit false
set_option relaxedAutoImplicit false

namespace WayDisplays.Request.Override

open Lib (OrderedMap)
open Model
open Desire.Spec
open Request.Filter

variable [Platform]

def desireEnableds (s : Server) : Server :=
  { s with gDispl := { s.gDispl with
      heads := s.gDispl.heads.mapVals (fun _ head =>
        desireEnabled s.gCfg s.gLid s.gDispl.heads head) } }

/-- The server after a request and what it desires enabled for it. -/
def handled (s : Server) (request : IpcRequest) : Server :=
  desireEnableds (serverRequest s request).1

omit [Platform] in
def commandEnables : IpcCommand → Option Bool
  | .cfgSet => some false
  | .cfgDel => some true
  | _ => none

omit [Platform] in
def overrideOf (enabled : Bool) : ManualOverride :=
  if enabled then .overrideTrue else .overrideFalse

/-- The head is named by the request, and by an entry of the configuration with conditions. -/
structure Named (gCfg : Cfg) (request : IpcRequest) (head : Head) : Prop where
  requested : ∃ cfg nameDesc, request.cfg = some cfg ∧ nameDesc ∈ cfg.disableds.keys ∧
    headNameDescMatchesHead nameDesc head = true
  conditional : ∃ key disabled, gCfg.disableds.get? key = some disabled ∧
    cfgDisabledConditionallyForHead key disabled head = true

omit [Platform] in
/-- There is no override and the head is not yet as wanted; or it is, by an override; or the
conditions have it so and no override of a head that is as wanted is against it. -/
def HasItsWay (wanted auto : Bool) (head : Head) : Prop :=
  (head.overridedEnabled = .noOverride ∧ head.cur.enabled = !wanted) ∨
    (head.overridedEnabled = overrideOf wanted ∧ head.cur.enabled = wanted) ∨
    (auto = wanted ∧ ¬ (head.overridedEnabled = overrideOf (!wanted) ∧ head.cur.enabled = wanted))

/-! ### One head -/

omit [Platform] in
/-- The override after a request to be enabled or disabled: toggled, unless it is so already. -/
def overrideAfter (wanted : Bool) (head : Head) : Head :=
  if head.cur.enabled = wanted then head else headApplyDisabledToggle head

theorem headOverride_of_named {gCfg : Cfg} {request : IpcRequest} {head : Head} {wanted : Bool}
    {command : IpcCommand} (hcommand : request.command = some command)
    (hwanted : commandEnables command = some wanted) (hnamed : Named gCfg request head) :
    (headOverrideIpcDisableds gCfg head request).1 = overrideAfter wanted head := by
  obtain ⟨cfg, nameDesc, hcfg, hmem, hmatches⟩ := hnamed.requested
  obtain ⟨key, disabled, hget, hcond⟩ := hnamed.conditional
  obtain ⟨v, hv⟩ := OrderedMap.exists_get?_of_mem_keys hmem
  have hreq : (cfg.disableds.filter
      (fun key _ => headNameDescMatchesHead key head)).size > 0 :=
    size_pos_iff.mpr ⟨nameDesc, v, get?_filter_eq_some.mpr ⟨hv, hmatches⟩⟩
  have hactive : (gCfg.disableds.filter
      (fun key disabled => cfgDisabledConditionallyForHead key disabled head)).size > 0 :=
    size_pos_iff.mpr ⟨key, disabled, get?_filter_eq_some.mpr ⟨hget, hcond⟩⟩
  simp only [headOverrideIpcDisableds, hcfg, if_pos hreq, if_pos hactive, hcommand, overrideAfter]
  cases command with
  | cfgSet =>
    obtain rfl := Option.some.inj hwanted
    cases head.cur.enabled <;> rfl
  | cfgDel =>
    obtain rfl := Option.some.inj hwanted
    cases head.cur.enabled <;> rfl
  | get | list | reapply | cfgWrite | cfgToggle => exact absurd hwanted (by simp [commandEnables])

/-- What is desired of a head, by its override and the state the conditions give it. -/
theorem des_enabled (cfg : Cfg) (lid : Option Lid) (heads : Heads) (head : Head) :
    (desireEnabled cfg lid heads head).des.enabled =
      match head.overridedEnabled with
      | .noOverride => autoEnabled cfg lid heads head
      | .overrideTrue => true
      | .overrideFalse => false := by
  rw [desireEnabled_des]
  rfl

/-- The exact condition for one request. -/
theorem des_overrideAfter_iff (cfg : Cfg) (lid : Option Lid) (heads : Heads) (head : Head)
    (wanted : Bool) :
    (desireEnabled cfg lid heads (overrideAfter wanted head)).des.enabled = wanted ↔
      HasItsWay wanted (autoEnabled cfg lid heads head) head := by
  have hauto : autoEnabled cfg lid heads (overrideAfter wanted head) =
      autoEnabled cfg lid heads head := by
    unfold overrideAfter
    split
    · rfl
    · exact autoEnabled_congr cfg lid heads rfl rfl
  rw [des_enabled, hauto]
  generalize autoEnabled cfg lid heads head = auto
  unfold overrideAfter headApplyDisabledToggle HasItsWay overrideOf
  cases wanted <;> cases auto <;> cases henabled : head.cur.enabled <;>
    cases hoverride : head.overridedEnabled <;> simp [hoverride]

/-! ### The server -/

/-- Only the entries that name a head bear on its automatic state. -/
private theorem autoEnabled_of_filter {cfg cfg' : Cfg} (lid : Option Lid) (heads : Heads)
    {head : Head}
    (h : cfg'.disableds.filter (fun key _ => headNameDescMatchesHead key head) =
      cfg.disableds.filter (fun key _ => headNameDescMatchesHead key head)) :
    autoEnabled cfg' lid heads head = autoEnabled cfg lid heads head := by
  have hfilter {β : Type} (p : String × CfgDisabled → Bool) (g : String × CfgDisabled → Option β)
      (es : List (String × CfgDisabled)) :
      es.findSome? (fun e => if p e then g e else none) = (es.filter p).findSome? g := by
    induction es with
    | nil => rfl
    | cons e es ih =>
      rw [List.findSome?_cons, List.filter_cons]
      cases hp : p e with
      | true => simp only [if_pos, List.findSome?_cons, ih]
      | false => simpa using ih
  have hentries := congrArg OrderedMap.entries h
  simp only [OrderedMap.filter] at hentries
  simp only [autoEnabled, cfgDisabledAppliesToHead]
  rw [hfilter (fun e => headNameDescMatchesHead e.1 head), hentries, ← hfilter]

/-- What a request to enable or disable leaves of the heads and of the configuration. -/
private theorem serverRequest_overrides (s : Server) {request : IpcRequest} {cfg : Cfg}
    {command : IpcCommand} {wanted : Bool} (hcfg : request.cfg = some cfg)
    (hcommand : request.command = some command) (hwanted : commandEnables command = some wanted) :
    (serverRequest s request).1.gLid = s.gLid ∧
      (serverRequest s request).1.gDispl.heads = s.gDispl.heads.mapVals
        (fun _ head => (headOverrideIpcDisableds s.gCfg head request).1) ∧
      ((serverRequest s request).1.gCfg = s.gCfg ∨ ∃ kept,
        (∀ nameDesc ∈ kept.disableds.keys,
          ¬ Clashes s.gCfg nameDesc ∧ ¬ Overrides s.gCfg s.gDispl.heads nameDesc) ∧
        cfgMerge s.gCfg (some kept) (some command) = some (serverRequest s request).1.gCfg) := by
  obtain ⟨disableds, hfilter, hkept⟩ := @get?_ipcRequestFilter _ s.gCfg s.gDispl.heads _ _ hcfg
  have hheads := Act.Requests.ipcRequestFilter_heads s.gCfg s.gDispl.heads request
  unfold serverRequest
  generalize ipcRequestFilter s.gCfg s.gDispl.heads request = filtered at hfilter hheads
  obtain ⟨heads, request'⟩ := filtered
  dsimp only at hfilter hheads
  subst hheads hfilter
  have hspared : ∀ nameDesc ∈ disableds.keys,
      ¬ Clashes s.gCfg nameDesc ∧ ¬ Overrides s.gCfg s.gDispl.heads nameDesc := by
    intro nameDesc hmem
    obtain ⟨disabled, hget⟩ := OrderedMap.exists_get?_of_mem_keys hmem
    exact ((hkept nameDesc disabled).mp hget).2
  cases command with
  | cfgSet =>
    simp only [gCfgProcessIpcRequest, hcommand]
    split
    · rename_i merged hmerged
      exact ⟨rfl, rfl, Or.inr ⟨_, hspared, hmerged⟩⟩
    · exact ⟨rfl, rfl, Or.inl rfl⟩
  | cfgDel =>
    simp only [gCfgProcessIpcRequest, hcommand]
    split
    · rename_i merged hmerged
      exact ⟨rfl, rfl, Or.inr ⟨_, hspared, hmerged⟩⟩
    · exact ⟨rfl, rfl, Or.inl rfl⟩
  | get | list | reapply | cfgWrite | cfgToggle => exact absurd hwanted (by simp [commandEnables])

omit [Platform] in
private theorem names_mapVals {heads : Heads} {f : ZHead → Head → Head}
    (hf : ∀ zhead head, (f zhead head).name = head.name ∧
      (f zhead head).description = head.description) : names (heads.mapVals f) = names heads := by
  simp [names, OrderedMap.mapVals, Function.comp_def, hf]

/-- A head that is named, after a request to enable or disable it. -/
structure Handled (s : Server) (request : IpcRequest) (wanted : Bool) (head head' : Head) :
    Prop where
  name : head'.name = head.name
  description : head'.description = head.description
  cur : head'.cur = head.cur
  named : Named (handled s request).gCfg request head'
  auto : autoEnabled (handled s request).gCfg (handled s request).gLid
    (handled s request).gDispl.heads head' = autoEnabled s.gCfg s.gLid s.gDispl.heads head
  desired : ∃ cfg lid heads, head' = desireEnabled cfg lid heads (overrideAfter wanted head) ∧
    autoEnabled cfg lid heads head = autoEnabled s.gCfg s.gLid s.gDispl.heads head

theorem get?_handled {s : Server} {request : IpcRequest} {zhead : ZHead} {head : Head}
    {command : IpcCommand} {wanted : Bool} (hcommand : request.command = some command)
    (hwanted : commandEnables command = some wanted)
    (hget : s.gDispl.heads.get? zhead = some head) (hnamed : Named s.gCfg request head) :
    ∃ head', (handled s request).gDispl.heads.get? zhead = some head' ∧
      Handled s request wanted head head' := by
  obtain ⟨cfg, nameDesc, hcfg, hmem, hmatches⟩ := hnamed.requested
  obtain ⟨hlid, hheads, hmerge⟩ := serverRequest_overrides s hcfg hcommand hwanted
  have hoverride := headOverride_of_named hcommand hwanted hnamed
  have hafter : (overrideAfter wanted head).name = head.name ∧
      (overrideAfter wanted head).description = head.description ∧
      (overrideAfter wanted head).cur = head.cur := by
    unfold overrideAfter
    split <;> exact ⟨rfl, rfl, rfl⟩
  have hnames : names (serverRequest s request).1.gDispl.heads = names s.gDispl.heads := by
    rw [hheads]
    refine names_mapVals fun _ h => ?_
    obtain ⟨o, ho⟩ := Act.Requests.headOverrideIpcDisableds_eq s.gCfg h request
    rw [ho]
    exact ⟨rfl, rfl⟩
  -- the entries that name the head are those there were, the conditional one among them
  have hentries : (serverRequest s request).1.gCfg.disableds.filter
        (fun key _ => headNameDescMatchesHead key head) =
      s.gCfg.disableds.filter (fun key _ => headNameDescMatchesHead key head) ∧
      ∃ key disabled, (serverRequest s request).1.gCfg.disableds.get? key = some disabled ∧
        cfgDisabledConditionallyForHead key disabled head = true := by
    obtain ⟨key, disabled, hcond, hconditional⟩ := hnamed.conditional
    rcases hmerge with hsame | ⟨kept, hspared, hmerge⟩
    · rw [hsame]
      exact ⟨rfl, key, disabled, hcond, hconditional⟩
    · have hsize : disabled.conditions.size > 0 :=
        of_decide_eq_true (Bool.and_eq_true_iff.mp hconditional).1
      refine ⟨filter_cfgMerge hmerge fun k hk => ?_, key, disabled, ?_, hconditional⟩
      · by_contra hk'
        exact (hspared k hk).2 ⟨zhead, head, hget, by simpa using hk', key, disabled, hcond,
          hconditional⟩
      · rw [get?_cfgMerge hmerge fun hk => (hspared key hk).1 (clashes_self hcond hsize)]
        exact hcond
  have hauto : ∀ heads h, names heads = names s.gDispl.heads → h.name = head.name →
      h.description = head.description →
      autoEnabled (serverRequest s request).1.gCfg s.gLid heads h =
        autoEnabled s.gCfg s.gLid s.gDispl.heads head := by
    intro heads h hn hname hdescription
    have hcongr : autoEnabled (serverRequest s request).1.gCfg s.gLid heads h =
        autoEnabled (serverRequest s request).1.gCfg s.gLid s.gDispl.heads head := by
      simp only [autoEnabled, size_eq_of_names hn,
        cfgDisabledAppliesToHead_congr hn _ _ hname hdescription]
    rw [hcongr]
    exact autoEnabled_of_filter _ _ hentries.1
  refine ⟨desireEnabled (serverRequest s request).1.gCfg (serverRequest s request).1.gLid
    (serverRequest s request).1.gDispl.heads (overrideAfter wanted head), ?_, ?_⟩
  · simp only [handled, desireEnableds, OrderedMap.get?_mapVals]
    rw [hheads, OrderedMap.get?_mapVals, hget]
    simp only [Option.map_some, hoverride]
  · have hframe (cfg : Cfg) (lid : Option Lid) (heads : Heads) (h : Head) :
        (desireEnabled cfg lid heads h).name = h.name ∧
          (desireEnabled cfg lid heads h).description = h.description :=
      ⟨(frame_desireEnabled cfg lid heads h).name.symm,
        (frame_desireEnabled cfg lid heads h).description.symm⟩
    refine { name := (hframe _ _ _ _).1.trans hafter.1,
             description := (hframe _ _ _ _).2.trans hafter.2.1,
             cur := (frame_desireEnabled _ _ _ _).cur.symm.trans hafter.2.2,
             named := ?_, auto := ?_, desired := ⟨_, _, _, rfl, ?_⟩ }
    · obtain ⟨key, disabled, hcond, hconditional⟩ := hentries.2
      have hsame (key : String) := headNameDescMatchesHead_congr
        ((hframe (serverRequest s request).1.gCfg (serverRequest s request).1.gLid
          (serverRequest s request).1.gDispl.heads (overrideAfter wanted head)).1.trans hafter.1)
        ((hframe _ _ _ _).2.trans hafter.2.1) key
      refine ⟨⟨cfg, nameDesc, hcfg, hmem, (hsame nameDesc).trans hmatches⟩, key, disabled,
        hcond, ?_⟩
      have hkey := hsame key
      simp only [headNameDescMatchesHead] at hkey
      simpa only [cfgDisabledConditionallyForHead, hkey] using hconditional
    · change autoEnabled (serverRequest s request).1.gCfg (serverRequest s request).1.gLid _ _ = _
      rw [hlid]
      refine hauto _ _ ?_ ((hframe _ _ _ _).1.trans hafter.1) ((hframe _ _ _ _).2.trans hafter.2.1)
      exact (names_mapVals fun _ h => hframe _ _ _ h).trans hnames
    · rw [hlid]
      exact hauto _ head hnames rfl rfl

/-! ### When a request has its way -/

/-- The outcome of a request is the one wanted exactly when `HasItsWay` says so; the same
request once more, before the compositor changed the head, changes nothing exactly when the
head is as wanted already or the conditions would have it so. -/
theorem request_hasItsWay_iff {s : Server} {request : IpcRequest} {zhead : ZHead} {head : Head}
    {command : IpcCommand} {wanted : Bool} (hcommand : request.command = some command)
    (hwanted : commandEnables command = some wanted)
    (hget : s.gDispl.heads.get? zhead = some head) (hnamed : Named s.gCfg request head) :
    ∃ once twice, (handled s request).gDispl.heads.get? zhead = some once ∧
      (handled (handled s request) request).gDispl.heads.get? zhead = some twice ∧
      (once.des.enabled = wanted ↔
        HasItsWay wanted (autoEnabled s.gCfg s.gLid s.gDispl.heads head) head) ∧
      (twice.des.enabled = once.des.enabled ↔
        head.cur.enabled = wanted ∨
          autoEnabled s.gCfg s.gLid s.gDispl.heads head = wanted) := by
  obtain ⟨once, honce, h₁⟩ := get?_handled hcommand hwanted hget hnamed
  obtain ⟨twice, htwice, h₂⟩ := get?_handled hcommand hwanted honce h₁.named
  refine ⟨once, twice, honce, htwice, ?_, ?_⟩
  · obtain ⟨cfg, lid, heads, rfl, hauto⟩ := h₁.desired
    rw [des_overrideAfter_iff, hauto]
  · obtain ⟨cfg, lid, heads, hfirst, hauto⟩ := h₁.desired
    obtain ⟨cfg', lid', heads', hsecond, hauto'⟩ := h₂.desired
    rw [h₁.auto] at hauto'
    have hcur := h₁.cur
    have hafter (head : Head) (auto : Bool) (cfg : Cfg) (lid : Option Lid) (heads : Heads)
        (h : autoEnabled cfg lid heads head = auto) :
        autoEnabled cfg lid heads (overrideAfter wanted head) = auto := by
      rw [← h]
      unfold overrideAfter
      split
      · rfl
      · exact autoEnabled_congr cfg lid heads rfl rfl
    have hoverride := congrArg Head.overridedEnabled hfirst
    rw [desireEnabled_override, hafter head _ cfg lid heads hauto] at hoverride
    rw [hsecond, des_enabled, hafter once _ cfg' lid' heads' hauto', hfirst, des_enabled,
      hafter head _ cfg lid heads hauto, ← hfirst]
    generalize autoEnabled s.gCfg s.gLid s.gDispl.heads head = auto at hoverride
    unfold overrideAfter headApplyDisabledToggle at hoverride ⊢
    rw [hcur]
    cases wanted <;> cases auto <;> cases henabled : head.cur.enabled <;>
      cases ho : head.overridedEnabled <;> simp_all

def outstandingHead : Head :=
  { headInit with
    name := some "eDP-1"
    cur := { headStateInit with enabled := true }
    overridedEnabled := .overrideFalse }

/-- The server has disabled the laptop display by an override, which is still outstanding. -/
def overrideOutstanding : Server :=
  { gCfg := lidConditional
    gDispl := { displInit with
      heads := OrderedMap.empty.put ⟨0⟩ outstandingHead
      state := .outstanding }
    gLid := some ⟨false⟩
    gCancellationRetries := 0 }

def disableLaptop : IpcRequest :=
  { ipcRequestInit (some .cfgSet) with
    cfg := some { cfgInit with disableds := OrderedMap.empty.put "eDP-1" ⟨.empty⟩ } }

omit [Platform] in
private theorem named_disableLaptop :
    @Named plainPlatform overrideOutstanding.gCfg disableLaptop outstandingHead := by
  let _ : Platform := plainPlatform
  cases hcond : lidConditional.disableds.get? "eDP-1" with
  | none => exact absurd hcond (by decide +kernel)
  | some disabled =>
    have hnamed : (lidConditional.disableds.get? "eDP-1").any (fun disabled =>
        cfgDisabledConditionallyForHead "eDP-1" disabled outstandingHead) = true := by
      decide +kernel
    rw [hcond, Option.any_some] at hnamed
    exact ⟨⟨_, "eDP-1", rfl, by decide +kernel, by decide +kernel⟩, "eDP-1", disabled, hcond,
      hnamed⟩

omit [Platform] in
/-- To disable it once more enables it. -/
theorem overrideOutstanding_enables :
    ¬ ∀ head, overrideOutstanding.gDispl.heads.get? ⟨0⟩ = some head →
      @Named plainPlatform overrideOutstanding.gCfg disableLaptop head →
        ∀ head', (@handled plainPlatform overrideOutstanding disableLaptop).gDispl.heads.get? ⟨0⟩ =
          some head' → head'.des.enabled = false := by
  intro hclaim
  have hvalue : ((@handled plainPlatform overrideOutstanding disableLaptop).gDispl.heads.get?
      ⟨0⟩).map (fun head => head.des.enabled) = some true := by
    decide +kernel
  obtain ⟨head', hget', henabled⟩ := Option.map_eq_some_iff.mp hvalue
  exact absurd ((hclaim outstandingHead rfl named_disableLaptop head' hget').symm.trans henabled)
    (by simp)

omit [Platform] in
/-- With the lid open the conditions would have it enabled. -/
theorem request_hasItsWay_iff_outstanding :
    ∃ once twice,
      (@handled plainPlatform overrideOutstanding disableLaptop).gDispl.heads.get? ⟨0⟩ =
        some once ∧
      (@handled plainPlatform (@handled plainPlatform overrideOutstanding disableLaptop)
        disableLaptop).gDispl.heads.get? ⟨0⟩ = some twice ∧
      (once.des.enabled = false ↔ HasItsWay false true outstandingHead) ∧
      (twice.des.enabled = once.des.enabled ↔
        outstandingHead.cur.enabled = false ∨ true = false) := by
  have hauto : @autoEnabled plainPlatform lidConditional (some ⟨false⟩)
      overrideOutstanding.gDispl.heads outstandingHead = true := by
    decide +kernel
  rw [← hauto]
  exact @request_hasItsWay_iff plainPlatform overrideOutstanding disableLaptop ⟨0⟩ outstandingHead
    .cfgSet false rfl rfl rfl named_disableLaptop

end WayDisplays.Request.Override
