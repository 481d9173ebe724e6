/- When a client is told that its request is done. -/

import WayDisplays.Ipc.Routing
import WayDisplays.Request.Override

set_option autoImplicit false
set_option relaxedAutoImplicit false

namespace WayDisplays.Ipc.Completion

open Lib (OrderedMap)
open Lib.Run
open Model
open Act.Requests (ipcRequestFilter_command ipcRequestFilter_heads)
open Request.Filter (size_pos_iff get?_filter_eq_some lidConditional)
open Request.Override (Named disableLaptop)
open Routing

def overrides (command : Option IpcCommand) (head : Head) : Bool :=
  match command with
  | some .cfgToggle => true
  | some .cfgDel => !head.cur.enabled
  | some .cfgSet => head.cur.enabled
  | _ => false

theorem headApplyDisabledToggle_ne (head : Head) : headApplyDisabledToggle head ≠ head := by
  intro h
  have hoverride := congrArg Head.overridedEnabled h
  unfold headApplyDisabledToggle at hoverride
  cases ho : head.overridedEnabled <;> cases henabled : head.cur.enabled <;> simp_all

section Overridden

variable [Platform]

/-- The entries of the request and those with conditions that name a head. -/
theorem named_iff {gCfg : Cfg} {request : IpcRequest} {cfg : Cfg} (head : Head)
    (hcfg : request.cfg = some cfg) :
    Named gCfg request head ↔
      (cfg.disableds.filter (fun key _ => headNameDescMatchesHead key head)).size > 0 ∧
      (gCfg.disableds.filter
        (fun key disabled => cfgDisabledConditionallyForHead key disabled head)).size > 0 := by
  constructor
  · rintro ⟨⟨cfg', nameDesc, hcfg', hmem, hmatches⟩, key, disabled, hget, hcond⟩
    obtain rfl := Option.some.inj (hcfg'.symm.trans hcfg)
    obtain ⟨v, hv⟩ := OrderedMap.exists_get?_of_mem_keys hmem
    exact ⟨size_pos_iff.mpr ⟨nameDesc, v, get?_filter_eq_some.mpr ⟨hv, hmatches⟩⟩,
      size_pos_iff.mpr ⟨key, disabled, get?_filter_eq_some.mpr ⟨hget, hcond⟩⟩⟩
  · rintro ⟨hreq, hactive⟩
    obtain ⟨nameDesc, v, hv⟩ := size_pos_iff.mp hreq
    obtain ⟨key, disabled, hget⟩ := size_pos_iff.mp hactive
    obtain ⟨hv, hmatches⟩ := get?_filter_eq_some.mp hv
    obtain ⟨hget, hcond⟩ := get?_filter_eq_some.mp hget
    exact ⟨⟨cfg, nameDesc, hcfg, OrderedMap.mem_keys_of_get? hv, hmatches⟩, key, disabled, hget,
      hcond⟩

/-- A request changes the heads that it names and its command overrides. -/
theorem headOverride_eq_self_iff (gCfg : Cfg) (head : Head) (request : IpcRequest) :
    (headOverrideIpcDisableds gCfg head request).1 = head ↔
      ¬ (Named gCfg request head ∧ overrides request.command head = true) := by
  cases hcfg : request.cfg with
  | none =>
    have hunnamed : ¬ Named gCfg request head := by
      rintro ⟨⟨cfg, nameDesc, hsome, -⟩, -⟩
      rw [hcfg] at hsome
      contradiction
    simp [headOverrideIpcDisableds, hcfg, hunnamed]
  | some cfg =>
    rw [named_iff head hcfg]
    simp only [headOverrideIpcDisableds, hcfg]
    generalize cfg.disableds.filter (fun key _ => headNameDescMatchesHead key head) = req
    generalize gCfg.disableds.filter
      (fun key disabled => cfgDisabledConditionallyForHead key disabled head) = active
    have hsize : (if req.size > 0 then active else .empty).size > 0 ↔
        req.size > 0 ∧ active.size > 0 := by
      by_cases hreq : req.size > 0
      · rw [if_pos hreq]
        exact (and_iff_right hreq).symm
      · have hempty : (OrderedMap.empty : Disableds).size = 0 := rfl
        rw [if_neg hreq, hempty]
        exact iff_of_false (lt_irrefl 0) (fun h => hreq h.1)
    by_cases hnamed : req.size > 0 ∧ active.size > 0
    · have hne := headApplyDisabledToggle_ne head
      rw [if_pos (hsize.mpr hnamed)]
      simp only [hnamed, true_and]
      cases hcommand : request.command with
      | none => simp [overrides]
      | some command =>
        cases command <;> cases henabled : head.cur.enabled <;> simp [overrides, henabled, hne]
    · rw [if_neg (fun h => hnamed (hsize.mp h))]
      exact iff_of_true rfl (fun h => hnamed h.1)

omit [Platform] in
theorem mapVals_eq_self_iff {heads : Heads} {f : ZHead → Head → Head} :
    heads.mapVals f = heads ↔ ∀ zhead head, heads.get? zhead = some head → f zhead head = head := by
  constructor
  · intro h zhead head hget
    have hmapped := congrArg (fun m : Heads => m.get? zhead) h
    simp only [OrderedMap.get?_mapVals, hget, Option.map_some] at hmapped
    exact Option.some.inj hmapped
  · intro h
    refine OrderedMap.ext_get? (by simp) fun zhead hmem => ?_
    rw [OrderedMap.keys_mapVals] at hmem
    obtain ⟨head, hget⟩ := OrderedMap.exists_get?_of_mem_keys hmem
    rw [OrderedMap.get?_mapVals, hget, Option.map_some, h zhead head hget]

/-- No head is overridden, or what the filter leaves of the request changes the
configuration. -/
def Settles (s : Server) (request : IpcRequest) : Prop :=
  (∀ zhead head, s.gDispl.heads.get? zhead = some head →
    ¬ (Named s.gCfg request head ∧ overrides request.command head = true)) ∨
  (cfgMerge s.gCfg (ipcRequestFilter s.gCfg s.gDispl.heads request).2.cfg
    request.command).isSome = true

/-- The filter leaves the heads as they are unless it overrides one. -/
theorem filter_heads_eq_self_iff (s : Server) (request : IpcRequest) :
    (ipcRequestFilter s.gCfg s.gDispl.heads request).1 = s.gDispl.heads ↔
      ∀ zhead head, s.gDispl.heads.get? zhead = some head →
        ¬ (Named s.gCfg request head ∧ overrides request.command head = true) := by
  rw [ipcRequestFilter_heads, mapVals_eq_self_iff]
  simp only [headOverride_eq_self_iff]

/-- A request reported complete changed nothing exactly when it settles. -/
theorem serverRequest_settles (s : Server) (request : IpcRequest) :
    ((serverRequest s request).2 = true → (serverRequest s request).1 = s) ↔
      Settles s request := by
  have hcommand := ipcRequestFilter_command s.gCfg s.gDispl.heads request
  have hheads := filter_heads_eq_self_iff s request
  have hserver : serverRequest s request = gCfgProcessIpcRequest
      { s with gDispl := { s.gDispl with
          heads := (ipcRequestFilter s.gCfg s.gDispl.heads request).1 } }
      (ipcRequestFilter s.gCfg s.gDispl.heads request).2 := rfl
  rw [hserver, Settles, ← hheads]
  generalize ipcRequestFilter s.gCfg s.gDispl.heads request = filtered at hcommand hheads
  have hsame : ({ s with gDispl := { s.gDispl with heads := filtered.1 } } : Server) = s ↔
      filtered.1 = s.gDispl.heads := by
    constructor
    · exact fun h => congrArg (fun s : Server => s.gDispl.heads) h
    · intro h
      rw [h]
  have hunchanged (hoverrides : ∀ head, overrides request.command head = false) :
      filtered.1 = s.gDispl.heads :=
    hheads.mpr fun zhead head _ h => by simp [hoverrides head] at h
  rw [← hcommand] at hunchanged ⊢
  unfold gCfgProcessIpcRequest
  cases hfiltered : filtered.2.command with
  | none =>
    have hnone := hunchanged (fun head => by simp [overrides, hfiltered])
    simp [hnone]
  | some command =>
    cases command with
    | cfgSet | cfgDel | cfgToggle =>
      dsimp only
      cases hmerge : cfgMerge s.gCfg filtered.2.cfg _ with
      | none => simp [hsame]
      | some merged => simp
    | reapply =>
      have hnone := hunchanged (fun head => by simp [overrides, hfiltered])
      simp [hnone]
    | cfgWrite | list | get =>
      have hnone := hunchanged (fun head => by simp [overrides, hfiltered])
      simp [hnone]

end Overridden

section Runs

variable [Platform] [Codec]

/-- A client is told that its request is done after an `act` that left the server idle, or when
the request changed nothing. -/
def DoneMeansDone (l : Loop) (event : LoopEvent) : Prop :=
  ∀ l' peer response delivery, l.step event = some l' →
    .answered peer response delivery ∈ l.io event → response.done = true →
    match event with
    | .act _ => l'.system.server.gDispl.state = .idle
    | _ => l'.system.server = l.system.server

def Settled (l : Loop) (event : LoopEvent) : Prop :=
  ∀ yaml, heard event = some yaml → l.ipcOperation = none → (requestOf yaml).bad = false →
    Settles l.system.server (requestOf yaml)

omit [Platform] in
theorem notify_system (l : Loop) (delivery : Delivery) :
    (notifyIpcOperation l delivery).1.system = l.system := by
  unfold notifyIpcOperation
  split
  · rfl
  · dsimp only
    split <;> rfl

omit [Platform] in
theorem notify_answered {l : Loop} {operation : IpcOperation} (delivery : Delivery)
    (hoperation : l.ipcOperation = some operation) (done : Bool) :
    (∃ peer response delivery', .answered peer response delivery' ∈
      (notifyIpcOperation l delivery).2 ∧ response.done = done) ↔ operation.done = done := by
  have hio : ∃ rest, (∀ peer response delivery', .answered peer response delivery' ∉ rest) ∧
      (notifyIpcOperation l delivery).2 = .answered (l.sockets.peer operation.socketClient)
        (ipcSendOperation l.system.server operation delivery).response delivery :: rest := by
    simp only [notifyIpcOperation, hoperation]
    split
    · exact ⟨_, by simp, rfl⟩
    · exact ⟨[], by simp, rfl⟩
  obtain ⟨rest, hrest, hio⟩ := hio
  rw [hio]
  constructor
  · rintro ⟨peer, response, delivery', hmem, hdone⟩
    rcases List.mem_cons.mp hmem with heq | hmem
    · obtain ⟨-, rfl, -⟩ := Io.answered.inj heq
      exact hdone
    · exact absurd hmem (hrest peer response delivery')
  · exact fun hdone => ⟨_, _, _, List.mem_cons_self, hdone⟩

theorem begin_done (l : Loop) (socket : Nat) (yaml : String) (processed : List LogCapLine)
    (hbad : (requestOf yaml).bad = false) :
    ∃ operation, (begin l socket yaml processed).ipcOperation = some operation ∧
      operation.done = (serverRequest l.system.server (requestOf yaml)).2 ∧
      (begin l socket yaml processed).system =
        { l.system with server := (serverRequest l.system.server (requestOf yaml)).1 } := by
  refine ⟨_, by simp only [begin, hbad]; rfl, ?_, by simp [begin, hbad]⟩
  rw [captureLines_done]

theorem act_idle {l l' : Loop} {delivery : Delivery} {io : List Io}
    (hact : l.act delivery = (l', io)) {peer : Option Nat} {response : IpcResponse}
    {delivery' : Delivery} (hmem : .answered peer response delivery' ∈ io)
    (hdone : response.done = true) : l'.system.server.gDispl.state = .idle := by
  rcases l.act_cases delivery with hcase | hcase
  · rw [hcase] at hact
    obtain ⟨-, rfl⟩ := Prod.mk.inj hact
    contradiction
  · rw [hcase] at hact
    have hsystem := congrArg (fun next : Loop × List Io => next.1.system) hact
    dsimp only at hsystem
    rw [notify_system] at hsystem
    rw [← hsystem]
    cases hoperation : l.ipcOperation with
    | none =>
      simp only [notifyIpcOperation, hoperation, Option.map_none] at hact
      obtain ⟨-, rfl⟩ := Prod.mk.inj hact
      contradiction
    | some operation =>
      simp only [hoperation, Option.map_some] at hact
      have hio := congrArg Prod.snd hact
      dsimp only at hio
      rw [← hio] at hmem
      have hidle := (notify_answered delivery rfl true).mp ⟨_, _, _, hmem, hdone⟩
      exact eq_of_beq hidle

/-- A step tells a client the truth exactly when the request that it carries out settles. -/
theorem step_doneMeansDone {l l' : Loop} {event : LoopEvent} (hstep : l.step event = some l') :
    DoneMeansDone l event ↔ Settled l event := by
  obtain ⟨⟨next, io⟩, hhandle, rfl⟩ := Option.map_eq_some_iff.mp hstep
  have hio : l.io event = io := by simp [Loop.io, hhandle]
  have hnext (l'' : Loop) (h : l.step event = some l'') : l'' = next :=
    Option.some.inj (h.symm.trans hstep)
  cases event with
  | log lines =>
    obtain ⟨-, rfl⟩ := Loop.handle_log hhandle
    refine iff_of_true (fun _ _ _ _ _ hmem => ?_) (fun _ hheard => ?_)
    · rw [hio] at hmem
      contradiction
    · contradiction
  | upkeep upkeep =>
    obtain ⟨system, -, -, rfl⟩ := Loop.handle_upkeep hhandle
    refine iff_of_true (fun _ _ _ _ _ hmem => ?_) (fun _ hheard => ?_)
    · rw [hio] at hmem
      contradiction
    · contradiction
  | act delivery =>
    refine iff_of_true (fun l'' peer response delivery' h hmem hdone => ?_) (fun _ hheard => ?_)
    · rw [hio] at hmem
      rw [hnext l'' h]
      exact act_idle (Loop.handle_act hhandle) hmem hdone
    · contradiction
  | ipc arrival processed delivery =>
    have hreceive := (Loop.handle_ipc hhandle).2
    cases hoperation : l.ipcOperation with
    | some operation =>
      rw [receiveIpcRequest_busy arrival processed delivery hoperation] at hreceive
      refine iff_of_true (fun l'' _ _ _ h _ _ => ?_) (fun _ _ hnone => ?_)
      · rw [hnext l'' h]
        have hsystem := congrArg (fun next : Loop × List Io => next.1.system.server) hreceive
        cases arrival with
        | failed logged => exact hsystem.symm
        | unread socket logged => exact hsystem.symm
        | message socket yaml =>
          rw [handleIpcInProgress_message] at hsystem
          exact hsystem.symm
      · rw [hoperation] at hnone
        contradiction
    | none =>
      cases arrival with
      | failed logged | unread socket logged =>
        rw [receiveIpcRequest_unread processed delivery hoperation rfl] at hreceive
        obtain ⟨rfl, -⟩ := Prod.mk.inj hreceive
        refine iff_of_true (fun l'' _ _ _ h _ _ => ?_) (fun _ hheard => ?_)
        · rw [hnext l'' h]
        · contradiction
      | message socket yaml =>
        rw [receiveIpcRequest_message processed delivery hoperation] at hreceive
        obtain ⟨hfirst, hsecond⟩ := Prod.mk.inj hreceive
        have hsystem : next.system = (begin l socket yaml processed).system := by
          rw [← hfirst, notify_system]
        cases hbad : (requestOf yaml).bad with
        | true =>
          refine iff_of_true (fun l'' _ _ _ h _ _ => ?_) (fun other hheard _ hgood => ?_)
          · rw [hnext l'' h]
            change next.system.server = l.system.server
            rw [hsystem]
            simp [begin, hbad]
          · obtain rfl := Option.some.inj hheard
            rw [hbad] at hgood
            contradiction
        | false =>
          obtain ⟨operation, hbegun, hdone, hserver⟩ := begin_done l socket yaml processed hbad
          have hanswered := notify_answered delivery hbegun true
          rw [hdone] at hanswered
          have hsettles := serverRequest_settles l.system.server (requestOf yaml)
          have hunchanged : next.system.server =
              (serverRequest l.system.server (requestOf yaml)).1 := by rw [hsystem, hserver]
          constructor
          · intro htrue other hheard _ _
            obtain rfl := Option.some.inj hheard
            refine hsettles.mp fun hcomplete => ?_
            obtain ⟨peer, response, delivery', hmem, hresponse⟩ := hanswered.mpr hcomplete
            have hsame := htrue next peer response delivery' hstep
              (by rw [hio, ← hsecond]; exact List.mem_cons_of_mem _ hmem) hresponse
            rw [← hunchanged]
            exact hsame
          · intro hsettled l'' peer response delivery' h hmem hresponse
            rw [hnext l'' h]
            change next.system.server = l.system.server
            rw [hunchanged]
            refine hsettles.mpr (hsettled yaml rfl hoperation hbad) ?_
            rw [hio, ← hsecond] at hmem
            rcases List.mem_cons.mp hmem with hheard | hmem
            · contradiction
            · exact hanswered.mp ⟨peer, response, delivery', hmem, hresponse⟩

/-- In every run clients are told the truth exactly when the requests carried out settle. -/
theorem doneMeansDone_iff_settled (l : Loop) (events : List LoopEvent) :
    Along Loop.step DoneMeansDone l events ↔ Along Loop.step Settled l events :=
  along_congr (fun _ _ _ hstep => step_doneMeansDone hstep) l events

end Runs

def disableLaptopYaml : String := "OP: CFG_SET\nCFG:\n  DISABLED:\n    eDP-1:\n"

abbrev laptopCodec : Codec :=
  { unmarshal := fun yaml => if yaml = disableLaptopYaml then some disableLaptop else none
    unmarshalLog := fun _ => []
    marshal := fun _ => "" }

def laptop : Loop := loopInit (cfgValidateFix (cfgApplyDefaults lidConditional)) (some ⟨false⟩)

def laptopArrives : List LoopEvent :=
  [.upkeep (.dispatch (.managerHead ⟨0⟩)), .upkeep (.dispatch (.head ⟨0⟩ (.name "eDP-1"))),
    .upkeep (.dispatch (.head ⟨0⟩ (.enabled true)))]

def laptopDisabled : List LoopEvent := [.ipc (.message 8 disableLaptopYaml) [] .written]

def tellsDone : Io → Bool
  | .answered _ response _ => response.done
  | _ => false

/-- Its display is overridden, but not disabled yet, when the client is told so. -/
theorem laptop_notDone :
    let _ : Platform := plainPlatform
    let _ : Codec := laptopCodec
    ¬ Along Loop.step DoneMeansDone laptop (laptopArrives ++ laptopDisabled) := by
  intro platform codec hdone
  have hruns : ((run Loop.step laptop laptopArrives).bind (fun l =>
      (run Loop.step l laptopDisabled).map (fun l' =>
        (((l.io (.ipc (.message 8 disableLaptopYaml) [] .written)).any tellsDone,
        (l.system.server.gDispl.heads.get? ⟨0⟩).map Head.overridedEnabled),
        (l'.system.server.gDispl.heads.get? ⟨0⟩).map Head.overridedEnabled)))) =
      some ((true, some .noOverride), some .overrideFalse) := by
    decide +kernel
  obtain ⟨l, hrun, hnext⟩ := Option.bind_eq_some_iff.mp hruns
  obtain ⟨l', hrun', hvalues⟩ := Option.map_eq_some_iff.mp hnext
  obtain ⟨hfirst, hafter⟩ := Prod.mk.inj hvalues
  obtain ⟨hanswered, hbefore⟩ := Prod.mk.inj hfirst
  obtain ⟨l'', hstep, hrest⟩ := run_cons_eq_some.mp hrun'
  obtain rfl := Option.some.inj hrest
  obtain ⟨io, hmem, hio⟩ := List.any_eq_true.mp hanswered
  cases io with
  | received connection yaml => contradiction
  | closed peer => contradiction
  | answered peer response delivery =>
    have hsame := (hdone.of_append hrun).head hstep l'' peer response delivery hstep hmem hio
    have hoverride := hbefore.symm.trans ((congrArg (fun s : Server =>
      (s.gDispl.heads.get? ⟨0⟩).map Head.overridedEnabled) hsame).symm.trans hafter)
    exact absurd hoverride (by decide)

end WayDisplays.Ipc.Completion
