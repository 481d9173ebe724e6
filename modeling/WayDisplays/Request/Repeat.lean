/- Requests that are repeated: they change nothing, unless a MODE that was set was reported
unavailable in between, or a display that was overridden is gone. -/

import WayDisplays.Act.Spec
import WayDisplays.Desire.Reported
import WayDisplays.Model.System
import WayDisplays.Request.Filter
import WayDisplays.Request.Merge
import WayDisplays.Request.Untouched

set_option autoImplicit false
set_option relaxedAutoImplicit false

namespace WayDisplays.Request.Repeat

open CfgFile.Equality
open CfgFile.Validity
open Desire.Reported
open Desire.Spec (headMatchesNameDesc_congr headNameDescMatchesHead_congr)
open Request.Filter (Clashes Overrides clashes_self get?_cfgMerge get?_ipcRequestFilter)
open Lib (OrderedMap Owned)
open Lib.Run
open Merge
open Model
open Model.CfgHeap (CfgObject Holder)
open Untouched

/-! ### What an act does to the configuration -/

section Act

variable [Platform]

/-- The heads for which an act computes the desired state, none when it waits or gives up. -/
def desiredHeads (s : Server) : Option Heads :=
  let displ := { s.gDispl with headsArrived := [], headsDeparted := [] }
  match displ.state with
  | .succeeded => (actHandleSuccess displ).toOption.map Displ.heads
  | .outstanding => none
  | .failed => (actHandleFailure displ).toOption.map Displ.heads
  | .cancelled =>
    if s.gCancellationRetries + 1 ≤ maxCancellationRetries then some displ.heads else none
  | .idle => some displ.heads

def reportedByAct (s : Server) : List String :=
  (desiredHeads s).elim [] (reported s.gCfg s.gLid)

private theorem gCfg_desireApply (s : Server) :
    (desireApply s).1.gCfg =
      (reported s.gCfg s.gLid s.gDispl.heads).foldl Cfg.warnNoMode s.gCfg := by
  rw [Act.Spec.desireApply_eq]
  exact desire_fst s.gCfg s.gLid s.gDispl.heads

theorem gCfg_act {s s' : Server} {configuration : Option Configuration}
    (h : act s = .ok (s', configuration)) :
    s'.gCfg = (reportedByAct s).foldl Cfg.warnNoMode s.gCfg := by
  have hdesire {s₁ : Server} (happly : desireApply s₁ = (s', configuration))
      (hheads : desiredHeads s = some s₁.gDispl.heads) (hcfg : s₁.gCfg = s.gCfg)
      (hlid : s₁.gLid = s.gLid) : s'.gCfg = (reportedByAct s).foldl Cfg.warnNoMode s.gCfg := by
    have hresult := gCfg_desireApply s₁
    rw [happly, hcfg, hlid] at hresult
    rw [reportedByAct, hheads]
    exact hresult
  have hwaits (hnone : desiredHeads s = none) (hcfg : s'.gCfg = s.gCfg) :
      s'.gCfg = (reportedByAct s).foldl Cfg.warnNoMode s.gCfg := by
    rw [reportedByAct, hnone, hcfg]
    rfl
  unfold act at h
  dsimp only at h
  split at h
  · rename_i hstate
    cases hsuccess : actHandleSuccess
        { s.gDispl with headsArrived := [], headsDeparted := [] } with
    | error e => simp [hsuccess, bind, Except.bind] at h
    | ok d =>
      simp only [hsuccess, bind, Except.bind] at h
      refine hdesire (Except.ok.inj h) ?_ rfl rfl
      simp only [hstate] at hsuccess
      simp only [desiredHeads, hstate, hsuccess, Except.toOption, Option.map_some]
  · rename_i hstate
    obtain ⟨rfl, rfl⟩ := Prod.mk.inj (Except.ok.inj h)
    exact hwaits (by simp only [desiredHeads, hstate]) rfl
  · rename_i hstate
    cases hfailure : actHandleFailure
        { s.gDispl with headsArrived := [], headsDeparted := [] } with
    | error e => simp [hfailure, bind, Except.bind] at h
    | ok d =>
      simp only [hfailure, bind, Except.bind] at h
      refine hdesire (Except.ok.inj h) ?_ rfl rfl
      simp only [hstate] at hfailure
      simp only [desiredHeads, hstate, hfailure, Except.toOption, Option.map_some]
  · rename_i hstate
    split at h
    · rename_i hretry
      refine hdesire (Except.ok.inj h) ?_ rfl rfl
      simp only [desiredHeads, hstate, if_pos hretry]
    · rename_i hretry
      obtain ⟨rfl, rfl⟩ := Prod.mk.inj (Except.ok.inj h)
      refine hwaits ?_ rfl
      simp only [desiredHeads, hstate, if_neg hretry]
  · rename_i hstate
    refine hdesire (Except.ok.inj h) ?_ rfl rfl
    simp only [desiredHeads, hstate]

theorem reportedByAct_error {s : Server} {halt : Halt} (h : act s = .error halt) :
    reportedByAct s = [] := by
  have hnone : desiredHeads s = none := by
    unfold act at h
    dsimp only at h
    split at h
    · rename_i hstate
      cases hsuccess : actHandleSuccess
          { s.gDispl with headsArrived := [], headsDeparted := [] } with
      | error e =>
        simp only [hstate] at hsuccess
        simp only [desiredHeads, hstate, hsuccess, Except.toOption, Option.map_none]
      | ok d => simp [hsuccess, bind, Except.bind] at h
    · exact absurd h (by simp)
    · rename_i hstate
      cases hfailure : actHandleFailure
          { s.gDispl with headsArrived := [], headsDeparted := [] } with
      | error e =>
        simp only [hstate] at hfailure
        simp only [desiredHeads, hstate, hfailure, Except.toOption, Option.map_none]
      | ok d => simp [hfailure, bind, Except.bind] at h
    · split at h <;> exact absurd h (by simp)
    · exact absurd h (by simp)
  rw [reportedByAct, hnone]
  rfl

/-- The keys a step reports: only an act does. -/
def reports (sys : System) : Event → List String
  | .act => reportedByAct sys.server
  | _ => []

theorem gCfg_sysAct (sys : System) :
    sys.act.server.gCfg = (reportedByAct sys.server).foldl Cfg.warnNoMode sys.server.gCfg := by
  unfold System.act
  cases hact : Model.act sys.server with
  | error halt =>
    rw [reportedByAct_error hact]
    rfl
  | ok result => exact gCfg_act hact

/-- A request or a reload. -/
def intervenes : Event → Bool
  | .request _ | .reload _ => true
  | _ => false

theorem gCfg_step {sys sys' : System} {event : Event} (hevent : intervenes event = false)
    (h : sys.step event = some sys') :
    sys'.server.gCfg = (reports sys event).foldl Cfg.warnNoMode sys.server.gCfg := by
  cases event with
  | dispatch event =>
    obtain ⟨-, rfl⟩ := System.step_dispatch h
    rfl
  | act =>
    obtain rfl := System.step_act h
    exact gCfg_sysAct sys
  | request request => exact absurd hevent (by simp [intervenes])
  | reload cfg => exact absurd hevent (by simp [intervenes])
  | lid closed =>
    obtain rfl := System.step_lid h
    unfold gLidUpdate
    split <;> rfl

end Act

/-! ### The same request, some reports later -/

/-- Whether a request sets the MODE of a key, to one that is valid and not flagged. -/
def setsMode (command : IpcCommand) (request : Cfg) (key : String) : Bool :=
  decide (command = .cfgSet) &&
    (request.modes.get? key).any (fun mode => !modeIsInvalid mode && !mode.warnedNoMode)

section Warned

variable {command : IpcCommand} {merge : Cfg → Cfg → Cfg} {cfg request : Cfg}

private theorem valid_flagged (p : Prop) [Decidable p] (mode : Mode) :
    modeIsInvalid (if p then { mode with warnedNoMode := true } else mode) =
      modeIsInvalid mode := by
  split_ifs <;> rfl

private theorem filter_flagged {entry : Option Mode} (p : Prop) [Decidable p]
    (h : entry.filter (!modeIsInvalid ·) = entry) :
    (entry.map (fun mode => if p then { mode with warnedNoMode := true } else mode)).filter
        (!modeIsInvalid ·) =
      entry.map (fun mode => if p then { mode with warnedNoMode := true } else mode) := by
  cases entry with
  | none => rfl
  | some mode =>
    have hvalid := (Option.filter_eq_some_iff.mp h).2
    rw [Option.map_some, Option.filter_eq_some_iff, valid_flagged]
    exact ⟨rfl, hvalid⟩

/-- A flag on the entry of one key is not seen unless the request sets that entry. -/
private theorem set_key_iff {key : String} {entry : Option Mode} (p : Prop) [Decidable p]
    (h : ((request.modes.get? key).or entry).filter (!modeIsInvalid ·) = entry) :
    ((request.modes.get? key).or
        (entry.map (fun mode => if p then { mode with warnedNoMode := true } else mode))).filter
          (!modeIsInvalid ·) =
        entry.map (fun mode => if p then { mode with warnedNoMode := true } else mode) ↔
      (p → setsMode .cfgSet request key = false) := by
  unfold setsMode
  cases hmode : request.modes.get? key with
  | none =>
    rw [hmode, Option.none_or] at h
    exact iff_of_true (filter_flagged p h) (fun _ => rfl)
  | some mode =>
    rw [hmode, Option.some_or] at h
    rw [Option.some_or]
    cases hinvalid : modeIsInvalid mode with
    | true =>
      have hblocked : (some mode).filter (!modeIsInvalid ·) = none := by simp [hinvalid]
      rw [hblocked] at h ⊢
      subst h
      exact iff_of_true rfl (fun _ => by simp [hinvalid])
    | false =>
      have hpasses : (some mode).filter (!modeIsInvalid ·) = some mode := by simp [hinvalid]
      rw [hpasses] at h ⊢
      subst h
      rw [Option.map_some, Option.some_inj]
      obtain ⟨width, height, refreshMhz, max, maxPreferredRefresh, warnedNoMode⟩ := mode
      cases warnedNoMode <;> by_cases hp : p <;> simp [hp, hinvalid]

private theorem agree_set_iff (keys : List String)
    (h : Agree (cfgValidateFix (cfgMergeSet cfg request)) cfg) :
    Agree (cfgValidateFix (cfgMergeSet (keys.foldl Cfg.warnNoMode cfg) request))
        (keys.foldl Cfg.warnNoMode cfg) ↔
      ∀ key ∈ keys, setsMode .cfgSet request key = false := by
  have hmodes := (OrderedMap.equal_iff_get? (fun _ _ => modeEqual_iff)).mp h.modes
  simp only [get?_fixed_modes, cfgMergeSet, OrderedMap.putAll_entries_get?] at hmodes
  have hkey (key : String) :
      (cfgValidateFix (cfgMergeSet (keys.foldl Cfg.warnNoMode cfg) request)).modes.get? key =
          (keys.foldl Cfg.warnNoMode cfg).modes.get? key ↔
        (key ∈ keys → setsMode .cfgSet request key = false) := by
    have hentry := set_key_iff (key ∈ keys) (hmodes key)
    rw [get?_fixed_modes, ← hentry]
    simp only [cfgMergeSet, OrderedMap.putAll_entries_get?, get?_foldl_warnNoMode]
  have hrest : Agree (cfgValidateFix (cfgMergeSet (keys.foldl Cfg.warnNoMode cfg) request))
        (keys.foldl Cfg.warnNoMode cfg) ↔
      (cfgValidateFix (cfgMergeSet (keys.foldl Cfg.warnNoMode cfg) request)).modes.equal modeEqual
        (keys.foldl Cfg.warnNoMode cfg).modes = true := by
    refine ⟨fun hagree => hagree.modes, fun hequal => ?_⟩
    rw [foldl_warnNoMode_eq] at hequal ⊢
    exact { h with modes := hequal }
  rw [hrest, OrderedMap.equal_iff_get? (fun _ _ => modeEqual_iff)]
  exact forall_congr' hkey

private theorem agree_del (keys : List String)
    (h : Agree (cfgValidateFix (cfgMergeDel cfg request)) cfg) :
    Agree (cfgValidateFix (cfgMergeDel (keys.foldl Cfg.warnNoMode cfg) request))
      (keys.foldl Cfg.warnNoMode cfg) := by
  have hmodes := (OrderedMap.equal_iff_get? (fun _ _ => modeEqual_iff)).mp h.modes
  have hequal : (cfgValidateFix (cfgMergeDel (keys.foldl Cfg.warnNoMode cfg) request)).modes.equal
      modeEqual (keys.foldl Cfg.warnNoMode cfg).modes = true := by
    refine (OrderedMap.equal_iff_get? (fun _ _ => modeEqual_iff)).mpr fun key => ?_
    have hentry := hmodes key
    simp only [get?_fixed_modes, cfgMergeDel, OrderedMap.get?_removeAll,
      get?_foldl_warnNoMode] at hentry ⊢
    by_cases hnamed : key ∈ request.modes.keys
    · rw [if_pos hnamed] at hentry ⊢
      rw [← hentry]
      rfl
    · rw [if_neg hnamed] at hentry ⊢
      exact filter_flagged (key ∈ keys) hentry
  rw [foldl_warnNoMode_eq] at hequal ⊢
  exact { h with modes := hequal }

/-- Reports are changes to a request that sets one of the entries they flag. -/
theorem cfgMerge_warned_iff (h : Edits command merge)
    (hagain : cfgMerge cfg (some request) (some command) = none) (keys : List String) :
    cfgMerge (keys.foldl Cfg.warnNoMode cfg) (some request) (some command) = none ↔
      ∀ key ∈ keys, setsMode command request key = false := by
  rw [cfgMerge_eq_none h] at hagain ⊢
  cases h with
  | set => exact agree_set_iff keys hagain
  | del => exact iff_of_true (agree_del keys hagain) (fun key _ => rfl)

end Warned

/-! ### The entries of DISABLED -/

/-- An entry that a SET finds, or that a DEL does not find. -/
def Settled (command : IpcCommand) (cfg : Cfg) (key : String) (disabled : CfgDisabled) : Prop :=
  if command = .cfgSet then
    ∃ there, cfg.disableds.get? key = some there ∧ disabledEqual disabled there = true
  else key ∉ cfg.disableds.keys

theorem settled_congr (command : IpcCommand) {a b : Cfg} {key : String}
    (h : a.disableds.get? key = b.disableds.get? key) (disabled : CfgDisabled) :
    Settled command a key disabled ↔ Settled command b key disabled := by
  have hkeys : key ∈ a.disableds.keys ↔ key ∈ b.disableds.keys := by
    rw [← OrderedMap.isSome_get?_iff, ← OrderedMap.isSome_get?_iff, h]
  unfold Settled
  rw [h, hkeys]

/-- The entries of DISABLED are changes on their own. -/
theorem cfgMerge_disableds_iff {command : IpcCommand} {merge : Cfg → Cfg → Cfg}
    (h : Edits command merge) {cfg request : Cfg} {disableds : Disableds} :
    cfgMerge cfg (some { request with disableds := disableds }) (some command) = none ↔
      cfgMerge cfg (some { request with disableds := .empty }) (some command) = none ∧
        ∀ key disabled, disableds.get? key = some disabled → Settled command cfg key disabled := by
  rw [cfgMerge_eq_none h, cfgMerge_eq_none h]
  cases h with
  | set =>
    have hsettled : (cfg.disableds.putAll disableds.entries).equal disabledEqual cfg.disableds =
        true ↔ ∀ key disabled, disableds.get? key = some disabled →
          Settled .cfgSet cfg key disabled :=
      OrderedMap.putAll_equal_iff disabledEqual_self
    rw [← hsettled]
    constructor
    · exact fun hagree => ⟨{ hagree with
        disableds := OrderedMap.equal_self disabledEqual_self cfg.disableds }, hagree.disableds⟩
    · exact fun hagree => { hagree.1 with disableds := hagree.2 }
  | del =>
    have hsettled : (cfg.disableds.removeAll disableds.keys).equal disabledEqual cfg.disableds =
        true ↔ ∀ key disabled, disableds.get? key = some disabled →
          Settled .cfgDel cfg key disabled := by
      rw [OrderedMap.removeAll_equal_iff disabledEqual_self]
      constructor
      · exact fun hkeys key disabled hget => hkeys key (OrderedMap.mem_keys_of_get? hget)
      · intro hget key hkey
        obtain ⟨disabled, hdisabled⟩ := OrderedMap.exists_get?_of_mem_keys hkey
        exact hget key disabled hdisabled
    rw [← hsettled]
    constructor
    · exact fun hagree => ⟨{ hagree with
        disableds := OrderedMap.equal_self disabledEqual_self cfg.disableds }, hagree.disableds⟩
    · exact fun hagree => { hagree.1 with disableds := hagree.2 }

/-! ### What is left of a request -/

section Filtered

variable [Platform] {command : IpcCommand} {merge : Cfg → Cfg → Cfg} {request : Cfg}

def requestOf (command : IpcCommand) (request : Cfg) : IpcRequest :=
  { ipcRequestInit (some command) with cfg := some request }

/-- What the server merges of a request: its filter looks at the configuration and the heads
that are there by then. -/
def filtered (s : Server) (command : IpcCommand) (request : Cfg) : Option Cfg :=
  (ipcRequestFilter s.gCfg s.gDispl.heads (requestOf command request)).2.cfg

/-- A request in which a server finds no change. -/
def NoChange (s : Server) (command : IpcCommand) (request : Cfg) : Prop :=
  cfgMerge s.gCfg (filtered s command request) (some command) = none

theorem filtered_eq (s : Server) (command : IpcCommand) (request : Cfg) :
    ∃ disableds, filtered s command request = some { request with disableds := disableds } ∧
      ∀ key disabled, disableds.get? key = some disabled ↔
        request.disableds.get? key = some disabled ∧ ¬ Clashes s.gCfg key ∧
          ¬ Overrides s.gCfg s.gDispl.heads key := by
  have hcfg : (requestOf command request).cfg = some request := rfl
  obtain ⟨disableds, hfilter, hkept⟩ :=
    @get?_ipcRequestFilter _ s.gCfg s.gDispl.heads _ _ hcfg
  exact ⟨disableds, congrArg IpcRequest.cfg hfilter, hkept⟩

theorem noChange_iff (h : Edits command merge) (s : Server) :
    NoChange s command request ↔
      cfgMerge s.gCfg (some { request with disableds := .empty }) (some command) = none ∧
        ∀ key disabled, request.disableds.get? key = some disabled → ¬ Clashes s.gCfg key →
          ¬ Overrides s.gCfg s.gDispl.heads key → Settled command s.gCfg key disabled := by
  obtain ⟨disableds, hfiltered, hkept⟩ := filtered_eq s command request
  rw [NoChange, hfiltered, cfgMerge_disableds_iff h]
  simp only [hkept, and_imp]

/-- The system once a request has been processed. -/
def processed (sys : System) (command : IpcCommand) (request : Cfg) : System :=
  { sys with server := (serverRequest sys.server (requestOf command request)).1 }

theorem gCfg_processed (h : Edits command merge) (sys : System) :
    (processed sys command request).server.gCfg =
      (cfgMerge sys.server.gCfg (filtered sys.server command request) (some command)).getD
        sys.server.gCfg := by
  have hcommand : (ipcRequestFilter sys.server.gCfg sys.server.gDispl.heads
      (requestOf command request)).2.command = some command := rfl
  simp only [processed, serverRequest, gCfgProcessIpcRequest, hcommand, filtered]
  cases h <;>
    · dsimp only
      split <;> simp [*]

theorem nanFree_processed (h : Edits command merge) {sys : System} :
    NanFree (processed sys command request).server.gCfg ↔ NanFree sys.server.gCfg := by
  rw [gCfg_processed h]
  cases hmerge : cfgMerge sys.server.gCfg (filtered sys.server command request)
      (some command) with
  | none => exact Iff.rfl
  | some merged =>
    obtain ⟨disableds, hfiltered, -⟩ := filtered_eq sys.server command request
    rw [hfiltered, cfgMerge_eq h] at hmerge
    split_ifs at hmerge
    obtain rfl := Option.some.inj hmerge
    cases h <;> exact ⟨fun hnan => ⟨hnan.autoScaleMin, hnan.autoScaleMax⟩,
      fun hnan => ⟨hnan.autoScaleMin, hnan.autoScaleMax⟩⟩

/-- Names that have just been carried out as overrides and name no display that a condition may
disable any more. -/
def Lapsed (before s : Server) (key : String) : Prop :=
  Overrides before.gCfg before.gDispl.heads key ∧ ¬ Clashes s.gCfg key ∧
    ¬ Overrides s.gCfg s.gDispl.heads key

section Processed

variable {sys : System}

private theorem get?_processed_of_filtered (h : Edits command merge) {disableds : Disableds}
    (hfiltered : filtered sys.server command request = some { request with disableds := disableds })
    {key : String} (hkey : key ∉ disableds.keys) :
    (processed sys command request).server.gCfg.disableds.get? key =
      sys.server.gCfg.disableds.get? key := by
  rw [gCfg_processed h]
  cases hmerge : cfgMerge sys.server.gCfg (filtered sys.server command request)
      (some command) with
  | none => rfl
  | some merged =>
    rw [hfiltered] at hmerge
    exact get?_cfgMerge hmerge hkey

/-- A conditional entry is none of a request's. -/
theorem get?_processed_of_conditional (h : Edits command merge) {key : String}
    {disabled : CfgDisabled} (hget : sys.server.gCfg.disableds.get? key = some disabled)
    (hcond : disabled.conditions.size > 0) :
    (processed sys command request).server.gCfg.disableds.get? key = some disabled := by
  obtain ⟨disableds, hfiltered, hkept⟩ := filtered_eq sys.server command request
  rw [get?_processed_of_filtered h hfiltered, hget]
  intro hmem
  obtain ⟨d, hd⟩ := OrderedMap.exists_get?_of_mem_keys hmem
  exact ((hkept key d).mp hd).2.1 (clashes_self hget hcond)

/-- It claims its names for as long as it is there. -/
theorem clashes_processed (h : Edits command merge) {key : String}
    (hclash : Clashes sys.server.gCfg key) :
    Clashes (processed sys command request).server.gCfg key := by
  obtain ⟨name, disabled, hget, hclaims⟩ := hclash
  have hcond : disabled.conditions.size > 0 := by
    by_contra hzero
    rw [cfgDisabledCondWithNameDesc, if_pos (Nat.eq_zero_of_not_pos hzero)] at hclaims
    exact absurd hclaims Bool.false_ne_true
  exact ⟨name, disabled, get?_processed_of_conditional h hget hcond, hclaims⟩

private theorem cfgMerge_processed (h : Edits command merge) (hnan : NanFree sys.server.gCfg)
    (request : Cfg) :
    cfgMerge (processed sys command request).server.gCfg
      (filtered sys.server command request) (some command) = none := by
  obtain ⟨disableds, hfiltered, -⟩ := filtered_eq sys.server command request
  rw [gCfg_processed h, hfiltered]
  exact cfgMerge_again h hnan { request with disableds := disableds }

/-- What has been merged is settled, and what was dropped is as it was. -/
theorem settled_processed_iff (h : Edits command merge) (hnan : NanFree sys.server.gCfg)
    {key : String} {disabled : CfgDisabled} (hget : request.disableds.get? key = some disabled)
    (hclash : ¬ Clashes (processed sys command request).server.gCfg key) :
    Settled command (processed sys command request).server.gCfg key disabled ↔
      (Overrides sys.server.gCfg sys.server.gDispl.heads key →
        Settled command sys.server.gCfg key disabled) := by
  obtain ⟨disableds, hfiltered, hkept⟩ := filtered_eq sys.server command request
  by_cases hoverrides : Overrides sys.server.gCfg sys.server.gDispl.heads key
  · have hdropped : key ∉ disableds.keys := by
      intro hmem
      obtain ⟨d, hd⟩ := OrderedMap.exists_get?_of_mem_keys hmem
      exact ((hkept key d).mp hd).2.2 hoverrides
    rw [settled_congr command (get?_processed_of_filtered h hfiltered hdropped),
      forall_prop_of_true hoverrides]
  · have hunclaimed : ¬ Clashes sys.server.gCfg key := mt (clashes_processed h) hclash
    have hmerged := cfgMerge_processed h hnan request
    rw [hfiltered, cfgMerge_disableds_iff h] at hmerged
    have hthere := (hkept key disabled).mpr ⟨hget, hunclaimed, hoverrides⟩
    exact iff_of_true (hmerged.2 key disabled hthere) (fun habs => absurd habs hoverrides)

theorem cfgMerge_processed_rest (h : Edits command merge) (hnan : NanFree sys.server.gCfg) :
    cfgMerge (processed sys command request).server.gCfg
      (some { request with disableds := .empty }) (some command) = none := by
  obtain ⟨disableds, hfiltered, -⟩ := filtered_eq sys.server command request
  have hmerged := cfgMerge_processed h hnan request
  rw [hfiltered, cfgMerge_disableds_iff h] at hmerged
  exact hmerged.1

end Processed

end Filtered

/-! ### Runs -/

section Runs

variable [Platform] {command : IpcCommand} {merge : Cfg → Cfg → Cfg} {request : Cfg}

/-- From a state in which a request changes nothing, it changes nothing for as long as no step
reports a MODE that it sets. -/
theorem always_again_iff (h : Edits command merge) {sys : System}
    (hagain : cfgMerge sys.server.gCfg (some request) (some command) = none) {events : List Event}
    (hevents : ∀ event ∈ events, intervenes event = false) :
    Always System.step (fun s => cfgMerge s.server.gCfg (some request) (some command) = none)
        sys events ↔
      Along System.step (fun s event => ∀ key ∈ reports s event,
        setsMode command request key = false) sys events := by
  refine always_iff_along_of (E := fun event => intervenes event = false) (J := fun _ => True)
    (fun _ _ _ _ _ _ => True.intro) (fun s event s' hevent _ hs hstep => ?_) hevents True.intro
    hagain
  rw [gCfg_step hevent hstep]
  exact cfgMerge_warned_iff h hs (reports s event)

/-- Reports leave the entries of DISABLED alone. -/
theorem always_disableds {sys : System} {events : List Event}
    (hevents : ∀ event ∈ events, intervenes event = false) :
    Always System.step
      (fun s => s.server.gCfg.disableds = sys.server.gCfg.disableds) sys events := by
  refine always_of_along (C := fun _ event => intervenes event = false)
    (fun s event s' hs hevent hstep => ?_) rfl (along_of_mem hevents sys)
  rw [gCfg_step hevent hstep, foldl_warnNoMode_eq]
  exact hs

/-- What a SET or DEL is to be: confined to what it allocates, whoever the objects of the
configuration and of the request belong to, sparing what it does not name, and not needed twice,
whatever its filter keeps of it by then. -/
structure Merges (sys : System) (command : IpcCommand) (request : Cfg) (events : List Event) :
    Prop where
  arguments : ∀ to_ from_ : Owned Holder CfgObject, to_.val.cfg = sys.server.gCfg →
    Confined to_ from_ command
  kept : ∀ from_ merged, cfgMerge sys.server.gCfg (some from_) (some command) = some merged →
    Kept from_ sys.server.gCfg merged
  again : Always System.step (fun s => NoChange s.server command request)
    (processed sys command request) events

/-- The flag that a report leaves is compared with the entry that was set, an override that has
lapsed is merged after all, and a NaN never is the same again. -/
theorem merges_iff {sys : System} (hvalid : CfgValid sys.server.gCfg)
    (hcommand : command = .cfgSet ∨ command = .cfgDel) (request : Cfg) {events : List Event}
    (hevents : ∀ event ∈ events, intervenes event = false) :
    Merges sys command request events ↔
      NanFree sys.server.gCfg ∧
        Along System.step (fun s event => ∀ key ∈ reports s event,
          setsMode command request key = false) (processed sys command request) events ∧
        Always System.step (fun s => ∀ key disabled,
          request.disableds.get? key = some disabled → Lapsed sys.server s.server key →
            Settled command sys.server.gCfg key disabled) (processed sys command request)
              events := by
  obtain ⟨merge, hedits⟩ : ∃ merge, Edits command merge := by
    rcases hcommand with rfl | rfl
    · exact ⟨_, .set⟩
    · exact ⟨_, .del⟩
  have hmerges : Merges sys command request events ↔
      Always System.step (fun s => NoChange s.server command request)
        (processed sys command request) events :=
    ⟨fun h => h.again, fun h =>
      { arguments := fun to_ from_ _ => confined to_ from_ command
        kept := fun from_ merged hmerge => kept_cfgMerge hedits hvalid hmerge
        again := h }⟩
  rw [hmerges]
  simp only [noChange_iff hedits]
  rw [always_and]
  by_cases hnan : NanFree sys.server.gCfg
  · rw [always_again_iff hedits (cfgMerge_processed_rest hedits hnan) hevents, and_iff_right hnan]
    refine and_congr_right fun _ => always_congr_of (fun s hdisableds => ?_)
      (always_disableds hevents)
    have hclashes (key : String) : Clashes s.server.gCfg key ↔
        Clashes (processed sys command request).server.gCfg key := by
      rw [Clashes, Clashes, hdisableds]
    have hsettled (key : String) (disabled : CfgDisabled) :=
      settled_congr command (congrArg (OrderedMap.get? · key) hdisableds) disabled
    refine forall_congr' fun key => forall_congr' fun disabled => forall_congr' fun hget => ?_
    constructor
    · rintro h ⟨hoverrode, hclash, hoverrides⟩
      have hthere := (hsettled key disabled).mp (h hclash hoverrides)
      exact (settled_processed_iff hedits hnan hget (mt (hclashes key).mpr hclash)).mp hthere
        hoverrode
    · intro h hclash hoverrides
      rw [hsettled, settled_processed_iff hedits hnan hget (mt (hclashes key).mpr hclash)]
      exact fun hoverrode => h ⟨hoverrode, hclash, hoverrides⟩
  · refine iff_of_false (fun h => hnan ?_) (fun h => hnan h.1)
    have hagree := (cfgMerge_eq_none hedits).mp h.1.first
    exact (nanFree_processed hedits).mp hagree.nanFree

theorem not_merges_of_change (sys : System) (event : Event) {sys' : System}
    (hstep : (processed sys command request).step event = some sys')
    (hchange : (cfgMerge sys'.server.gCfg (filtered sys'.server command request)
      (some command)).isSome = true) : ¬ Merges sys command request [event] := by
  intro h
  have hnone : cfgMerge sys'.server.gCfg (filtered sys'.server command request)
      (some command) = none := (h.again.2 sys' hstep).first
  rw [hnone] at hchange
  exact absurd hchange (by simp)

/-- Nothing lapses as long as the displays that were there are. -/
theorem not_lapsed (h : Edits command merge) {sys : System} {s : Server}
    (hdisableds : s.gCfg.disableds = (processed sys command request).server.gCfg.disableds)
    (hheads : ∀ zhead head, sys.server.gDispl.heads.get? zhead = some head →
      ∃ zhead' head', s.gDispl.heads.get? zhead' = some head' ∧ head'.name = head.name ∧
        head'.description = head.description) (key : String) : ¬ Lapsed sys.server s key := by
  rintro ⟨⟨zhead, head, hget, hmatches, name, disabled, hentry, hcond⟩, -, hoverrides⟩
  obtain ⟨zhead', head', hget', hname, hdescription⟩ := hheads zhead head hget
  refine hoverrides ⟨zhead', head', hget', ?_, name, disabled, ?_, ?_⟩
  · rwa [headNameDescMatchesHead_congr hname hdescription]
  · have hsize := (Bool.and_eq_true_iff.mp hcond).1
    rw [hdisableds]
    exact get?_processed_of_conditional h hentry (of_decide_eq_true hsize)
  · rwa [cfgDisabledConditionallyForHead, headMatchesNameDesc_congr hname hdescription]

end Runs

/-! ### A display without the mode that is set -/

/-- A display of one mode, with the defaults for its configuration. -/
def oneMode : System :=
  let server := (systemInit (cfgValidateFix (cfgApplyDefaults cfgInit)) none).server
  { systemInit server.gCfg none with
    server := { server with
      gDispl := [.managerHead ⟨0⟩, .head ⟨0⟩ (.name "DP-3"), .head ⟨0⟩ (.mode ⟨0⟩),
        .mode ⟨0⟩ ⟨0⟩ (.size 1920 1080), .mode ⟨0⟩ ⟨0⟩ (.refresh 60000),
        .mode ⟨0⟩ ⟨0⟩ .preferred].foldl displListener server.gDispl } }

def setMode720 : Cfg :=
  { cfgInit with
    modes := OrderedMap.empty.put "DP-3" { modeInit with width := 1280, height := 720 } }

theorem oneMode_valid : CfgValid oneMode.server.gCfg :=
  valid_loaded ⟨by decide, by simp [cfgInit, ConditionsNontrivial, OrderedMap.vals,
    OrderedMap.empty]⟩

/-- Set, reported, and set again to the same: the configuration is new. -/
theorem setMode720_again : ¬ @Merges plainPlatform oneMode .cfgSet setMode720 [.act] := by
  let _ : Platform := plainPlatform
  exact not_merges_of_change oneMode .act rfl (by decide +kernel)

theorem merges_iff_setMode720 :
    @Merges plainPlatform oneMode .cfgSet setMode720 [.act, .lid true, .act] ↔
      NanFree oneMode.server.gCfg ∧
        Along (@System.step plainPlatform) (fun s event => ∀ key ∈ @reports plainPlatform s event,
          setsMode .cfgSet setMode720 key = false)
          (@processed plainPlatform oneMode .cfgSet setMode720) [.act, .lid true, .act] ∧
        Always (@System.step plainPlatform) (fun s => ∀ key disabled,
          setMode720.disableds.get? key = some disabled →
            @Lapsed plainPlatform oneMode.server s.server key →
              Settled .cfgSet oneMode.server.gCfg key disabled)
          (@processed plainPlatform oneMode .cfgSet setMode720) [.act, .lid true, .act] :=
  @merges_iff plainPlatform _ _ oneMode_valid (Or.inl rfl) _ _ (by decide)

/-! ### A display that is gone -/

/-- A laptop display that is disabled by its description, and by its name while the lid is
closed. -/
def panelDisabled : Cfg :=
  cfgValidateFix (cfgApplyDefaults { cfgInit with
    disableds := cfgDisabledAddLidCondition (OrderedMap.empty.put "Laptop panel" ⟨.empty⟩)
      "eDP-1" })

def laptop : System :=
  { systemInit panelDisabled none with
    server := { (systemInit panelDisabled none).server with
      gDispl := [.managerHead ⟨0⟩, .head ⟨0⟩ (.name "eDP-1"),
        .head ⟨0⟩ (.description "Laptop panel")].foldl displListener displInit }
    compositor := { compositorInit with heads := [⟨0⟩] } }

def delPanel : Cfg :=
  { cfgInit with disableds := OrderedMap.empty.put "Laptop panel" ⟨.empty⟩ }

/-- Deleted while the display is there, the entry stays and the display is overridden; deleted
again without the display, the entry goes. -/
theorem delPanel_unplugged :
    ¬ @Merges plainPlatform laptop .cfgDel delPanel [.dispatch (.headFinished ⟨0⟩)] := by
  let _ : Platform := plainPlatform
  exact not_merges_of_change laptop (.dispatch (.headFinished ⟨0⟩)) rfl (by decide +kernel)

end WayDisplays.Request.Repeat
