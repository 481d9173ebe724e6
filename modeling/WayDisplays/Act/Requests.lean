/- What the requests of clients change of the heads: overrides, and all of them by a reapply. -/

import WayDisplays.Model.CfgMerge

set_option autoImplicit false
set_option relaxedAutoImplicit false

namespace WayDisplays.Act.Requests

open Lib (OrderedMap)
open Model

variable [Platform]

/-- A head after a request: its override may change, and a reapply then starts it over. -/
inductive RequestedHead (request : IpcRequest) (head : Head) : Head → Prop
  | overrides (o : ManualOverride) (h : request.command ≠ some .reapply) :
      RequestedHead request head { head with overridedEnabled := o }
  | reapply (o : ManualOverride) (h : request.command = some .reapply) :
      RequestedHead request head (headReapply { head with overridedEnabled := o })

omit [Platform] in
private theorem headApplyDisabledToggle_eq (head : Head) :
    ∃ o, headApplyDisabledToggle head = { head with overridedEnabled := o } :=
  ⟨_, rfl⟩

theorem headOverrideIpcDisableds_eq (gCfg : Cfg) (head : Head) (request : IpcRequest) :
    ∃ o, (headOverrideIpcDisableds gCfg head request).1 = { head with overridedEnabled := o } := by
  unfold headOverrideIpcDisableds
  split
  · exact ⟨head.overridedEnabled, rfl⟩
  · dsimp only
    generalize (if OrderedMap.size _ > 0 then _ else _ : Disableds) = disabledsCfg
    split
    · split
      · exact headApplyDisabledToggle_eq head
      · split
        · exact headApplyDisabledToggle_eq head
        · exact ⟨head.overridedEnabled, rfl⟩
      · split
        · exact headApplyDisabledToggle_eq head
        · exact ⟨head.overridedEnabled, rfl⟩
      · exact ⟨head.overridedEnabled, rfl⟩
    · exact ⟨head.overridedEnabled, rfl⟩

theorem ipcRequestFilter_heads (gCfg : Cfg) (heads : Heads) (request : IpcRequest) :
    (ipcRequestFilter gCfg heads request).1 =
      heads.mapVals (fun _ head => (headOverrideIpcDisableds gCfg head request).1) := by
  unfold ipcRequestFilter
  split
  · rename_i hcfg
    refine OrderedMap.ext ?_
    simp only [OrderedMap.mapVals, headOverrideIpcDisableds, hcfg]
    exact (List.map_id _).symm
  · rfl

theorem ipcRequestFilter_command (gCfg : Cfg) (heads : Heads) (request : IpcRequest) :
    (ipcRequestFilter gCfg heads request).2.command = request.command := by
  unfold ipcRequestFilter
  split <;> rfl

omit [Platform] in
private theorem gCfgProcessIpcRequest_displ (s : Server) (request : IpcRequest) :
    (gCfgProcessIpcRequest s request).1.gDispl =
      if request.command = some .reapply
      then { s.gDispl with heads := headsReapply s.gDispl.heads } else s.gDispl := by
  unfold gCfgProcessIpcRequest
  cases hcommand : request.command with
  | none => rfl
  | some command =>
    cases command with
    | get | list | reapply | cfgWrite => rfl
    | cfgSet | cfgDel | cfgToggle =>
      dsimp only
      split <;> rfl

theorem serverRequest_displ (s : Server) (request : IpcRequest) :
    ∃ f : ZHead → Head → Head,
      (serverRequest s request).1.gDispl =
        { s.gDispl with heads := s.gDispl.heads.mapVals f } ∧
      ∀ zhead head, RequestedHead request head (f zhead head) := by
  have hfilter := ipcRequestFilter_heads s.gCfg s.gDispl.heads request
  have hcommand := ipcRequestFilter_command s.gCfg s.gDispl.heads request
  unfold serverRequest
  generalize ipcRequestFilter s.gCfg s.gDispl.heads request = filtered at hfilter hcommand
  obtain ⟨heads, request'⟩ := filtered
  simp only at hfilter hcommand
  rw [gCfgProcessIpcRequest_displ]
  by_cases hreapply : request.command = some .reapply
  · rw [if_pos (hcommand.trans hreapply)]
    refine ⟨fun _ head => headReapply (headOverrideIpcDisableds s.gCfg head request).1, ?_, ?_⟩
    · simp only [hfilter, headsReapply]
      congr 1
      exact OrderedMap.ext (by simp [OrderedMap.mapVals])
    · intro zhead head
      obtain ⟨o, ho⟩ := headOverrideIpcDisableds_eq s.gCfg head request
      simp only [ho]
      exact .reapply o hreapply
  · rw [if_neg (hcommand ▸ hreapply)]
    refine ⟨fun _ head => (headOverrideIpcDisableds s.gCfg head request).1, ?_, ?_⟩
    · simp only [hfilter]
    · intro zhead head
      obtain ⟨o, ho⟩ := headOverrideIpcDisableds_eq s.gCfg head request
      simp only [ho]
      exact .overrides o hreapply

theorem serverRequest_get? (s : Server) (request : IpcRequest) {zhead : ZHead} {head' : Head}
    (h : (serverRequest s request).1.gDispl.heads.get? zhead = some head') :
    ∃ head, s.gDispl.heads.get? zhead = some head ∧ RequestedHead request head head' := by
  obtain ⟨f, hf, hreq⟩ := serverRequest_displ s request
  rw [hf, OrderedMap.get?_mapVals] at h
  obtain ⟨head, hget, rfl⟩ := Option.map_eq_some_iff.mp h
  exact ⟨head, hget, hreq zhead head⟩

theorem serverRequest_keys (s : Server) (request : IpcRequest) :
    (serverRequest s request).1.gDispl.heads.keys = s.gDispl.heads.keys := by
  obtain ⟨f, hf, _⟩ := serverRequest_displ s request
  rw [hf]
  exact OrderedMap.keys_mapVals _ f

theorem serverRequest_delta (s : Server) (request : IpcRequest) :
    (serverRequest s request).1.gDispl.delta = s.gDispl.delta := by
  obtain ⟨f, hf, _⟩ := serverRequest_displ s request
  rw [hf]

theorem serverRequest_state (s : Server) (request : IpcRequest) :
    (serverRequest s request).1.gDispl.state = s.gDispl.state := by
  obtain ⟨f, hf, _⟩ := serverRequest_displ s request
  rw [hf]

end WayDisplays.Act.Requests
