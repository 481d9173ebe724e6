/- What one call of act can do: the answer it handles and the stage it applies. -/

import WayDisplays.Desire.Heads
import WayDisplays.Model.Act

set_option autoImplicit false
set_option relaxedAutoImplicit false

namespace WayDisplays.Act.Spec

open Lib (OrderedMap)
open Model

/-- The change in flight is neither a mode nor an adaptive sync that is not as desired. -/
def Unaffected (displ : Displ) : Prop :=
  ∀ zhead, displ.delta.head = some zhead → displ.delta.element ≠ some .mode ∧
    (displ.delta.element = some .vrrOff → ∀ head, displ.heads.get? zhead = some head →
      headCurrentAdaptiveSyncNotDesired head = false)

/-- How the answer to a configuration changes the heads. -/
inductive Handled (displ : Displ) : Heads → Prop
  | same (h : displ.state = .succeeded ∨ displ.state = .failed → Unaffected displ) :
      Handled displ displ.heads
  | modeSucceeded {zhead : ZHead} {head : Head} (hstate : displ.state = .succeeded)
      (helement : displ.delta.element = some .mode) (hhead : displ.delta.head = some zhead)
      (hget : displ.heads.get? zhead = some head) :
      Handled displ (displ.heads.put zhead
        { head with cur := { head.cur with zmode := displ.delta.zmode } })
  | modeFailed {zhead : ZHead} {head : Head} (hstate : displ.state = .failed)
      (helement : displ.delta.element = some .mode) (hhead : displ.delta.head = some zhead)
      (hget : displ.heads.get? zhead = some head) :
      Handled displ (displ.heads.put zhead (headFailMode head displ.delta.zmode))
  | adaptiveSyncFailed {zhead : ZHead} {head : Head}
      (hstate : displ.state = .succeeded ∨ displ.state = .failed)
      (helement : displ.delta.element = some .vrrOff) (hhead : displ.delta.head = some zhead)
      (hget : displ.heads.get? zhead = some head)
      (hdiffers : headCurrentAdaptiveSyncNotDesired head = true) :
      Handled displ (displ.heads.put zhead { head with adaptiveSyncFailed := true })

/-- The stage that is applied to heads whose desired state is computed: the heads after it,
the delta that remembers it and the configuration sent. -/
inductive Stage (heads : Heads) : Heads → DisplDelta → Option Configuration → Prop
  | settled (hsettled : ∀ zhead head, heads.get? zhead = some head →
      headCurrentNotDesired head = false) :
      Stage heads heads displDeltaNone none
  | reapply {zhead : ZHead} {head : Head} (hget : heads.get? zhead = some head)
      (hreapply : head.reapplyRequired = true) :
      Stage heads (heads.modify zhead (fun head => { head with reapplyRequired := false }))
        { element := none, head := some zhead, zmode := none } (some [(zhead, .disable)])
  | mode {zhead : ZHead} {head : Head} (hget : heads.get? zhead = some head)
      (hnoReapply : ∀ z h, heads.get? z = some h → h.reapplyRequired = false)
      (hdiffers : head.des.zmode ≠ head.cur.zmode) :
      Stage heads heads
        { element := some .mode, head := some zhead, zmode := head.des.zmode }
        (some [(zhead, .enable [.setMode head.des.zmode])])
  | adaptiveSync {zhead : ZHead} {head : Head} (hget : heads.get? zhead = some head)
      (hnoReapply : ∀ z h, heads.get? z = some h → h.reapplyRequired = false)
      (hnoMode : ∀ z h, heads.get? z = some h → h.des.zmode = h.cur.zmode)
      (hdiffers : head.des.adaptiveSync ≠ head.cur.adaptiveSync) :
      Stage heads heads
        { element := some .vrrOff, head := some zhead, zmode := none }
        (some [(zhead, .enable [.setAdaptiveSync head.des.adaptiveSync])])
  | rest (hnoReapply : ∀ z h, heads.get? z = some h → h.reapplyRequired = false)
      (hnoMode : ∀ z h, heads.get? z = some h → h.des.zmode = h.cur.zmode)
      (hnoAdaptiveSync : ∀ z h, heads.get? z = some h →
        h.des.adaptiveSync = h.cur.adaptiveSync)
      (hchanging : ∃ z h, heads.get? z = some h ∧ headCurrentNotDesired h = true) :
      Stage heads heads displDeltaNone
        (some ((heads.filter (fun _ head => headCurrentNotDesired head)).mapVals
          (fun _ head => headConfig head)).entries)

/-! ### The answer -/

private theorem unaffected_of_none {displ : Displ} (h : displ.delta.head = none) :
    Unaffected displ := fun zhead hhead => by simp [h] at hhead

private theorem unaffected_of_head {displ : Displ} {zhead : ZHead} {head : Head}
    (hhead : displ.delta.head = some zhead) (hget : displ.heads.get? zhead = some head)
    (hmode : displ.delta.element ≠ some .mode)
    (hsame : displ.delta.element = some .vrrOff →
      headCurrentAdaptiveSyncNotDesired head = false) : Unaffected displ := by
  intro z hz
  obtain rfl := Option.some.inj (hhead.symm.trans hz)
  refine ⟨hmode, fun helement head' hget' => ?_⟩
  obtain rfl := Option.some.inj (hget.symm.trans hget')
  exact hsame helement

private theorem derefHead_ok {displ d : Displ} {zhead : ZHead} {f : Head → Except Halt Displ}
    (h : (derefHead displ zhead >>= f) = .ok d) :
    ∃ head, displ.heads.get? zhead = some head ∧ f head = .ok d := by
  unfold derefHead at h
  cases hget : displ.heads.get? zhead with
  | none => simp [hget, bind, Except.bind] at h
  | some head => exact ⟨head, rfl, by simpa [hget, bind, Except.bind] using h⟩

theorem actHandleFailure_ok {displ d : Displ}
    (hstate : displ.state = .failed ∨
      displ.state = .succeeded ∧ displ.delta.element = some .vrrOff)
    (h : actHandleFailure displ = .ok d) :
    ∃ heads, Handled displ heads ∧ d = displDeltaDestroy { displ with heads := heads } := by
  unfold actHandleFailure at h
  split at h
  · rename_i helement
    have hfailed : displ.state = .failed :=
      hstate.resolve_right (fun hs => by simp [hs.2] at helement)
    split at h
    · rename_i hhead
      exact ⟨displ.heads, .same (fun _ => unaffected_of_none hhead), (Except.ok.inj h).symm⟩
    · rename_i zhead hhead
      obtain ⟨head, hget, h⟩ := derefHead_ok h
      exact ⟨_, .modeFailed hfailed helement hhead hget, (Except.ok.inj h).symm⟩
  · rename_i helement
    split at h
    · rename_i hhead
      exact ⟨displ.heads, .same (fun _ => unaffected_of_none hhead), (Except.ok.inj h).symm⟩
    · rename_i zhead hhead
      obtain ⟨head, hget, h⟩ := derefHead_ok h
      cases hdiffers : headCurrentAdaptiveSyncNotDesired head with
      | false =>
        simp only [hdiffers] at h
        have hunaffected : Unaffected displ :=
          unaffected_of_head hhead hget (by simp [helement]) (fun _ => hdiffers)
        exact ⟨displ.heads, .same (fun _ => hunaffected), (Except.ok.inj h).symm⟩
      | true =>
        simp only [hdiffers] at h
        exact ⟨_, .adaptiveSyncFailed (hstate.symm.imp_left And.left) helement hhead hget
          hdiffers, (Except.ok.inj h).symm⟩
  · exact absurd h (by simp)

theorem actHandleSuccess_ok {displ d : Displ} (hstate : displ.state = .succeeded)
    (h : actHandleSuccess displ = .ok d) :
    ∃ heads, Handled displ heads ∧ d = displDeltaDestroy { displ with heads := heads } := by
  unfold actHandleSuccess at h
  split at h
  · rename_i hhead
    exact ⟨displ.heads, .same (fun _ => unaffected_of_none hhead), (Except.ok.inj h).symm⟩
  · rename_i zhead hhead
    split at h
    · rename_i helement
      obtain ⟨head, hget, h⟩ := derefHead_ok h
      exact ⟨_, .modeSucceeded hstate helement hhead hget, (Except.ok.inj h).symm⟩
    · rename_i helement
      obtain ⟨head, hget, h⟩ := derefHead_ok h
      split at h
      · exact actHandleFailure_ok (Or.inr ⟨hstate, helement⟩) h
      · rename_i hsame
        have hunaffected : Unaffected displ :=
          unaffected_of_head hhead hget (by simp [helement]) (fun _ => by simpa using hsame)
        exact ⟨displ.heads, .same (fun _ => hunaffected), (Except.ok.inj h).symm⟩
    · rename_i hmode hvrr
      have hunaffected : Unaffected displ :=
        fun _ _ => ⟨hmode, fun helement => absurd helement hvrr⟩
      exact ⟨displ.heads, .same (fun _ => hunaffected), (Except.ok.inj h).symm⟩

theorem Handled.unique {displ : Displ} {a b : Heads} (ha : Handled displ a)
    (hb : Handled displ b) : a = b := by
  have hnot {zhead : ZHead} (hstate : displ.state = .succeeded ∨ displ.state = .failed)
      (helement : displ.delta.element = some .mode) (hhead : displ.delta.head = some zhead)
      (h : displ.state = .succeeded ∨ displ.state = .failed → Unaffected displ) : False :=
    (h hstate zhead hhead).1 helement
  have hnotSync {zhead : ZHead} {head : Head}
      (hstate : displ.state = .succeeded ∨ displ.state = .failed)
      (helement : displ.delta.element = some .vrrOff) (hhead : displ.delta.head = some zhead)
      (hget : displ.heads.get? zhead = some head)
      (hdiffers : headCurrentAdaptiveSyncNotDesired head = true)
      (h : displ.state = .succeeded ∨ displ.state = .failed → Unaffected displ) : False := by
    have := (h hstate zhead hhead).2 helement head hget
    simp [hdiffers] at this
  cases ha with
  | same h =>
    cases hb with
    | same => rfl
    | modeSucceeded hs he hh => exact (hnot (Or.inl hs) he hh h).elim
    | modeFailed hs he hh => exact (hnot (Or.inr hs) he hh h).elim
    | adaptiveSyncFailed hs he hh hg hd => exact (hnotSync hs he hh hg hd h).elim
  | modeSucceeded hs he hh hg =>
    cases hb with
    | same h => exact (hnot (Or.inl hs) he hh h).elim
    | modeSucceeded _ _ hh' hg' =>
      obtain rfl := Option.some.inj (hh.symm.trans hh')
      obtain rfl := Option.some.inj (hg.symm.trans hg')
      rfl
    | modeFailed hs' => simp [hs] at hs'
    | adaptiveSyncFailed _ he' => simp [he] at he'
  | modeFailed hs he hh hg =>
    cases hb with
    | same h => exact (hnot (Or.inr hs) he hh h).elim
    | modeSucceeded hs' => simp [hs] at hs'
    | modeFailed _ _ hh' hg' =>
      obtain rfl := Option.some.inj (hh.symm.trans hh')
      obtain rfl := Option.some.inj (hg.symm.trans hg')
      rfl
    | adaptiveSyncFailed _ he' => simp [he] at he'
  | adaptiveSyncFailed hs he hh hg hd =>
    cases hb with
    | same h => exact (hnotSync hs he hh hg hd h).elim
    | modeSucceeded _ he' => simp [he] at he'
    | modeFailed _ he' => simp [he] at he'
    | adaptiveSyncFailed _ _ hh' hg' =>
      obtain rfl := Option.some.inj (hh.symm.trans hh')
      obtain rfl := Option.some.inj (hg.symm.trans hg')
      rfl

theorem Handled.congr {displ displ' : Displ} {heads : Heads} (h : Handled displ heads)
    (hheads : displ'.heads = displ.heads) (hstate : displ'.state = displ.state)
    (hdelta : displ'.delta = displ.delta) : Handled displ' heads := by
  obtain ⟨heads₀, _, _, state, delta⟩ := displ
  obtain ⟨heads₁, _, _, state', delta'⟩ := displ'
  obtain rfl : heads₁ = heads₀ := hheads
  obtain rfl : state' = state := hstate
  obtain rfl : delta' = delta := hdelta
  cases h with
  | same h => exact .same h
  | modeSucceeded hs he hh hg => exact .modeSucceeded hs he hh hg
  | modeFailed hs he hh hg => exact .modeFailed hs he hh hg
  | adaptiveSyncFailed hs he hh hg hd => exact .adaptiveSyncFailed hs he hh hg hd

/-- A head that is read while the delta names it may be gone. -/
def Dangling (displ : Displ) : Prop :=
  ∃ zhead, displ.delta.head = some zhead ∧ zhead ∉ displ.heads.keys

private theorem derefHead_error {displ : Displ} {zhead : ZHead} {halt : Halt}
    (hhead : displ.delta.head = some zhead) (h : derefHead displ zhead = .error halt) :
    halt = .useAfterFree ∧ Dangling displ := by
  unfold derefHead at h
  cases hget : displ.heads.get? zhead with
  | none =>
    simp only [hget] at h
    exact ⟨(Except.error.inj h).symm, zhead, hhead, OrderedMap.get?_eq_none_iff.mp hget⟩
  | some head => simp [hget] at h

private theorem bind_error {α β : Type} {x : Except Halt α} {f : α → Except Halt β}
    {halt : Halt} (h : (x >>= f) = .error halt) :
    x = .error halt ∨ ∃ a, x = .ok a ∧ f a = .error halt := by
  cases x with
  | error e => exact Or.inl (by simpa [bind, Except.bind] using h)
  | ok a => exact Or.inr ⟨a, rfl, h⟩

theorem actHandleFailure_error {displ : Displ} {halt : Halt}
    (h : actHandleFailure displ = .error halt) :
    (halt = .exitFailure ∧ displ.delta.element ≠ some .mode ∧
      displ.delta.element ≠ some .vrrOff) ∨ (halt = .useAfterFree ∧ Dangling displ) := by
  unfold actHandleFailure at h
  split at h
  · split at h
    · exact absurd h (by simp)
    · rename_i zhead hhead
      rcases bind_error h with h | ⟨_, _, h⟩
      · exact Or.inr (derefHead_error hhead h)
      · exact absurd h (by simp)
  · split at h
    · exact absurd h (by simp)
    · rename_i zhead hhead
      rcases bind_error h with h | ⟨_, _, h⟩
      · exact Or.inr (derefHead_error hhead h)
      · exact absurd h (by simp)
  · rename_i hmode hvrr
    exact Or.inl ⟨(Except.error.inj h).symm, hmode, hvrr⟩

theorem actHandleSuccess_error {displ : Displ} {halt : Halt}
    (h : actHandleSuccess displ = .error halt) : halt = .useAfterFree ∧ Dangling displ := by
  unfold actHandleSuccess at h
  split at h
  · exact absurd h (by simp)
  · rename_i zhead hhead
    split at h
    · rcases bind_error h with h | ⟨_, _, h⟩
      · exact derefHead_error hhead h
      · exact absurd h (by simp)
    · rename_i helement
      rcases bind_error h with h | ⟨_, _, h⟩
      · exact derefHead_error hhead h
      · split at h
        · exact (actHandleFailure_error h).resolve_left (fun hf => hf.2.2 helement)
        · exact absurd h (by simp)
    · exact absurd h (by simp)

/-! ### The stage -/

theorem actApply_stage (displ : Displ) :
    Stage displ.heads (actApply displ).1.heads (actApply displ).1.delta (actApply displ).2 ∧
      (actApply displ).1.state =
        if (actApply displ).2.isSome then .outstanding else displ.state := by
  have hfind {p : Head → Bool} {z : ZHead} {head : Head}
      (h : (displ.heads.filter (fun _ head => headCurrentNotDesired head)).find?
        (fun _ head => p head) = some (z, head)) :
      displ.heads.get? z = some head ∧ p head = true := by
    obtain ⟨hget, hp⟩ := OrderedMap.find?_eq_some h
    rw [OrderedMap.get?_filter] at hget
    exact ⟨(Option.filter_eq_some_iff.mp hget).1, hp⟩
  have hnone {p : Head → Bool} (himp : ∀ h : Head, p h = true → headCurrentNotDesired h = true)
      (hfind : (displ.heads.filter (fun _ head => headCurrentNotDesired head)).find?
        (fun _ head => p head) = none) {z : ZHead} {head : Head}
      (hget : displ.heads.get? z = some head) : p head = false := by
    cases hp : p head with
    | false => rfl
    | true =>
      have hget' : (displ.heads.filter (fun _ head => headCurrentNotDesired head)).get? z =
          some head := by
        rw [OrderedMap.get?_filter, hget]
        exact Option.filter_eq_some_iff.mpr ⟨rfl, himp head hp⟩
      simpa [hp] using OrderedMap.find?_eq_none hfind hget'
  have hreapply : ∀ h : Head, headReapplyRequired h = true → headCurrentNotDesired h = true := by
    intro h hp
    simp only [headReapplyRequired] at hp
    simp [headCurrentNotDesired, hp]
  have hmode : ∀ h : Head, headCurrentModeNotDesired h = true →
      headCurrentNotDesired h = true := by
    intro h hp
    simp only [headCurrentModeNotDesired] at hp
    simp [headCurrentNotDesired, hp]
  have hadaptive : ∀ h : Head, headCurrentAdaptiveSyncNotDesired h = true →
      headCurrentNotDesired h = true := by
    intro h hp
    simp only [headCurrentAdaptiveSyncNotDesired] at hp
    simp [headCurrentNotDesired, hp]
  unfold actApply
  have hheads : (displDeltaDestroy displ).heads = displ.heads := rfl
  have hstate : (displDeltaDestroy displ).state = displ.state := rfl
  have hdelta : (displDeltaDestroy displ).delta = displDeltaNone := rfl
  generalize displDeltaDestroy displ = d at hheads hstate hdelta
  rw [← hheads] at hfind hnone
  rw [← hheads, ← hstate]
  clear hheads hstate
  dsimp only
  by_cases hsize : (d.heads.filter (fun _ head => headCurrentNotDesired head)).size = 0
  · rw [if_pos hsize]
    refine ⟨?_, rfl⟩
    change Stage d.heads d.heads d.delta none
    rw [hdelta]
    refine .settled fun z head hget => ?_
    cases hp : headCurrentNotDesired head with
    | false => rfl
    | true =>
      have hmem : (z, head) ∈
          (d.heads.filter (fun _ head => headCurrentNotDesired head)).entries :=
        List.mem_filter.mpr ⟨OrderedMap.get?_eq_some_iff.mp hget, hp⟩
      rw [OrderedMap.size, List.length_eq_zero_iff] at hsize
      simp [hsize] at hmem
  rw [if_neg hsize]
  cases hfirst : (d.heads.filter (fun _ head => headCurrentNotDesired head)).find?
      (fun _ head => headReapplyRequired head) with
  | some found =>
    obtain ⟨hget, hp⟩ := hfind hfirst
    exact ⟨.reapply hget hp, rfl⟩
  | none =>
    have hnoReapply : ∀ z h, d.heads.get? z = some h → h.reapplyRequired = false :=
      fun z h hget => hnone hreapply hfirst hget
    cases hsecond : (d.heads.filter (fun _ head => headCurrentNotDesired head)).find?
        (fun _ head => headCurrentModeNotDesired head) with
    | some found =>
      obtain ⟨hget, hp⟩ := hfind hsecond
      exact ⟨.mode hget hnoReapply (by simpa [headCurrentModeNotDesired] using hp), rfl⟩
    | none =>
      have hnoMode : ∀ z h, d.heads.get? z = some h → h.des.zmode = h.cur.zmode :=
        fun z h hget => by simpa [headCurrentModeNotDesired] using hnone hmode hsecond hget
      cases hthird : (d.heads.filter (fun _ head => headCurrentNotDesired head)).find?
          (fun _ head => headCurrentAdaptiveSyncNotDesired head) with
      | some found =>
        obtain ⟨hget, hp⟩ := hfind hthird
        exact ⟨.adaptiveSync hget hnoReapply hnoMode
          (by simpa [headCurrentAdaptiveSyncNotDesired] using hp), rfl⟩
      | none =>
        refine ⟨.rest hnoReapply hnoMode (fun z h hget => ?_) ?_, rfl⟩
        · simpa [headCurrentAdaptiveSyncNotDesired] using hnone hadaptive hthird hget
        · obtain ⟨e, he⟩ := List.exists_mem_of_ne_nil _ (List.length_pos_iff.mp
            (Nat.pos_of_ne_zero hsize))
          obtain ⟨hmem, hchanging⟩ := List.mem_filter.mp he
          exact ⟨e.1, e.2, OrderedMap.get?_eq_some_iff.mpr hmem, hchanging⟩

/-! ### The call -/

section Call

variable [Platform]

/-- A call either waits, gives up after too many cancellations, or handles the answer and
applies a stage of what is desired afresh. -/
inductive Called (s : Server) : Server → Option Configuration → Prop
  | waits {s' : Server} (hcfg : s'.gCfg = s.gCfg) (hlid : s'.gLid = s.gLid)
      (hheads : s'.gDispl.heads = s.gDispl.heads) (hdelta : s'.gDispl.delta = s.gDispl.delta)
      (hstate : s.gDispl.state = .outstanding ∧ s'.gDispl.state = .outstanding ∨
        s.gDispl.state = .cancelled ∧ s'.gDispl.state = .idle) :
      Called s s' none
  | applies {heads : Heads} {s' : Server} {configuration : Option Configuration}
      (hstate : s.gDispl.state ≠ .outstanding) (hhandled : Handled s.gDispl heads)
      (hcfg : s'.gCfg = (desire s.gCfg s.gLid heads).1) (hlid : s'.gLid = s.gLid)
      (hstage : Stage (desire s.gCfg s.gLid heads).2 s'.gDispl.heads s'.gDispl.delta configuration)
      (hstate' : s'.gDispl.state = if configuration.isSome then .outstanding else .idle) :
      Called s s' configuration

theorem desireApply_eq (s : Server) :
    desireApply s =
      ({ s with
          gCfg := (desire s.gCfg s.gLid s.gDispl.heads).1
          gDispl := (actApply
            { s.gDispl with heads := (desire s.gCfg s.gLid s.gDispl.heads).2 }).1 },
        (actApply { s.gDispl with heads := (desire s.gCfg s.gLid s.gDispl.heads).2 }).2) := by
  unfold desireApply
  generalize desire s.gCfg s.gLid s.gDispl.heads = desired
  obtain ⟨cfg, heads⟩ := desired
  generalize hdispl : ({ s.gDispl with heads := heads } : Displ) = displ
  simp only [hdispl]

private theorem called_desireApply {s s₁ s' : Server} {configuration : Option Configuration}
    (h : desireApply s₁ = (s', configuration)) (hstate : s.gDispl.state ≠ .outstanding)
    (hhandled : Handled s.gDispl s₁.gDispl.heads) (hcfg : s₁.gCfg = s.gCfg)
    (hlid : s₁.gLid = s.gLid) (hidle : s₁.gDispl.state = .idle) :
    Called s s' configuration := by
  rw [desireApply_eq, hcfg, hlid] at h
  generalize hd : ({ s₁.gDispl with
    heads := (desire s.gCfg s.gLid s₁.gDispl.heads).2 } : Displ) = displ at h
  have hheads : displ.heads = (desire s.gCfg s.gLid s₁.gDispl.heads).2 := by rw [← hd]
  have hidle' : displ.state = .idle := by rw [← hd]; exact hidle
  have hstage := actApply_stage displ
  generalize actApply displ = applied at h hstage
  rw [hheads, hidle'] at hstage
  obtain ⟨rfl, rfl⟩ := Prod.mk.inj h
  exact .applies hstate hhandled rfl rfl hstage.1 hstage.2

theorem act_called {s s' : Server} {configuration : Option Configuration}
    (h : act s = .ok (s', configuration)) : Called s s' configuration := by
  unfold act at h
  dsimp only at h
  split at h
  · rename_i hstate
    cases hsuccess : actHandleSuccess
        { s.gDispl with headsArrived := [], headsDeparted := [] } with
    | error e => simp [hsuccess, bind, Except.bind] at h
    | ok d =>
      simp only [hsuccess, bind, Except.bind] at h
      obtain ⟨heads, hhandled, rfl⟩ := @actHandleSuccess_ok
        { s.gDispl with headsArrived := [], headsDeparted := [] } d hstate hsuccess
      exact called_desireApply (Except.ok.inj h) (by simp [hstate]) (hhandled.congr rfl rfl rfl)
        rfl rfl rfl
  · rename_i hstate
    obtain ⟨rfl, rfl⟩ := Prod.mk.inj (Except.ok.inj h)
    exact .waits rfl rfl rfl rfl (Or.inl ⟨hstate, hstate⟩)
  · rename_i hstate
    cases hfailure : actHandleFailure
        { s.gDispl with headsArrived := [], headsDeparted := [] } with
    | error e => simp [hfailure, bind, Except.bind] at h
    | ok d =>
      simp only [hfailure, bind, Except.bind] at h
      obtain ⟨heads, hhandled, rfl⟩ := @actHandleFailure_ok
        { s.gDispl with headsArrived := [], headsDeparted := [] } d (Or.inl hstate) hfailure
      exact called_desireApply (Except.ok.inj h) (by simp [hstate]) (hhandled.congr rfl rfl rfl)
        rfl rfl rfl
  · rename_i hstate
    have hsame : Handled s.gDispl s.gDispl.heads :=
      .same (fun hs => by simp [hstate] at hs)
    split at h
    · exact called_desireApply (Except.ok.inj h) (by simp [hstate]) hsame rfl rfl rfl
    · obtain ⟨rfl, rfl⟩ := Prod.mk.inj (Except.ok.inj h)
      exact .waits rfl rfl rfl rfl (Or.inr ⟨hstate, rfl⟩)
  · rename_i hstate
    have hsame : Handled s.gDispl s.gDispl.heads :=
      .same (fun hs => by simp [hstate] at hs)
    exact called_desireApply (Except.ok.inj h) (by simp [hstate]) hsame rfl rfl hstate

/-- An act halts on a failed change that no head can be blamed for, or on a freed head. -/
theorem act_error {s : Server} {halt : Halt} (h : act s = .error halt) :
    (halt = .exitFailure ∧ s.gDispl.state = .failed ∧ s.gDispl.delta.element ≠ some .mode ∧
      s.gDispl.delta.element ≠ some .vrrOff) ∨
      (halt = .useAfterFree ∧ (s.gDispl.state = .succeeded ∨ s.gDispl.state = .failed) ∧
        Dangling s.gDispl) := by
  unfold act at h
  dsimp only at h
  split at h
  · rename_i hstate
    rcases bind_error h with h | ⟨_, _, h⟩
    · obtain ⟨hhalt, hdangling⟩ := @actHandleSuccess_error
        { s.gDispl with headsArrived := [], headsDeparted := [] } halt h
      exact Or.inr ⟨hhalt, Or.inl hstate, hdangling⟩
    · exact absurd h (by simp)
  · exact absurd h (by simp)
  · rename_i hstate
    rcases bind_error h with h | ⟨_, _, h⟩
    · exact (@actHandleFailure_error
        { s.gDispl with headsArrived := [], headsDeparted := [] } halt h).imp
        (fun hf => ⟨hf.1, hstate, hf.2⟩) (fun hf => ⟨hf.1, Or.inr hstate, hf.2⟩)
    · exact absurd h (by simp)
  · split at h <;> exact absurd h (by simp)
  · exact absurd h (by simp)

end Call

/-! ### One head through a call -/

/-- How the answer to a configuration changes one head. -/
inductive HandledHead (displ : Displ) (zhead : ZHead) (head : Head) : Head → Prop
  | same : HandledHead displ zhead head head
  | modeSucceeded (hstate : displ.state = .succeeded)
      (helement : displ.delta.element = some .mode) (hhead : displ.delta.head = some zhead) :
      HandledHead displ zhead head
        { head with cur := { head.cur with zmode := displ.delta.zmode } }
  | modeFailed (hstate : displ.state = .failed)
      (helement : displ.delta.element = some .mode) (hhead : displ.delta.head = some zhead) :
      HandledHead displ zhead head (headFailMode head displ.delta.zmode)
  | adaptiveSyncFailed : HandledHead displ zhead head { head with adaptiveSyncFailed := true }

private theorem get?_put_cases {heads : Heads} {z zhead : ZHead} {head head' h : Head}
    (hget : heads.get? zhead = some head) (h' : (heads.put zhead head').get? z = some h) :
    (z = zhead ∧ h = head') ∨ (z ≠ zhead ∧ heads.get? z = some h) := by
  by_cases hz : z = zhead
  · subst hz
    rw [OrderedMap.get?_put_self] at h'
    exact Or.inl ⟨rfl, (Option.some.inj h').symm⟩
  · exact Or.inr ⟨hz, OrderedMap.get?_put_ne heads head' hz ▸ h'⟩

theorem Handled.head {displ : Displ} {heads : Heads} (h : Handled displ heads) {z : ZHead}
    {head' : Head} (hget' : heads.get? z = some head') :
    ∃ head, displ.heads.get? z = some head ∧ HandledHead displ z head head' := by
  cases h with
  | same => exact ⟨head', hget', .same⟩
  | modeSucceeded hstate helement hhead hget =>
    rcases get?_put_cases hget hget' with ⟨rfl, rfl⟩ | ⟨_, hsame⟩
    · exact ⟨_, hget, .modeSucceeded hstate helement hhead⟩
    · exact ⟨head', hsame, .same⟩
  | modeFailed hstate helement hhead hget =>
    rcases get?_put_cases hget hget' with ⟨rfl, rfl⟩ | ⟨_, hsame⟩
    · exact ⟨_, hget, .modeFailed hstate helement hhead⟩
    · exact ⟨head', hsame, .same⟩
  | adaptiveSyncFailed _ _ _ hget _ =>
    rcases get?_put_cases hget hget' with ⟨rfl, rfl⟩ | ⟨_, hsame⟩
    · exact ⟨_, hget, .adaptiveSyncFailed⟩
    · exact ⟨head', hsame, .same⟩

theorem Handled.keys {displ : Displ} {heads : Heads} (h : Handled displ heads) :
    heads.keys = displ.heads.keys := by
  cases h with
  | same => rfl
  | modeSucceeded _ _ _ hget =>
    exact OrderedMap.keys_put_of_mem _ (OrderedMap.mem_keys_of_get? hget)
  | modeFailed _ _ _ hget =>
    exact OrderedMap.keys_put_of_mem _ (OrderedMap.mem_keys_of_get? hget)
  | adaptiveSyncFailed _ _ _ hget _ =>
    exact OrderedMap.keys_put_of_mem _ (OrderedMap.mem_keys_of_get? hget)

theorem Stage.head {heads heads' : Heads} {delta : DisplDelta}
    {configuration : Option Configuration} (h : Stage heads heads' delta configuration)
    {z : ZHead} {head' : Head} (hget' : heads'.get? z = some head') :
    ∃ head, heads.get? z = some head ∧
      (head' = head ∨ head' = { head with reapplyRequired := false }) := by
  cases h with
  | reapply hget hreapply =>
    rw [OrderedMap.get?_modify] at hget'
    split at hget'
    · obtain ⟨head, hhead, rfl⟩ := Option.map_eq_some_iff.mp hget'
      exact ⟨head, hhead, Or.inr rfl⟩
    · exact ⟨head', hget', Or.inl rfl⟩
  | _ => exact ⟨head', hget', Or.inl rfl⟩

theorem Stage.keys {heads heads' : Heads} {delta : DisplDelta}
    {configuration : Option Configuration} (h : Stage heads heads' delta configuration) :
    heads'.keys = heads.keys := by
  cases h with
  | reapply => exact OrderedMap.keys_modify _ _ _
  | _ => rfl

theorem Stage.delta_head {heads heads' : Heads} {delta : DisplDelta}
    {configuration : Option Configuration} (h : Stage heads heads' delta configuration)
    {z : ZHead} (hz : delta.head = some z) : z ∈ heads.keys := by
  cases h with
  | settled => simp [displDeltaNone] at hz
  | rest => simp [displDeltaNone] at hz
  | reapply hget =>
    obtain rfl := Option.some.inj hz
    exact OrderedMap.mem_keys_of_get? hget
  | mode hget =>
    obtain rfl := Option.some.inj hz
    exact OrderedMap.mem_keys_of_get? hget
  | adaptiveSync hget =>
    obtain rfl := Option.some.inj hz
    exact OrderedMap.mem_keys_of_get? hget

theorem Stage.delta_zmode {heads heads' : Heads} {delta : DisplDelta}
    {configuration : Option Configuration} (h : Stage heads heads' delta configuration)
    {zhead : ZHead} {zmode : ZMode} (hhead : delta.head = some zhead)
    (hzmode : delta.zmode = some zmode) :
    ∃ head, heads.get? zhead = some head ∧ head.des.zmode = some zmode := by
  cases h with
  | settled => simp [displDeltaNone] at hhead
  | rest => simp [displDeltaNone] at hhead
  | reapply => simp at hzmode
  | adaptiveSync => simp at hzmode
  | mode hget =>
    obtain rfl := Option.some.inj hhead
    exact ⟨_, hget, hzmode⟩

theorem Stage.delta_of_none {heads heads' : Heads} {delta : DisplDelta}
    (h : Stage heads heads' delta none) : delta = displDeltaNone := by
  cases h
  rfl

/-- Only a delta that names a head names a mode. -/
theorem Stage.delta_head_isSome {heads heads' : Heads} {delta : DisplDelta}
    {configuration : Option Configuration} (h : Stage heads heads' delta configuration)
    {zmode : ZMode} (hzmode : delta.zmode = some zmode) : ∃ zhead, delta.head = some zhead := by
  cases h with
  | settled => simp [displDeltaNone] at hzmode
  | rest => simp [displDeltaNone] at hzmode
  | reapply => exact ⟨_, rfl⟩
  | adaptiveSync => exact ⟨_, rfl⟩
  | mode => exact ⟨_, rfl⟩

theorem Called.keys [Platform] {s s' : Server} {configuration : Option Configuration}
    (h : Called s s' configuration) : s'.gDispl.heads.keys = s.gDispl.heads.keys := by
  cases h with
  | waits _ _ hheads => rw [hheads]
  | applies _ hhandled _ _ hstage =>
    rw [hstage.keys, Desire.Heads.keys_desire, hhandled.keys]

end WayDisplays.Act.Spec
