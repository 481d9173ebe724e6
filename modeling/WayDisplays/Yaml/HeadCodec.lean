/- Heads on their way to a client: which of them arrive as they were sent. -/

import WayDisplays.Model.Unmarshal
import WayDisplays.Yaml.Scalars

set_option autoImplicit false
set_option relaxedAutoImplicit false

namespace WayDisplays.Yaml.HeadCodec

open Lib (OrderedMap OrderedSet)
open Model Scalars

/-! ### What is sent -/

/-- What of a mode is sent. -/
def modeSize (mode : Mode) : Int × Int × Int := (mode.width, mode.height, mode.refreshMhz)

/-- The mode a reference stands for, failed or not. -/
def referenced (head : Head) (zmode : Option ZMode) : Option Mode :=
  zmode.bind (fun zmode => (head.modes.get? zmode).or (head.modesFailed.get? zmode))

/-- Null, or a key of one of the lists. -/
def ListedMode (head : Head) (zmode : Option ZMode) : Prop :=
  ∀ z, zmode = some z → z ∈ head.modes.keys ∨ z ∈ head.modesFailed.keys

/-- Modes as the compositor announces them, and references into them. -/
structure Announced (head : Head) : Prop where
  int32 : ∀ mode ∈ head.modes.vals ++ head.modesFailed.vals,
    IsInt32 mode.width ∧ IsInt32 mode.height ∧ IsInt32 mode.refreshMhz
  distinct : ((head.modes.vals ++ head.modesFailed.vals).map modeSize).Nodup
  zmodePref : ListedMode head head.zmodePref
  cur : ListedMode head head.cur.zmode
  des : ListedMode head head.des.zmode

/-- The same override, lists of modes and referenced modes. -/
structure SameState (head head' : Head) : Prop where
  overridedEnabled : head'.overridedEnabled = head.overridedEnabled
  modes : head'.modes.vals.map modeSize = head.modes.vals.map modeSize
  modesFailed : head'.modesFailed.vals.map modeSize = head.modesFailed.vals.map modeSize
  preferred : (referenced head' head'.zmodePref).map modeSize =
    (referenced head head.zmodePref).map modeSize
  current : (referenced head' head'.cur.zmode).map modeSize =
    (referenced head head.cur.zmode).map modeSize
  desired : (referenced head' head'.des.zmode).map modeSize =
    (referenced head head.des.zmode).map modeSize

/-- A head that is read as it was written. -/
def RoundTrips [Platform] (head : Head) : Prop :=
  ∃ head', yamlMapIntoHeads [] (yamlMapFromHead head) = [head'] ∧ SameState head head'

/-- Null, or a key of the modes that have not failed. -/
def AvailableMode (head : Head) (zmode : Option ZMode) : Prop :=
  ∀ z, zmode = some z → z ∈ head.modes.keys

/-! ### Modes -/

/-- A mode as it arrives. -/
def sentMode (mode : Mode) : Mode :=
  { modeInit with width := mode.width, height := mode.height, refreshMhz := mode.refreshMhz }

theorem modeSize_sentMode (mode : Mode) : modeSize (sentMode mode) = modeSize mode := rfl

theorem map_modeSize_map_sentMode (vals : List Mode) :
    (vals.map sentMode).map modeSize = vals.map modeSize := by
  rw [List.map_map]
  exact List.map_congr_left fun mode _ => modeSize_sentMode mode

theorem yamlMapToHeadMode_yamlMapFromHeadMode {mode : Mode}
    (h : IsInt32 mode.width ∧ IsInt32 mode.height ∧ IsInt32 mode.refreshMhz) :
    yamlMapToHeadMode (some (yamlMapFromHeadMode mode)) = some (sentMode mode) := by
  obtain ⟨hw, hh, hr⟩ := h
  simp only [yamlMapToHeadMode, yamlMapFromHeadMode, yamlMapToSpmap, Option.map_some,
    List.foldl_append, yamlMapAddInt_eq, get?_foldl_yamlMapAddNode]
  simp [yamlScalarToInt_snprintfInt, hw, hh, hr, sentMode]

/-- The modes that were read so far have the keys before the next one. -/
theorem foldl_yamlMapIntoHeadModes {vals : List Mode} (allocated : Nat) {modes : Modes}
    (hint : ∀ mode ∈ vals, IsInt32 mode.width ∧ IsInt32 mode.height ∧ IsInt32 mode.refreshMhz)
    (hkeys : ∀ z ∈ modes.keys, z.id < allocated + modes.size) :
    ((vals.map yamlMapFromHeadMode).foldl (yamlMapIntoHeadModes allocated) modes).vals =
        modes.vals ++ vals.map sentMode := by
  induction vals generalizing modes with
  | nil => simp
  | cons mode vals ih =>
    have hnew : (⟨allocated + modes.size⟩ : ZMode) ∉ modes.keys := by
      intro hmem
      exact absurd (hkeys _ hmem) (lt_irrefl _)
    have hput := OrderedMap.entries_put_of_not_mem (sentMode mode) hnew
    have hread : yamlMapIntoHeadModes allocated modes (yamlMapFromHeadMode mode) =
        modes.put ⟨allocated + modes.size⟩ (sentMode mode) := by
      rw [yamlMapIntoHeadModes,
        yamlMapToHeadMode_yamlMapFromHeadMode (hint mode List.mem_cons_self)]
      rfl
    rw [List.map_cons, List.foldl_cons, hread,
      ih (fun m hm => hint m (List.mem_cons_of_mem _ hm)) ?_]
    · simp [OrderedMap.vals, hput]
    · intro z hz
      have hsize : (modes.put ⟨allocated + modes.size⟩ (sentMode mode)).size = modes.size + 1 := by
        rw [OrderedMap.size, hput, List.length_append]
        rfl
      rw [hsize]
      rcases OrderedMap.mem_keys_put.mp hz with rfl | hz
      · exact Nat.lt_succ_self _
      · have := hkeys z hz
        omega

theorem yamlSeqIntoCol_plist {γ α : Type} (fn : γ → YamlNode → γ) (col : γ) (plist : List α)
    (write : α → YamlNode) :
    (yamlSeqIntoCol fn col
      (if plist.isEmpty then none else some (.sequence (plist.map write)))).getD col =
        (plist.map write).foldl fn col := by
  cases plist <;> rfl

/-- The first equal mode is found, and equal. -/
theorem firstKey_of_mem {modes : Modes} {mode : Mode} (h : mode ∈ modes.vals) :
    ∃ z, firstKey modes mode = some z ∧ modes.get? z = some mode := by
  obtain ⟨e, he, rfl⟩ := List.mem_map.mp h
  cases hfind : modes.find? (fun _ val => modeEqual val e.2) with
  | none =>
    have := OrderedMap.find?_eq_none hfind (OrderedMap.get?_eq_some_iff.mpr he)
    simp [modeEqual] at this
  | some found =>
    obtain ⟨hget, heq⟩ := OrderedMap.find?_eq_some hfind
    have hval : found.2 = e.2 := by simpa [modeEqual] using heq
    exact ⟨found.1, by rw [firstKey, hfind, Option.map_some], hval ▸ hget⟩

/-! ### The head that arrives -/

section Sent

variable (head : Head)

def sentModes : Modes :=
  (head.modes.vals.map yamlMapFromHeadMode).foldl (yamlMapIntoHeadModes 0) .empty

def sentModesFailed : Modes :=
  (head.modesFailed.vals.map yamlMapFromHeadMode).foldl
    (yamlMapIntoHeadModes (sentModes head).size) .empty

def sentMap : YamlMap := (yamlMapToSpmap (some (yamlMapFromHead head))).getD .empty

theorem yamlMapIntoHeads_yamlMapFromHead [Platform] :
    yamlMapIntoHeads [] (yamlMapFromHead head) = [yamlMapToHead (sentMap head)] := rfl

theorem sentMap_get? :
    (sentMap head).get? "MODES" = (if head.modes.vals.isEmpty then none
      else some (.sequence (head.modes.vals.map yamlMapFromHeadMode))) ∧
    (sentMap head).get? "MODES_FAILED" = (if head.modesFailed.vals.isEmpty then none
      else some (.sequence (head.modesFailed.vals.map yamlMapFromHeadMode))) ∧
    (sentMap head).get? "MODE_PREFERRED" = yamlMapFromZmode head head.zmodePref ∧
    (sentMap head).get? "CURRENT" = some (yamlMapFromHeadState head.cur head) ∧
    (sentMap head).get? "DESIRED" = some (yamlMapFromHeadState head.des head) ∧
    (sentMap head).get? "OVERRIDES" = some (yamlMapFromHeadOverrides head) := by
  simp only [sentMap, yamlMapFromHead, yamlMapToSpmap, Option.getD_some, List.foldl_append,
    yamlMapAddPlist_eq, yamlMapAddStr_eq, yamlMapAddInt_eq, get?_foldl_yamlMapAddNode,
    OrderedMap.get?_empty, String.reduceEq, reduceIte, Option.or_none, Option.some_or, and_self]

theorem yamlMapToHead_modes [Platform] (m : YamlMap) : (yamlMapToHead m).modes =
    (yamlSeqIntoCol (yamlMapIntoHeadModes 0) .empty (m.get? "MODES")).getD .empty := rfl

theorem yamlMapToHead_modesFailed [Platform] (m : YamlMap) : (yamlMapToHead m).modesFailed =
    (yamlSeqIntoCol (yamlMapIntoHeadModes (yamlMapToHead m).modes.size) .empty
      (m.get? "MODES_FAILED")).getD .empty := rfl

theorem modes_yamlMapToHead [Platform] :
    (yamlMapToHead (sentMap head)).modes = sentModes head := by
  rw [yamlMapToHead_modes, (sentMap_get? head).1]
  exact yamlSeqIntoCol_plist _ _ _ _

theorem modesFailed_yamlMapToHead [Platform] :
    (yamlMapToHead (sentMap head)).modesFailed = sentModesFailed head := by
  rw [yamlMapToHead_modesFailed, modes_yamlMapToHead, (sentMap_get? head).2.1]
  exact yamlSeqIntoCol_plist _ _ _ _

theorem yamlMapToHead_zmodePref [Platform] (m : YamlMap) : (yamlMapToHead m).zmodePref =
    yamlMapToZmode (yamlMapToHead m) (m.get? "MODE_PREFERRED") := rfl

theorem yamlMapToHead_cur [Platform] (m : YamlMap) : (yamlMapToHead m).cur =
    yamlMapIntoHeadState headStateInit (yamlMapToHead m) (m.get? "CURRENT") := rfl

theorem yamlMapToHead_des [Platform] (m : YamlMap) : (yamlMapToHead m).des =
    yamlMapIntoHeadState headStateInit (yamlMapToHead m) (m.get? "DESIRED") := rfl

theorem yamlMapToHead_overridedEnabled [Platform] (m : YamlMap) :
    (yamlMapToHead m).overridedEnabled =
      ((yamlMapToSpmap (m.get? "OVERRIDES")).bind
        (fun mo => yamlScalarToBoolean (mo.get? "DISABLED"))).elim .noOverride
        (fun disabled => if disabled then .overrideFalse else .overrideTrue) := rfl

/-- The mode of a state is looked up as the preferred one is. -/
theorem zmode_yamlMapIntoHeadState [Platform] (headState : HeadState) (head' : Head) :
    (yamlMapIntoHeadState headStateInit head'
      (some (yamlMapFromHeadState headState head))).zmode =
        yamlMapToZmode head' (yamlMapFromZmode head headState.zmode) := by
  have hmode : ∀ m, yamlMapToSpmap (some (yamlMapFromHeadState headState head)) = some m →
      m.get? "MODE" = yamlMapFromZmode head headState.zmode := by
    intro m hm
    obtain rfl := Option.some.inj hm
    simp only [List.foldl_append, yamlMapAddFloatNz_number, yamlMapAddBool_eq, yamlMapAddInt_eq,
      yamlMapAddEnum_eq, get?_foldl_yamlMapAddNode, OrderedMap.get?_empty, String.reduceEq,
      reduceIte, Option.or_none]
  unfold yamlMapIntoHeadState
  split
  · rename_i hnone
    exact absurd hnone (by simp [yamlMapFromHeadState, yamlMapToSpmap])
  · rename_i m hm
    dsimp only
    rw [hmode m hm]
    cases yamlMapFromZmode head headState.zmode with
    | none => rfl
    | some node =>
      cases hread : yamlMapToHeadMode (some node) <;> simp [yamlMapToZmode, hread, headStateInit]

theorem overridedEnabled_yamlMapToHead [Platform] :
    (yamlMapToHead (sentMap head)).overridedEnabled = match head.overridedEnabled with
      | .noOverride => .noOverride
      | .overrideTrue => .overrideFalse
      | .overrideFalse => .overrideTrue := by
  obtain ⟨-, -, -, -, -, hoverrides⟩ := sentMap_get? head
  rw [yamlMapToHead_overridedEnabled, hoverrides]
  have hmap : ∀ val, (yamlMapToSpmap (some (.mapping (yamlMapAddBool "DISABLED" val)))).bind
      (fun mo => yamlScalarToBoolean (mo.get? "DISABLED")) = some val := by
    intro val
    simp only [yamlMapToSpmap, Option.bind_some, yamlMapAddBool_eq, get?_foldl_yamlMapAddNode,
      reduceIte, Option.some_or]
    exact yamlScalarToBoolean_ite val
  cases hover : head.overridedEnabled <;> simp [yamlMapFromHeadOverrides, hover, hmap]
  rfl

end Sent

section Announced

variable {head : Head} (h : Announced head)

include h

theorem vals_sentModes : (sentModes head).vals = head.modes.vals.map sentMode := by
  have hint := fun mode hm => h.int32 mode (List.mem_append_left _ hm)
  exact foldl_yamlMapIntoHeadModes 0 hint (by simp)

theorem vals_sentModesFailed :
    (sentModesFailed head).vals = head.modesFailed.vals.map sentMode := by
  have hint := fun mode hm => h.int32 mode (List.mem_append_right _ hm)
  exact foldl_yamlMapIntoHeadModes (sentModes head).size hint (by simp)

/-- What is sent of a reference is found again; the rest is lost. -/
theorem referenced_yamlMapToZmode {head' : Head} (hmodes : head'.modes = sentModes head)
    (zmode : Option ZMode) :
    (referenced head' (yamlMapToZmode head' (yamlMapFromZmode head zmode))).map modeSize =
      (zmode.bind head.modes.get?).map modeSize := by
  rw [yamlMapFromZmode]
  cases hget : zmode.bind head.modes.get? with
  | none => rfl
  | some mode =>
    obtain ⟨z, -, hz⟩ := Option.bind_eq_some_iff.mp hget
    have hmem : mode ∈ head.modes.vals :=
      List.mem_map.mpr ⟨(z, mode), OrderedMap.get?_eq_some_iff.mp hz, rfl⟩
    have hsent : sentMode mode ∈ (sentModes head).vals := by
      rw [vals_sentModes h]
      exact List.mem_map_of_mem hmem
    obtain ⟨z', hfirst, hz'⟩ := firstKey_of_mem hsent
    have hread := yamlMapToHeadMode_yamlMapFromHeadMode
      (h.int32 mode (List.mem_append_left _ hmem))
    have hfound : yamlMapToZmode head' ((some mode).map yamlMapFromHeadMode) = some z' := by
      rw [Option.map_some, yamlMapToZmode, hread, Option.bind_some, hmodes, hfirst,
        Option.some_or]
    rw [hfound, referenced, Option.bind_some, hmodes, hz']
    rfl

omit h in
theorem map_modeSize_eq_iff {zmode : Option ZMode} (hlisted : ListedMode head zmode) :
    (zmode.bind head.modes.get?).map modeSize = (referenced head zmode).map modeSize ↔
      AvailableMode head zmode := by
  cases zmode with
  | none => simp [referenced, AvailableMode]
  | some z =>
    rw [referenced, Option.bind_some, Option.bind_some]
    constructor
    · intro heq z' hz'
      obtain rfl := Option.some.inj hz'
      by_contra hmem
      have hnone := OrderedMap.get?_eq_none_iff.mpr hmem
      obtain ⟨mode, hmode⟩ :=
        OrderedMap.exists_get?_of_mem_keys ((hlisted z rfl).resolve_left hmem)
      rw [hnone, hmode] at heq
      simp at heq
    · intro havailable
      obtain ⟨mode, hmode⟩ := OrderedMap.exists_get?_of_mem_keys (havailable z rfl)
      rw [hmode, Option.some_or]

end Announced

/-- A head arrives as it was sent exactly when nothing overrides it and none of the modes it
refers to has failed. -/
theorem roundTrips_iff [Platform] (head : Head) (h : Announced head) :
    RoundTrips head ↔ head.overridedEnabled = .noOverride ∧
      AvailableMode head head.zmodePref ∧ AvailableMode head head.cur.zmode ∧
      AvailableMode head head.des.zmode := by
  have hmodes := modes_yamlMapToHead head
  obtain ⟨-, -, hpref, hcur, hdes, -⟩ := sentMap_get? head
  have hpref' : (yamlMapToHead (sentMap head)).zmodePref =
      yamlMapToZmode (yamlMapToHead (sentMap head)) (yamlMapFromZmode head head.zmodePref) := by
    rw [yamlMapToHead_zmodePref, hpref]
  have hcur' : (yamlMapToHead (sentMap head)).cur.zmode =
      yamlMapToZmode (yamlMapToHead (sentMap head)) (yamlMapFromZmode head head.cur.zmode) := by
    rw [yamlMapToHead_cur, hcur]
    exact zmode_yamlMapIntoHeadState head head.cur _
  have hdes' : (yamlMapToHead (sentMap head)).des.zmode =
      yamlMapToZmode (yamlMapToHead (sentMap head)) (yamlMapFromZmode head head.des.zmode) := by
    rw [yamlMapToHead_des, hdes]
    exact zmode_yamlMapIntoHeadState head head.des _
  constructor
  · rintro ⟨head', hread, hsame⟩
    rw [yamlMapIntoHeads_yamlMapFromHead] at hread
    obtain rfl := (List.cons.inj hread).1
    refine ⟨?_, ?_, ?_, ?_⟩
    · have hover := hsame.overridedEnabled
      rw [overridedEnabled_yamlMapToHead] at hover
      cases hsent : head.overridedEnabled <;> simp [hsent] at hover
      rfl
    · apply (map_modeSize_eq_iff h.zmodePref).mp
      rw [← hsame.preferred, hpref', referenced_yamlMapToZmode h hmodes]
    · apply (map_modeSize_eq_iff h.cur).mp
      rw [← hsame.current, hcur', referenced_yamlMapToZmode h hmodes]
    · apply (map_modeSize_eq_iff h.des).mp
      rw [← hsame.desired, hdes', referenced_yamlMapToZmode h hmodes]
  · rintro ⟨hover, havailable, hcurrent, hdesired⟩
    refine ⟨_, yamlMapIntoHeads_yamlMapFromHead head, ?_⟩
    exact
      { overridedEnabled := by rw [overridedEnabled_yamlMapToHead, hover]
        modes := by rw [hmodes, vals_sentModes h, map_modeSize_map_sentMode]
        modesFailed := by
          rw [modesFailed_yamlMapToHead, vals_sentModesFailed h, map_modeSize_map_sentMode]
        preferred := by
          rw [hpref', referenced_yamlMapToZmode h hmodes]
          exact (map_modeSize_eq_iff h.zmodePref).mpr havailable
        current := by
          rw [hcur', referenced_yamlMapToZmode h hmodes]
          exact (map_modeSize_eq_iff h.cur).mpr hcurrent
        desired := by
          rw [hdes', referenced_yamlMapToZmode h hmodes]
          exact (map_modeSize_eq_iff h.des).mpr hdesired }

def laptopModes : Modes :=
  OrderedMap.empty.put ⟨7⟩ { modeInit with width := 1920, height := 1080, refreshMhz := 60000 }

/-- A laptop display in its only mode. -/
def laptopDisplay (manualOverride : ManualOverride) : Head :=
  { headInit with
    name := some "eDP-1"
    modes := laptopModes
    zmodePref := some ⟨7⟩
    cur := { headStateInit with zmode := some ⟨7⟩, scale := 384, enabled := true }
    des := { headStateInit with zmode := some ⟨7⟩, scale := 384, enabled := true }
    overridedEnabled := manualOverride }

theorem announced_laptopDisplay (manualOverride : ManualOverride) :
    Announced (laptopDisplay manualOverride) := by
  have hkey : ListedMode (laptopDisplay manualOverride) (some ⟨7⟩) := by
    rintro z ⟨⟩
    apply Or.inl
    show (⟨7⟩ : ZMode) ∈ laptopModes.keys
    decide
  have hdistinct : ((laptopModes.vals ++ (OrderedMap.empty : Modes).vals).map modeSize).Nodup := by
    decide
  refine ⟨?_, hdistinct, hkey, hkey, hkey⟩
  intro mode hmode
  obtain rfl := List.mem_singleton.mp hmode
  refine ⟨?_, ?_, ?_⟩ <;> exact ⟨by decide, by decide⟩

theorem roundTrips_laptopDisplay :
    let _ : Platform := plainPlatform
    RoundTrips (laptopDisplay .noOverride) := by
  intro _
  have havailable : AvailableMode (laptopDisplay .noOverride) (some ⟨7⟩) := by
    rintro z ⟨⟩
    show (⟨7⟩ : ZMode) ∈ laptopModes.keys
    decide
  exact (roundTrips_iff _ (announced_laptopDisplay .noOverride)).mpr
    ⟨rfl, havailable, havailable, havailable⟩

/-- A display that a client disabled is one that a client enabled once it was read. -/
theorem overridden_reversed :
    let _ : Platform := plainPlatform
    Announced (laptopDisplay .overrideFalse) ∧ ¬ RoundTrips (laptopDisplay .overrideFalse) := by
  intro _
  refine ⟨announced_laptopDisplay .overrideFalse, ?_⟩
  rintro ⟨head', hread, hsame⟩
  rw [yamlMapIntoHeads_yamlMapFromHead] at hread
  obtain rfl := (List.cons.inj hread).1
  have hover := hsame.overridedEnabled
  rw [overridedEnabled_yamlMapToHead] at hover
  simp [laptopDisplay] at hover

end WayDisplays.Yaml.HeadCodec
