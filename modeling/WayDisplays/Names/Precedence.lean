/- Which entry of a map by name or description is used for a head: the first key that matches
in any way, or the one that matches best. -/

import WayDisplays.Desire.Spec
import WayDisplays.Lib.Ranked

set_option autoImplicit false
set_option relaxedAutoImplicit false

namespace WayDisplays.Names.Precedence

open Lib (OrderedMap)
open Lib.Ranked (best passes)
open Model

variable [Platform]

/-! ### Ways to match -/

/-- In order of precedence. -/
inductive MatchKind
  | exact | regex | fuzzy
  deriving DecidableEq, Repr

def matchKinds : List MatchKind := [.exact, .regex, .fuzzy]

omit [Platform] in
theorem matchKinds_nodup : matchKinds.Nodup := by decide

def matchesBy (head : Head) : MatchKind → String → Bool
  | .exact => headMatchesNameDescExact head
  | .regex => headMatchesNameDescRegex head
  | .fuzzy => headMatchesNameDescFuzzy head

theorem headMatchesNameDesc_eq (head : Head) (nameDesc : String) :
    headMatchesNameDesc head nameDesc = passes matchKinds (matchesBy head) nameDesc := by
  simp [headMatchesNameDesc, passes, matchKinds, matchesBy, Bool.or_assoc]

/-! ### Entries of a map -/

section Entries

variable {ν : Type} (map : OrderedMap String ν) (head : Head)

/-- The entry that the searches through the maps of the configuration find. -/
def entryUsed : Option (String × ν) := map.find? (fun key _ => headNameDescMatchesHead key head)

/-- The entry with a key that matches exactly, otherwise as a regex, otherwise fuzzily. -/
def precedenceEntry : Option (String × ν) :=
  ((map.find? (fun key _ => headMatchesNameDescExact head key)).or
    (map.find? (fun key _ => headMatchesNameDescRegex head key))).or
      (map.find? (fun key _ => headMatchesNameDescFuzzy head key))

/-- The first key that matches in any way matches as strongly as every later one. -/
def StrongestFirst : Prop :=
  Lib.Ranked.StrongestFirst matchKinds (fun kind e => matchesBy head kind e.1) map.entries

theorem precedenceEntry_eq_best : precedenceEntry map head =
    (best matchKinds (fun kind (e : String × ν) => matchesBy head kind e.1) map.entries).map
      Prod.snd := by
  have hkind (kind : MatchKind) (rest : Option (MatchKind × (String × ν))) :
      (((map.entries.find? (fun e => matchesBy head kind e.1)).map (fun e => (kind, e))).or
        rest).map Prod.snd =
      (map.entries.find? (fun e => matchesBy head kind e.1)).or (rest.map Prod.snd) := by
    cases map.entries.find? (fun e => matchesBy head kind e.1) with
    | none => rfl
    | some e => rfl
  simp only [matchKinds, Lib.Ranked.best_cons, hkind]
  simp [best, precedenceEntry, OrderedMap.find?, matchesBy, Option.or_assoc]

theorem entryUsed_eq_precedenceEntry_iff :
    entryUsed map head = precedenceEntry map head ↔ StrongestFirst map head := by
  rw [precedenceEntry_eq_best, StrongestFirst, ← Lib.Ranked.find?_passes_eq_best_iff, entryUsed,
    OrderedMap.find?]
  simp only [headNameDescMatchesHead, headMatchesNameDesc_eq]
  rfl

end Entries

/-! ### The functions that search the maps -/

/-- The scale of an enabled head for which an entry of SCALE is used, or none. -/
def scaleBy (cfg : Cfg) (head : Head) (entry : Option (String × Nat)) : Int :=
  if cfg.scaling = some .off then headGetFixedScale cfg 1
  else
    match entry with
    | some e => headGetFixedScale cfg ((e.2 : ℚ) / 1000)
    | none =>
      if cfg.autoScale = some .on then
        headAutoScale cfg head (cfg.autoScaleMin.numberOr 0) (cfg.autoScaleMax.numberOr 0)
      else headGetFixedScale cfg 1

omit [Platform] in
def transformBy (entry : Option (String × Transform)) : Transform := entry.elim .normal Prod.snd

omit [Platform] in
def findModeBy (head : Head) (entry : Option (String × Mode)) : Option ZMode :=
  if head.modes.size = 0 then none
  else
    (((entry.bind (fun e => headUserMode e.2 (headModePref head) head.modes)).or
      (headModePref head)).or (modeMax head.modes)).map Prod.fst

theorem desireScale_eq (cfg : Cfg) (head : Head) :
    (desireScale cfg head).des.scale =
      if head.des.enabled then scaleBy cfg head (entryUsed cfg.scales head)
      else head.des.scale := by
  unfold desireScale scaleBy entryUsed
  cases head.des.enabled with
  | false => rfl
  | true =>
    cases cfg.scales.find? (fun key _ => headNameDescMatchesHead key head) with
    | none => rfl
    | some e => rfl

theorem desireTransform_eq (cfg : Cfg) (head : Head) :
    (desireTransform cfg head).des.transform =
      if head.des.enabled then transformBy (entryUsed cfg.transforms head)
      else head.des.transform := by
  unfold desireTransform transformBy entryUsed
  cases head.des.enabled with
  | false => rfl
  | true =>
    cases cfg.transforms.find? (fun key _ => headNameDescMatchesHead key head) with
    | none => rfl
    | some e => rfl

theorem headFindMode_eq (cfg : Cfg) (head : Head) :
    (headFindMode cfg head).2.2 = findModeBy head (entryUsed cfg.modes head) :=
  Desire.Spec.chosenMode_eq cfg head

/-- For every head and map, desire_scale, head_find_mode and desire_transform use the entry of
highest precedence if and only if the first key that matches is among the strongest. -/
theorem usesPrecedence_iff (cfg : Cfg) (head : Head) :
    ((desireScale cfg head).des.scale =
          (if head.des.enabled then scaleBy cfg head (entryUsed cfg.scales head)
            else head.des.scale) ∧
        (headFindMode cfg head).2.2 = findModeBy head (entryUsed cfg.modes head) ∧
        (desireTransform cfg head).des.transform =
          (if head.des.enabled then transformBy (entryUsed cfg.transforms head)
            else head.des.transform)) ∧
      (entryUsed cfg.scales head = precedenceEntry cfg.scales head ↔
        StrongestFirst cfg.scales head) ∧
      (entryUsed cfg.modes head = precedenceEntry cfg.modes head ↔
        StrongestFirst cfg.modes head) ∧
      (entryUsed cfg.transforms head = precedenceEntry cfg.transforms head ↔
        StrongestFirst cfg.transforms head) :=
  ⟨⟨desireScale_eq cfg head, headFindMode_eq cfg head, desireTransform_eq cfg head⟩,
    entryUsed_eq_precedenceEntry_iff cfg.scales head,
    entryUsed_eq_precedenceEntry_iff cfg.modes head,
    entryUsed_eq_precedenceEntry_iff cfg.transforms head⟩

/-! ### A name within another -/

def laptopDisplay : Head :=
  { headInit with name := some "eDP-1", des := { headStateInit with enabled := true } }

/-- The external display is listed first, and its name occurs in that of the laptop's. -/
def scaledByName : Cfg :=
  { cfgInit with scales := (OrderedMap.empty.put "DP-1" 1000).put "eDP-1" 2000 }

omit [Platform] in
/-- The exact name of the display is passed over for one that matches fuzzily. -/
theorem fuzzyBeforeExact_used : let _ : Platform := plainPlatform
    entryUsed scaledByName.scales laptopDisplay = some ("DP-1", 1000) ∧
      precedenceEntry scaledByName.scales laptopDisplay = some ("eDP-1", 2000) ∧
      (desireScale scaledByName laptopDisplay).des.scale = 256 ∧
      scaleBy scaledByName laptopDisplay
        (precedenceEntry scaledByName.scales laptopDisplay) = 512 := by
  intro _
  refine ⟨by decide +kernel, by decide +kernel, by decide +kernel, by decide +kernel⟩

end WayDisplays.Names.Precedence
