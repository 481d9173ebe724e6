/- Disabled heads: the entries and conditions that apply to a head, in any order. -/

import WayDisplays.Desire.Spec

set_option autoImplicit false
set_option relaxedAutoImplicit false

namespace WayDisplays.Desire.Disabled

open Lib (OrderedMap OrderedSet)
open Model

variable [Platform]

/-! ### When a head is disabled -/

def Connected (heads : Heads) (nameDesc : String) : Prop :=
  ∃ zhead head, heads.get? zhead = some head ∧ headMatchesNameDesc head nameDesc = true

omit [Platform] in
def Alone (heads : Heads) (zhead : ZHead) : Prop := ∀ z ∈ heads.keys, z = zhead

omit [Platform] in
/-- The lid is as required; it never counts as closed to a head that is alone. -/
def LidHolds (lid : Option Lid) (alone : Prop) : Option ConditionLid → Prop
  | none => True
  | some .closed => ¬ alone ∧ lid = some ⟨true⟩
  | some .open => lid = some ⟨false⟩
  | some .notPresent => lid = none

def Holds (heads : Heads) (lid : Option Lid) (alone : Prop) (condition : CfgCondition) : Prop :=
  (∀ nameDesc ∈ condition.plugged.vals, Connected heads nameDesc) ∧
    (∀ nameDesc ∈ condition.unplugged.vals, ¬ Connected heads nameDesc) ∧
    LidHolds lid alone condition.lid

/-- An entry for the head that has no conditions, or one that holds. -/
def Disabling (heads : Heads) (lid : Option Lid) (alone : Prop) (head : Head) (nameDesc : String)
    (disabled : CfgDisabled) : Prop :=
  headNameDescMatchesHead nameDesc head = true ∧
    (disabled.conditions.vals = [] ∨
      ∃ condition ∈ disabled.conditions.vals, Holds heads lid alone condition)

omit [Platform] in
/-- The same entries in another order, each with the same conditions in another order. -/
def Reordered (disableds disableds' : Disableds) : Prop :=
  disableds.keys.Perm disableds'.keys ∧
    ∀ key a b, disableds.get? key = some a → disableds'.get? key = some b →
      a.conditions.vals.Perm b.conditions.vals

/-! ### One condition -/

theorem find?_isSome_iff (heads : Heads) (nameDesc : String) :
    (heads.find? (fun _ head => headMatchesNameDesc head nameDesc)).isSome = true ↔
      Connected heads nameDesc := by
  rw [OrderedMap.find?, List.find?_isSome]
  constructor
  · rintro ⟨⟨zhead, head⟩, hmem, hmatches⟩
    exact ⟨zhead, head, OrderedMap.get?_eq_some_iff.mpr hmem, hmatches⟩
  · rintro ⟨zhead, head, hget, hmatches⟩
    exact ⟨(zhead, head), OrderedMap.get?_eq_some_iff.mp hget, hmatches⟩

theorem find?_isNone_iff (heads : Heads) (nameDesc : String) :
    (heads.find? (fun _ head => headMatchesNameDesc head nameDesc)).isNone = true ↔
      ¬ Connected heads nameDesc := by
  rw [← find?_isSome_iff, ← Option.not_isSome, Bool.not_eq_true', Bool.not_eq_true]

theorem cfgConditionMet_iff (heads : Heads) (lid : Option Lid) (failLidClosed : Bool)
    (condition : CfgCondition) :
    cfgConditionMet heads lid failLidClosed condition = true ↔
      Holds heads lid (failLidClosed = true) condition := by
  simp only [cfgConditionMet, Bool.and_eq_true, List.all_eq_true, find?_isSome_iff,
    find?_isNone_iff, Holds, and_assoc]
  refine and_congr_right fun _ => and_congr_right fun _ => ?_
  rcases condition.lid with _ | _ | _ | _ <;> rcases lid with _ | ⟨_ | _⟩ <;> simp [LidHolds]

/-! ### All entries -/

omit [Platform] in
theorem size_eq_one_iff {heads : Heads} {zhead : ZHead} {head : Head}
    (hget : heads.get? zhead = some head) : heads.size = 1 ↔ Alone heads zhead := by
  have hmem : zhead ∈ heads.keys := OrderedMap.mem_keys_of_get? hget
  have hlength : heads.size = heads.keys.length := (List.length_map Prod.fst).symm
  rw [hlength, List.length_eq_one_iff]
  constructor
  · rintro ⟨z', hkeys⟩ z hz
    rw [hkeys, List.mem_singleton] at hmem hz
    rw [hmem, hz]
  · intro halone
    have hnodup := heads.keys_nodup
    rcases hkeys : heads.keys with _ | ⟨a, _ | ⟨b, rest⟩⟩
    · simp [hkeys] at hmem
    · exact ⟨a, rfl⟩
    · have ha := halone a (by simp [hkeys])
      have hb := halone b (by simp [hkeys])
      rw [hkeys, ha, hb] at hnodup
      exact absurd List.mem_cons_self (List.nodup_cons.mp hnodup).1

/-- What one entry has to say about a head: nothing, or the description of its condition. -/
def applying (heads : Heads) (lid : Option Lid) (head : Head) (failLidClosed : Bool)
    (e : String × CfgDisabled) : Option (Option String) :=
  if headNameDescMatchesHead e.1 head then
    if e.2.conditions.size = 0 then some none
    else (e.2.conditions.vals.find? (cfgConditionMet heads lid failLidClosed)).map
      cfgConditionStr
  else none

theorem applies_eq (heads : Heads) (lid : Option Lid) (disableds : Disableds) (head : Head)
    (failLidClosed : Bool) :
    cfgDisabledAppliesToHead heads lid disableds head failLidClosed =
      ({ head with disabledConditionDesc :=
          (disableds.entries.findSome? (applying heads lid head failLidClosed)).join },
        (disableds.entries.findSome? (applying heads lid head failLidClosed)).isSome) := rfl

theorem applying_eq_none_iff {heads : Heads} {lid : Option Lid} {head : Head}
    {failLidClosed : Bool} {e : String × CfgDisabled} :
    applying heads lid head failLidClosed e = none ↔
      ¬ Disabling heads lid (failLidClosed = true) head e.1 e.2 := by
  unfold applying Disabling
  split_ifs with hmatches hsize
  · have hnil : e.2.conditions.vals = [] := List.eq_nil_of_length_eq_zero hsize
    simp [hmatches, hnil]
  · have hne : e.2.conditions.vals ≠ [] := fun hnil => hsize (by rw [OrderedSet.size, hnil]; rfl)
    simp only [Option.map_eq_none_iff, List.find?_eq_none, cfgConditionMet_iff, hmatches, hne,
      true_and, false_or, not_exists, not_and]
  · simp [hmatches]

theorem applying_eq_some {heads : Heads} {lid : Option Lid} {head : Head} {failLidClosed : Bool}
    {e : String × CfgDisabled} {text : String}
    (h : applying heads lid head failLidClosed e = some (some text)) :
    ∃ condition ∈ e.2.conditions.vals, Holds heads lid (failLidClosed = true) condition ∧
      cfgConditionStr condition = some text := by
  unfold applying at h
  split_ifs at h
  · exact absurd (Option.some.inj h) (by simp)
  · obtain ⟨condition, hfind, htext⟩ := Option.map_eq_some_iff.mp h
    exact ⟨condition, List.mem_of_find?_eq_some hfind,
      (cfgConditionMet_iff heads lid failLidClosed condition).mp (List.find?_some hfind), htext⟩

/-- It applies if one of the entries does, whichever comes first. -/
theorem applies_iff (heads : Heads) (lid : Option Lid) (disableds : Disableds) (head : Head)
    (failLidClosed : Bool) :
    (cfgDisabledAppliesToHead heads lid disableds head failLidClosed).2 = true ↔
      ∃ key disabled, disableds.get? key = some disabled ∧
        Disabling heads lid (failLidClosed = true) head key disabled := by
  rw [applies_eq, ← not_iff_not]
  simp only [Bool.not_eq_true, Option.isSome_eq_false_iff, Option.isNone_iff_eq_none,
    List.findSome?_eq_none_iff, applying_eq_none_iff, not_exists, not_and, Prod.forall,
    OrderedMap.get?_eq_some_iff]

theorem applies_desc {heads : Heads} {lid : Option Lid} {disableds : Disableds} {head : Head}
    {failLidClosed : Bool} {text : String}
    (h : (cfgDisabledAppliesToHead heads lid disableds head failLidClosed).1.disabledConditionDesc =
      some text) :
    (cfgDisabledAppliesToHead heads lid disableds head failLidClosed).2 = true ∧
      ∃ key disabled, disableds.get? key = some disabled ∧
        headNameDescMatchesHead key head = true ∧
        ∃ condition ∈ disabled.conditions.vals, Holds heads lid (failLidClosed = true) condition ∧
          cfgConditionStr condition = some text := by
  rw [applies_eq] at h ⊢
  have hsome := Option.join_eq_some_iff.mp h
  obtain ⟨⟨key, disabled⟩, hmem, happlying⟩ := List.exists_of_findSome?_eq_some hsome
  refine ⟨by rw [hsome]; rfl, key, disabled, OrderedMap.get?_eq_some_iff.mpr hmem, ?_,
    applying_eq_some happlying⟩
  by_contra hmatches
  simp [applying, hmatches] at happlying

/-! ### The order of things -/

theorem connected_perm {heads heads' : Heads} (h : heads.entries.Perm heads'.entries)
    (nameDesc : String) : Connected heads nameDesc ↔ Connected heads' nameDesc := by
  simp only [Connected, OrderedMap.get?_eq_some_iff, h.mem_iff]

theorem holds_perm {heads heads' : Heads} (h : heads.entries.Perm heads'.entries)
    (lid : Option Lid) (alone : Prop) (condition : CfgCondition) :
    Holds heads lid alone condition ↔ Holds heads' lid alone condition := by
  simp only [Holds, connected_perm h]

theorem disabling_perm {heads heads' : Heads} (h : heads.entries.Perm heads'.entries)
    (lid : Option Lid) (alone : Prop) (head : Head) (nameDesc : String)
    {disabled disabled' : CfgDisabled}
    (hconditions : disabled.conditions.vals.Perm disabled'.conditions.vals) :
    Disabling heads lid alone head nameDesc disabled ↔
      Disabling heads' lid alone head nameDesc disabled' := by
  have hnil : disabled.conditions.vals = [] ↔ disabled'.conditions.vals = [] :=
    ⟨fun hnil => (hnil ▸ hconditions).nil_eq.symm, fun hnil => (hnil ▸ hconditions).eq_nil⟩
  simp only [Disabling, hnil, hconditions.mem_iff, holds_perm h]

omit [Platform] in
theorem Reordered.exists_get? {disableds disableds' : Disableds}
    (h : Reordered disableds disableds') {key : String} {disabled : CfgDisabled}
    (hget : disableds.get? key = some disabled) :
    ∃ disabled', disableds'.get? key = some disabled' ∧
      disabled.conditions.vals.Perm disabled'.conditions.vals := by
  have hmem := h.1.mem_iff.mp (OrderedMap.mem_keys_of_get? hget)
  obtain ⟨disabled', hget'⟩ := OrderedMap.exists_get?_of_mem_keys hmem
  exact ⟨disabled', hget', h.2 key disabled disabled' hget hget'⟩

omit [Platform] in
theorem Reordered.symm {disableds disableds' : Disableds} (h : Reordered disableds disableds') :
    Reordered disableds' disableds :=
  ⟨h.1.symm, fun key a b ha hb => (h.2 key b a hb ha).symm⟩

theorem applies_perm {heads heads' : Heads} (h : heads.entries.Perm heads'.entries)
    (lid : Option Lid) {disableds disableds' : Disableds}
    (hreordered : Reordered disableds disableds') (head : Head) (failLidClosed : Bool) :
    (cfgDisabledAppliesToHead heads lid disableds head failLidClosed).2 =
      (cfgDisabledAppliesToHead heads' lid disableds' head failLidClosed).2 := by
  rw [Bool.eq_iff_iff, applies_iff, applies_iff]
  constructor
  · rintro ⟨key, disabled, hget, hdisabling⟩
    obtain ⟨disabled', hget', hperm⟩ := hreordered.exists_get? hget
    exact ⟨key, disabled', hget', (disabling_perm h lid _ head key hperm).mp hdisabling⟩
  · rintro ⟨key, disabled, hget, hdisabling⟩
    obtain ⟨disabled', hget', hperm⟩ := hreordered.symm.exists_get? hget
    exact ⟨key, disabled', hget', (disabling_perm h.symm lid _ head key hperm).mp hdisabling⟩

/-- A head is disabled by any entry for it that has no conditions or one that holds, in
whatever order they come, and is left with the description of that condition alone. -/
theorem applies_spec {heads : Heads} {zhead : ZHead} {head : Head}
    (hget : heads.get? zhead = some head) (lid : Option Lid) (disableds : Disableds) :
    ((cfgDisabledAppliesToHead heads lid disableds head (decide (heads.size = 1))).2 = true ↔
      ∃ key disabled, disableds.get? key = some disabled ∧
        Disabling heads lid (Alone heads zhead) head key disabled) ∧
    (∀ heads' disableds', heads.entries.Perm heads'.entries → Reordered disableds disableds' →
      (cfgDisabledAppliesToHead heads' lid disableds' head (decide (heads'.size = 1))).2 =
        (cfgDisabledAppliesToHead heads lid disableds head (decide (heads.size = 1))).2) ∧
    (∀ text, (cfgDisabledAppliesToHead heads lid disableds head
        (decide (heads.size = 1))).1.disabledConditionDesc = some text →
      (cfgDisabledAppliesToHead heads lid disableds head (decide (heads.size = 1))).2 = true ∧
        ∃ key disabled, disableds.get? key = some disabled ∧
          headNameDescMatchesHead key head = true ∧
          ∃ condition ∈ disabled.conditions.vals, Holds heads lid (Alone heads zhead) condition ∧
            cfgConditionStr condition = some text) ∧
    (∀ stale, cfgDisabledAppliesToHead heads lid disableds
        { head with disabledConditionDesc := stale } (decide (heads.size = 1)) =
      cfgDisabledAppliesToHead heads lid disableds head (decide (heads.size = 1))) := by
  have halone : (decide (heads.size = 1) = true) = Alone heads zhead := by
    rw [decide_eq_true_eq]
    exact propext (size_eq_one_iff hget)
  refine ⟨?_, fun heads' disableds' hperm hreordered => ?_, fun text htext => ?_, fun stale => rfl⟩
  · rw [applies_iff, halone]
  · have hsize : heads'.size = heads.size := hperm.length_eq.symm
    rw [hsize]
    exact (applies_perm hperm lid hreordered head _).symm
  · have hdesc := applies_desc htext
    rwa [halone] at hdesc

def laptopDisplay : Head := { headInit with name := some "eDP-1" }

def laptopAndMonitor : Heads :=
  (OrderedMap.empty.put ⟨0⟩ laptopDisplay).put ⟨1⟩ { headInit with name := some "DP-2" }

omit [Platform] in
/-- Beside another display, the closed lid disables the one of the laptop. -/
theorem applies_spec_lidClosed :
    (@cfgDisabledAppliesToHead plainPlatform laptopAndMonitor (some ⟨true⟩)
      (cfgDisabledAddLidCondition .empty "eDP-1") laptopDisplay
        (decide (laptopAndMonitor.size = 1))).2 = true := by
  let _ : Platform := plainPlatform
  have hspec := @applies_spec plainPlatform laptopAndMonitor ⟨0⟩ laptopDisplay rfl
    (some ⟨true⟩) (cfgDisabledAddLidCondition .empty "eDP-1")
  refine hspec.1.mpr ⟨"eDP-1", _, rfl, by decide +kernel, Or.inr ⟨_, List.mem_singleton_self _, ?_⟩⟩
  have hother : ¬ Alone laptopAndMonitor ⟨0⟩ := by
    intro halone
    exact absurd (halone ⟨1⟩ (by decide)) (by decide)
  refine ⟨?_, ?_, hother, rfl⟩
  · exact fun _ hmem => absurd hmem List.not_mem_nil
  · exact fun _ hmem => absurd hmem List.not_mem_nil

end WayDisplays.Desire.Disabled
