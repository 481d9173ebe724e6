/- The prefix of a laptop display of version 1, as the name of an entry of version 2. -/

import WayDisplays.Desire.Disabled
import WayDisplays.Lib.Pattern
import WayDisplays.Yaml.Migration

set_option autoImplicit false
set_option relaxedAutoImplicit false

namespace WayDisplays.Yaml.LaptopPrefix

open Lib (OrderedMap OrderedSet)
open Lib.Pattern (Atom)
open Model
open Migration (elementOf)

section Documents

/-- The text of LAPTOP_DISPLAY_PREFIX in a document, the last where there are several. -/
def laptopDisplayPrefix (pairs : List YamlPair) : Option String :=
  (pairs.filterMap (fun pair =>
    if elementOf pair = some .laptopDisplayPrefix then yamlScalarToString (some pair.2)
    else none)).getLast?

/-- The name that the entry for the closed lid is added under. -/
def migratedName (laptopDisplayPrefix : String) : String := "!^" ++ laptopDisplayPrefix

def lidClosed : CfgDisabled :=
  { conditions := OrderedSet.empty.add
      { plugged := .empty, unplugged := .empty, lid := some .closed } }

def StartsWith (laptopDisplayPrefix : String) (text : Option String) : Prop :=
  ∃ s, text = some s ∧ laptopDisplayPrefix.toList <+: s.toList

theorem takeBytes_eq_self {n : Nat} {cs : List Char} (h : (cs.map Char.utf8Size).sum ≤ n) :
    takeBytes n cs = cs := by
  induction cs generalizing n with
  | nil => cases n <;> rfl
  | cons c cs ih =>
    rw [List.map_cons, List.sum_cons] at h
    rw [takeBytes, if_pos (by omega), ih (by omega)]

variable [Platform]

theorem v1LaptopDisplayPrefix_pair_eq (uc : Unmarshal) {pair : YamlPair}
    (h : elementOf pair = some .laptopDisplayPrefix) :
    (uc.pair pair).v1LaptopDisplayPrefix =
      (yamlScalarToString (some pair.2)).elim uc.v1LaptopDisplayPrefix
        (fun value => String.ofList (takeBytes 15 value.toList)) := by
  unfold elementOf at h
  rw [Unmarshal.pair, h]
  rfl

/-- What is left of the prefix after the document has been read. -/
theorem v1LaptopDisplayPrefix_yamlMapToCfg (pairs : List YamlPair) (uc : Unmarshal) :
    (pairs.foldl Unmarshal.pair uc).v1LaptopDisplayPrefix =
      (laptopDisplayPrefix pairs).elim uc.v1LaptopDisplayPrefix
        (fun value => String.ofList (takeBytes 15 value.toList)) := by
  induction pairs generalizing uc with
  | nil => rfl
  | cons pair pairs ih =>
    rw [List.foldl_cons, ih, laptopDisplayPrefix, laptopDisplayPrefix, List.filterMap_cons]
    by_cases hpair : elementOf pair = some .laptopDisplayPrefix
    · rw [v1LaptopDisplayPrefix_pair_eq uc hpair, if_pos hpair]
      cases yamlScalarToString (some pair.2) with
      | none => rfl
      | some value =>
        dsimp only
        rw [List.getLast?_cons]
        cases List.getLast? _ <;> rfl
    · rw [Migration.v1LaptopDisplayPrefix_pair uc hpair, if_neg hpair]

/-- A prefix that fits is migrated as it is. -/
theorem yamlRootToCfg_disableds {pairs : List YamlPair} {p : String}
    (hlaptop : laptopDisplayPrefix pairs = some p) (hne : p ≠ "")
    (hfits : (p.toList.map Char.utf8Size).sum ≤ 15) :
    ∃ cfg, yamlRootToCfg (some (.mapping pairs)) = some cfg ∧
      cfg.disableds = cfgDisabledAddLidCondition (yamlMapToCfg (.mapping pairs)).cfg.disableds
        (migratedName p) := by
  have hp : (yamlMapToCfg (.mapping pairs)).v1LaptopDisplayPrefix = p := by
    rw [yamlMapToCfg, YamlNode.pairs, v1LaptopDisplayPrefix_yamlMapToCfg, hlaptop]
    simp [takeBytes_eq_self hfits]
  refine ⟨_, rfl, ?_⟩
  rw [Unmarshal.migrated, hp, if_neg hne, if_pos (by simp [hne])]
  rfl

/-! ### Matching the name of the entry -/

/-- What the C library documents of `regcomp` with REG_EXTENDED and of `regexec`: a pattern of
anchors and ordinary characters compiles, and is searched for in the text. -/
def RegcompPlain : Prop :=
  ∀ atoms : List Atom, atoms ≠ [] → (∀ atom ∈ atoms, atom.plain = true) →
    ∃ matcher, Platform.regcomp (String.ofList (atoms.map Atom.char)) = some matcher ∧
      ∀ text : String, matcher text = true ↔ Lib.Pattern.Occurs atoms text.toList

/-- A head whose name or description starts with the prefix, or is the name of the entry. -/
def Meant (p : String) (head : Head) : Prop :=
  StartsWith p head.name ∨ StartsWith p head.description ∨
    head.name = some (migratedName p) ∨ head.description = some (migratedName p)

theorem regexMatches_caret (hregcomp : RegcompPlain) {p : String}
    (hplain : ∀ c ∈ p.toList, c ∉ Lib.Pattern.special) (text : String) :
    regexMatches text (String.ofList ('^' :: p.toList)) = true ↔ p.toList <+: text.toList := by
  have hatoms : ∀ atom ∈ Atom.start :: p.toList.map Atom.ordinary, atom.plain = true := by
    intro atom hatom
    rcases List.mem_cons.mp hatom with rfl | hatom
    · rfl
    · obtain ⟨c, hc, rfl⟩ := List.mem_map.mp hatom
      exact decide_eq_true (hplain c hc)
  obtain ⟨matcher, hmatcher, hmatches⟩ := hregcomp _ (List.cons_ne_nil _ _) hatoms
  have hpattern : (Atom.start :: p.toList.map Atom.ordinary).map Atom.char = '^' :: p.toList := by
    rw [List.map_cons, List.map_map]
    exact congrArg _ (List.map_id p.toList)
  rw [hpattern] at hmatcher
  rw [regexMatches, hmatcher]
  exact (hmatches text).trans Lib.Pattern.occurs_start_ordinary

omit [Platform] in
theorem toList_migratedName (p : String) : (migratedName p).toList = '!' :: '^' :: p.toList := by
  rw [migratedName, String.toList_append]
  rfl

theorem headNameDescMatchesHead_migratedName (hregcomp : RegcompPlain) {p : String}
    (hplain : ∀ c ∈ p.toList, c ∉ Lib.Pattern.special) (head : Head) :
    headNameDescMatchesHead (migratedName p) head = true ↔ Meant p head := by
  have hexact : headMatchesNameDescExact head (migratedName p) = true ↔
      head.name = some (migratedName p) ∨ head.description = some (migratedName p) := by
    simp [headMatchesNameDescExact]
  have hregex : headMatchesNameDescRegex head (migratedName p) = true ↔
      StartsWith p head.name ∨ StartsWith p head.description := by
    simp only [headMatchesNameDescRegex, toList_migratedName, Bool.or_eq_true, Option.any_eq_true,
      regexMatches_caret hregcomp hplain, StartsWith]
  have hfuzzy : headMatchesNameDescFuzzy head (migratedName p) = false := by
    simp [headMatchesNameDescFuzzy, toList_migratedName]
  rw [headNameDescMatchesHead, headMatchesNameDesc, hfuzzy, Bool.or_false, Bool.or_eq_true,
    hexact, hregex, Meant]
  tauto

/-! ### The entry -/

theorem disabling_lidClosed {heads : Heads} {lid : Option Lid} {alone : Prop} {head : Head}
    {nameDesc : String} :
    Desire.Disabled.Disabling heads lid alone head nameDesc lidClosed ↔
      headNameDescMatchesHead nameDesc head = true ∧ ¬ alone ∧ lid = some ⟨true⟩ := by
  have hvals : lidClosed.conditions.vals =
      [{ plugged := .empty, unplugged := .empty, lid := some .closed }] := rfl
  simp [Desire.Disabled.Disabling, Desire.Disabled.Holds, Desire.Disabled.LidHolds, hvals,
    OrderedSet.empty]

theorem applies_lidClosed_iff (heads : Heads) (lid : Option Lid) (head : Head)
    (failLidClosed : Bool) (nameDesc : String) :
    (cfgDisabledAppliesToHead heads lid (OrderedMap.empty.put nameDesc lidClosed) head
        failLidClosed).2 = true ↔
      (lid = some ⟨true⟩ ∧ failLidClosed = false) ∧
        headNameDescMatchesHead nameDesc head = true := by
  rw [Desire.Disabled.applies_iff]
  constructor
  · rintro ⟨key, disabled, hget, hdisabling⟩
    have hmem : (key, disabled) ∈ [(nameDesc, lidClosed)] := OrderedMap.get?_eq_some_iff.mp hget
    obtain ⟨rfl, rfl⟩ := Prod.mk.inj (List.mem_singleton.mp hmem)
    obtain ⟨hmatches, halone, hlid⟩ := disabling_lidClosed.mp hdisabling
    exact ⟨⟨hlid, Bool.eq_false_iff.mpr halone⟩, hmatches⟩
  · rintro ⟨⟨hlid, halone⟩, hmatches⟩
    refine ⟨nameDesc, lidClosed, OrderedMap.get?_eq_some_iff.mpr (List.mem_singleton_self _), ?_⟩
    exact disabling_lidClosed.mpr ⟨hmatches, Bool.eq_false_iff.mp halone, hlid⟩

/-- A prefix that fits, of ordinary characters, is migrated to an entry that disables, while the
lid is closed, each head whose name or description starts with it. -/
theorem migrated_applies_iff (hregcomp : RegcompPlain) {pairs : List YamlPair} {p : String}
    (hlaptop : laptopDisplayPrefix pairs = some p) (hne : p ≠ "")
    (hfits : (p.toList.map Char.utf8Size).sum ≤ 15)
    (hplain : ∀ c ∈ p.toList, c ∉ Lib.Pattern.special) :
    ∃ cfg, yamlRootToCfg (some (.mapping pairs)) = some cfg ∧
      (migratedName p ∉ (yamlMapToCfg (.mapping pairs)).cfg.disableds.keys →
        cfg.disableds =
          (yamlMapToCfg (.mapping pairs)).cfg.disableds.put (migratedName p) lidClosed) ∧
      ∀ heads lid head failLidClosed,
        (cfgDisabledAppliesToHead heads lid (OrderedMap.empty.put (migratedName p) lidClosed) head
            failLidClosed).2 = true ↔
          (lid = some ⟨true⟩ ∧ failLidClosed = false) ∧ Meant p head := by
  obtain ⟨cfg, hroot, hdisableds⟩ := yamlRootToCfg_disableds hlaptop hne hfits
  refine ⟨cfg, hroot, fun hnew => ?_, fun heads lid head failLidClosed => ?_⟩
  · rw [hdisableds, cfgDisabledAddLidCondition, if_neg (by simpa [OrderedMap.contains] using hnew)]
    rfl
  · rw [applies_lidClosed_iff, headNameDescMatchesHead_migratedName hregcomp hplain]

end Documents

/-! ### A platform -/

def regcompPattern (pattern : String) : Option (String → Bool) :=
  let atoms := pattern.toList.map Lib.Pattern.parseChar
  if atoms.all Atom.plain then some (fun text => Lib.Pattern.search atoms true text.toList)
  else none

abbrev plainPatternPlatform : Platform := { plainPlatform with regcomp := regcompPattern }

theorem regcompPlain_plainPatternPlatform : @RegcompPlain plainPatternPlatform := by
  intro atoms _ hplain
  refine ⟨fun text => Lib.Pattern.search atoms true text.toList, ?_,
    fun text => Lib.Pattern.search_iff⟩
  change regcompPattern _ = _
  rw [regcompPattern, String.toList_ofList, Lib.Pattern.map_parseChar hplain]
  exact if_pos (List.all_eq_true.mpr hplain)

def eDPDocument : List YamlPair := [(.scalar "LAPTOP_DISPLAY_PREFIX", .scalar "eDP")]

/-- The display of a laptop is off while the lid is closed, no other display is. -/
theorem migrated_applies_iff_eDP :
    ∃ cfg, @yamlRootToCfg plainPatternPlatform (some (.mapping eDPDocument)) = some cfg ∧
      cfg.disableds = OrderedMap.empty.put "!^eDP" lidClosed ∧
      (@cfgDisabledAppliesToHead plainPatternPlatform .empty (some ⟨true⟩) cfg.disableds
        { headInit with name := some "eDP-1" } false).2 = true ∧
      (@cfgDisabledAppliesToHead plainPatternPlatform .empty (some ⟨true⟩) cfg.disableds
        { headInit with name := some "DP-1" } false).2 = false := by
  obtain ⟨cfg, hroot, hnew, happlies⟩ := @migrated_applies_iff plainPatternPlatform
    regcompPlain_plainPatternPlatform eDPDocument "eDP" rfl (by decide) (by decide)
    (@of_decide_eq_true _ (List.decidableBAll _ _) rfl)
  have hdisableds : cfg.disableds = OrderedMap.empty.put (migratedName "eDP") lidClosed :=
    hnew (by decide +kernel)
  refine ⟨cfg, hroot, hdisableds, ?_, ?_⟩
  · rw [hdisableds]
    exact (happlies _ _ _ _).mpr ⟨⟨rfl, rfl⟩, Or.inl ⟨"eDP-1", rfl, by decide⟩⟩
  · rw [hdisableds, Bool.eq_false_iff]
    intro hother
    rcases ((happlies _ _ _ _).mp hother).2 with ⟨text, hname, hstarts⟩ | ⟨text, hname, -⟩ | h | h
    · obtain rfl := Option.some.inj hname
      exact absurd hstarts (by decide)
    · cases hname
    · exact absurd h (by decide)
    · cases h

def describedHead : Head :=
  { headInit with name := some "DP-1", description := some "eDP adapter" }

def describedHeads : Heads :=
  (OrderedMap.empty.put ⟨0⟩ describedHead).put ⟨1⟩ { headInit with name := some "HDMI-A-1" }

/-- The entry also applies by the description. -/
theorem described_disabled :
    ∃ cfg, @yamlRootToCfg plainPatternPlatform (some (.mapping eDPDocument)) = some cfg ∧
      (@cfgDisabledAppliesToHead plainPatternPlatform describedHeads (some ⟨true⟩) cfg.disableds
        describedHead (decide (describedHeads.size = 1))).2 = true ∧
      ¬ StartsWith "eDP" describedHead.name := by
  refine ⟨_, rfl, by decide +kernel, ?_⟩
  rintro ⟨text, hname, hstarts⟩
  obtain rfl := Option.some.inj hname
  exact absurd hstarts (by decide)

end WayDisplays.Yaml.LaptopPrefix
