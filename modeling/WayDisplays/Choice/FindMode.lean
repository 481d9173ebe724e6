/- The mode that a head gets: the user MODE, the preferred mode, the largest. -/

import WayDisplays.Choice.Search
import WayDisplays.Desire.Spec

set_option autoImplicit false
set_option relaxedAutoImplicit false

namespace WayDisplays.Choice.FindMode

open Lib (OrderedMap)
open Model
open Search

/-! ### What is to be chosen -/

def Unsized (mode : Mode) : Prop :=
  mode.width = -1 ∧ mode.height = -1 ∧ mode.refreshMhz = -1

/-- MAX alone, MAX_PREFERRED_REFRESH alone, or WIDTH and HEIGHT with an optional HZ. -/
inductive Canonical (mode : Mode) : Prop
  | max : mode.max = true → mode.maxPreferredRefresh = false → Unsized mode → Canonical mode
  | maxPreferredRefresh :
      mode.max = false → mode.maxPreferredRefresh = true → Unsized mode → Canonical mode
  | size : mode.max = false → mode.maxPreferredRefresh = false → 0 < mode.width →
      0 < mode.height → mode.refreshMhz = -1 ∨ 0 < mode.refreshMhz → Canonical mode

def SizesPositive (modes : Modes) : Prop := ∀ m ∈ modes.vals, 0 < m.width ∧ 0 < m.height

/-- Some mode has the size of the target, and its rounded Hz if it has one. -/
def Suited (target : Mode) (modes : Modes) : Prop := ∃ m ∈ modes.vals, Suits target m

/-- The given refresh if it is present, else the highest of those that suit. -/
structure BestSuited (target : Mode) (modes : Modes) (mode : Mode) : Prop where
  suits : Suits target mode
  exact : target.refreshMhz ≠ -1 → (∃ m ∈ modes.vals, Exact target m) → Exact target mode
  highest : ¬ (target.refreshMhz ≠ -1 ∧ ∃ m ∈ modes.vals, Exact target m) →
    ∀ m ∈ modes.vals, Suits target m → m.refreshMhz ≤ mode.refreshMhz

def Greatest (modes : Modes) (mode : Mode) : Prop := ∀ m ∈ modes.vals, AtMost m mode

def FastestOf (size : Mode) (modes : Modes) (mode : Mode) : Prop :=
  SameSize mode size ∧ ∀ m ∈ modes.vals, SameSize m size → m.refreshMhz ≤ mode.refreshMhz

/-- Of greatest area, at the highest refresh of its own size. -/
def Largest (modes : Modes) (mode : Mode) : Prop :=
  (∀ m ∈ modes.vals, area m ≤ area mode) ∧
    ∀ m ∈ modes.vals, SameSize m mode → m.refreshMhz ≤ mode.refreshMhz

/-- A user MODE that can be followed on this head. -/
def UserApplies (user : Option Mode) (head : Head) : Prop :=
  ∃ target, user = some target ∧ (target.max = true ∨ Suited target head.modes ∨
    target.maxPreferredRefresh = true ∧ (headModePref head).isSome)

structure Specified (user : Option Mode) (head : Head) (zmode : ZMode) (mode : Mode) : Prop where
  suited : ∀ target, user = some target → target.max = false → Suited target head.modes →
    BestSuited target head.modes mode
  max : ∀ target, user = some target → target.max = true → Greatest head.modes mode
  maxPreferredRefresh : ∀ target pref, user = some target → target.maxPreferredRefresh = true →
    headModePref head = some pref → FastestOf pref.2 head.modes mode
  preferred : ¬ UserApplies user head → ∀ pref, headModePref head = some pref → zmode = pref.1
  largest : ¬ UserApplies user head → headModePref head = none → Largest head.modes mode

/-- The user MODE of the entry that is used for the head. -/
def cfgMode [Platform] (cfg : Cfg) (head : Head) : Option Mode :=
  (cfg.modes.find? (fun key _ => headNameDescMatchesHead key head)).map Prod.snd

/-- No mode exactly when there is none, else a key of the modes, with the mode specified. -/
def MeetsChoice [Platform] (cfg : Cfg) (head : Head) : Prop :=
  ((headFindMode cfg head).2.2 = none ↔ head.modes.size = 0) ∧
    ∀ zmode, (headFindMode cfg head).2.2 = some zmode →
      ∃ mode, head.modes.get? zmode = some mode ∧ Specified (cfgMode cfg head) head zmode mode

/-- A user MODE without HZ does not meet, among the modes of its size, one whose refresh never
arrived beside one that has a refresh. -/
def RefreshesArrived (user : Option Mode) (modes : Modes) : Prop :=
  ∀ target, user = some target → target.max = false → target.refreshMhz = -1 →
    ∀ m ∈ modes.vals, SameSize m target → m.refreshMhz = -1 →
      ∀ m' ∈ modes.vals, SameSize m' target → m'.refreshMhz ≤ -1

/-! ### The user MODE -/

theorem mem_vals_of_mem {modes : Modes} {e : ModeEntry} (h : e ∈ modes.entries) :
    e.2 ∈ modes.vals :=
  List.mem_map_of_mem h

theorem exists_entry {modes : Modes} {m : Mode} (h : m ∈ modes.vals) :
    ∃ e ∈ modes.entries, e.2 = m :=
  List.mem_map.mp h

theorem suits_of_size {target mode : Mode} (hunset : target.refreshMhz = -1)
    (hsize : SameSize mode target) : Suits target mode :=
  ⟨hsize, fun hset => absurd hunset hset⟩

theorem not_suited_of_unsized {target : Mode} (h : Unsized target) {modes : Modes}
    (hsizes : SizesPositive modes) : ¬ Suited target modes := by
  rintro ⟨m, hm, hsuits, _⟩
  have hwidth := (hsizes m hm).1
  rw [hsuits.1, h.1] at hwidth
  omega

theorem modeBestSatisfying_suited {target : Mode} (hmax : target.max = false) {modes : Modes} :
    (modeBestSatisfying target modes).isSome ↔ Suited target modes := by
  rw [modeBestSatisfying_isSome]
  constructor
  · rintro ⟨x, hx, hexact | hsatisfies⟩
    · exact ⟨x.2, mem_vals_of_mem hx, hexact.suits⟩
    · have hsuits := (modeSatisfies_iff.mp hsatisfies).resolve_left (by simp [hmax])
      exact ⟨x.2, mem_vals_of_mem hx, hsuits⟩
  · rintro ⟨m, hm, hsuits⟩
    obtain ⟨x, hx, rfl⟩ := exists_entry hm
    exact ⟨x, hx, Or.inr (modeSatisfies_iff.mpr (Or.inr hsuits))⟩

/-- What is found for a size is best for it exactly when its refreshes have arrived. -/
theorem bestSuited_iff {target : Mode} (hmax : target.max = false) {modes : Modes}
    {e : ModeEntry} (h : modeBestSatisfying target modes = some e) :
    BestSuited target modes e.2 ↔ RefreshesArrived (some target) modes := by
  constructor
  · rintro hbest _ ⟨rfl⟩ - hunset m hm hsize hm1 m' hm' hsize'
    obtain ⟨x, hx, rfl⟩ := exists_entry hm
    have hfound : Exact target e.2 :=
      modeBestSatisfying_exact h hx ⟨hsize, hm1.trans hunset.symm⟩
    have hhighest := hbest.highest (fun hset => hset.1 hunset) m' hm' (suits_of_size hunset hsize')
    rwa [hfound.2, hunset] at hhighest
  · intro harrived
    by_cases hexact : ∃ x ∈ modes.entries, Exact target x.2
    · obtain ⟨x, hx, hx2⟩ := hexact
      have hfound : Exact target e.2 := modeBestSatisfying_exact h hx hx2
      refine ⟨hfound.suits, fun _ _ => hfound, fun hnot m hm hsuits => ?_⟩
      have hunset : target.refreshMhz = -1 := by
        by_contra hset
        exact hnot ⟨hset, x.2, mem_vals_of_mem hx, hx2⟩
      rw [hfound.2, hunset]
      exact harrived target rfl hmax hunset x.2 (mem_vals_of_mem hx) hx2.1 (hx2.2.trans hunset)
        m hm hsuits.1
    · push Not at hexact
      obtain ⟨hsatisfies, hgreatest⟩ := modeBestSatisfying_greatest h hexact
      have hsuits := (modeSatisfies_iff.mp hsatisfies).resolve_left (by simp [hmax])
      refine ⟨hsuits, fun _ hpresent => ?_, fun _ m hm hm2 => ?_⟩
      · obtain ⟨m, hm, hm2⟩ := hpresent
        obtain ⟨x, hx, rfl⟩ := exists_entry hm
        exact absurd hm2 (hexact x hx)
      · obtain ⟨x, hx, rfl⟩ := exists_entry hm
        have hatMost := hgreatest x hx (modeSatisfies_iff.mpr (Or.inr hm2))
        exact hatMost.refreshMhz (hm2.1.trans hsuits.1.symm)

theorem modeBestSatisfying_max {target : Mode} (hmax : target.max = true)
    (hunsized : Unsized target) {modes : Modes} (hsizes : SizesPositive modes) {e : ModeEntry}
    (h : modeBestSatisfying target modes = some e) : Greatest modes e.2 := by
  have hinexact : ∀ x ∈ modes.entries, ¬ Exact target x.2 := fun x hx hexact =>
    not_suited_of_unsized hunsized hsizes ⟨x.2, mem_vals_of_mem hx, hexact.suits⟩
  intro m hm
  obtain ⟨x, hx, rfl⟩ := exists_entry hm
  exact (modeBestSatisfying_greatest h hinexact).2 x hx (modeSatisfies_iff.mpr (Or.inl hmax))

theorem modeBestSatisfying_max_isSome {target : Mode} (hmax : target.max = true) {modes : Modes}
    (hne : modes.entries ≠ []) : (modeBestSatisfying target modes).isSome := by
  obtain ⟨x, hx⟩ := List.exists_mem_of_ne_nil _ hne
  exact modeBestSatisfying_isSome.mpr ⟨x, hx, Or.inr (modeSatisfies_iff.mpr (Or.inl hmax))⟩

section User

variable {target : Mode} {head : Head}

theorem userApplies_iff : UserApplies (some target) head ↔
    target.max = true ∨ Suited target head.modes ∨
      target.maxPreferredRefresh = true ∧ (headModePref head).isSome := by
  constructor
  · rintro ⟨_, ⟨rfl⟩, h⟩
    exact h
  · exact fun h => ⟨target, rfl, h⟩

theorem headUserMode_unsuited {pref : Option ModeEntry} {modes : Modes}
    (hmax : target.max = false) (hunsuited : ¬ Suited target modes) :
    headUserMode target pref modes =
      pref.bind (fun p =>
        if target.maxPreferredRefresh then modeMaxRefresh p.2 modes else none) := by
  have hnone : modeBestSatisfying target modes = none := by
    rw [← Option.not_isSome_iff_eq_none, modeBestSatisfying_suited hmax]
    exact hunsuited
  unfold headUserMode
  rw [hnone]
  cases pref with
  | none => rfl
  | some p => rfl

theorem headUserMode_of_best {pref : Option ModeEntry} {modes : Modes} {e : ModeEntry}
    (h : modeBestSatisfying target modes = some e) : headUserMode target pref modes = some e := by
  unfold headUserMode
  rw [h]

theorem headUserMode_isSome (hne : head.modes.entries ≠ []) :
    (headUserMode target (headModePref head) head.modes).isSome ↔
      UserApplies (some target) head := by
  rw [userApplies_iff]
  cases hmax : target.max with
  | true =>
    obtain ⟨e, he⟩ := Option.isSome_iff_exists.mp (modeBestSatisfying_max_isSome hmax hne)
    rw [headUserMode_of_best he]
    exact iff_of_true rfl (Or.inl rfl)
  | false =>
    by_cases hsuited : Suited target head.modes
    · obtain ⟨e, he⟩ := Option.isSome_iff_exists.mp ((modeBestSatisfying_suited hmax).mpr hsuited)
      rw [headUserMode_of_best he]
      exact iff_of_true rfl (Or.inr (Or.inl hsuited))
    · rw [headUserMode_unsuited hmax hsuited]
      cases hpref : headModePref head with
      | none => simp [hsuited]
      | some pref =>
        have hfound := modeMaxRefresh_isSome (Desire.Spec.headModePref_mem hpref) ⟨rfl, rfl⟩
        cases hfastest : target.maxPreferredRefresh with
        | false => simp [hsuited]
        | true => simp [hfound]

/-- What is found for a user MODE that is canonical. -/
theorem headUserMode_found (hcanonical : Canonical target) (hsizes : SizesPositive head.modes)
    {e : ModeEntry} (h : headUserMode target (headModePref head) head.modes = some e) :
    (target.max = false → Suited target head.modes →
        modeBestSatisfying target head.modes = some e) ∧
      (target.max = true → Greatest head.modes e.2) ∧
      ∀ pref, target.maxPreferredRefresh = true → headModePref head = some pref →
        FastestOf pref.2 head.modes e.2 := by
  have hne : head.modes.entries ≠ [] := List.ne_nil_of_mem (Desire.Spec.headUserMode_mem h)
  refine ⟨fun hmax hsuited => ?_, fun hmax => ?_, fun pref hfastest hpref => ?_⟩
  · obtain ⟨best, hbest⟩ :=
      Option.isSome_iff_exists.mp ((modeBestSatisfying_suited hmax).mpr hsuited)
    exact hbest.trans ((headUserMode_of_best hbest).symm.trans h)
  · obtain ⟨best, hbest⟩ := Option.isSome_iff_exists.mp (modeBestSatisfying_max_isSome hmax hne)
    obtain rfl := Option.some.inj ((headUserMode_of_best hbest).symm.trans h)
    cases hcanonical with
    | max _ _ hunsized => exact modeBestSatisfying_max hmax hunsized hsizes hbest
    | maxPreferredRefresh hnot _ _ => exact absurd (hmax.symm.trans hnot) (by simp)
    | size hnot _ _ _ _ => exact absurd (hmax.symm.trans hnot) (by simp)
  · cases hcanonical with
    | max _ hnot _ => exact absurd (hfastest.symm.trans hnot) (by simp)
    | size _ hnot _ _ _ => exact absurd (hfastest.symm.trans hnot) (by simp)
    | maxPreferredRefresh hmax _ hunsized =>
      rw [headUserMode_unsuited hmax (not_suited_of_unsized hunsized hsizes), hpref,
        Option.bind_some, if_pos hfastest] at h
      obtain ⟨_, hsize, hhighest⟩ := modeMaxRefresh_spec h
      refine ⟨hsize, fun m hm hm2 => ?_⟩
      obtain ⟨x, hx, rfl⟩ := exists_entry hm
      exact hhighest x hx hm2

end User

/-! ### The choice -/

variable [Platform]

theorem headFindMode_eq {cfg : Cfg} {head : Head} (hne : head.modes.size ≠ 0) :
    (headFindMode cfg head).2.2 =
      ((((cfgMode cfg head).bind (fun t => headUserMode t (headModePref head) head.modes)).or
        (headModePref head)).or (modeMax head.modes)).map Prod.fst := by
  have hchosen := Desire.Spec.chosenMode_eq cfg head
  rw [Desire.Spec.chosenMode, if_neg hne] at hchosen
  simp only [hchosen, cfgMode, Option.bind_map, Function.comp_def]

omit [Platform] in
theorem largest_modeMax {modes : Modes} {e : ModeEntry} (h : modeMax modes = some e) :
    Largest modes e.2 := by
  have hmax := modeMax_runningMax h
  refine ⟨fun m hm => ?_, fun m hm hsize => ?_⟩
  · obtain ⟨x, hx, rfl⟩ := exists_entry hm
    exact hmax.area_le hx
  · obtain ⟨x, hx, rfl⟩ := exists_entry hm
    exact hmax.highest x hx hsize

omit [Platform] in
/-- When no user MODE applies the preferred mode is chosen, or the largest. -/
theorem specified_without_user {user : Option Mode} {head : Head}
    (hnot : ¬ UserApplies user head) {e : ModeEntry}
    (h : (headModePref head).or (modeMax head.modes) = some e) :
    Specified user head e.1 e.2 where
  suited target huser _ hsuited := absurd ⟨target, huser, Or.inr (Or.inl hsuited)⟩ hnot
  max target huser hmax := absurd ⟨target, huser, Or.inl hmax⟩ hnot
  maxPreferredRefresh target pref huser hfastest hpref :=
    absurd ⟨target, huser, Or.inr (Or.inr ⟨hfastest, by rw [hpref]; rfl⟩)⟩ hnot
  preferred _ pref hpref := by
    rw [hpref, Option.some_or] at h
    rw [Option.some.inj h]
  largest _ hnone := by
    rw [hnone, Option.none_or] at h
    exact largest_modeMax h

omit [Platform] in
theorem exists_chosen {head : Head} (hne : head.modes.entries ≠ []) (user : Option Mode) :
    ∃ e ∈ head.modes.entries,
      ((user.bind (fun t => headUserMode t (headModePref head) head.modes)).or
        (headModePref head)).or (modeMax head.modes) = some e := by
  cases hfound : user.bind (fun t => headUserMode t (headModePref head) head.modes) with
  | some e =>
    obtain ⟨_, _, huser⟩ := Option.bind_eq_some_iff.mp hfound
    exact ⟨e, Desire.Spec.headUserMode_mem huser, rfl⟩
  | none =>
    cases hpref : headModePref head with
    | some e => exact ⟨e, Desire.Spec.headModePref_mem hpref, rfl⟩
    | none =>
      obtain ⟨e, hmax, hmem⟩ := exists_modeMax hne
      exact ⟨e, hmem, by rw [Option.none_or, Option.none_or, hmax]⟩

omit [Platform] in
/-- A user MODE without HZ applies as soon as a mode has its size. -/
theorem refreshesArrived_of_unsuited {target : Mode} {modes : Modes}
    (h : target.max = false → ¬ Suited target modes) : RefreshesArrived (some target) modes := by
  rintro _ ⟨rfl⟩ hmax hunset m hm hsize
  exact absurd ⟨m, hm, suits_of_size hunset hsize⟩ (h hmax)

omit [Platform] in
private theorem specified_with_user {target : Mode} {head : Head}
    (happlies : UserApplies (some target) head) (hcanonical : Canonical target)
    (hsizes : SizesPositive head.modes) {e : ModeEntry}
    (h : headUserMode target (headModePref head) head.modes = some e) :
    Specified (some target) head e.1 e.2 ↔ RefreshesArrived (some target) head.modes := by
  obtain ⟨hsuited, hmax, hfastest⟩ := headUserMode_found hcanonical hsizes h
  constructor
  · intro hspecified
    by_cases hsize : target.max = false ∧ Suited target head.modes
    · have hbest := hspecified.suited target rfl hsize.1 hsize.2
      exact (bestSuited_iff hsize.1 (hsuited hsize.1 hsize.2)).mp hbest
    · exact refreshesArrived_of_unsuited fun hnot hsome => hsize ⟨hnot, hsome⟩
  · intro harrived
    refine ⟨?_, ?_, ?_, fun hnot => absurd happlies hnot, fun hnot => absurd happlies hnot⟩
    · rintro _ ⟨rfl⟩ hnot hsome
      exact (bestSuited_iff hnot (hsuited hnot hsome)).mpr harrived
    · rintro _ ⟨rfl⟩
      exact hmax
    · rintro _ pref ⟨rfl⟩
      exact hfastest pref

/-- For every head, set of modes and canonical user MODE, the choice is the specified one if
and only if no mode of unknown refresh hides another of the size that the user asks for. -/
theorem meetsChoice_iff (cfg : Cfg) (head : Head) (hsizes : SizesPositive head.modes)
    (hcanonical : ∀ target, cfgMode cfg head = some target → Canonical target) :
    MeetsChoice cfg head ↔ RefreshesArrived (cfgMode cfg head) head.modes := by
  have hnone : (headFindMode cfg head).2.2 = none ↔ head.modes.size = 0 :=
    Desire.Spec.chosenMode_eq_none
  by_cases hempty : head.modes.size = 0
  · refine iff_of_true ⟨hnone, fun zmode hchosen => ?_⟩ ?_
    · rw [hnone.mpr hempty] at hchosen
      exact absurd hchosen (by simp)
    · intro target _ _ _ m hm
      have hnil : head.modes.entries = [] := List.length_eq_zero_iff.mp hempty
      rw [OrderedMap.vals, hnil] at hm
      exact absurd hm List.not_mem_nil
  · have hne : head.modes.entries ≠ [] := fun hnil => hempty (by simp [OrderedMap.size, hnil])
    obtain ⟨e, hmem, he⟩ := exists_chosen hne (cfgMode cfg head)
    have hchosen : (headFindMode cfg head).2.2 = some e.1 := by
      rw [headFindMode_eq hempty, he, Option.map_some]
    have hget : head.modes.get? e.1 = some e.2 := OrderedMap.get?_eq_some_iff.mpr hmem
    have hmeets : MeetsChoice cfg head ↔ Specified (cfgMode cfg head) head e.1 e.2 := by
      rw [MeetsChoice, iff_true_intro hnone, true_and, hchosen]
      constructor
      · intro h
        obtain ⟨mode, hmode, hspecified⟩ := h e.1 rfl
        obtain rfl := Option.some.inj (hget.symm.trans hmode)
        exact hspecified
      · rintro hspecified _ ⟨rfl⟩
        exact ⟨e.2, hget, hspecified⟩
    rw [hmeets]
    generalize cfgMode cfg head = user at hcanonical he ⊢
    cases user with
    | none =>
      have hnot : ¬ UserApplies none head := by
        rintro ⟨target, huser, -⟩
        exact absurd huser (by simp)
      exact iff_of_true (specified_without_user hnot he)
        (fun target huser => absurd huser (by simp))
    | some target =>
      rw [Option.bind_some] at he
      by_cases happlies : UserApplies (some target) head
      · obtain ⟨found, hfound⟩ :=
          Option.isSome_iff_exists.mp ((headUserMode_isSome hne).mpr happlies)
        rw [hfound, Option.some_or, Option.some_or] at he
        obtain rfl := Option.some.inj he
        exact specified_with_user happlies (hcanonical target rfl) hsizes hfound
      · have hunfound : headUserMode target (headModePref head) head.modes = none := by
          rw [← Option.not_isSome_iff_eq_none, headUserMode_isSome hne]
          exact happlies
        rw [hunfound, Option.none_or] at he
        refine iff_of_true (specified_without_user happlies he) (refreshesArrived_of_unsuited ?_)
        exact fun _ hsuited => happlies (userApplies_iff.mpr (Or.inr (Or.inl hsuited)))

/-! ### A size whose refresh is variable in one mode -/

def fullHd (refreshMhz : Int) : Mode :=
  { modeInit with width := 1920, height := 1080, refreshMhz := refreshMhz }

def displayWith (modes : List Mode) : Head :=
  { headInit with
    name := some "DP-1"
    modes := OrderedMap.empty.putAll
      ((List.range modes.length).zipWith (fun i mode => (⟨i⟩, mode)) modes) }

def askedFullHd : Cfg := { cfgInit with modes := OrderedMap.empty.put "DP-1" (fullHd (-1)) }

omit [Platform] in
theorem meetsChoice_fullHd : let _ : Platform := plainPlatform
    MeetsChoice askedFullHd (displayWith [fullHd 59940, fullHd 60000]) := by
  intro _
  have huser : cfgMode askedFullHd (displayWith [fullHd 59940, fullHd 60000]) =
      some (fullHd (-1)) := by decide +kernel
  refine (meetsChoice_iff _ _ ?_ ?_).mpr ?_
  · intro m hm
    rcases List.mem_cons.mp hm with rfl | hm
    · decide
    · obtain rfl := List.mem_singleton.mp hm
      decide
  · intro target htarget
    obtain rfl := Option.some.inj (huser.symm.trans htarget)
    exact Canonical.size rfl rfl (by decide) (by decide) (Or.inl rfl)
  · intro target _ _ _ m hm _ hunset
    rcases List.mem_cons.mp hm with rfl | hm
    · exact absurd hunset (by decide)
    · obtain rfl := List.mem_singleton.mp hm
      exact absurd hunset (by decide)

omit [Platform] in
/-- The mode of unknown refresh equals a user MODE without HZ, and hides the fastest one. -/
theorem unknownRefresh_hidesHighest : let _ : Platform := plainPlatform
    SizesPositive (displayWith [fullHd 60000, fullHd (-1)]).modes ∧ Canonical (fullHd (-1)) ∧
      cfgMode askedFullHd (displayWith [fullHd 60000, fullHd (-1)]) = some (fullHd (-1)) ∧
      (headFindMode askedFullHd (displayWith [fullHd 60000, fullHd (-1)])).2.2 = some ⟨1⟩ ∧
      ¬ MeetsChoice askedFullHd (displayWith [fullHd 60000, fullHd (-1)]) := by
  intro _
  have huser : cfgMode askedFullHd (displayWith [fullHd 60000, fullHd (-1)]) =
      some (fullHd (-1)) := by decide +kernel
  have hchosen : (headFindMode askedFullHd (displayWith [fullHd 60000, fullHd (-1)])).2.2 =
      some ⟨1⟩ := by decide +kernel
  have hfast : fullHd 60000 ∈ (displayWith [fullHd 60000, fullHd (-1)]).modes.vals :=
    List.mem_cons_self
  have hsuits : Suits (fullHd (-1)) (fullHd 60000) := suits_of_size rfl ⟨rfl, rfl⟩
  refine ⟨?_, Canonical.size rfl rfl (by decide) (by decide) (Or.inl rfl), huser, hchosen, ?_⟩
  · intro m hm
    rcases List.mem_cons.mp hm with rfl | hm
    · decide
    · obtain rfl := List.mem_singleton.mp hm
      decide
  · rintro ⟨-, hmeets⟩
    obtain ⟨mode, hmode, hspecified⟩ := hmeets ⟨1⟩ hchosen
    have hget : (displayWith [fullHd 60000, fullHd (-1)]).modes.get? ⟨1⟩ = some (fullHd (-1)) := by
      decide +kernel
    obtain rfl := Option.some.inj (hget.symm.trans hmode)
    have hbest := hspecified.suited (fullHd (-1)) huser rfl ⟨_, hfast, hsuits⟩
    have hhighest := hbest.highest (fun hset => hset.1 rfl) _ hfast hsuits
    exact absurd hhighest (by decide)

end WayDisplays.Choice.FindMode
