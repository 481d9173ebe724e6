/- A configuration that was written is the one of the next server, unless another is found. -/

import WayDisplays.CfgFile.Write
import WayDisplays.Model.CfgRead
import WayDisplays.Yaml.CfgCodec

set_option autoImplicit false
set_option relaxedAutoImplicit false

namespace WayDisplays.CfgFile.Restart

open Model
open Model.CfgReading
open Model.CfgWriting
open Validity
open Write
open Yaml.CfgCodec

section Restart

variable {ι : Type} (file : String → ι) (canonical : ι → String) (readable : ι → Bool)

/-! ### The file that is found -/

def Found (files : Files ι) (path : String) : Prop :=
  (files (file path)).isSome = true ∧ readable (file path) = true

theorem fsCanonicalPath_found {files : Files ι} {path : String}
    (h : Found file readable files path) :
    fsCanonicalPath file canonical readable files path = some (canonical (file path)) := by
  rw [fsCanonicalPath, h.1, h.2]
  rfl

theorem fsCanonicalPath_missing {files : Files ι} {path : String}
    (h : ¬ Found file readable files path) :
    fsCanonicalPath file canonical readable files path = none := by
  apply if_neg
  rwa [Bool.and_eq_true]

theorem resolve_first {files : Files ι} {before after : List String} {candidate : String}
    (hbefore : ∀ other ∈ before, ¬ Found file readable files other)
    (h : Found file readable files candidate) :
    resolve file canonical readable files (before ++ candidate :: after) =
      some (hydrate candidate (canonical (file candidate))) := by
  induction before with
  | nil =>
    rw [List.nil_append, resolve, List.findSome?_cons,
      fsCanonicalPath_found file canonical readable h]
    rfl
  | cons other before ih =>
    rw [List.cons_append, resolve, List.findSome?_cons,
      fsCanonicalPath_missing file canonical readable (hbefore other List.mem_cons_self)]
    exact ih (fun next hnext => hbefore next (List.mem_cons_of_mem other hnext))

theorem resolve_eq_some {files : Files ι} {candidates : List String} {gCfgFile : CfgFilePaths}
    (h : resolve file canonical readable files candidates = some gCfgFile) :
    ∃ before candidate after, candidates = before ++ candidate :: after ∧
      (∀ other ∈ before, ¬ Found file readable files other) ∧
      Found file readable files candidate ∧
      gCfgFile = hydrate candidate (canonical (file candidate)) := by
  obtain ⟨before, candidate, after, rfl, hcandidate, hbefore⟩ := List.findSome?_eq_some_iff.mp h
  obtain ⟨path, hpath, rfl⟩ := Option.map_eq_some_iff.mp hcandidate
  obtain ⟨hfound, hsome⟩ := Option.ite_none_right_eq_some.mp hpath
  obtain rfl := Option.some.inj hsome
  refine ⟨before, candidate, after, rfl, ?_, Bool.and_eq_true_iff.mp hfound, rfl⟩
  intro other hother hbad
  have hnone := hbefore other hother
  rw [fsCanonicalPath_found file canonical readable hbad] at hnone
  contradiction

theorem exists_first {files : Files ι} {candidates : List String} {candidate : String}
    (hmem : candidate ∈ candidates) (h : Found file readable files candidate) :
    ∃ before first after, candidates = before ++ first :: after ∧
      (∀ other ∈ before, ¬ Found file readable files other) ∧
      Found file readable files first ∧ candidate ∉ before := by
  classical
  induction candidates with
  | nil => exact absurd hmem List.not_mem_nil
  | cons other candidates ih =>
    by_cases hother : Found file readable files other
    · exact ⟨[], other, candidates, rfl, fun _ hnone => absurd hnone List.not_mem_nil, hother,
        List.not_mem_nil⟩
    · have hne : candidate ≠ other := by
        rintro rfl
        exact hother h
      obtain ⟨before, first, after, rfl, hbefore, hfirst, hnot⟩ :=
        ih (List.mem_of_ne_of_mem hne hmem)
      refine ⟨other :: before, first, after, rfl, ?_, hfirst, ?_⟩
      · intro next hnext
        rcases List.mem_cons.mp hnext with rfl | hnext
        · exact hother
        · exact hbefore next hnext
      · intro hbad
        rcases List.mem_cons.mp hbad with rfl | hbad
        · exact hne rfl
        · exact hnot hbad

/-! ### The file that a server holds -/

variable [DecidableEq ι]

/-- Whatever becomes of the files meanwhile, a server holds the file that it found, or wrote. -/
inductive Held (candidates : List String) : CfgFilePaths → Prop
  | started (files : Files ι) : Held candidates
      ((resolve file canonical readable files candidates).getD cfgFilePathsNone)
  | wrote {gCfgFile : CfgFilePaths} (outcomes : Outcomes) (yaml : Option Bytes) (files : Files ι) :
      Held candidates gCfgFile →
      Held candidates (gCfgFileWrite file outcomes candidates gCfgFile yaml files).gCfgFile
  | noticed {gCfgFile : CfgFilePaths} :
      Held candidates gCfgFile → Held candidates { gCfgFile with written := false }

def Sited (candidates : List String) (gCfgFile : CfgFilePaths) : Prop :=
  gCfgFile.filePath ≠ "" →
    gCfgFile.filePathResolved ∈ candidates ∧
      file gCfgFile.filePath = file gCfgFile.filePathResolved

variable {file canonical readable}

omit [DecidableEq ι] in
theorem sited_none (candidates : List String) : Sited file candidates cfgFilePathsNone :=
  fun h => absurd rfl h

omit [DecidableEq ι] in
theorem sited_resolve (hcanonical : ∀ path, file (canonical (file path)) = file path)
    (files : Files ι) (candidates : List String) :
    Sited file candidates
      ((resolve file canonical readable files candidates).getD cfgFilePathsNone) := by
  cases hresolve : resolve file canonical readable files candidates with
  | none => exact sited_none candidates
  | some gCfgFile =>
    obtain ⟨before, candidate, after, rfl, -, -, rfl⟩ :=
      resolve_eq_some file canonical readable hresolve
    have hmem : candidate ∈ before ++ candidate :: after :=
      List.mem_append_right before List.mem_cons_self
    exact fun _ => ⟨hmem, hcanonical candidate⟩

theorem sited_write {candidates : List String} {gCfgFile : CfgFilePaths}
    (h : Sited file candidates gCfgFile) (outcomes : Outcomes) (yaml : Option Bytes)
    (files : Files ι) :
    Sited file candidates
      (gCfgFileWrite file outcomes candidates gCfgFile yaml files).gCfgFile := by
  cases yaml with
  | none => exact h
  | some yaml =>
    by_cases hin : gCfgFile.filePath ≠ "" ∧ succeeds outcomes.resolved = true
    · rw [gCfgFileWrite_inPlace file hin]
      exact h
    · cases hreported :
        (gCfgFileWrite file outcomes candidates gCfgFile (some yaml) files).reported with
      | none =>
        rw [gCfgFile_nowhere file hreported]
        exact sited_none candidates
      | some path =>
        rw [gCfgFile_elsewhere file hin yaml files hreported]
        rw [reported_eq, succeeding_plan_elsewhere hin, Option.map_map] at hreported
        obtain ⟨candidate, hfind, rfl⟩ := Option.map_eq_some_iff.mp hreported
        exact fun _ => ⟨List.mem_of_find?_eq_some hfind, rfl⟩

theorem Held.sited (hcanonical : ∀ path, file (canonical (file path)) = file path)
    {candidates : List String} {gCfgFile : CfgFilePaths}
    (h : Held file canonical readable candidates gCfgFile) : Sited file candidates gCfgFile := by
  induction h with
  | started files => exact sited_resolve hcanonical files candidates
  | wrote outcomes yaml files _ ih => exact sited_write ih outcomes yaml files
  | noticed _ ih => exact ih

/-- A file that is reported as written is that of a candidate. -/
theorem sited_reported {candidates : List String} {gCfgFile : CfgFilePaths}
    (h : Sited file candidates gCfgFile) {outcomes : Outcomes} {yaml : Bytes} {files : Files ι}
    {path : String}
    (hreported : (gCfgFileWrite file outcomes candidates gCfgFile (some yaml) files).reported =
      some path) :
    ∃ candidate ∈ candidates, file path = file candidate := by
  rw [reported_eq] at hreported
  by_cases hin : gCfgFile.filePath ≠ "" ∧ succeeds outcomes.resolved = true
  · rw [succeeding_plan_inPlace hin] at hreported
    obtain rfl := Option.some.inj hreported
    exact ⟨gCfgFile.filePathResolved, h hin.1⟩
  · rw [succeeding_plan_elsewhere hin, Option.map_map] at hreported
    obtain ⟨candidate, hfind, rfl⟩ := Option.map_eq_some_iff.mp hreported
    exact ⟨candidate, List.mem_of_find?_eq_some hfind, rfl⟩

/-! ### The next server -/

/-- What was written is the configuration, in its order, that a server starts with. -/
theorem initRead_written [Platform] {cfg : Cfg} (hwritable : CfgWritable cfg)
    (hvalid : CfgValid cfg) :
    Model.gCfgFileInitRead (some (yamlMapFromCfg cfg)) = remarked cfg := by
  rw [Model.gCfgFileInitRead, yamlRootToCfg_yamlMapFromCfg hwritable, Option.getD_some,
    cfgApplyDefaults_remarked hvalid, cfgValidateFix_eq (valid_remarked hvalid)]

omit [DecidableEq ι] in
theorem initRead_first [Platform] (hcanonical : ∀ path, file (canonical (file path)) = file path)
    (load : Bytes → Option YamlNode) {files : Files ι} {candidates before after : List String}
    {candidate : String} (hcandidates : candidates = before ++ candidate :: after)
    (hbefore : ∀ other ∈ before, ¬ Found file readable files other)
    (h : Found file readable files candidate) :
    CfgReading.gCfgFileInitRead file canonical readable load files candidates =
      (hydrate candidate (canonical (file candidate)),
        Model.gCfgFileInitRead ((files (file candidate)).bind load)) := by
  have hresolve := @resolve_first _ file canonical readable _ _ after _ hbefore h
  rw [CfgReading.gCfgFileInitRead, hcandidates, hresolve]
  exact congrArg (fun i => (_, Model.gCfgFileInitRead ((files i).bind load)))
    (hcanonical candidate)

/-- A configuration that was written, to whatever file, is that of the next server if and only if
some name of this file comes before every other candidate that is found. -/
theorem restart_reads_iff [Platform]
    (hcanonical : ∀ path, file (canonical (file path)) = file path) {candidates : Sset}
    {gCfgFile : CfgFilePaths} (hheld : Held file canonical readable candidates.vals gCfgFile)
    {cfg : Cfg} (hwritable : CfgWritable cfg) (hvalid : CfgValid cfg)
    {load : Bytes → Option YamlNode} {yaml : Bytes}
    (hload : load (bytes commentYamlSchema ++ yaml) = some (yamlMapFromCfg cfg))
    (outcomes : Outcomes) (files : Files ι) {w : Written ι}
    (hw : gCfgFileWrite file outcomes candidates.vals gCfgFile (some yaml) files = w)
    {path : String} (hreported : w.reported = some path)
    (hcontent : w.files (file path) = some (bytes commentYamlSchema ++ yaml))
    (hreadable : readable (file path) = true) :
    (file (CfgReading.gCfgFileInitRead file canonical readable load w.files
          candidates.vals).1.filePath = file path ∧
        (CfgReading.gCfgFileInitRead file canonical readable load w.files candidates.vals).2 =
          remarked cfg) ↔
      ∃ before name after, candidates.vals = before ++ name :: after ∧ file name = file path ∧
        ∀ other ∈ before, ¬ Found file readable w.files other := by
  subst hw
  have hfound {name : String} (hname : file name = file path) : Found file readable
      (gCfgFileWrite file outcomes candidates.vals gCfgFile (some yaml) files).files name := by
    rw [Found, hname, hcontent]
    exact ⟨rfl, hreadable⟩
  constructor
  · rintro ⟨hsame, -⟩
    obtain ⟨candidate, hmem, hcandidate⟩ := sited_reported (hheld.sited hcanonical) hreported
    obtain ⟨before, first, after, hvals, hbefore, hfirst, -⟩ :=
      exists_first file readable hmem (hfound hcandidate.symm)
    rw [initRead_first hcanonical load hvals hbefore hfirst] at hsame
    exact ⟨before, first, after, hvals, (hcanonical first).symm.trans hsame, hbefore⟩
  · rintro ⟨before, name, after, hvals, hname, hbefore⟩
    rw [initRead_first hcanonical load hvals hbefore (hfound hname), hname, hcontent,
      Option.bind_some, hload, initRead_written hwritable hvalid]
    exact ⟨hcanonical path, rfl⟩

theorem files_inPlace {candidates : List String} {gCfgFile : CfgFilePaths} {outcomes : Outcomes}
    {yaml : Bytes} (hnamed : gCfgFile.filePath ≠ "") (hcomplete : Complete yaml outcomes.resolved)
    (files : Files ι) :
    (gCfgFileWrite file outcomes candidates gCfgFile (some yaml) files).files =
      Function.update files (file gCfgFile.filePath) (some (bytes commentYamlSchema ++ yaml)) := by
  have hsucceeds : succeeds outcomes.resolved = true := by
    obtain ⟨count, count', hresolved, -, -⟩ := hcomplete
    rw [hresolved]
    rfl
  have hleaves := (leaves_eq_iff hsucceeds).mpr hcomplete
  rw [files_eq, plan, if_neg hnamed, List.singleton_append, made_cons_of_succeeds hsucceeds]
  simp only [assignments, List.filterMap_cons, hleaves, Option.map_some, List.filterMap_nil]
  rfl

/-- Written in place, the next server has both the file and the configuration that this one
had, with the same files there. -/
theorem restart_inPlace [Platform]
    (hcanonical : ∀ path, file (canonical (file path)) = file path) {candidates : Sset}
    {first files : Files ι} (hsame : ∀ i, (files i).isSome = (first i).isSome)
    {gCfgFile : CfgFilePaths}
    (hresolve : resolve file canonical readable first candidates.vals = some gCfgFile)
    (hnamed : gCfgFile.filePath ≠ "") {cfg : Cfg} (hwritable : CfgWritable cfg)
    (hvalid : CfgValid cfg) {load : Bytes → Option YamlNode} {yaml : Bytes}
    (hload : load (bytes commentYamlSchema ++ yaml) = some (yamlMapFromCfg cfg))
    {outcomes : Outcomes} (hcomplete : Complete yaml outcomes.resolved) :
    CfgReading.gCfgFileInitRead file canonical readable load
        (gCfgFileWrite file outcomes candidates.vals gCfgFile (some yaml) files).files
        candidates.vals = (gCfgFile, remarked cfg) := by
  obtain ⟨before, candidate, after, hvals, hbefore, hcandidate, rfl⟩ :=
    resolve_eq_some file canonical readable hresolve
  have hfile : file (hydrate candidate (canonical (file candidate))).filePath = file candidate :=
    hcanonical candidate
  have hfound (name : String) : Found file readable (Function.update files (file candidate)
      (some (bytes commentYamlSchema ++ yaml))) name ↔ Found file readable first name := by
    have hthere : (Function.update files (file candidate)
        (some (bytes commentYamlSchema ++ yaml)) (file name)).isSome =
          (first (file name)).isSome := by
      by_cases hname : file name = file candidate
      · rw [hname, Function.update_self, hcandidate.1]
        rfl
      · rw [Function.update_of_ne hname, hsame]
    rw [Found, Found, hthere]
  rw [files_inPlace hnamed hcomplete, hfile, initRead_first hcanonical load hvals
    (fun other hother hbad => hbefore other hother ((hfound other).mp hbad))
    ((hfound candidate).mpr hcandidate), Function.update_self, Option.bind_some, hload,
    initRead_written hwritable hvalid]

end Restart

/-! ### A display that is turned -/

/-- The defaults, with TRANSFORM DP-1 90. -/
def turnedCfg : Cfg :=
  cfgValidateFix (cfgApplyDefaults
    { cfgInit with transforms := Lib.OrderedMap.empty.put "DP-1" .rot90 })

def turnedYaml : Bytes :=
  bytes ("ARRANGE: ROW\nALIGN: TOP\nORDER:\nSCALING: TRUE\nSCALE_ROUND_TO: 0.125\n" ++
    "SCALE_ROUND_STRATEGY: NEAREST\nAUTO_SCALE: TRUE\nAUTO_SCALE_DPI: 96\nAUTO_SCALE_MIN: 1\n" ++
    "AUTO_SCALE_MAX: -1\nSCALE:\nMODE:\nTRANSFORM:\n  DP-1: 90\nVRR_OFF:\nCALLBACK_CMD: " ++
    callbackCmdDefault ++ "\nLAPTOP_LID_MONITOR: TRUE\nDISABLED:\n  '!^eDP-[0-9]':\n    IF:\n" ++
    "    - LID: CLOSED\n")

def loadTurned (contents : Bytes) : Option YamlNode :=
  let _ : Platform := plainPlatform
  if contents = bytes commentYamlSchema ++ turnedYaml then some (yamlMapFromCfg turnedCfg)
  else none

theorem loadTurned_turned :
    let _ : Platform := plainPlatform
    loadTurned (bytes commentYamlSchema ++ turnedYaml) = some (yamlMapFromCfg turnedCfg) := by
  intro _
  simp only [loadTurned, if_true]

theorem writable_turned : @CfgWritable plainPlatform turnedCfg := by
  let _ : Platform := plainPlatform
  have hdisableds : turnedCfg.disableds.vals =
      [⟨Lib.OrderedSet.empty.add ⟨.empty, .empty, some .closed⟩⟩] := rfl
  have hconditions : ∀ disabled ∈ turnedCfg.disableds.vals,
      ∀ condition ∈ disabled.conditions.vals, ConditionWritable condition := by
    rw [hdisableds]
    intro disabled hdisabled condition hcondition
    obtain rfl := List.mem_singleton.mp hdisabled
    obtain rfl := List.mem_singleton.mp hcondition
    exact ⟨by decide +kernel, by decide +kernel, Or.inr (Or.inr (by decide))⟩
  exact
    { orderNameDesc := fun _ hmem => absurd hmem List.not_mem_nil
      scaleRoundTo := List.mem_cons_of_mem 0 (by decide)
      autoScaleDpi := by
        have hdpi : turnedCfg.autoScaleDpi = 96 := rfl
        rw [hdpi]
        exact ⟨by decide, by decide⟩
      autoScaleMin := ⟨1, 0, by decide, Or.inl (by decide +kernel)⟩
      autoScaleMax := ⟨1, 0, by decide, Or.inr (by decide +kernel)⟩
      scaleNames := fun _ hmem => absurd hmem List.not_mem_nil
      scales := fun _ hmem => absurd hmem List.not_mem_nil
      modeNames := fun _ hmem => absurd hmem List.not_mem_nil
      modes := fun _ hmem => absurd hmem List.not_mem_nil
      transformNames := by decide +kernel
      transforms := by decide
      adaptiveSyncOff := fun _ hmem => absurd hmem List.not_mem_nil
      disabledNames := by decide +kernel
      conditions := hconditions }

theorem valid_turned : CfgValid turnedCfg := by
  refine valid_loaded ⟨by decide, ?_⟩
  intro disabled hdisabled
  exact absurd hdisabled List.not_mem_nil

def readsAll : String → Bool := fun _ => true

def homeCandidates : Sset := candidatesInit readsAll none none (some "/home/user")

def etcCfg : String := "/etc/way-displays/cfg.yaml"

def writesAll : Outcomes :=
  { resolved := ⟨.opened 4096 true, .opened 4096 true⟩
    mkdirP := fun _ => true
    candidate := fun _ => ⟨.opened 4096 true, .opened 4096 true⟩ }

/-- The user's own file. -/
theorem restart_inPlace_home :
    let _ : Platform := plainPlatform
    let files : Files String := fun path => if path = homeCfg then some (bytes "") else none
    CfgReading.gCfgFileInitRead id id readsAll loadTurned
        (gCfgFileWrite id writesAll homeCandidates.vals (hydrate homeCfg homeCfg)
          (some turnedYaml) files).files homeCandidates.vals =
      (hydrate homeCfg homeCfg, remarked turnedCfg) := by
  intro platform files
  have hresolve : resolve id id readsAll files homeCandidates.vals =
      some (hydrate homeCfg homeCfg) := by decide +kernel
  have hcomplete : Complete turnedYaml writesAll.resolved :=
    ⟨4096, 4096, rfl, by decide +kernel, by decide +kernel⟩
  exact restart_inPlace (fun _ => rfl) (fun _ => rfl) hresolve (by decide) writable_turned
    valid_turned loadTurned_turned hcomplete

/-- A file for all users cannot be written, one of the user's own can, and is found first. -/
theorem restart_reads_own :
    let _ : Platform := plainPlatform
    let files : Files String := fun path => if path = etcCfg then some (bytes "") else none
    let outcomes : Outcomes := { writesAll with resolved := ⟨.notOpened, .notOpened⟩ }
    let next := CfgReading.gCfgFileInitRead id id readsAll loadTurned
      (gCfgFileWrite id outcomes homeCandidates.vals (hydrate etcCfg etcCfg) (some turnedYaml)
        files).files homeCandidates.vals
    next.1.filePath = homeCfg ∧ next.2 = remarked turnedCfg := by
  intro platform files outcomes
  have hheld : Held id id readsAll homeCandidates.vals (hydrate etcCfg etcCfg) := by
    have hresolve : (resolve id id readsAll files homeCandidates.vals).getD cfgFilePathsNone =
        hydrate etcCfg etcCfg := by decide +kernel
    have hstarted : Held id id readsAll homeCandidates.vals _ := .started files
    rwa [hresolve] at hstarted
  have hcontent : (gCfgFileWrite id outcomes homeCandidates.vals (hydrate etcCfg etcCfg)
      (some turnedYaml) files).files homeCfg = some (bytes commentYamlSchema ++ turnedYaml) := by
    decide +kernel
  have hreported : (gCfgFileWrite id outcomes homeCandidates.vals (hydrate etcCfg etcCfg)
      (some turnedYaml) files).reported = some homeCfg := by decide +kernel
  exact (restart_reads_iff (fun _ => rfl) hheld writable_turned valid_turned loadTurned_turned
    outcomes files rfl hreported hcontent rfl).mpr
      ⟨[], homeCfg, homeCandidates.vals.tail, by decide +kernel, rfl,
        fun _ hmem => absurd hmem List.not_mem_nil⟩

end WayDisplays.CfgFile.Restart
