/- Writing the configuration file: which files a failing write leaves as they were. -/

import Mathlib.Data.List.Nodup
import Mathlib.Data.List.TakeWhile
import WayDisplays.Lib.Assign
import WayDisplays.Model.CfgWrite

set_option autoImplicit false
set_option relaxedAutoImplicit false

namespace WayDisplays.CfgFile.Write

open Lib
open Model.CfgWriting

/-! ### One attempt -/

def FileWrite.closed : FileWrite → Bool
  | .notOpened => false
  | .opened _ closed => closed

def succeeds (attempt : Attempt) : Bool :=
  FileWrite.closed attempt.header && FileWrite.closed attempt.document

theorem exists_of_succeeds {attempt : Attempt} (h : succeeds attempt = true) :
    ∃ count count', attempt = ⟨.opened count true, .opened count' true⟩ := by
  obtain ⟨_ | ⟨count, closed⟩, _ | ⟨count', closed'⟩⟩ := attempt
  · exact absurd h (by simp [succeeds, FileWrite.closed])
  · exact absurd h (by simp [succeeds, FileWrite.closed])
  · exact absurd h (by simp [succeeds, FileWrite.closed])
  · obtain ⟨rfl, rfl⟩ := Bool.and_eq_true_iff.mp h
    exact ⟨count, count', rfl⟩

/-- What an attempt puts into its file, once that was opened to be truncated. -/
def leaves (yaml : Bytes) (attempt : Attempt) : Option Bytes :=
  match attempt.header with
  | .notOpened => none
  | .opened count closed =>
    some ((bytes commentYamlSchema).take count ++
      match closed, attempt.document with
      | true, .opened count' _ => yaml.take count'
      | _, _ => [])

def Complete (yaml : Bytes) (attempt : Attempt) : Prop :=
  ∃ count count', attempt = ⟨.opened count true, .opened count' true⟩ ∧
    (bytes commentYamlSchema).length ≤ count ∧ yaml.length ≤ count'

section

variable {ι : Type} [DecidableEq ι] (file : String → ι)

/-- The assignments that attempts make, each to the file of a path. -/
def assignments (yaml : Bytes) (attempts : List (String × Attempt)) : List (ι × Option Bytes) :=
  attempts.filterMap (fun a => (leaves yaml a.2).map (fun contents => (file a.1, some contents)))

theorem writeContent_eq (files : Files ι) (path : String) (yaml : Bytes) (attempt : Attempt) :
    writeContent file files path yaml attempt =
      (Assign.run files (assignments file yaml [(path, attempt)]), succeeds attempt) := by
  obtain ⟨_ | ⟨count, _ | _⟩, _ | ⟨count', closed'⟩⟩ := attempt <;>
    simp [writeContent, fsFileWrite, assignments, leaves, succeeds, FileWrite.closed, Assign.run]

/-! ### All attempts -/

/-- The candidates that are tried if nothing before them succeeds. -/
def tried (outcomes : Outcomes) (resolvedFromPrev : String) (candidates : List String) :
    List (String × Attempt) :=
  (candidates.filter (fun candidate =>
    decide (resolvedFromPrev ≠ candidate) && outcomes.mkdirP candidate)).map
      (fun candidate => (candidate, outcomes.candidate candidate))

/-- The file that was resolved, then the candidates. -/
def plan (outcomes : Outcomes) (candidates : List String) (gCfgFile : CfgFilePaths) :
    List (String × Attempt) :=
  (if gCfgFile.filePath = "" then [] else [(gCfgFile.filePath, outcomes.resolved)]) ++
    tried outcomes gCfgFile.filePathResolved candidates

/-- Those before the first that succeeds. -/
def failing (attempts : List (String × Attempt)) : List (String × Attempt) :=
  attempts.takeWhile (fun a => !succeeds a.2)

def succeeding (attempts : List (String × Attempt)) : Option (String × Attempt) :=
  attempts.find? (fun a => succeeds a.2)

def made (attempts : List (String × Attempt)) : List (String × Attempt) :=
  failing attempts ++ (succeeding attempts).toList

theorem made_cons_of_succeeds {a : String × Attempt} (h : succeeds a.2 = true)
    (attempts : List (String × Attempt)) : made (a :: attempts) = [a] := by
  simp [made, failing, succeeding, h]

theorem made_cons_of_fails {a : String × Attempt} (h : succeeds a.2 = false)
    (attempts : List (String × Attempt)) : made (a :: attempts) = a :: made attempts := by
  simp [made, failing, succeeding, h]

theorem succeeding_cons (a : String × Attempt) (attempts : List (String × Attempt)) :
    succeeding (a :: attempts) = if succeeds a.2 then some a else succeeding attempts := by
  rw [succeeding, List.find?_cons]
  cases succeeds a.2 <;> rfl

theorem tried_cons (outcomes : Outcomes) (resolvedFromPrev candidate : String)
    (candidates : List String) :
    tried outcomes resolvedFromPrev (candidate :: candidates) =
      if resolvedFromPrev = candidate ∨ outcomes.mkdirP candidate = false then
        tried outcomes resolvedFromPrev candidates
      else (candidate, outcomes.candidate candidate) ::
        tried outcomes resolvedFromPrev candidates := by
  by_cases hprev : resolvedFromPrev = candidate
  · simp [tried, hprev]
  · cases hmkdir : outcomes.mkdirP candidate <;> simp [tried, hprev, hmkdir]

omit [DecidableEq ι] in
theorem assignments_cons (yaml : Bytes) (a : String × Attempt)
    (attempts : List (String × Attempt)) :
    assignments file yaml (a :: attempts) =
      assignments file yaml [a] ++ assignments file yaml attempts := by
  rw [assignments, assignments, assignments, ← List.filterMap_append, List.singleton_append]

theorem run_assignments_cons (files : Files ι) (yaml : Bytes) (a : String × Attempt)
    (attempts : List (String × Attempt)) :
    Assign.run files (assignments file yaml (a :: attempts)) =
      Assign.run (Assign.run files (assignments file yaml [a]))
        (assignments file yaml attempts) := by
  rw [assignments_cons, Assign.run_append]

/-- What comes of the attempts in turn. -/
def outcomeOf (files : Files ι) (yaml : Bytes) (attempts : List (String × Attempt)) :
    Written ι where
  files := Assign.run files (assignments file yaml (made attempts))
  gCfgFile := (succeeding attempts).elim cfgFilePathsNone (fun a => hydrate a.1 a.1)
  reported := (succeeding attempts).map Prod.fst

theorem outcomeOf_cons_of_succeeds {a : String × Attempt} (h : succeeds a.2 = true)
    (files : Files ι) (yaml : Bytes) (attempts : List (String × Attempt)) :
    outcomeOf file files yaml (a :: attempts) =
      { files := Assign.run files (assignments file yaml [a]), gCfgFile := hydrate a.1 a.1,
        reported := some a.1 } := by
  simp only [outcomeOf, made_cons_of_succeeds h, succeeding_cons, h, if_true, Option.elim_some,
    Option.map_some]

theorem outcomeOf_cons_of_fails {a : String × Attempt} (h : succeeds a.2 = false)
    (files : Files ι) (yaml : Bytes) (attempts : List (String × Attempt)) :
    outcomeOf file files yaml (a :: attempts) =
      outcomeOf file (Assign.run files (assignments file yaml [a])) yaml attempts := by
  rw [outcomeOf, made_cons_of_fails h, run_assignments_cons, succeeding_cons, h]
  rfl

theorem writeCandidates_eq (outcomes : Outcomes) (resolvedFromPrev : String) (yaml : Bytes)
    (candidates : List String) (files : Files ι) :
    writeCandidates file outcomes resolvedFromPrev yaml candidates files =
      outcomeOf file files yaml (tried outcomes resolvedFromPrev candidates) := by
  induction candidates generalizing files with
  | nil => rfl
  | cons candidate candidates ih =>
    rw [writeCandidates, tried_cons]
    by_cases hprev : resolvedFromPrev = candidate
    · rw [if_pos hprev, if_pos (Or.inl hprev), ih]
    · rw [if_neg hprev]
      cases hmkdir : outcomes.mkdirP candidate with
      | false => rw [if_pos (Or.inr rfl), if_neg (by simp), ih]
      | true =>
        have hor : ¬ (resolvedFromPrev = candidate ∨ true = false) := by simp [hprev]
        rw [if_pos rfl, if_neg hor, writeContent_eq]
        cases hsucceeds : succeeds (outcomes.candidate candidate) with
        | true =>
          rw [outcomeOf_cons_of_succeeds file hsucceeds, if_pos rfl]
          rfl
        | false =>
          rw [outcomeOf_cons_of_fails file hsucceeds, if_neg (by simp), ih]
          rfl

/-- The file that was resolved is the first of the plan, and stays where it can be written. -/
theorem gCfgFileWrite_inPlace {outcomes : Outcomes} {gCfgFile : CfgFilePaths}
    (h : gCfgFile.filePath ≠ "" ∧ succeeds outcomes.resolved = true) (candidates : List String)
    (yaml : Bytes) (files : Files ι) :
    gCfgFileWrite file outcomes candidates gCfgFile (some yaml) files =
      { outcomeOf file files yaml (plan outcomes candidates gCfgFile) with
        gCfgFile := { gCfgFile with written := true } } := by
  rw [plan, if_neg h.1, List.singleton_append, outcomeOf_cons_of_succeeds file h.2]
  simp only [gCfgFileWrite, if_neg h.1, writeContent_eq, h.2, if_true]

theorem gCfgFileWrite_elsewhere {outcomes : Outcomes} {gCfgFile : CfgFilePaths}
    (h : ¬ (gCfgFile.filePath ≠ "" ∧ succeeds outcomes.resolved = true))
    (candidates : List String) (yaml : Bytes) (files : Files ι) :
    gCfgFileWrite file outcomes candidates gCfgFile (some yaml) files =
      outcomeOf file files yaml (plan outcomes candidates gCfgFile) := by
  by_cases hpath : gCfgFile.filePath = ""
  · simp only [gCfgFileWrite, plan, if_pos hpath, List.nil_append, writeCandidates_eq]
  · have hfails : succeeds outcomes.resolved = false :=
      Bool.eq_false_iff.mpr fun hsucceeds => h ⟨hpath, hsucceeds⟩
    rw [plan, if_neg hpath, List.singleton_append, outcomeOf_cons_of_fails file hfails]
    simp only [gCfgFileWrite, if_neg hpath, writeContent_eq, hfails, writeCandidates_eq,
      Bool.false_eq_true, if_false]

/-! ### What is promised -/

/-- Files that are not reported keep what they held, and the one that is holds the comment and
the document. -/
structure WritesSafely (outcomes : Outcomes) (candidates : List String)
    (gCfgFile : CfgFilePaths) (yaml : Bytes) (files : Files ι) (w : Written ι) : Prop where
  kept : ∀ f, (∀ path, w.reported = some path → file path ≠ f) → w.files f = files f
  content : ∀ path, w.reported = some path →
    w.files (file path) = some (bytes commentYamlSchema ++ yaml)
  inPlace : gCfgFile.filePath ≠ "" ∧ succeeds outcomes.resolved = true →
    w.reported = some gCfgFile.filePath ∧ w.gCfgFile = { gCfgFile with written := true }
  elsewhere : ¬ (gCfgFile.filePath ≠ "" ∧ succeeds outcomes.resolved = true) →
    w.reported = candidates.find? (fun candidate =>
      decide (gCfgFile.filePathResolved ≠ candidate) && outcomes.mkdirP candidate &&
        succeeds (outcomes.candidate candidate)) ∧
    ∀ path, w.reported = some path → w.gCfgFile = hydrate path path
  nowhere : w.reported = none → w.gCfgFile = cfgFilePathsNone

/-- A file that is not written in the end holds what it held before, if it was opened at all,
and the attempt that succeeds writes everything. -/
structure Spared (attempts : List (String × Attempt)) (yaml : Bytes) (files : Files ι) :
    Prop where
  failing : ∀ f, (∀ a, succeeding attempts = some a → file a.1 ≠ f) →
    ∀ contents, Assign.last f (assignments file yaml (failing attempts)) = some contents →
      files f = contents
  succeeding : ∀ a, succeeding attempts = some a → Complete yaml a.2

theorem succeeds_of_succeeding {attempts : List (String × Attempt)} {a : String × Attempt}
    (h : succeeding attempts = some a) : succeeds a.2 = true := by
  have hsucceeds := List.find?_some h
  exact hsucceeds

omit [DecidableEq ι] in
theorem assignments_append (yaml : Bytes) (as bs : List (String × Attempt)) :
    assignments file yaml (as ++ bs) = assignments file yaml as ++ assignments file yaml bs :=
  List.filterMap_append

theorem last_made_of_succeeding {attempts : List (String × Attempt)} {a : String × Attempt}
    (h : succeeding attempts = some a) (yaml : Bytes) :
    Assign.last (file a.1) (assignments file yaml (made attempts)) = some (leaves yaml a.2) := by
  obtain ⟨path, attempt⟩ := a
  obtain ⟨count, count', rfl⟩ := exists_of_succeeds (succeeds_of_succeeding h)
  rw [made, h, assignments_append, Assign.last_append]
  simp [assignments, leaves, Assign.last_cons]

theorem last_made_of_ne {attempts : List (String × Attempt)} {f : ι}
    (h : ∀ a, succeeding attempts = some a → file a.1 ≠ f) (yaml : Bytes) :
    Assign.last f (assignments file yaml (made attempts)) =
      Assign.last f (assignments file yaml (failing attempts)) := by
  rw [made, assignments_append, Assign.last_append]
  cases hsucceeding : succeeding attempts with
  | none => rfl
  | some a =>
    have hne := h a hsucceeding
    cases hleaves : leaves yaml a.2 <;> simp [assignments, hleaves, Assign.last_cons, hne]

/-- Only complete writes leave the comment and the document behind. -/
theorem leaves_eq_iff {yaml : Bytes} {attempt : Attempt} (h : succeeds attempt = true) :
    leaves yaml attempt = some (bytes commentYamlSchema ++ yaml) ↔ Complete yaml attempt := by
  obtain ⟨count, count', rfl⟩ := exists_of_succeeds h
  rw [leaves, Option.some_inj]
  constructor
  · intro heq
    have hlength := congrArg List.length heq
    rw [List.length_append, List.length_append, List.length_take, List.length_take] at hlength
    exact ⟨count, count', rfl, by omega, by omega⟩
  · rintro ⟨_, _, hattempt, hcount, hcount'⟩
    cases hattempt
    rw [List.take_of_length_le hcount]
    exact congrArg _ (List.take_of_length_le hcount')

/-! ### Exactly when it is kept -/

theorem files_eq (outcomes : Outcomes) (candidates : List String) (gCfgFile : CfgFilePaths)
    (yaml : Bytes) (files : Files ι) :
    (gCfgFileWrite file outcomes candidates gCfgFile (some yaml) files).files =
      Assign.run files (assignments file yaml (made (plan outcomes candidates gCfgFile))) := by
  by_cases h : gCfgFile.filePath ≠ "" ∧ succeeds outcomes.resolved = true
  · rw [gCfgFileWrite_inPlace file h]
    rfl
  · rw [gCfgFileWrite_elsewhere file h]
    rfl

theorem reported_eq (outcomes : Outcomes) (candidates : List String) (gCfgFile : CfgFilePaths)
    (yaml : Bytes) (files : Files ι) :
    (gCfgFileWrite file outcomes candidates gCfgFile (some yaml) files).reported =
      (succeeding (plan outcomes candidates gCfgFile)).map Prod.fst := by
  by_cases h : gCfgFile.filePath ≠ "" ∧ succeeds outcomes.resolved = true
  · rw [gCfgFileWrite_inPlace file h]
    rfl
  · rw [gCfgFileWrite_elsewhere file h]
    rfl

theorem succeeding_plan_inPlace {outcomes : Outcomes} {gCfgFile : CfgFilePaths}
    (h : gCfgFile.filePath ≠ "" ∧ succeeds outcomes.resolved = true) (candidates : List String) :
    succeeding (plan outcomes candidates gCfgFile) =
      some (gCfgFile.filePath, outcomes.resolved) := by
  rw [plan, if_neg h.1, List.singleton_append, succeeding_cons, if_pos h.2]

theorem succeeding_plan_elsewhere {outcomes : Outcomes} {gCfgFile : CfgFilePaths}
    (h : ¬ (gCfgFile.filePath ≠ "" ∧ succeeds outcomes.resolved = true))
    (candidates : List String) :
    succeeding (plan outcomes candidates gCfgFile) =
      (candidates.find? (fun candidate =>
        decide (gCfgFile.filePathResolved ≠ candidate) && outcomes.mkdirP candidate &&
          succeeds (outcomes.candidate candidate))).map
        (fun candidate => (candidate, outcomes.candidate candidate)) := by
  have hskip : succeeding (plan outcomes candidates gCfgFile) =
      succeeding (tried outcomes gCfgFile.filePathResolved candidates) := by
    rw [plan]
    by_cases hpath : gCfgFile.filePath = ""
    · rw [if_pos hpath, List.nil_append]
    · rw [if_neg hpath, List.singleton_append, succeeding_cons,
        if_neg fun hsucceeds => h ⟨hpath, hsucceeds⟩]
  rw [hskip, succeeding, tried, List.find?_map, List.find?_filter]
  simp only [Function.comp_apply, Bool.decide_and, Bool.decide_eq_true]

theorem unreported_iff (outcomes : Outcomes) (candidates : List String) (gCfgFile : CfgFilePaths)
    (yaml : Bytes) (files : Files ι) (f : ι) :
    (∀ path, (gCfgFileWrite file outcomes candidates gCfgFile (some yaml) files).reported =
        some path → file path ≠ f) ↔
      ∀ a, succeeding (plan outcomes candidates gCfgFile) = some a → file a.1 ≠ f := by
  rw [reported_eq]
  cases succeeding (plan outcomes candidates gCfgFile) <;> simp

/-- Such a file is as it was if the last failing attempt for it left that in it. -/
theorem kept_iff {outcomes : Outcomes} {candidates : List String} {gCfgFile : CfgFilePaths}
    (yaml : Bytes) (files : Files ι) {f : ι}
    (hf : ∀ a, succeeding (plan outcomes candidates gCfgFile) = some a → file a.1 ≠ f) :
    (gCfgFileWrite file outcomes candidates gCfgFile (some yaml) files).files f = files f ↔
      ∀ contents, Assign.last f (assignments file yaml
        (failing (plan outcomes candidates gCfgFile))) = some contents → files f = contents := by
  rw [files_eq, Assign.run_apply_eq_iff, last_made_of_ne file hf]

theorem content_iff {outcomes : Outcomes} {candidates : List String} {gCfgFile : CfgFilePaths}
    (yaml : Bytes) (files : Files ι) {a : String × Attempt}
    (ha : succeeding (plan outcomes candidates gCfgFile) = some a) :
    (gCfgFileWrite file outcomes candidates gCfgFile (some yaml) files).files (file a.1) =
        some (bytes commentYamlSchema ++ yaml) ↔ Complete yaml a.2 := by
  rw [files_eq, Assign.run_apply, last_made_of_succeeding file ha, Option.getD_some]
  exact leaves_eq_iff (succeeds_of_succeeding ha)

theorem gCfgFile_elsewhere {outcomes : Outcomes} {candidates : List String}
    {gCfgFile : CfgFilePaths}
    (h : ¬ (gCfgFile.filePath ≠ "" ∧ succeeds outcomes.resolved = true)) (yaml : Bytes)
    (files : Files ι) {path : String}
    (hpath : (gCfgFileWrite file outcomes candidates gCfgFile (some yaml) files).reported =
      some path) :
    (gCfgFileWrite file outcomes candidates gCfgFile (some yaml) files).gCfgFile =
      hydrate path path := by
  rw [reported_eq] at hpath
  obtain ⟨a, ha, rfl⟩ := Option.map_eq_some_iff.mp hpath
  rw [gCfgFileWrite_elsewhere file h, outcomeOf, ha]
  rfl

theorem gCfgFile_nowhere {outcomes : Outcomes} {candidates : List String}
    {gCfgFile : CfgFilePaths} {yaml : Bytes} {files : Files ι}
    (hnone : (gCfgFileWrite file outcomes candidates gCfgFile (some yaml) files).reported = none) :
    (gCfgFileWrite file outcomes candidates gCfgFile (some yaml) files).gCfgFile =
      cfgFilePathsNone := by
  rw [reported_eq, Option.map_eq_none_iff] at hnone
  have hout : ¬ (gCfgFile.filePath ≠ "" ∧ succeeds outcomes.resolved = true) := by
    intro hin
    rw [succeeding_plan_inPlace hin] at hnone
    exact absurd hnone (by simp)
  rw [gCfgFileWrite_elsewhere file hout, outcomeOf, hnone]
  rfl

/-- The promise is kept exactly by the attempts that spare the files. -/
theorem writesSafely_iff (outcomes : Outcomes) (candidates : List String)
    (gCfgFile : CfgFilePaths) (yaml : Bytes) (files : Files ι) :
    WritesSafely file outcomes candidates gCfgFile yaml files
        (gCfgFileWrite file outcomes candidates gCfgFile (some yaml) files) ↔
      Spared file (plan outcomes candidates gCfgFile) yaml files := by
  constructor
  · intro h
    refine ⟨fun f hf => (kept_iff file yaml files hf).mp (h.kept f ?_), fun a ha => ?_⟩
    · exact (unreported_iff file outcomes candidates gCfgFile yaml files f).mpr hf
    · refine (content_iff file yaml files ha).mp (h.content a.1 ?_)
      rw [reported_eq, ha]
      rfl
  · intro h
    refine ⟨fun f hf => ?_, fun path hpath => ?_, fun hin => ⟨?_, ?_⟩, fun hout => ⟨?_, ?_⟩,
      gCfgFile_nowhere file⟩
    · have hf := (unreported_iff file outcomes candidates gCfgFile yaml files f).mp hf
      exact (kept_iff file yaml files hf).mpr (h.failing f hf)
    · rw [reported_eq] at hpath
      obtain ⟨a, ha, rfl⟩ := Option.map_eq_some_iff.mp hpath
      exact (content_iff file yaml files ha).mpr (h.succeeding a ha)
    · rw [reported_eq, succeeding_plan_inPlace hin]
      rfl
    · rw [gCfgFileWrite_inPlace file hin]
    · rw [reported_eq, succeeding_plan_elsewhere hout, Option.map_map]
      exact Option.map_id_apply
    · exact fun path hpath => gCfgFile_elsewhere file hout yaml files hpath

/-- With a file of its own for each path, the files are spared when every failing attempt found
in its file the part of the comment and the document that it left there. -/
theorem spared_iff {attempts : List (String × Attempt)}
    (hpaths : (attempts.map (fun a => file a.1)).Nodup) (yaml : Bytes) (files : Files ι) :
    Spared file attempts yaml files ↔
      (∀ a ∈ failing attempts, ∀ contents, leaves yaml a.2 = some contents →
        files (file a.1) = some contents) ∧
      ∀ a, succeeding attempts = some a → Complete yaml a.2 := by
  have honce : ((assignments file yaml (failing attempts)).map Prod.fst).Nodup := by
    have hsublist : ((assignments file yaml (failing attempts)).map Prod.fst).Sublist
        ((failing attempts).map (fun a => file a.1)) := by
      induction failing attempts with
      | nil => exact List.Sublist.slnil
      | cons a attempts ih =>
        rw [assignments, List.filterMap_cons]
        cases leaves yaml a.2 with
        | none => exact ih.cons _
        | some contents => exact ih.cons_cons _
    exact (hpaths.sublist ((List.takeWhile_sublist _).map _)).sublist hsublist
  have hlast (f : ι) (contents : Option Bytes) :
      Assign.last f (assignments file yaml (failing attempts)) = some contents ↔
        ∃ a ∈ failing attempts, file a.1 = f ∧ (leaves yaml a.2).map some = some contents := by
    rw [Assign.last_eq_some_iff honce, assignments, List.mem_filterMap]
    refine exists_congr fun a => and_congr_right fun _ => ?_
    cases leaves yaml a.2 <;> simp
  have hother {a b : String × Attempt} (ha : succeeding attempts = some a)
      (hb : b ∈ failing attempts) : file a.1 ≠ file b.1 := by
    intro hsame
    have hmem := List.mem_of_find?_eq_some ha
    have hmem' := (List.takeWhile_sublist _).subset hb
    obtain rfl := List.inj_on_of_nodup_map hpaths hmem hmem' hsame
    have hfails := List.mem_takeWhile_imp hb
    rw [succeeds_of_succeeding ha] at hfails
    exact absurd hfails (by simp)
  constructor
  · intro h
    refine ⟨fun b hb contents hleaves => ?_, h.succeeding⟩
    refine h.failing (file b.1) (fun a ha => hother ha hb) (some contents) ?_
    exact (hlast _ _).mpr ⟨b, hb, rfl, by rw [hleaves, Option.map_some]⟩
  · rintro ⟨hfailing, hsucceeding⟩
    refine ⟨fun f _ contents hcontents => ?_, hsucceeding⟩
    obtain ⟨b, hb, rfl, hleaves⟩ := (hlast f contents).mp hcontents
    obtain ⟨left, hleft, rfl⟩ := Option.map_eq_some_iff.mp hleaves
    exact hfailing b hb left hleft

end

/-! ### The file that is watched -/

theorem reversePath_head_ne {path : String} {c : Char} {cs : List Char}
    (h : reversePath path = c :: cs) : c ≠ '/' := by
  have hhead := List.head?_dropWhile_not (· == '/') path.toList.reverse
  rw [← reversePath, h] at hhead
  simpa using hhead

theorem basename_ne_empty (path : String) : basename path ≠ "" := by
  unfold basename
  split
  · split <;> decide
  · rename_i c cs hreverse
    have hc := reversePath_head_ne hreverse
    intro hempty
    have hlist := congrArg String.toList hempty
    simp [hc] at hlist

structure Watches (w : Model.CfgWatch) (gCfgFile : CfgFilePaths) : Prop where
  filePath : w.gCfgFile.filePath = gCfgFile.filePath
  fileName : w.gCfgFile.fileName = gCfgFile.fileName
  written : w.gCfgFile.written = gCfgFile.written

/-- A write moves the watch in one of the ways that its model has: in place, to the file that is
reported, or nowhere. -/
theorem write_refines_watch {ι : Type} [DecidableEq ι] (file : String → ι) (outcomes : Outcomes)
    {candidates : List String} (hcandidates : "" ∉ candidates) {gCfgFile : CfgFilePaths}
    {w : Model.CfgWatch} (hw : Watches w gCfgFile) (yaml : Bytes) (files : Files ι) :
    let result := gCfgFileWrite file outcomes candidates gCfgFile (some yaml) files
    (gCfgFile.filePath ≠ "" ∧ succeeds outcomes.resolved = true → ∀ first second,
        Watches (Model.gCfgFileWrite w (.inPlace first second)) result.gCfgFile) ∧
      (¬ (gCfgFile.filePath ≠ "" ∧ succeeds outcomes.resolved = true) →
        ∀ path, result.reported = some path → ∃ moved : Model.CfgFile, moved.filePath = path ∧
          Watches (Model.gCfgFileWrite w (.elsewhere moved)) result.gCfgFile) ∧
      (result.reported = none → Watches (Model.gCfgFileWrite w .nowhere) result.gCfgFile) := by
  refine ⟨fun hin first second => ?_, fun hout path hreported => ?_, fun hnone => ?_⟩
  · rw [gCfgFileWrite_inPlace file hin]
    exact ⟨hw.filePath, hw.fileName, rfl⟩
  · have hpath : path ≠ "" := by
      rw [reported_eq, succeeding_plan_elsewhere hout, Option.map_map] at hreported
      obtain ⟨candidate, hfind, rfl⟩ := Option.map_eq_some_iff.mp hreported
      exact fun hempty => hcandidates (hempty ▸ List.mem_of_find?_eq_some hfind)
    let moved : Model.CfgFile :=
      { filePath := path, fileName := basename path, written := false
        named := iff_of_false hpath (basename_ne_empty path) }
    rw [gCfgFile_elsewhere file hout yaml files hreported]
    exact ⟨moved, rfl, ⟨rfl, rfl, rfl⟩⟩
  · rw [gCfgFile_nowhere file hnone]
    exact ⟨rfl, rfl, rfl⟩

/-! ### A disk that fills up -/

def homeCfg : String := "/home/user/.config/way-displays/cfg.yaml"

/-- The comment is written, then there is no room to open the file again. -/
def diskFull : Outcomes :=
  { resolved := ⟨.opened 200 true, .notOpened⟩
    mkdirP := fun _ => false
    candidate := fun _ => ⟨.notOpened, .notOpened⟩ }

/-- The user's file is left with the comment alone, and no file is reported. -/
theorem diskFull_truncates :
    ¬ WritesSafely id diskFull [homeCfg] (hydrate homeCfg homeCfg) (bytes "SCALING: FALSE\n")
      (fun _ => some (bytes "ARRANGE: COLUMN\n"))
      (gCfgFileWrite id diskFull [homeCfg] (hydrate homeCfg homeCfg)
        (some (bytes "SCALING: FALSE\n")) (fun _ => some (bytes "ARRANGE: COLUMN\n"))) := by
  intro h
  have hkept := h.kept homeCfg (by decide +kernel)
  exact absurd hkept (by decide +kernel)

def homeWatch : Model.CfgWatch :=
  { gCfgFile := { filePath := homeCfg, fileName := "cfg.yaml", written := true
                  named := by decide }
    queue := []
    edited := false }

/-- The watch is gone with the file. -/
theorem write_refines_watch_diskFull :
    Watches (Model.gCfgFileWrite homeWatch .nowhere)
      (gCfgFileWrite id diskFull [homeCfg] { hydrate homeCfg homeCfg with written := true }
        (some (bytes "SCALING: FALSE\n")) (fun _ => none)).gCfgFile :=
  (@write_refines_watch String _ id diskFull [homeCfg] (by decide) _ homeWatch
    ⟨rfl, by decide +kernel, rfl⟩ (bytes "SCALING: FALSE\n") (fun _ => none)).2.2
    (by decide +kernel)

end WayDisplays.CfgFile.Write
