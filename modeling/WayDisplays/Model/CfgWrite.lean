/- Writing the configuration file: in place, otherwise to the first candidate that works. -/

import WayDisplays.Model.CfgFile

set_option autoImplicit false
set_option relaxedAutoImplicit false

namespace WayDisplays.Model.CfgWriting

abbrev Bytes := List UInt8

def bytes (s : String) : Bytes := s.toUTF8.data.toList

def commentYamlSchema : String :=
  "# $schema: https://raw.githubusercontent.com/alex-courtis/way-displays/refs/heads/master/" ++
    "schema/cfg-2.0.0.yaml\n# man 5 way-displays\n"

/-- How a call of `fs_file_write` goes: `fopen` fails, or some of the contents are written and
`fclose` succeeds or fails. -/
inductive FileWrite
  | notOpened
  | opened (count : Nat) (closed : Bool)
  deriving DecidableEq, Repr

/-- The modes `w` and `a` of `fopen`. -/
inductive OpenMode
  | truncate | append
  deriving DecidableEq, Repr

/-- The two calls for a file: the comment, then the document. -/
structure Attempt where
  header : FileWrite
  document : FileWrite
  deriving DecidableEq, Repr

/-- How all file operations go, those for a candidate by its path. -/
structure Outcomes where
  resolved : Attempt
  mkdirP : String → Bool
  candidate : String → Attempt

/-- The contents of each file that there is. -/
abbrev Files (ι : Type) := ι → Option Bytes

/-- `struct CfgFile` with all of its paths. -/
structure CfgFilePaths where
  dirPath : String
  filePath : String
  fileName : String
  filePathResolved : String
  written : Bool
  deriving DecidableEq, Repr

def cfgFilePathsNone : CfgFilePaths :=
  { dirPath := "", filePath := "", fileName := "", filePathResolved := "", written := false }

/-! ### Paths -/

/-- The path reversed, without the slashes at its end. -/
def reversePath (path : String) : List Char := path.toList.reverse.dropWhile (· == '/')

def dirname (path : String) : String :=
  match (reversePath path).dropWhile (· != '/') with
  | [] => if path.toList.head? = some '/' then "/" else "."
  | slash :: parent =>
    match (slash :: parent).dropWhile (· == '/') with
    | [] => "/"
    | c :: cs => String.ofList (c :: cs).reverse

def basename (path : String) : String :=
  match reversePath path with
  | [] => if path.toList.head? = some '/' then "/" else "."
  | c :: cs => String.ofList ((c :: cs).takeWhile (· != '/')).reverse

def hydrate (resolvedFrom path : String) : CfgFilePaths :=
  { dirPath := dirname path, filePath := path, fileName := basename path,
    filePathResolved := resolvedFrom, written := false }

section Write

-- Which file a path names: several paths may name the same one.
variable {ι : Type} [DecidableEq ι] (file : String → ι)

/-- What `fprintf` and `fflush` answer is not looked at. -/
def fsFileWrite (files : Files ι) (path : String) (contents : Bytes) (mode : OpenMode) :
    FileWrite → Files ι × Bool
  | .notOpened => (files, false)
  | .opened count closed =>
    let kept := match mode with
      | .truncate => []
      | .append => (files (file path)).getD []
    (Function.update files (file path) (some (kept ++ contents.take count)), closed)

def writeContent (files : Files ι) (path : String) (yaml : Bytes) (attempt : Attempt) :
    Files ι × Bool :=
  let header := fsFileWrite file files path (bytes commentYamlSchema) .truncate attempt.header
  if header.2 then fsFileWrite file header.1 path yaml .append attempt.document else header

/-- The files afterwards, and the path in the log line about a file that was written. -/
structure Written (ι : Type) where
  files : Files ι
  gCfgFile : CfgFilePaths
  reported : Option String

/-- The alternatives, skipping the path that was resolved before. -/
def writeCandidates (outcomes : Outcomes) (resolvedFromPrev : String) (yaml : Bytes) :
    List String → Files ι → Written ι
  | [], files => { files, gCfgFile := cfgFilePathsNone, reported := none }
  | candidate :: candidates, files =>
    if resolvedFromPrev = candidate then
      writeCandidates outcomes resolvedFromPrev yaml candidates files
    else
      let gCfgFile := hydrate candidate candidate
      if outcomes.mkdirP candidate then
        let content :=
          writeContent file files gCfgFile.filePath yaml (outcomes.candidate candidate)
        if content.2 then { files := content.1, gCfgFile, reported := some gCfgFile.filePath }
        else writeCandidates outcomes resolvedFromPrev yaml candidates content.1
      else writeCandidates outcomes resolvedFromPrev yaml candidates files

/-- No document means that marshalling failed. -/
def gCfgFileWrite (outcomes : Outcomes) (candidates : List String) (gCfgFile : CfgFilePaths)
    (yaml : Option Bytes) (files : Files ι) : Written ι :=
  let resolvedFromPrev := gCfgFile.filePathResolved
  match yaml with
  | none => { files, gCfgFile := { gCfgFile with written := false }, reported := none }
  | some yaml =>
    if gCfgFile.filePath = "" then
      writeCandidates file outcomes resolvedFromPrev yaml candidates files
    else
      let content := writeContent file files gCfgFile.filePath yaml outcomes.resolved
      if content.2 then
        { files := content.1, gCfgFile := { gCfgFile with written := true }
          reported := some gCfgFile.filePath }
      else writeCandidates file outcomes resolvedFromPrev yaml candidates content.1

end Write

end WayDisplays.Model.CfgWriting
