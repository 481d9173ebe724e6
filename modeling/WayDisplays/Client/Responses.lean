/- A client prints what its responses tell, however many of them it finds at a time. -/

import WayDisplays.Ipc.Messages
import WayDisplays.Log.Startup
import WayDisplays.Model.Client
import WayDisplays.Yaml.MessageCodec

set_option autoImplicit false
set_option relaxedAutoImplicit false

namespace WayDisplays.Client.Responses

open Lib (Traced)
open Log.Startup Model Yaml.MessageCodec Yaml.NodeTypes

/-! ### What is printed -/

variable (isatty : LogStream → Bool)

def printed (active : LogActive) (capLine : LogCapLine) : List Printed :=
  printLine isatty active "" capLine

structure Prints (log log' : Log) (lines : List Printed) : Prop where
  active : log'.active = log.active
  printed : log'.printed = log.printed ++ lines

variable {log log' log'' : Log} {lines lines' : List Printed}

theorem Prints.refl (log : Log) : Prints log log [] := ⟨rfl, (List.append_nil _).symm⟩

theorem Prints.trans (h : Prints log log' lines) (h' : Prints log' log'' lines') :
    Prints log log'' (lines ++ lines') := by
  refine ⟨h'.active.trans h.active, ?_⟩
  rw [h'.printed, h.printed, List.append_assoc]

theorem logEntries_prints (log : Log) (entries : List LogEntry) :
    Prints log (log.logEntries isatty entries)
      (entries.flatMap (fun entry => printed isatty log.active entry.capLine)) := by
  induction entries generalizing log with
  | nil => exact Prints.refl log
  | cons entry entries ih =>
    have hfirst : Prints log (log.logLine isatty "" entry)
        (printed isatty log.active entry.capLine) := by
      rw [logLine_eq]
      exact ⟨rfl, rfl⟩
    have hrest := ih (log.logLine isatty "" entry)
    rw [hfirst.active] at hrest
    exact hfirst.trans hrest

theorem flatMap_zipIdx {α β : Type} (f : α → List β) (as : List α) (n : Nat) :
    (as.zipIdx n).flatMap (fun e => f e.1) = as.flatMap f := by
  induction as generalizing n with
  | nil => rfl
  | cons a as ih => rw [List.zipIdx_cons, List.flatMap_cons, List.flatMap_cons, ih]

theorem playback_prints (log : Log) (capLines : List LogCapLine) :
    Prints log (log.playback isatty (fun _ => "") capLines)
      (capLines.flatMap (printed isatty log.active)) := by
  rw [playback_eq]
  refine ⟨rfl, ?_⟩
  exact congrArg (log.printed ++ ·)
    (flatMap_zipIdx (fun capLine => printLine isatty log.active "" capLine) capLines 0)

/-! ### A response after another -/

/-- What a response has a client print: its lines, unless it is printed as it is. -/
def shown (active : LogActive) (yamlOnly : Bool) (yaml : String)
    (response : Decode.IpcResponseRead) : List Printed :=
  if yamlOnly && decide (response.rc < IpcRc.error.val) then [⟨.stdout, yaml ++ "\n"⟩]
  else response.logCapLines.flatMap (printed isatty active)

theorem handleResponse_prints (yamlOnly : Bool) (yaml : String) (responses : Responses)
    (response : Decode.IpcResponseRead) :
    Prints responses.log (handleResponse isatty yamlOnly (some yaml) responses response).log
      (shown isatty responses.log.active yamlOnly yaml response) := by
  cases hyaml : yamlOnly && decide (response.rc < IpcRc.error.val) with
  | true =>
    simp only [handleResponse, shown, hyaml, if_true]
    exact ⟨rfl, rfl⟩
  | false =>
    simp only [handleResponse, shown, hyaml, Bool.false_eq_true, if_false]
    exact playback_prints isatty responses.log response.logCapLines

/-- A number of responses that are read at a time leave the status of the last. -/
structure Handled (responses responses' : Responses) (lines : List Printed) (rc : Int)
    (done : Bool) : Prop where
  prints : Prints responses.log responses'.log lines
  rc : responses'.rc = rc
  done : responses'.done = done

theorem foldl_handleResponse (yamlOnly : Bool) (yaml : String) (responses : Responses)
    (read : List Decode.IpcResponseRead) (last : Decode.IpcResponseRead) :
    Handled responses
      ((read ++ [last]).foldl (handleResponse isatty yamlOnly (some yaml)) responses)
      ((read ++ [last]).flatMap (shown isatty responses.log.active yamlOnly yaml))
      last.rc last.done := by
  induction read generalizing responses with
  | nil =>
    have hlast := handleResponse_prints isatty yamlOnly yaml responses last
    rw [List.nil_append, List.foldl_cons, List.foldl_nil, List.flatMap_singleton]
    exact ⟨hlast, rfl, rfl⟩
  | cons response read ih =>
    have hfirst := handleResponse_prints isatty yamlOnly yaml responses response
    have hrest := ih (handleResponse isatty yamlOnly (some yaml) responses response)
    rw [hfirst.active] at hrest
    exact ⟨hfirst.trans hrest.prints, hrest.rc, hrest.done⟩

/-! ### A read after another -/

section Chunks

variable [Platform] [Libyaml]

/-- What a client finds at a time: all that was sent since it last read. -/
structure Chunk where
  yaml : String
  responses : List IpcResponse

def Chunk.read (chunk : Chunk) : SocketRead := { yaml := some chunk.yaml, logged := [] }

/-- A response as it was sent, or the sequence that several make up. -/
def chunkNode (devicePath : Option String) : List IpcResponse → YamlNode
  | [response] => yamlNodeFromIpcOperation devicePath response
  | responses => responsesNode devicePath responses

/-- The text loads as the responses that it was written from, of which there is one at least;
reading these logs nothing. -/
structure Chunk.Loads (devicePath : Option String) (chunk : Chunk) : Prop where
  nonempty : chunk.responses ≠ []
  load : Libyaml.load chunk.yaml = some (chunkNode devicePath chunk.responses)
  loadLog : Libyaml.loadLog chunk.yaml = []
  rc : ∀ response ∈ chunk.responses, IsInt32 response.rc

omit [Libyaml] in
theorem chunkNode_reads (devicePath : Option String) {responses : List IpcResponse}
    (hne : responses ≠ []) (h : ∀ response ∈ responses, IsInt32 response.rc) :
    Reads (Decode.yamlRootToIpcResponsePlist (some (chunkNode devicePath responses)))
      (some (responses.map readResponse)) := by
  cases responses with
  | nil => exact absurd rfl hne
  | cons response rest =>
    cases rest with
    | cons next rest => exact responsesNode_reads devicePath h hne
    | nil =>
      rw [chunkNode, List.map_singleton]
      exact yamlNodeFromIpcOperation_reads devicePath (h response List.mem_cons_self)

/-- What a client prints of a chunk: what it was sent, if debugging, and each response. -/
def shownChunk (active : LogActive) (yamlOnly : Bool) (chunk : Chunk) : List Printed :=
  printed isatty active (receivedEntry chunk.yaml).capLine ++
    (chunk.responses.map readResponse).flatMap (shown isatty active yamlOnly chunk.yaml)

theorem handleRead_chunk (yamlOnly : Bool) {devicePath : Option String} (responses : Responses)
    {chunk : Chunk} (h : chunk.Loads devicePath) {before : List IpcResponse} {last : IpcResponse}
    (hlast : chunk.responses = before ++ [last]) :
    Handled responses (handleRead isatty yamlOnly responses chunk.read)
      (shownChunk isatty responses.log.active yamlOnly chunk) last.rc last.done := by
  have hread : (Libyaml.load chunk.yaml).bind (fun root =>
      (Decode.yamlRootToIpcResponsePlist (some root)).val) =
        some (before.map readResponse ++ [readResponse last]) := by
    rw [h.load, Option.bind_some, (chunkNode_reads devicePath h.nonempty h.rc).val, hlast,
      List.map_append, List.map_singleton]
  have hreceived : ipcReceiveResponses isatty responses.log chunk.read =
      (responses.log.logEntries isatty [receivedEntry chunk.yaml],
        some (before.map readResponse ++ [readResponse last])) := by
    have hsplit : ipcReceiveResponses isatty responses.log chunk.read =
        ((responses.log.logEntries isatty [receivedEntry chunk.yaml]).logEntries isatty
          (Libyaml.loadLog chunk.yaml), (Libyaml.load chunk.yaml).bind (fun root =>
            (Decode.yamlRootToIpcResponsePlist (some root)).val)) := rfl
    rw [hsplit, hread, h.loadLog]
    rfl
  have hlogged : Prints responses.log (responses.log.logEntries isatty [receivedEntry chunk.yaml])
      (printed isatty responses.log.active (receivedEntry chunk.yaml).capLine) := by
    have hentries := logEntries_prints isatty responses.log [receivedEntry chunk.yaml]
    rwa [List.flatMap_singleton] at hentries
  have hfold := foldl_handleResponse isatty yamlOnly chunk.yaml
    { responses with log := responses.log.logEntries isatty [receivedEntry chunk.yaml] }
    (before.map readResponse) (readResponse last)
  have hhandled : handleRead isatty yamlOnly responses chunk.read =
      (before.map readResponse ++ [readResponse last]).foldl
        (handleResponse isatty yamlOnly (some chunk.yaml))
        { responses with log := responses.log.logEntries isatty [receivedEntry chunk.yaml] } := by
    rw [handleRead, hreceived]
    rfl
  rw [hhandled, shownChunk, hlast, List.map_append, List.map_singleton, ← hlogged.active]
  refine ⟨?_, hfold.rc, hfold.done⟩
  rw [hlogged.active] at hfold ⊢
  exact hlogged.trans hfold.prints

/-- Chunks whose last response is not done, in a list of them all. -/
def Pending (chunks : List Chunk) : Prop :=
  ∀ chunk ∈ chunks, ∀ response, chunk.responses.getLast? = some response → response.done = false

def lastRc (rc : Int) (chunks : List Chunk) : Int :=
  ((chunks.flatMap Chunk.responses).getLast?.map IpcResponse.rc).getD rc

/-- As long as no response is the last, a client prints what it finds and goes on. -/
theorem handleResponses_pending (yamlOnly : Bool) {devicePath : Option String}
    {chunks : List Chunk} (h : ∀ chunk ∈ chunks, chunk.Loads devicePath)
    (hpending : Pending chunks) (responses : Responses) (hdone : responses.done = false)
    (reads : List SocketRead) :
    ∃ responses', handleResponses isatty yamlOnly responses (chunks.map Chunk.read ++ reads) =
        handleResponses isatty yamlOnly responses' reads ∧
      Handled responses responses'
        (chunks.flatMap (shownChunk isatty responses.log.active yamlOnly))
        (lastRc responses.rc chunks) false := by
  induction chunks generalizing responses with
  | nil => exact ⟨responses, rfl, Prints.refl _, rfl, hdone⟩
  | cons chunk chunks ih =>
    have hloads := h chunk List.mem_cons_self
    obtain ⟨before, last, hlast⟩ : ∃ before last, chunk.responses = before ++ [last] :=
      ⟨_, _, (List.dropLast_append_getLast hloads.nonempty).symm⟩
    have hread := handleRead_chunk isatty yamlOnly responses hloads hlast
    have hnot : last.done = false := by
      apply hpending chunk List.mem_cons_self last
      rw [hlast, List.getLast?_concat]
    obtain ⟨responses', hreads, hhandled⟩ := ih (fun c hc => h c (List.mem_cons_of_mem chunk hc))
      (fun c hc => hpending c (List.mem_cons_of_mem chunk hc))
      (handleRead isatty yamlOnly responses chunk.read) (hread.done.trans hnot)
    refine ⟨responses', ?_, ?_, ?_, hhandled.done⟩
    · rw [List.map_cons, List.cons_append, handleResponses, hdone]
      exact hreads
    · rw [hread.prints.active] at hhandled
      rw [List.flatMap_cons]
      exact hread.prints.trans hhandled.prints
    · rw [hhandled.rc, hread.rc, lastRc, lastRc, List.flatMap_cons, hlast, List.append_assoc,
        List.getLast?_append, List.getLast?_append]
      cases (chunks.flatMap Chunk.responses).getLast? <;> rfl

/-- The chunk with the last response ends it, whatever is there to read after it. -/
theorem handleResponses_done (yamlOnly : Bool) {devicePath : Option String} {chunks : List Chunk}
    {chunk : Chunk} (h : ∀ c ∈ chunks ++ [chunk], c.Loads devicePath) (hpending : Pending chunks)
    {before : List IpcResponse} {last : IpcResponse} (hlast : chunk.responses = before ++ [last])
    (hdone : last.done = true) (responses : Responses) (hstart : responses.done = false)
    (reads : List SocketRead) :
    ∃ responses', handleResponses isatty yamlOnly responses
        ((chunks ++ [chunk]).map Chunk.read ++ reads) = some responses' ∧
      Handled responses responses'
        ((chunks ++ [chunk]).flatMap (shownChunk isatty responses.log.active yamlOnly))
        last.rc true := by
  obtain ⟨middle, hmiddle, hhandled⟩ := handleResponses_pending isatty yamlOnly
    (fun c hc => h c (List.mem_append_left _ hc)) hpending responses hstart (chunk.read :: reads)
  have hread := handleRead_chunk isatty yamlOnly middle
    (h chunk (List.mem_append_right _ List.mem_cons_self)) hlast
  refine ⟨handleRead isatty yamlOnly middle chunk.read, ?_, ?_⟩
  · rw [List.map_append, List.map_singleton, List.append_assoc, List.singleton_append, hmiddle,
      handleResponses, hhandled.done]
    have hend : (handleRead isatty yamlOnly middle chunk.read).done = true :=
      hread.done.trans hdone
    cases reads with
    | nil => exact if_pos hend
    | cons read reads => exact if_pos hend
  · rw [hhandled.prints.active] at hread
    rw [List.flatMap_append, List.flatMap_singleton]
    exact ⟨hhandled.prints.trans hread.prints, hread.rc, hread.done.trans hdone⟩

/-- What a client prints of what it reads, whether this holds responses or not. -/
def readLines (active : LogActive) (read : SocketRead) : List Printed :=
  read.logged.flatMap (fun entry => printed isatty active entry.capLine) ++
    read.yaml.elim [] (fun yaml =>
      printed isatty active (receivedEntry yaml).capLine ++
        (Libyaml.loadLog yaml).flatMap (fun entry => printed isatty active entry.capLine))

theorem ipcReceiveResponses_prints (log : Log) (read : SocketRead) :
    Prints log (ipcReceiveResponses isatty log read).1 (readLines isatty log.active read) := by
  have hlogged := logEntries_prints isatty log read.logged
  obtain ⟨yaml, logged⟩ := read
  cases yaml with
  | none =>
    rw [readLines, Option.elim_none, List.append_nil]
    exact hlogged
  | some yaml =>
    have hreceived := logEntries_prints isatty (log.logEntries isatty logged) [receivedEntry yaml]
    have hloaded := logEntries_prints isatty
      ((log.logEntries isatty logged).logEntries isatty [receivedEntry yaml])
      (Libyaml.loadLog yaml)
    rw [hreceived.active, hlogged.active] at hloaded
    rw [hlogged.active, List.flatMap_singleton] at hreceived
    exact hlogged.trans (hreceived.trans hloaded)

/-- Nothing to read, or nothing that is a response, ends it as well, with a code of its own. -/
theorem handleResponses_failed (yamlOnly : Bool) {devicePath : Option String} {chunks : List Chunk}
    (h : ∀ c ∈ chunks, c.Loads devicePath) (hpending : Pending chunks) {read : SocketRead}
    (hread : ∀ log, (ipcReceiveResponses isatty log read).2 = none) (responses : Responses)
    (hstart : responses.done = false) (reads : List SocketRead) :
    ∃ responses', handleResponses isatty yamlOnly responses
        (chunks.map Chunk.read ++ read :: reads) = some responses' ∧
      Handled responses responses'
        (chunks.flatMap (shownChunk isatty responses.log.active yamlOnly) ++
          readLines isatty responses.log.active read)
        IpcRc.badResponse.val true := by
  obtain ⟨middle, hmiddle, hhandled⟩ := handleResponses_pending isatty yamlOnly
    h hpending responses hstart (read :: reads)
  have hfailed : handleRead isatty yamlOnly middle read =
      { log := (ipcReceiveResponses isatty middle.log read).1, rc := IpcRc.badResponse.val
        done := true } := by
    rw [handleRead, hread]
  have hlines := ipcReceiveResponses_prints isatty middle.log read
  rw [hhandled.prints.active] at hlines
  refine ⟨handleRead isatty yamlOnly middle read, ?_, ?_⟩
  · rw [hmiddle, handleResponses, hhandled.done]
    have hend : (handleRead isatty yamlOnly middle read).done = true := by rw [hfailed]
    cases reads with
    | nil => exact if_pos hend
    | cons read reads => exact if_pos hend
  · rw [hfailed]
    exact ⟨hhandled.prints.trans hlines, rfl, rfl⟩

end Chunks

end WayDisplays.Client.Responses
