/- A client prints what the server logs while it is served. -/

import WayDisplays.Client.Responses
import WayDisplays.Ipc.Service

set_option autoImplicit false
set_option relaxedAutoImplicit false

namespace WayDisplays.Client.Printing

open Lib.Run
open Ipc.Messages (highest)
open Ipc.Service (Concludes Session openingRc)
open Model
open Responses
open Yaml.MessageCodec (readResponse turnedCfg writable_turnedCfg)

variable (isatty : LogStream → Bool)

/-! ### Lines that are not printed -/

theorem printed_below {active : LogActive} {capLine : LogCapLine}
    (h : capLine.threshold.val < active.threshold.val) : printed isatty active capLine = [] := by
  rw [printed, printLine, if_pos]
  simp [h]

def Quiet (active : LogActive) : Prop := active.threshold ≠ .debug

theorem printed_debug {active : LogActive} (h : Quiet active) (line : String) :
    printed isatty active ⟨.debug, line⟩ = [] := by
  apply printed_below
  unfold Quiet at h
  cases hthreshold : active.threshold with
  | debug => exact absurd hthreshold h
  | info | warning | error | fatal => simp [LogThreshold.val]

theorem printed_received {active : LogActive} (h : Quiet active) (yaml : String) :
    printed isatty active (receivedEntry yaml).capLine = [] := printed_debug isatty h _

theorem printed_sending {active : LogActive} (h : Quiet active) (yaml : String) :
    printed isatty active (sendingEntry yaml).capLine = [] := printed_debug isatty h _

/-- The threshold of a request keeps back only what would not be printed. -/
theorem flatMap_wanted {active : LogActive} {request : IpcRequest}
    (h : request.logThreshold.elim 0 LogThreshold.val ≤ active.threshold.val)
    (lines : List LogCapLine) :
    (lines.filter request.wants).flatMap (printed isatty active) =
      lines.flatMap (printed isatty active) := by
  induction lines with
  | nil => rfl
  | cons line lines ih =>
    rw [List.flatMap_cons, List.filter_cons]
    cases hwants : request.wants line with
    | true => rw [if_pos rfl, List.flatMap_cons, ih]
    | false =>
      have hlow : line.threshold.val < request.logThreshold.elim 0 LogThreshold.val := by
        simpa [IpcRequest.wants] using hwants
      have hnone : printed isatty active line = [] := printed_below isatty (by omega)
      rw [if_neg Bool.false_ne_true, ih, hnone, List.nil_append]

/-! ### A client and its server -/

section Client

variable [Platform] [Libyaml] [Codec]

/-- A client that finds the server and sends its request, and then reads some of the responses,
however many at a time, before the rest of what it reads. -/
structure Attends (session : Session) (devicePath : Option String) (chunks : List Chunk)
    (world : ClientWorld) (rest : List SocketRead) (unread : List IpcResponse) : Prop where
  running : pidActiveServer world.kill world.file ≠ 0
  connected : world.connected = .ok ()
  written : world.written = .ok ()
  reads : world.reads = chunks.map Chunk.read ++ rest
  responses : chunks.flatMap Chunk.responses ++ unread = session.told
  loads : ∀ chunk ∈ chunks, chunk.Loads devicePath

section Attends

variable {session : Session} {devicePath : Option String} {chunks : List Chunk}
  {world : ClientWorld} {rest : List SocketRead}

/-- What is left to a client that attends is how it reads. -/
theorem Attends.client {unread : List IpcResponse}
    (h : Attends session devicePath chunks world rest unread) (log : Log)
    (request : ClientRequest) (yaml : String) {responses : Responses} {lines : List Printed}
    {rc : Int} {done : Bool}
    (hresponses : handleResponses isatty request.yaml
      { log := log.logEntries isatty [sendingEntry yaml], rc := 0, done := false }
      (chunks.map Chunk.read ++ rest) = some responses)
    (hhandled : Handled
      { log := log.logEntries isatty [sendingEntry yaml], rc := 0, done := false } responses
      lines rc done) :
    Model.client isatty world log request yaml = some (responses.log, rc) ∧
      Prints log responses.log
        (printed isatty log.active (sendingEntry yaml).capLine ++ lines) := by
  have hsending := logEntries_prints isatty log [sendingEntry yaml]
  rw [List.flatMap_singleton] at hsending
  refine ⟨?_, hsending.trans hhandled.prints⟩
  rw [Model.client, if_neg h.running, h.connected, h.written, h.reads]
  simp only [hresponses, Option.map_some]
  rw [hhandled.rc]

omit [Platform] [Libyaml] [Codec] in
theorem split_chunks {going : List IpcResponse} {last : IpcResponse}
    (hne : ∀ chunk ∈ chunks, chunk.responses ≠ [])
    (h : chunks.flatMap Chunk.responses = going ++ [last])
    (hpending : ∀ response ∈ going, response.done = false) :
    ∃ firsts chunk before, chunks = firsts ++ [chunk] ∧ chunk.responses = before ++ [last] ∧
      Pending firsts := by
  have hchunks : chunks ≠ [] := by
    rintro rfl
    exact List.append_ne_nil_of_right_ne_nil going (List.cons_ne_nil last []) h.symm
  obtain ⟨firsts, chunk, rfl⟩ : ∃ firsts chunk, chunks = firsts ++ [chunk] :=
    ⟨_, _, (List.dropLast_append_getLast hchunks).symm⟩
  have hchunk := hne chunk (List.mem_append_right firsts List.mem_cons_self)
  obtain ⟨before, last', hlast⟩ : ∃ before last', chunk.responses = before ++ [last'] :=
    ⟨_, _, (List.dropLast_append_getLast hchunk).symm⟩
  rw [List.flatMap_append, List.flatMap_singleton, hlast, ← List.append_assoc] at h
  obtain ⟨hgoing, hend⟩ := List.append_inj' h rfl
  obtain rfl := List.singleton_inj.mp hend
  refine ⟨firsts, chunk, before, rfl, hlast, ?_⟩
  intro first hfirst response hresponse
  apply hpending response
  rw [← hgoing]
  exact List.mem_append_left before
    (List.mem_flatMap.mpr ⟨first, hfirst, List.mem_of_getLast? hresponse⟩)

/-- With all responses read, a client is done, with the code of the last. -/
theorem Attends.done (h : Attends session devicePath chunks world rest [])
    {operation : IpcOperation} {going : List IpcResponse} {last : IpcResponse}
    (htold : session.told = going ++ [last])
    (hconcludes : Concludes operation going last session.lines) (log : Log)
    (request : ClientRequest) (yaml : String) :
    ∃ log', Model.client isatty world log request yaml =
        some (log', highest operation.rc session.lines) ∧
      Prints log log' (printed isatty log.active (sendingEntry yaml).capLine ++
        chunks.flatMap (shownChunk isatty log.active request.yaml)) := by
  have hresponses := h.responses
  rw [List.append_nil, htold] at hresponses
  obtain ⟨firsts, chunk, before, hchunks, hlast, hpending⟩ := split_chunks
    (fun chunk hmem => (h.loads chunk hmem).nonempty) hresponses hconcludes.pending
  subst hchunks
  obtain ⟨responses, hend, hhandled⟩ := handleResponses_done isatty request.yaml h.loads
    hpending hlast hconcludes.done
    { log := log.logEntries isatty [sendingEntry yaml], rc := 0, done := false } rfl rest
  obtain ⟨hclient, hprints⟩ := h.client isatty log request yaml hend hhandled
  rw [hconcludes.rc] at hclient
  rw [(logEntries_prints isatty log [sendingEntry yaml]).active] at hprints
  exact ⟨responses.log, hclient, hprints⟩

/-- Without the last response, a client that finds none any more ends with a code of its own. -/
theorem Attends.lost {read : SocketRead} {unread : List IpcResponse}
    (h : Attends session devicePath chunks world (read :: rest) unread) (hunread : unread ≠ [])
    (hread : ∀ log, (ipcReceiveResponses isatty log read).2 = none)
    {operation : IpcOperation} {going : List IpcResponse} {last : IpcResponse}
    (htold : session.told = going ++ [last])
    (hconcludes : Concludes operation going last session.lines) (log : Log)
    (request : ClientRequest) (yaml : String) :
    ∃ log', Model.client isatty world log request yaml = some (log', IpcRc.badResponse.val) ∧
      Prints log log' (printed isatty log.active (sendingEntry yaml).capLine ++
        (chunks.flatMap (shownChunk isatty log.active request.yaml) ++
          readLines isatty log.active read)) := by
  obtain ⟨unread, last', rfl⟩ : ∃ rest last', unread = rest ++ [last'] :=
    ⟨_, _, (List.dropLast_append_getLast hunread).symm⟩
  have hresponses := h.responses
  rw [htold, ← List.append_assoc] at hresponses
  have hgoing := List.append_inj_left' hresponses rfl
  have hpending : Pending chunks := by
    intro chunk hmem response hresponse
    apply hconcludes.pending response
    rw [← hgoing]
    exact List.mem_append_left unread
      (List.mem_flatMap.mpr ⟨chunk, hmem, List.mem_of_getLast? hresponse⟩)
  obtain ⟨responses, hend, hhandled⟩ := handleResponses_failed isatty request.yaml h.loads
    hpending hread
    { log := log.logEntries isatty [sendingEntry yaml], rc := 0, done := false } rfl rest
  obtain ⟨hclient, hprints⟩ := h.client isatty log request yaml hend hhandled
  rw [(logEntries_prints isatty log [sendingEntry yaml]).active] at hprints
  exact ⟨responses.log, hclient, hprints⟩

end Attends

/-! ### For humans -/

structure Human (active : LogActive) (request : ClientRequest) : Prop where
  plain : request.yaml = false
  quiet : Quiet active
  asks : request.logThreshold.elim 0 LogThreshold.val ≤ active.threshold.val

omit [Platform] [Libyaml] [Codec] in
/-- A client asks for no more than what it prints itself. -/
theorem human_cliThresholds {active : LogActive} {request : ClientRequest}
    (hplain : request.yaml = false) {threshold : Option LogThreshold}
    (hquiet : Quiet (cliThresholds active request threshold false).1) :
    Human (cliThresholds active request threshold false).1
      (cliThresholds active request threshold false).2 := by
  refine ⟨by simp [cliThresholds, hplain], hquiet, ?_⟩
  cases threshold with
  | none => simp [cliThresholds, hplain]
  | some threshold => simp [cliThresholds, LogActive.setThreshold, hplain]

omit [Libyaml] [Codec] in
theorem shownChunk_human {active : LogActive} {request : ClientRequest}
    (h : Human active request) (chunks : List Chunk) :
    chunks.flatMap (shownChunk isatty active request.yaml) =
      ((chunks.flatMap Chunk.responses).flatMap IpcResponse.messages).flatMap
        (printed isatty active) := by
  have hchunk : shownChunk isatty active request.yaml = fun chunk =>
      (chunk.responses.flatMap IpcResponse.messages).flatMap (printed isatty active) := by
    funext chunk
    rw [shownChunk, printed_received isatty h.quiet, List.nil_append, List.flatMap_map, h.plain,
      List.flatMap_assoc]
    rfl
  rw [hchunk, List.flatMap_assoc, List.flatMap_assoc]
  congr 1
  funext chunk
  rw [List.flatMap_assoc]

/-- A client for humans that asks for no debugging prints what the server logged from its
request on until it was left, for whatever reason, as it would print this itself, each line once
and in order; its code is the highest that a line called for. -/
theorem client_prints {session : Session} (hended : session.Ended) {devicePath : Option String}
    {chunks : List Chunk} {world : ClientWorld} {rest : List SocketRead}
    (h : Attends session devicePath chunks world rest []) {asked : ClientRequest}
    (hplain : asked.yaml = false) (active : LogActive) (threshold : Option LogThreshold)
    {log : Log} {request : ClientRequest}
    (hcli : cliThresholds active asked threshold false = (log.active, request))
    (hquiet : Quiet log.active) (hsent : session.request.logThreshold = request.logThreshold)
    (yaml : String) :
    ∃ log', client isatty world log request yaml =
        some (log', highest (openingRc session.request) session.lines) ∧
      log'.printed = log.printed ++ session.lines.flatMap (printed isatty log.active) := by
  obtain ⟨operation, going, last, htold, hconcludes, hrc, hthreshold⟩ := hended.concludes
  have hhuman : Human log.active request := by
    have hsame := @human_cliThresholds active asked hplain threshold
    rw [hcli] at hsame
    exact hsame hquiet
  obtain ⟨log', hclient, hprints⟩ := h.done isatty htold hconcludes log request yaml
  have hresponses := h.responses
  rw [List.append_nil] at hresponses
  have hasks := hhuman.asks
  rw [← hsent, ← hthreshold] at hasks
  rw [hrc] at hclient
  refine ⟨log', hclient, ?_⟩
  rw [hprints.printed, printed_sending isatty hquiet, List.nil_append,
    shownChunk_human isatty hhuman, hresponses, htold, hconcludes.messages,
    flatMap_wanted isatty hasks]

/-- Whose connection is lost has printed some first part of it, and knows so from the code. -/
theorem client_loses {session : Session} (hended : session.Ended) {devicePath : Option String}
    {chunks : List Chunk} {world : ClientWorld} {read : SocketRead} {rest : List SocketRead}
    {unread : List IpcResponse}
    (h : Attends session devicePath chunks world (read :: rest) unread) (hunread : unread ≠ [])
    (hread : ∀ log, (ipcReceiveResponses isatty log read).2 = none) {asked : ClientRequest}
    (hplain : asked.yaml = false) (active : LogActive) (threshold : Option LogThreshold)
    {log : Log} {request : ClientRequest}
    (hcli : cliThresholds active asked threshold false = (log.active, request))
    (hquiet : Quiet log.active) (hsent : session.request.logThreshold = request.logThreshold)
    (yaml : String) :
    ∃ log' seen, client isatty world log request yaml = some (log', IpcRc.badResponse.val) ∧
      seen <+: session.lines ∧
      log'.printed = log.printed ++ seen.flatMap (printed isatty log.active) ++
        readLines isatty log.active read := by
  obtain ⟨operation, going, last, htold, hconcludes, -, hthreshold⟩ := hended.concludes
  have hhuman : Human log.active request := by
    have hsame := @human_cliThresholds active asked hplain threshold
    rw [hcli] at hsame
    exact hsame hquiet
  obtain ⟨log', hclient, hprints⟩ :=
    h.lost isatty hunread hread htold hconcludes log request yaml
  have hasks := hhuman.asks
  rw [← hsent, ← hthreshold] at hasks
  have hpart : (chunks.flatMap Chunk.responses).flatMap IpcResponse.messages <+:
      session.lines.filter operation.request.wants := by
    rw [← hconcludes.messages, ← htold, ← h.responses, List.flatMap_append]
    exact List.prefix_append _ _
  obtain ⟨seen, hseen, hwanted⟩ := List.prefix_filter_iff.mp hpart
  refine ⟨log', seen, hclient, hseen, ?_⟩
  rw [hprints.printed, printed_sending isatty hquiet, List.nil_append,
    shownChunk_human isatty hhuman, hwanted, flatMap_wanted isatty hasks, List.append_assoc]

/-! ### For programs -/

omit [Platform] [Libyaml] [Codec] in
theorem length_le_flatMap_replicate {α β : Type} {as : List α} {n : α → Nat} (f : α → β)
    (h : ∀ a ∈ as, 0 < n a) :
    as.length ≤ (as.flatMap (fun a => List.replicate (n a) (f a))).length := by
  induction as with
  | nil => exact le_refl _
  | cons a as ih =>
    have hhead := h a List.mem_cons_self
    have htail := ih (fun b hb => h b (List.mem_cons_of_mem a hb))
    rw [List.flatMap_cons, List.length_append, List.length_replicate, List.length_cons]
    omega

omit [Platform] [Libyaml] [Codec] in
theorem flatMap_replicate_eq_map_iff {α β : Type} {as : List α} {n : α → Nat} (f : α → β)
    (h : ∀ a ∈ as, 0 < n a) :
    as.flatMap (fun a => List.replicate (n a) (f a)) = as.map f ↔ ∀ a ∈ as, n a = 1 := by
  induction as with
  | nil => simp
  | cons a as ih =>
    have hhead := h a List.mem_cons_self
    have hrest := fun b hb => h b (List.mem_cons_of_mem a hb)
    have hlength := length_le_flatMap_replicate f hrest
    rw [List.flatMap_cons, List.map_cons, List.forall_mem_cons, ← ih hrest]
    constructor
    · intro heq
      have hsame := congrArg List.length heq
      rw [List.length_append, List.length_replicate, List.length_cons, List.length_map] at hsame
      have hone : n a = 1 := by omega
      rw [hone] at heq
      exact ⟨hone, (List.cons.inj heq).2⟩
    · rintro ⟨hone, heq⟩
      rw [hone, heq]
      rfl

omit [Libyaml] [Codec] in
/-- Responses without an error are printed as they were read, each time anew. -/
theorem shownChunk_yaml {active : LogActive} (hquiet : Quiet active) {chunk : Chunk}
    (h : ∀ response ∈ chunk.responses, response.rc < IpcRc.error.val) :
    shownChunk isatty active true chunk =
      List.replicate chunk.responses.length ⟨.stdout, chunk.yaml ++ "\n"⟩ := by
  obtain ⟨yaml, responses⟩ := chunk
  rw [shownChunk, printed_received isatty hquiet, List.nil_append, List.flatMap_map]
  induction responses with
  | nil => rfl
  | cons response responses ih =>
    have hrc : (readResponse response).rc < IpcRc.error.val := h response List.mem_cons_self
    rw [List.flatMap_cons, ih (fun r hr => h r (List.mem_cons_of_mem response hr)), shown,
      decide_eq_true hrc]
    rfl

/-- A client for programs prints every text that it reads, which it does exactly once if and only
if it never finds two responses at a time. -/
theorem client_prints_yaml_iff {session : Session} (hended : session.Ended)
    {devicePath : Option String} {chunks : List Chunk} {world : ClientWorld}
    {rest : List SocketRead} (h : Attends session devicePath chunks world rest []) {log : Log}
    (hquiet : Quiet log.active) {request : ClientRequest} (hyaml : request.yaml = true)
    (hrc : highest (openingRc session.request) session.lines < IpcRc.error.val) (yaml : String) :
    ∃ log', client isatty world log request yaml =
        some (log', highest (openingRc session.request) session.lines) ∧
      (log'.printed = log.printed ++ chunks.map (fun chunk => ⟨.stdout, chunk.yaml ++ "\n"⟩) ↔
        ∀ chunk ∈ chunks, chunk.responses.length = 1) := by
  obtain ⟨operation, going, last, htold, hconcludes, hopening, -⟩ := hended.concludes
  obtain ⟨log', hclient, hprints⟩ := h.done isatty htold hconcludes log request yaml
  rw [hopening] at hclient
  refine ⟨log', hclient, ?_⟩
  have hresponses := h.responses
  rw [List.append_nil, htold] at hresponses
  have hshown : chunks.flatMap (shownChunk isatty log.active request.yaml) =
      chunks.flatMap (fun chunk =>
        List.replicate chunk.responses.length ⟨.stdout, chunk.yaml ++ "\n"⟩) := by
    apply List.flatMap_congr
    intro chunk hmem
    rw [hyaml]
    apply shownChunk_yaml isatty hquiet
    intro response hresponse
    have hle := hconcludes.rising response
      (hresponses ▸ List.mem_flatMap.mpr ⟨chunk, hmem, hresponse⟩)
    rw [hconcludes.rc, hopening] at hle
    exact lt_of_le_of_lt hle hrc
  rw [hprints.printed, printed_sending isatty hquiet, List.nil_append, hshown,
    List.append_cancel_left_eq]
  exact flatMap_replicate_eq_map_iff _
    (fun chunk hmem => List.length_pos_iff.mpr (h.loads chunk hmem).nonempty)

end Client

/-! ### A reapply that warns -/

def goingOn : IpcResponse :=
  { seq := true, done := false, cfg := some turnedCfg, state := some ⟨none, []⟩, messages := []
    rc := 0 }

def endsWarned : IpcResponse :=
  { goingOn with done := true, messages := [⟨.warning, "Cannot"⟩], rc := 1 }

def reapplySession : Session :=
  { loop := loopInit turnedCfg none
    socket := 8
    yaml := "OP: REAPPLY\nLOG_THRESHOLD: WARNING"
    request := { ipcRequestInit (some .reapply) with logThreshold := some .warning }
    processed := [⟨.info, "Reapplying"⟩]
    after := [.log [⟨.warning, "Cannot"⟩], .act .written] }

theorem ended_reapply : @Session.Ended plainPlatform plainCodec reapplySession := by
  let _ : Platform := plainPlatform
  let _ : Codec := plainCodec
  refine ⟨rfl, Ipc.Interference.numbered_init, by decide, rfl, ?_, ⟨_, rfl, ?_, ?_⟩⟩
  · intro event hmem
    rcases List.mem_pair.mp hmem with rfl | rfl
    · exact True.intro
    · rfl
  · exact Nat.zero_lt_one
  · intro socket hpeer
    contradiction

abbrev reapplyLibyaml : Libyaml :=
  { load := fun yaml =>
      if yaml = "- DONE: FALSE\n  RC: 0\n" then some (chunkNode none [goingOn])
      else if yaml = "- DONE: TRUE\n  RC: 1\n" then some (chunkNode none [endsWarned])
      else if yaml = "- DONE: FALSE\n  RC: 0\n- DONE: TRUE\n  RC: 1\n" then
        some (chunkNode none [goingOn, endsWarned])
      else none
    loadLog := fun _ => [] }

theorem loads_reapply (yaml : String) (responses : List IpcResponse) (hne : responses ≠ [])
    (hresponses : ∀ response ∈ responses, response = goingOn ∨ response = endsWarned)
    (hload : reapplyLibyaml.load yaml = some (chunkNode none responses)) :
    @Chunk.Loads reapplyLibyaml none ⟨yaml, responses⟩ := by
  let _ : Libyaml := reapplyLibyaml
  refine ⟨hne, hload, rfl, fun response hmem => ?_⟩
  have hrc : response.rc = 0 ∨ response.rc = 1 := by
    rcases hresponses response hmem with rfl | rfl
    · exact Or.inl rfl
    · exact Or.inr rfl
  exact ⟨by omega, by omega⟩

def reapplyWorld (reads : List SocketRead) : ClientWorld :=
  { file := some "4242", kill := fun _ => true, connected := .ok (), written := .ok ()
    reads := reads }

theorem attends_reapply {chunks : List Chunk} {rest : List SocketRead}
    {unread : List IpcResponse} {world : ClientWorld}
    (hworld : world = reapplyWorld (chunks.map Chunk.read ++ rest))
    (hresponses : chunks.flatMap Chunk.responses ++ unread = [goingOn, endsWarned])
    (hloads : ∀ chunk ∈ chunks, @Chunk.Loads reapplyLibyaml none chunk) :
    @Attends plainPlatform reapplyLibyaml plainCodec reapplySession none chunks world rest
      unread := by
  let _ : Platform := plainPlatform
  let _ : Libyaml := reapplyLibyaml
  let _ : Codec := plainCodec
  have hrunning : pidActiveServer (fun _ => true) (some "4242") ≠ 0 := by decide +kernel
  subst hworld
  exact ⟨hrunning, rfl, rfl, rfl, hresponses, hloads⟩

/-- Both responses found at a time, on a terminal. -/
theorem client_prints_reapply :
    let _ : Platform := plainPlatform
    let _ : Libyaml := reapplyLibyaml
    let asked : ClientRequest := { ipcRequestInit (some .reapply) with yaml := false }
    let started := cliThresholds logActiveInit asked (some .warning) false
    let read : SocketRead := ⟨some "- DONE: FALSE\n  RC: 0\n- DONE: TRUE\n  RC: 1\n", []⟩
    ∃ log', client (fun _ => true) (reapplyWorld [read]) { logInit with active := started.1 }
        started.2 "OP: REAPPLY\nLOG_THRESHOLD: WARNING\n" = some (log', 1) ∧
      log'.printed = [⟨.stdout, "\x1b[1;35mWARNING: Cannot\x1b[0m\n"⟩] := by
  intro platform libyaml asked started read
  let _ : Codec := plainCodec
  let chunk : Chunk :=
    ⟨"- DONE: FALSE\n  RC: 0\n- DONE: TRUE\n  RC: 1\n", [goingOn, endsWarned]⟩
  have hloads : chunk.Loads none :=
    loads_reapply _ _ (List.cons_ne_nil _ _) (fun _ hmem => List.mem_pair.mp hmem) rfl
  have hattends : Attends reapplySession none [chunk] (reapplyWorld [read]) [] [] :=
    attends_reapply rfl rfl (List.forall_mem_singleton.mpr hloads)
  let log : Log := { logInit with active := started.1 }
  have hplain : asked.yaml = false := rfl
  have hcli : cliThresholds logActiveInit asked (some .warning) false = (log.active, started.2) :=
    rfl
  have hquiet : Quiet log.active := by
    intro hdebug
    contradiction
  obtain ⟨log', hclient, hprinted⟩ := client_prints (fun _ => true) ended_reapply hattends hplain
    logActiveInit (some .warning) hcli hquiet rfl "OP: REAPPLY\nLOG_THRESHOLD: WARNING\n"
  have hrc : highest (openingRc reapplySession.request) reapplySession.lines = 1 := by
    decide +kernel
  rw [hrc] at hclient
  refine ⟨log', hclient, hprinted.trans ?_⟩
  decide +kernel

/-- The server is gone after its first response. -/
theorem client_loses_reapply :
    let _ : Platform := plainPlatform
    let _ : Libyaml := reapplyLibyaml
    let asked : ClientRequest := { ipcRequestInit (some .reapply) with yaml := false }
    let started := cliThresholds logActiveInit asked (some .warning) false
    let read : SocketRead := ⟨some "- DONE: FALSE\n  RC: 0\n", []⟩
    ∃ log' seen, client (fun _ => true) (reapplyWorld [read, ⟨none, []⟩])
        { logInit with active := started.1 } started.2
        "OP: REAPPLY\nLOG_THRESHOLD: WARNING\n" = some (log', 12) ∧
      seen <+: @Session.lines plainPlatform plainCodec reapplySession ∧
      log'.printed = seen.flatMap (printed (fun _ => true) started.1) := by
  intro platform libyaml asked started read
  let _ : Codec := plainCodec
  let chunk : Chunk := ⟨"- DONE: FALSE\n  RC: 0\n", [goingOn]⟩
  have hloads : chunk.Loads none :=
    loads_reapply _ _ (List.cons_ne_nil _ _)
      (fun _ hmem => Or.inl (List.mem_singleton.mp hmem)) rfl
  have hattends : Attends reapplySession none [chunk] (reapplyWorld [read, ⟨none, []⟩])
      [⟨none, []⟩] [endsWarned] :=
    attends_reapply rfl rfl (List.forall_mem_singleton.mpr hloads)
  let log : Log := { logInit with active := started.1 }
  have hplain : asked.yaml = false := rfl
  have hcli : cliThresholds logActiveInit asked (some .warning) false = (log.active, started.2) :=
    rfl
  have hquiet : Quiet log.active := by
    intro hdebug
    contradiction
  obtain ⟨log', seen, hclient, hseen, hprinted⟩ := client_loses (fun _ => true) ended_reapply
    hattends (List.cons_ne_nil _ _) (fun _ => rfl) hplain logActiveInit (some .warning) hcli
    hquiet rfl "OP: REAPPLY\nLOG_THRESHOLD: WARNING\n"
  refine ⟨log', seen, hclient, hseen, hprinted.trans ?_⟩
  exact List.append_nil _

/-- Both responses found at a time are printed twice. -/
theorem client_prints_yaml_reapply :
    let _ : Platform := plainPlatform
    let _ : Libyaml := reapplyLibyaml
    let asked : ClientRequest := { ipcRequestInit (some .reapply) with yaml := false }
    let started := cliThresholds logActiveInit asked none true
    let text := "- DONE: FALSE\n  RC: 0\n- DONE: TRUE\n  RC: 1\n"
    ∃ log', client (fun _ => true) (reapplyWorld [⟨some text, []⟩])
        { logInit with active := started.1 } started.2
        "OP: REAPPLY\nLOG_THRESHOLD: WARNING\n" = some (log', 1) ∧
      log'.printed ≠ [⟨.stdout, text ++ "\n"⟩] := by
  intro platform libyaml asked started text
  let _ : Codec := plainCodec
  let chunk : Chunk := ⟨text, [goingOn, endsWarned]⟩
  have hloads : chunk.Loads none :=
    loads_reapply _ _ (List.cons_ne_nil _ _) (fun _ hmem => List.mem_pair.mp hmem) rfl
  have hattends : Attends reapplySession none [chunk] (reapplyWorld [⟨some text, []⟩]) [] [] :=
    attends_reapply rfl rfl (List.forall_mem_singleton.mpr hloads)
  let log : Log := { logInit with active := started.1 }
  have hquiet : Quiet log.active := by
    intro hdebug
    contradiction
  have hrc : highest (openingRc reapplySession.request) reapplySession.lines = 1 := by
    decide +kernel
  have hlow : highest (openingRc reapplySession.request) reapplySession.lines <
      IpcRc.error.val := by
    rw [hrc]
    decide
  have hyaml : started.2.yaml = true := rfl
  obtain ⟨log', hclient, hprinted⟩ := client_prints_yaml_iff (fun _ => true) ended_reapply
    hattends hquiet hyaml hlow "OP: REAPPLY\nLOG_THRESHOLD: WARNING\n"
  rw [hrc] at hclient
  refine ⟨log', hclient, fun honce => ?_⟩
  have htwo : 2 = 1 := hprinted.mp honce chunk List.mem_cons_self
  omega

end WayDisplays.Client.Printing
