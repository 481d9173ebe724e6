/- Requests on their way to the server and responses on their way back: they arrive as they were
sent. -/

import WayDisplays.Model.Messages
import WayDisplays.Yaml.CfgCodec
import WayDisplays.Yaml.HeadCodec
import WayDisplays.Yaml.NodeTypes

set_option autoImplicit false
set_option relaxedAutoImplicit false

namespace WayDisplays.Yaml.MessageCodec

open CfgCodec HeadCodec
open Lib (OrderedMap OrderedSet Traced)
open Lib.Rounding (Near)
open Model NodeTypes Scalars

/-! ### Names -/

theorem named_ipcCommand (command : IpcCommand) : Named ipcCommandName ipcCommandVal command := by
  have hread : ∀ nv ∈ ipcCommands, ipcCommandVal nv.1 = some nv.2 := by decide +kernel
  exact named_of_table hread (by cases command <;> rfl)

theorem logThresholdVal_thresholdKey (threshold : LogThreshold) :
    logThresholdVal (thresholdKey threshold) = some threshold := by
  obtain ⟨name, hname, hval⟩ := named_logThreshold threshold
  rw [thresholdKey, hname, Option.getD_some, hval]

/-! ### Requests -/

section Requests

variable [Platform]

def requestNodes (request : IpcRequest) : List (String × Option YamlNode) :=
  [("OP", (request.command.bind ipcCommandName).map YamlNode.scalar),
    ("LOG_THRESHOLD", (request.logThreshold.bind logThresholdName).map YamlNode.scalar),
    ("CFG", request.cfg.map yamlMapFromCfg)]

omit [Platform] in
theorem yamlMapFromIpcRequest_eq (request : IpcRequest) :
    yamlMapFromIpcRequest request = .mapping (nodePairs (requestNodes request)) := by
  rw [yamlMapFromIpcRequest, requestNodes, nodePairs, List.flatMap_cons, List.flatMap_cons,
    List.flatMap_cons, List.flatMap_nil, List.append_nil, List.append_assoc]
  cases request.logThreshold <;> rfl

def requestMap (request : IpcRequest) : YamlMap :=
  (nodePairs (requestNodes request)).foldl spmapPutPair .empty

omit [Platform] in
theorem get?_requestMap (request : IpcRequest) :
    (requestMap request).get? "OP" =
        (request.command.bind ipcCommandName).map YamlNode.scalar ∧
      (requestMap request).get? "LOG_THRESHOLD" =
        (request.logThreshold.bind logThresholdName).map YamlNode.scalar ∧
      (requestMap request).get? "CFG" = request.cfg.map yamlMapFromCfg := by
  have hkeys : (requestNodes request).map Prod.fst = ["OP", "LOG_THRESHOLD", "CFG"] := rfl
  have hnodup : ((requestNodes request).map Prod.fst).Nodup := by
    rw [hkeys]
    decide
  refine ⟨get?_nodePairs hnodup ?_, get?_nodePairs hnodup ?_, get?_nodePairs hnodup ?_⟩ <;>
    simp [requestNodes]

omit [Platform] in
theorem yamlScalarToEnum_logThreshold (logThreshold : Option LogThreshold) :
    yamlScalarToEnum logThresholdVal
      ((logThreshold.bind logThresholdName).map YamlNode.scalar) = logThreshold := by
  cases logThreshold with
  | none => rfl
  | some threshold =>
    obtain ⟨name, hname, hval⟩ := named_logThreshold threshold
    rw [Option.bind_some, hname]
    exact hval

/-- A request with a command arrives as it was sent, by accesses of the right type, with a
configuration that differs in its marker only; one without is not sent. -/
theorem request_roundTrips (request : IpcRequest) (hbad : request.bad = false)
    (hcfg : ∀ cfg, request.cfg = some cfg → CfgWritable cfg) :
    (request.command = none → yamlRootFromIpcRequest request = none) ∧
      ∀ command, request.command = some command → ∃ root,
        yamlRootFromIpcRequest request = some root ∧
          Reads (Decode.yamlRootToIpcRequest (some root))
            (some { request with cfg := request.cfg.map remarked }) := by
  refine ⟨fun hnone => ?_, fun command hcommand => ?_⟩
  · rw [yamlRootFromIpcRequest, hnone]
    rfl
  · obtain ⟨name, hname, hval⟩ := named_ipcCommand command
    have hop : request.command.bind ipcCommandName = some name := by
      rw [hcommand, Option.bind_some, hname]
    refine ⟨yamlMapFromIpcRequest request, ?_, ?_⟩
    · rw [yamlRootFromIpcRequest, hop]
      rfl
    · have hmap : yamlMapToSpmap (some (yamlMapFromIpcRequest request)) =
          some (requestMap request) := by
        rw [yamlMapFromIpcRequest_eq]
        rfl
      obtain ⟨hgetOp, hgetLog, hgetCfg⟩ := get?_requestMap request
      refine ⟨?_, (all_yamlRootToIpcRequest _).mpr ?_⟩
      · rw [val_yamlRootToIpcRequest, yamlRootToIpcRequest, hmap, Option.bind_some, hgetOp, hop,
          hgetLog, yamlScalarToEnum_logThreshold, hgetCfg]
        have hread : yamlScalarToEnum ipcCommandVal ((some name).map YamlNode.scalar) =
            some command := hval
        have hsent : (request.cfg.map yamlMapFromCfg).map (fun cfg => (yamlMapToCfg cfg).cfg) =
            request.cfg.map remarked := by
          rw [Option.map_map]
          refine Option.map_congr fun cfg hmem => ?_
          exact (cfg_roundTrips (hcfg cfg hmem)).1
        rw [hread, hsent, Option.map_some, ← hcommand, ipcRequestInit, ← hbad]
      · intro m hm command' _ cfg hmem
        obtain rfl := Option.some.inj (hmap.symm.trans hm)
        rw [hgetCfg] at hmem
        obtain ⟨cfg', -, rfl⟩ := Option.map_eq_some_iff.mp hmem
        rfl

end Requests

/-- TRANSFORM DP-1 90 -/
def turnedCfg : Cfg := { cfgInit with transforms := OrderedMap.empty.put "DP-1" .rot90 }

theorem writable_turnedCfg : @CfgWritable plainPlatform turnedCfg := by
  let _ : Platform := plainPlatform
  have hnone : ∀ nameDescs : List String, nameDescs = [] → ValidNameDescs nameDescs := by
    rintro _ rfl nameDesc hmem
    exact absurd hmem List.not_mem_nil
  exact
    { orderNameDesc := hnone _ rfl
      scaleRoundTo := List.mem_cons_self
      autoScaleDpi := ⟨by decide, by decide⟩
      autoScaleMin := ⟨0, 0, by decide, Or.inl (by decide +kernel)⟩
      autoScaleMax := ⟨0, 0, by decide, Or.inl (by decide +kernel)⟩
      scaleNames := hnone _ rfl
      scales := fun _ hmem => absurd hmem List.not_mem_nil
      modeNames := hnone _ rfl
      modes := fun _ hmem => absurd hmem List.not_mem_nil
      transformNames := by decide +kernel
      transforms := by decide
      adaptiveSyncOff := hnone _ rfl
      disabledNames := hnone _ rfl
      conditions := fun _ hmem => absurd hmem List.not_mem_nil }

theorem request_roundTrips_turned :
    let _ : Platform := plainPlatform
    let request : IpcRequest :=
      { ipcRequestInit (some .cfgSet) with logThreshold := some .warning, cfg := some turnedCfg }
    ∃ root, yamlRootFromIpcRequest request = some root ∧
      Reads (Decode.yamlRootToIpcRequest (some root))
        (some { request with cfg := some (remarked turnedCfg) }) := by
  intro _ request
  have hcfg : ∀ cfg, request.cfg = some cfg → CfgWritable cfg :=
    fun cfg hmem => Option.some.inj hmem ▸ writable_turnedCfg
  exact (request_roundTrips request rfl hcfg).2 .cfgSet rfl

/-! ### Heads -/

section Heads

variable [Platform]

/-- The fixed point number nearest to a double, as far as scales go. -/
def FixedNearest : Prop :=
  ∀ q : ℚ, |q| ≤ 2 ^ 22 → |(Platform.wlFixedFromDouble q : ℚ) - q * 256| ≤ 1 / 2

omit [Platform] in
/-- Positions as the compositor has them, and a scale that six digits tell from its neighbours. -/
structure StateSendable (headState : HeadState) : Prop where
  scale : 0 ≤ headState.scale ∧ headState.scale ≤ 2 ^ 16
  x : IsInt32 headState.x
  y : IsInt32 headState.y

omit [Platform] in
structure HeadSendable (head : Head) : Prop where
  announced : Announced head
  widthMm : IsInt32 head.widthMm
  heightMm : IsInt32 head.heightMm
  cur : StateSendable head.cur
  des : StateSendable head.des

omit [Platform] in
/-- A mode is found again unless it has failed. -/
def ModeArrives (head head' : Head) (zmode zmode' : Option ZMode) : Prop :=
  (referenced head' zmode').map modeSize = (zmode.bind head.modes.get?).map modeSize

omit [Platform] in
structure StateArrives (head head' : Head) (headState headState' : HeadState) : Prop where
  enabled : headState'.enabled = headState.enabled
  x : headState'.x = headState.x
  y : headState'.y = headState.y
  transform : headState'.transform = headState.transform
  scale : headState'.scale = headState.scale
  adaptiveSync : headState'.adaptiveSync = headState.adaptiveSync
  zmode : ModeArrives head head' headState.zmode headState'.zmode

omit [Platform] in
structure HeadArrives (head head' : Head) : Prop where
  name : head'.name = head.name
  description : head'.description = head.description
  make : head'.make = head.make
  model : head'.model = head.model
  serialNumber : head'.serialNumber = head.serialNumber
  widthMm : head'.widthMm = head.widthMm
  heightMm : head'.heightMm = head.heightMm
  modes : head'.modes.vals.map modeSize = head.modes.vals.map modeSize
  modesFailed : head'.modesFailed.vals.map modeSize = head.modesFailed.vals.map modeSize
  zmodePref : ModeArrives head head' head.zmodePref head'.zmodePref
  cur : StateArrives head head' head.cur head'.cur
  des : StateArrives head head' head.des head'.des

omit [Platform] in
/-- Six digits and two floats on the way lose less than half of a 256th. -/
theorem near_written (q : ℚ) :
    Near (6 / 10 ^ 6) (toFloat (Lib.Rounding.significant 10 6 (toFloat q))) q := by
  have hdigits : Near (5 / 10 ^ 6) (Lib.Rounding.significant 10 6 (toFloat q)) (toFloat q) := by
    have hnear := Lib.Rounding.near_significant (b := 10) (p := 6) (by decide) (toFloat q)
    exact hnear.mono (by norm_num)
  have hwritten := hdigits.trans (by norm_num) (toFloat_near q)
  exact ((toFloat_near _).trans (by norm_num) hwritten).mono (by norm_num)

theorem fixed_written (hfixed : FixedNearest) {scale : Int} (hlo : 0 ≤ scale)
    (hhi : scale ≤ 2 ^ 16) :
    Platform.wlFixedFromDouble (toFloat (Lib.Rounding.significant 10 6
      (toFloat ((scale : ℚ) / 256)))) = scale := by
  have hscale : (0 : ℚ) ≤ scale := by exact_mod_cast hlo
  have hscale' : (scale : ℚ) ≤ 2 ^ 16 := by exact_mod_cast hhi
  generalize hwritten : toFloat (Lib.Rounding.significant 10 6 (toFloat ((scale : ℚ) / 256))) = r
  have hnear : |r - (scale : ℚ) / 256| ≤ |(scale : ℚ) / 256| * (6 / 10 ^ 6) :=
    hwritten ▸ near_written ((scale : ℚ) / 256)
  have hpos : (0 : ℚ) ≤ (scale : ℚ) / 256 := div_nonneg hscale (by norm_num)
  rw [abs_of_nonneg hpos] at hnear
  obtain ⟨hbelow, habove⟩ := abs_le.mp hnear
  have hrange : |r| ≤ 2 ^ 22 := by
    rw [abs_le]
    constructor <;> linarith
  have hclose : |r * 256 - (scale : ℚ)| < 1 / 2 := by
    rw [abs_lt]
    constructor <;> linarith
  have hrounded := hfixed r hrange
  rw [abs_sub_comm] at hrounded
  exact Lib.Quantise.eq_of_close hrounded hclose

/-- A scale of zero is left out, and read as zero. -/
theorem scaleArrives (hfixed : FixedNearest) {scale : Int} (h : 0 ≤ scale ∧ scale ≤ 2 ^ 16) :
    ((yamlScalarToFloat (if toFloat ((scale : ℚ) / 256) = 0 then none
      else some (.scalar (snprintfFloat (toFloat ((scale : ℚ) / 256)))))).map
        fixedOfScale).getD headStateInit.scale = scale := by
  by_cases hzero : toFloat ((scale : ℚ) / 256) = 0
  · have hscale : (scale : ℚ) / 256 = 0 := toFloat_eq_zero hzero
    have hcast : (scale : ℚ) = 0 := by
      rw [div_eq_zero_iff] at hscale
      exact hscale.resolve_right (by norm_num)
    rw [if_pos hzero]
    exact (Int.cast_eq_zero.mp hcast).symm
  · have hread : yamlScalarToFloat (some (.scalar (snprintfFloat (toFloat ((scale : ℚ) / 256))))) =
        some (.number (toFloat (Lib.Rounding.significant 10 6 (toFloat ((scale : ℚ) / 256))))) :=
      sscanfFloat_snprintfFloat _
    rw [if_neg hzero, hread, Option.map_some, Option.getD_some]
    exact fixed_written hfixed h.1 h.2

/-! The maps of a head and of its states. -/

def stateNodes (headState : HeadState) (head : Head) : List (String × Option YamlNode) :=
  [("SCALE", if toFloat ((headState.scale : ℚ) / 256) = 0 then none
      else some (.scalar (snprintfFloat (toFloat ((headState.scale : ℚ) / 256))))),
    ("ENABLED", some (.scalar (if headState.enabled then "TRUE" else "FALSE"))),
    ("X", some (.scalar (snprintfInt headState.x))),
    ("Y", some (.scalar (snprintfInt headState.y))),
    ("VRR", some (.scalar (if decide (headState.adaptiveSync = .enabled) then "TRUE"
      else "FALSE"))),
    ("TRANSFORM", (transformName headState.transform).map YamlNode.scalar),
    ("MODE", yamlMapFromZmode head headState.zmode)]

omit [Platform] in
theorem yamlMapFromHeadState_eq (headState : HeadState) (head : Head) :
    yamlMapFromHeadState headState head = .mapping (nodePairs (stateNodes headState head)) := by
  rw [yamlMapFromHeadState, yamlMapAddFloatNz_number]
  simp only [nodePairs, stateNodes, List.flatMap_cons, List.flatMap_nil, List.append_nil,
    List.append_assoc]
  rfl

theorem stateNumbers (hfixed : FixedNearest) (head head' : Head) {headState : HeadState}
    (h : StateSendable headState) :
    yamlMapIntoHeadState headStateInit head' (some (yamlMapFromHeadState headState head)) =
      { headState with
        zmode := (yamlMapIntoHeadState headStateInit head'
          (some (yamlMapFromHeadState headState head))).zmode } := by
  have hkeys : (stateNodes headState head).map Prod.fst =
      ["SCALE", "ENABLED", "X", "Y", "VRR", "TRANSFORM", "MODE"] := rfl
  have hnodup : ((stateNodes headState head).map Prod.fst).Nodup := by
    rw [hkeys]
    decide
  have hget : ∀ n ∈ stateNodes headState head,
      ((nodePairs (stateNodes headState head)).foldl spmapPutPair .empty).get? n.1 = n.2 :=
    fun n hn => get?_nodePairs hnodup hn
  have hmap : yamlMapToSpmap (some (yamlMapFromHeadState headState head)) =
      some ((nodePairs (stateNodes headState head)).foldl spmapPutPair .empty) := by
    rw [yamlMapFromHeadState_eq]
    rfl
  generalize (nodePairs (stateNodes headState head)).foldl spmapPutPair .empty = m at hget hmap
  simp only [stateNodes, List.forall_mem_cons] at hget
  obtain ⟨hscale, henabled, hx, hy, hvrr, htransform, -⟩ := hget
  have hx' := yamlScalarToInt_snprintfInt h.x
  have hy' := yamlScalarToInt_snprintfInt h.y
  have henabled' := yamlScalarToBoolean_ite headState.enabled
  have hvrr' : ((yamlScalarToBoolean (some (.scalar (if decide (headState.adaptiveSync = .enabled)
      then "TRUE" else "FALSE")))).map
        (fun vrr => if vrr then AdaptiveSync.enabled else AdaptiveSync.disabled)).getD
          headStateInit.adaptiveSync = headState.adaptiveSync := by
    rw [yamlScalarToBoolean_ite]
    cases headState.adaptiveSync <;> rfl
  have htransform' : (yamlScalarToEnum transformVal
      ((transformName headState.transform).map YamlNode.scalar)).getD .normal =
        headState.transform := by
    by_cases hnormal : headState.transform = .normal
    · rw [hnormal]
      rfl
    · obtain ⟨name, hname, hval⟩ := named_transform hnormal
      have hread : yamlScalarToEnum transformVal ((some name).map YamlNode.scalar) =
          some headState.transform := hval
      rw [hname, hread, Option.getD_some]
  have hscale' := scaleArrives hfixed h.scale
  simp only [yamlMapIntoHeadState, hmap, hscale, henabled, hx, hy, hvrr, htransform, hx', hy',
    henabled', hvrr', htransform', hscale', Option.getD_some]

theorem stateArrives (hfixed : FixedNearest) {head head' : Head} (h : Announced head)
    (hmodes : head'.modes = sentModes head) {headState : HeadState}
    (hsendable : StateSendable headState) :
    StateArrives head head' headState (yamlMapIntoHeadState headStateInit head'
      (some (yamlMapFromHeadState headState head))) := by
  rw [stateNumbers hfixed head head' hsendable, zmode_yamlMapIntoHeadState]
  exact
    { enabled := rfl, x := rfl, y := rfl, transform := rfl, scale := rfl, adaptiveSync := rfl
      zmode := referenced_yamlMapToZmode h hmodes headState.zmode }

omit [Platform] in
theorem sentMap_get?_display (head : Head) :
    (sentMap head).get? "NAME" = head.name.map YamlNode.scalar ∧
      (sentMap head).get? "DESCRIPTION" = head.description.map YamlNode.scalar ∧
      (sentMap head).get? "MAKE" = head.make.map YamlNode.scalar ∧
      (sentMap head).get? "MODEL" = head.model.map YamlNode.scalar ∧
      (sentMap head).get? "SERIAL_NUMBER" = head.serialNumber.map YamlNode.scalar ∧
      (sentMap head).get? "WIDTH_MM" = some (.scalar (snprintfInt head.widthMm)) ∧
      (sentMap head).get? "HEIGHT_MM" = some (.scalar (snprintfInt head.heightMm)) := by
  simp only [sentMap, yamlMapFromHead, yamlMapToSpmap, Option.getD_some, List.foldl_append,
    yamlMapAddPlist_eq, yamlMapAddStr_eq, yamlMapAddInt_eq, get?_foldl_yamlMapAddNode,
    OrderedMap.get?_empty, String.reduceEq, reduceIte, Option.or_none, Option.some_or, and_self]

omit [Platform] in
theorem yamlScalarToString_map (str : Option String) :
    yamlScalarToString (str.map YamlNode.scalar) = str := by
  cases str <;> rfl

/-- The text and sizes of a head as they are read. -/
theorem yamlMapToHead_display (m : YamlMap) :
    (yamlMapToHead m).name = yamlScalarToString (m.get? "NAME") ∧
      (yamlMapToHead m).description = yamlScalarToString (m.get? "DESCRIPTION") ∧
      (yamlMapToHead m).make = yamlScalarToString (m.get? "MAKE") ∧
      (yamlMapToHead m).model = yamlScalarToString (m.get? "MODEL") ∧
      (yamlMapToHead m).serialNumber = yamlScalarToString (m.get? "SERIAL_NUMBER") ∧
      (yamlMapToHead m).widthMm = (yamlScalarToInt (m.get? "WIDTH_MM")).getD headInit.widthMm ∧
      (yamlMapToHead m).heightMm = (yamlScalarToInt (m.get? "HEIGHT_MM")).getD headInit.heightMm :=
  ⟨rfl, rfl, rfl, rfl, rfl, rfl, rfl⟩

theorem headArrives (hfixed : FixedNearest) {head : Head} (h : HeadSendable head) :
    HeadArrives head (yamlMapToHead (sentMap head)) := by
  have hmodes := modes_yamlMapToHead head
  obtain ⟨-, -, hpref, hcur, hdes, -⟩ := sentMap_get? head
  obtain ⟨hname, hdescription, hmake, hmodel, hserial, hwidth, hheight⟩ :=
    sentMap_get?_display head
  obtain ⟨rname, rdescription, rmake, rmodel, rserial, rwidth, rheight⟩ :=
    yamlMapToHead_display (sentMap head)
  exact
    { name := by rw [rname, hname, yamlScalarToString_map]
      description := by rw [rdescription, hdescription, yamlScalarToString_map]
      make := by rw [rmake, hmake, yamlScalarToString_map]
      model := by rw [rmodel, hmodel, yamlScalarToString_map]
      serialNumber := by rw [rserial, hserial, yamlScalarToString_map]
      widthMm := by rw [rwidth, hwidth, yamlScalarToInt_snprintfInt h.widthMm, Option.getD_some]
      heightMm := by
        rw [rheight, hheight, yamlScalarToInt_snprintfInt h.heightMm, Option.getD_some]
      modes := by rw [hmodes, vals_sentModes h.announced, map_modeSize_map_sentMode]
      modesFailed := by
        rw [modesFailed_yamlMapToHead, vals_sentModesFailed h.announced,
          map_modeSize_map_sentMode]
      zmodePref := by
        rw [ModeArrives, yamlMapToHead_zmodePref, hpref]
        exact referenced_yamlMapToZmode h.announced hmodes head.zmodePref
      cur := by
        rw [yamlMapToHead_cur, hcur]
        exact stateArrives hfixed h.announced hmodes h.cur
      des := by
        rw [yamlMapToHead_des, hdes]
        exact stateArrives hfixed h.announced hmodes h.des }

end Heads

/-! ### Responses -/

section Responses

variable [Platform]

/-- What a client can be told: numbers of 32 bits, heads and a configuration that can be
written. -/
structure ResponseSendable (response : IpcResponse) : Prop where
  rc : IsInt32 response.rc
  cfg : ∀ cfg, response.cfg = some cfg → CfgWritable cfg
  heads : ∀ state, response.state = some state → ∀ head ∈ state.heads, HeadSendable head

omit [Platform] in
/-- The heads of a response, if it tells of them at all. -/
def responseHeads (response : IpcResponse) : List Head :=
  response.state.elim [] IpcState.heads

omit [Platform] in
structure ResponseArrives (response : IpcResponse) (read : Decode.IpcResponseRead) : Prop where
  done : read.done = response.done
  rc : read.rc = response.rc
  cfg : read.cfg = response.cfg.map remarked
  lid : read.lid = response.state.bind IpcState.lid
  heads : List.Forall₂ HeadArrives (responseHeads response) read.heads
  logCapLines : read.logCapLines = response.messages

omit [Platform] in
def responseNodes (devicePath : Option String) (response : IpcResponse) :
    List (String × Option YamlNode) :=
  [("DONE", some (.scalar (if response.done then "TRUE" else "FALSE"))),
    ("CFG", response.cfg.map yamlMapFromCfg),
    ("STATE", response.state.map (yamlMapFromState devicePath)),
    ("MESSAGES", yamlNodeFromMessages response.messages),
    ("RC", some (.scalar (snprintfInt response.rc)))]

omit [Platform] in
def responseMap (devicePath : Option String) (response : IpcResponse) : YamlMap :=
  (nodePairs (responseNodes devicePath response)).foldl spmapPutPair .empty

omit [Platform] in
theorem yamlMapToSpmap_response (devicePath : Option String) (response : IpcResponse) :
    yamlMapToSpmap (some (yamlMapFromIpcOperation devicePath response)) =
      some (responseMap devicePath response) := by
  rw [yamlMapFromIpcOperation]
  simp only [responseMap, nodePairs, responseNodes, List.flatMap_cons, List.flatMap_nil,
    List.append_nil, List.append_assoc]
  rfl

omit [Platform] in
theorem get?_responseMap (devicePath : Option String) (response : IpcResponse) :
    (responseMap devicePath response).get? "DONE" =
        some (.scalar (if response.done then "TRUE" else "FALSE")) ∧
      (responseMap devicePath response).get? "CFG" = response.cfg.map yamlMapFromCfg ∧
      (responseMap devicePath response).get? "STATE" =
        response.state.map (yamlMapFromState devicePath) ∧
      (responseMap devicePath response).get? "MESSAGES" =
        yamlNodeFromMessages response.messages ∧
      (responseMap devicePath response).get? "RC" =
        some (.scalar (snprintfInt response.rc)) := by
  have hkeys : (responseNodes devicePath response).map Prod.fst =
      ["DONE", "CFG", "STATE", "MESSAGES", "RC"] := rfl
  have hnodup : ((responseNodes devicePath response).map Prod.fst).Nodup := by
    rw [hkeys]
    decide
  refine ⟨get?_nodePairs hnodup ?_, get?_nodePairs hnodup ?_, get?_nodePairs hnodup ?_,
    get?_nodePairs hnodup ?_, get?_nodePairs hnodup ?_⟩ <;>
    simp [responseNodes]

omit [Platform] in
/-- A message is read as it was written, at the end of those before it. -/
theorem yamlMapIntoLogCapLines_write (logCapLines : List LogCapLine) (capLine : LogCapLine) :
    (Decode.yamlMapIntoLogCapLines logCapLines (yamlMapFromMessage capLine)).val =
      logCapLines ++ [capLine] := by
  have hmap : (Decode.yamlMapToSpmap (some (yamlMapFromMessage capLine))).val =
      some (OrderedMap.empty.put (thresholdKey capLine.threshold) (.scalar capLine.line)) :=
    (yamlMapToSpmap_reads _).val
  have hline : (Decode.yamlScalarToString (some (.scalar capLine.line))).val =
      some capLine.line := (yamlScalarToString_reads _).val
  have hinto : (Decode.intoLogCapLines logCapLines
      (thresholdKey capLine.threshold, .scalar capLine.line)).val = logCapLines ++ [capLine] := by
    rw [Decode.intoLogCapLines, Traced.val_map, hline, logThresholdVal_thresholdKey]
  rw [Decode.yamlMapIntoLogCapLines, Traced.val_bind, hmap]
  exact hinto

omit [Platform] in
theorem yamlSeqIntoCol_messages (messages : List LogCapLine) :
    ((Decode.yamlSeqIntoCol Decode.yamlMapIntoLogCapLines []
      (yamlNodeFromMessages messages)).val).getD [] = messages := by
  have hfold : ∀ before : List LogCapLine, (messages.map yamlMapFromMessage).foldl
      (fun lines map => (Decode.yamlMapIntoLogCapLines lines map).val) before =
        before ++ messages := by
    induction messages with
    | nil => simp
    | cons capLine messages ih =>
      intro before
      rw [List.map_cons, List.foldl_cons, yamlMapIntoLogCapLines_write, ih, List.append_assoc,
        List.singleton_append]
  rw [(yamlSeqIntoCol_reads yamlMapIntoLogCapLines_reads _ _).val, yamlNodeFromMessages]
  cases messages with
  | nil => rfl
  | cons capLine messages => exact hfold []

omit [Platform] in
theorem yamlMapToLid_write (devicePath : Option String) (lid : Lid) :
    (Decode.yamlMapToLid (some (yamlMapFromLid devicePath lid))).val = some lid := by
  have hclosed : ((nodePairs [("CLOSED", some (.scalar (if lid.closed then "TRUE" else "FALSE"))),
      ("DEVICE_PATH", devicePath.map YamlNode.scalar)]).foldl spmapPutPair .empty).get? "CLOSED" =
        some (.scalar (if lid.closed then "TRUE" else "FALSE")) := by
    refine get?_nodePairs ?_ List.mem_cons_self
    simp
  have hmap : (Decode.yamlMapToSpmap (some (yamlMapFromLid devicePath lid))).val =
      some ((nodePairs [("CLOSED", some (.scalar (if lid.closed then "TRUE" else "FALSE"))),
        ("DEVICE_PATH", devicePath.map YamlNode.scalar)]).foldl spmapPutPair .empty) := by
    rw [(yamlMapToSpmap_reads _).val, yamlMapFromLid]
    simp only [nodePairs, List.flatMap_cons, List.flatMap_nil, List.append_nil]
    rfl
  rw [Decode.yamlMapToLid, Traced.val_andThen, hmap, Option.bind_some, Traced.val_bind,
    Traced.val_map, hclosed, (yamlScalarToBoolean_reads _).val, yamlScalarToBoolean_ite]
  rfl

theorem foldl_yamlMapIntoHeads (heads before : List Head) :
    (heads.map yamlMapFromHead).foldl yamlMapIntoHeads before =
      before ++ heads.map (fun head => yamlMapToHead (sentMap head)) := by
  induction heads generalizing before with
  | nil => simp
  | cons head heads ih =>
    have hread : yamlMapIntoHeads before (yamlMapFromHead head) =
        before ++ [yamlMapToHead (sentMap head)] := rfl
    rw [List.map_cons, List.foldl_cons, hread, ih, List.map_cons, List.append_assoc,
      List.singleton_append]

omit [Platform] in
def stateMap (devicePath : Option String) (state : IpcState) : YamlMap :=
  (nodePairs [("LID", state.lid.map (yamlMapFromLid devicePath)),
    ("HEADS", if state.heads.isEmpty then none
      else some (.sequence (state.heads.map yamlMapFromHead)))]).foldl spmapPutPair .empty

omit [Platform] in
theorem get?_stateMap (devicePath : Option String) (state : IpcState) :
    (stateMap devicePath state).get? "LID" = state.lid.map (yamlMapFromLid devicePath) ∧
      (stateMap devicePath state).get? "HEADS" = (if state.heads.isEmpty then none
        else some (.sequence (state.heads.map yamlMapFromHead))) := by
  refine ⟨get?_nodePairs ?_ ?_, get?_nodePairs ?_ ?_⟩ <;> simp

theorem yamlMapToState_write (devicePath : Option String) (state : IpcState) :
    (Decode.yamlMapToState (some (yamlMapFromState devicePath state))).val =
      (state.lid, state.heads.map (fun head => yamlMapToHead (sentMap head))) := by
  have hmap : (Decode.yamlMapToSpmap (some (yamlMapFromState devicePath state))).val =
      some (stateMap devicePath state) := by
    rw [(yamlMapToSpmap_reads _).val, yamlMapFromState, yamlMapAddPlist_eq]
    simp only [stateMap, nodePairs, List.flatMap_cons, List.flatMap_nil, List.append_nil]
    rfl
  obtain ⟨hlid, hheads⟩ := get?_stateMap devicePath state
  have hlid' : (Decode.yamlMapToLid (state.lid.map (yamlMapFromLid devicePath))).val =
      state.lid := by
    cases state.lid with
    | none =>
      rw [Option.map_none, Decode.yamlMapToLid, Traced.val_andThen,
        (yamlMapToSpmap_reads none).val]
      rfl
    | some lid => exact yamlMapToLid_write devicePath lid
  have hheads' : ((Decode.yamlSeqIntoCol Decode.yamlMapIntoHeads []
      (if state.heads.isEmpty then none
        else some (.sequence (state.heads.map yamlMapFromHead)))).val).getD [] =
      state.heads.map (fun head => yamlMapToHead (sentMap head)) := by
    rw [(yamlSeqIntoCol_reads yamlMapIntoHeads_reads _ _).val, yamlSeqIntoCol_plist,
      foldl_yamlMapIntoHeads, List.nil_append]
  rw [Decode.yamlMapToState, Traced.val_bind, hmap]
  show ((Decode.yamlMapToLid ((stateMap devicePath state).get? "LID")).val,
    ((Decode.yamlSeqIntoCol Decode.yamlMapIntoHeads []
      ((stateMap devicePath state).get? "HEADS")).val).getD []) = _
  rw [hlid, hheads, hlid', hheads']

theorem val_cfgValue (cfg : Option YamlNode) :
    (Decode.cfgValue cfg).val = cfg.map (fun cfg => (yamlMapToCfg cfg).cfg) := by
  cases cfg with
  | none => rfl
  | some cfg => exact congrArg (fun uc => some uc.cfg) (val_yamlMapToCfg cfg)

def readResponse (response : IpcResponse) : Decode.IpcResponseRead :=
  { done := response.done
    rc := response.rc
    cfg := response.cfg.map (fun cfg => (yamlMapToCfg (yamlMapFromCfg cfg)).cfg)
    lid := response.state.bind IpcState.lid
    heads := (responseHeads response).map (fun head => yamlMapToHead (sentMap head))
    logCapLines := response.messages }

theorem readResponse_arrives (hfixed : FixedNearest) {response : IpcResponse}
    (h : ResponseSendable response) : ResponseArrives response (readResponse response) where
  done := rfl
  rc := rfl
  cfg := Option.map_congr fun cfg hmem => (cfg_roundTrips (h.cfg cfg hmem)).1
  lid := rfl
  heads := by
    rw [readResponse, List.forall₂_map_right_iff, List.forall₂_same]
    intro head hmem
    rw [responseHeads] at hmem
    cases hstate : response.state with
    | none =>
      rw [hstate] at hmem
      exact absurd hmem List.not_mem_nil
    | some state =>
      rw [hstate] at hmem
      exact headArrives hfixed (h.heads state hstate head hmem)
  logCapLines := rfl

/-- A map is read by accesses of the right type, whatever configuration and heads it has. -/
theorem yamlMapToIpcResponse_write (devicePath : Option String) {response : IpcResponse}
    (hrc : IsInt32 response.rc) :
    Reads (Decode.yamlMapToIpcResponse (responseMap devicePath response))
      (some (readResponse response)) := by
  obtain ⟨hdone, hcfg, hstate, hmessages, hrc'⟩ := get?_responseMap devicePath response
  refine ⟨?_, (all_yamlMapToIpcResponse _).mpr ?_⟩
  · have hstatus : (Decode.yamlMapToStatus (responseMap devicePath response)).val =
        some (response.done, response.rc) := by
      rw [(yamlMapToStatus_reads _).val, hdone, hrc', yamlScalarToBoolean_ite,
        yamlScalarToInt_snprintfInt hrc]
      rfl
    have hcfg' : (Decode.cfgValue (response.cfg.map yamlMapFromCfg)).val =
        response.cfg.map (fun cfg => (yamlMapToCfg (yamlMapFromCfg cfg)).cfg) := by
      rw [val_cfgValue, Option.map_map]
      rfl
    have hstate' : (Decode.yamlMapToState (response.state.map (yamlMapFromState devicePath))).val =
        (response.state.bind IpcState.lid,
          (responseHeads response).map (fun head => yamlMapToHead (sentMap head))) := by
      rw [responseHeads]
      cases response.state with
      | none =>
        rw [Option.map_none, Decode.yamlMapToState, Traced.val_bind,
          (yamlMapToSpmap_reads none).val]
        rfl
      | some state => exact yamlMapToState_write devicePath state
    rw [Decode.yamlMapToIpcResponse, Traced.val_andThen, hstatus, Option.bind_some]
    simp only [Traced.val_bind, Traced.val_pure, hcfg, hcfg', hstate, hstate', hmessages,
      yamlSeqIntoCol_messages]
    rfl
  · intro _ _ _ _ cfg hmem
    rw [hcfg] at hmem
    obtain ⟨cfg', -, rfl⟩ := Option.map_eq_some_iff.mp hmem
    rfl

theorem yamlMapIntoIpcResponses_write (devicePath : Option String)
    (before : List Decode.IpcResponseRead) {response : IpcResponse}
    (h : IsInt32 response.rc) :
    Reads (Decode.yamlMapIntoIpcResponses before (yamlMapFromIpcOperation devicePath response))
      (before ++ [readResponse response]) := by
  have hmap : Reads (Decode.yamlMapToSpmap (some (yamlMapFromIpcOperation devicePath response)))
      (some (responseMap devicePath response)) :=
    yamlMapToSpmap_response devicePath response ▸ yamlMapToSpmap_reads _
  have hread := hmap.bind (f := fun m => m.elim (pure none) Decode.yamlMapToIpcResponse)
    (yamlMapToIpcResponse_write devicePath h)
  exact hread.map (fun ipcResponse => before ++ ipcResponse.toList)

/-- Responses that follow one another are read one by one. -/
theorem foldlM_yamlMapIntoIpcResponses (devicePath : Option String) {responses : List IpcResponse}
    (h : ∀ response ∈ responses, IsInt32 response.rc)
    (before : List Decode.IpcResponseRead) :
    Reads ((responses.map (yamlMapFromIpcOperation devicePath)).foldlM
      Decode.yamlMapIntoIpcResponses before) (before ++ responses.map readResponse) := by
  induction responses generalizing before with
  | nil =>
    rw [List.map_nil, List.map_nil, List.append_nil, List.foldlM_nil]
    exact .pure before
  | cons response responses ih =>
    have hrest := ih (fun r hr => h r (List.mem_cons_of_mem response hr))
      (before ++ [readResponse response])
    rw [List.append_assoc, List.singleton_append] at hrest
    rw [List.map_cons, List.map_cons, List.foldlM_cons]
    exact (yamlMapIntoIpcResponses_write devicePath before
      (h response List.mem_cons_self)).bind hrest

/-- A document of responses, as a client may find several that were sent one after the other. -/
def responsesNode (devicePath : Option String) (responses : List IpcResponse) : YamlNode :=
  .sequence (responses.map (yamlMapFromIpcOperation devicePath))

theorem responsesNode_reads (devicePath : Option String) {responses : List IpcResponse}
    (h : ∀ response ∈ responses, IsInt32 response.rc) (hne : responses ≠ []) :
    Reads (Decode.yamlRootToIpcResponsePlist (some (responsesNode devicePath responses)))
      (some (responses.map readResponse)) := by
  have hread := ((sequenceItems_reads _).bind
    (foldlM_yamlMapIntoIpcResponses devicePath h [])).map
      (fun ipcResponses => if ipcResponses.isEmpty then none else some ipcResponses)
  have hsome : (if ([] ++ responses.map readResponse).isEmpty then none
      else some ([] ++ responses.map readResponse)) = some (responses.map readResponse) := by
    rw [List.nil_append, if_neg]
    simpa using hne
  rw [hsome] at hread
  exact hread

/-- The response to a GET stands alone. -/
theorem yamlMapFromIpcOperation_reads (devicePath : Option String) {response : IpcResponse}
    (h : IsInt32 response.rc) :
    Reads (Decode.yamlRootToIpcResponsePlist (some (yamlMapFromIpcOperation devicePath response)))
      (some [readResponse response]) :=
  (yamlMapIntoIpcResponses_write devicePath [] h).map
    (fun ipcResponses => if ipcResponses.isEmpty then none else some ipcResponses)

theorem yamlNodeFromIpcOperation_reads (devicePath : Option String) {response : IpcResponse}
    (h : IsInt32 response.rc) :
    Reads (Decode.yamlRootToIpcResponsePlist (some (yamlNodeFromIpcOperation devicePath response)))
      (some [readResponse response]) := by
  have hsequence := responsesNode_reads devicePath (List.forall_mem_singleton.mpr h)
    (List.cons_ne_nil response [])
  have hmap := yamlMapFromIpcOperation_reads devicePath h
  rw [responsesNode, List.map_singleton] at hsequence
  rw [List.map_singleton] at hsequence
  rw [yamlNodeFromIpcOperation]
  cases response.seq with
  | true => rwa [if_pos rfl]
  | false => rwa [if_neg Bool.false_ne_true]

/-- Responses arrive as they were sent, however many a client finds at a time, by accesses of the
right type: status, lid, configuration and every message as they are, each head with its modes,
its states and where it refers to a mode that has not failed. -/
theorem responses_roundTrip (hfixed : FixedNearest) (devicePath : Option String)
    (responses : List IpcResponse) (hne : responses ≠ [])
    (h : ∀ response ∈ responses, ResponseSendable response) :
    ∃ reads, List.Forall₂ ResponseArrives responses reads ∧
      Reads (Decode.yamlRootToIpcResponsePlist (some (responsesNode devicePath responses)))
        (some reads) ∧
      ∀ response, responses = [response] → Reads (Decode.yamlRootToIpcResponsePlist
        (some (yamlNodeFromIpcOperation devicePath response))) (some reads) := by
  have hrc : ∀ response ∈ responses, IsInt32 response.rc := fun response hmem =>
    (h response hmem).rc
  refine ⟨responses.map readResponse, ?_, responsesNode_reads devicePath hrc hne, ?_⟩
  · rw [List.forall₂_map_right_iff, List.forall₂_same]
    exact fun response hmem => readResponse_arrives hfixed (h response hmem)
  · rintro response rfl
    exact yamlNodeFromIpcOperation_reads devicePath (hrc response List.mem_cons_self)

end Responses

theorem fixedNearest_plain : @FixedNearest plainPlatform := by
  intro q _
  rw [abs_sub_comm]
  exact (Lib.Quantise.nearestAway_closest (q * 256) (round (q * 256))).trans
    (abs_sub_round (q * 256))

theorem sendable_laptopDisplay : HeadSendable (laptopDisplay .noOverride) := by
  have hstate : StateSendable
      { headStateInit with zmode := some ⟨7⟩, scale := 384, enabled := true } :=
    ⟨⟨by decide, by decide⟩, ⟨by decide, by decide⟩, ⟨by decide, by decide⟩⟩
  exact ⟨announced_laptopDisplay .noOverride, ⟨by decide, by decide⟩, ⟨by decide, by decide⟩,
    hstate, hstate⟩

/-- A response to a change in progress and the last one after it, found at a time. -/
theorem responses_roundTrip_change :
    let _ : Platform := plainPlatform
    let progress : IpcResponse :=
      { seq := true, done := false, cfg := some turnedCfg
        state := some ⟨some ⟨true⟩, [laptopDisplay .noOverride]⟩
        messages := [⟨.info, "Changing"⟩], rc := 0 }
    let last : IpcResponse :=
      { progress with done := true, messages := [⟨.warning, "No change"⟩], rc := 1 }
    ∃ reads, List.Forall₂ ResponseArrives [progress, last] reads ∧
      Reads (Decode.yamlRootToIpcResponsePlist
        (some (responsesNode (some "/dev/input/event0") [progress, last]))) (some reads) := by
  intro _ progress last
  have hsendable : ∀ response ∈ [progress, last], ResponseSendable response := by
    intro response hmem
    have hrc : response.rc = 0 ∨ response.rc = 1 := by
      rcases List.mem_pair.mp hmem with rfl | rfl
      · exact Or.inl rfl
      · exact Or.inr rfl
    have hcfg : response.cfg = some turnedCfg := by
      rcases List.mem_pair.mp hmem with rfl | rfl <;> rfl
    have hstate : response.state = some ⟨some ⟨true⟩, [laptopDisplay .noOverride]⟩ := by
      rcases List.mem_pair.mp hmem with rfl | rfl <;> rfl
    refine ⟨⟨by omega, by omega⟩, fun cfg h => ?_, fun state h head hhead => ?_⟩
    · exact Option.some.inj (hcfg.symm.trans h) ▸ writable_turnedCfg
    · obtain rfl := Option.some.inj (hstate.symm.trans h)
      exact List.mem_singleton.mp hhead ▸ sendable_laptopDisplay
  obtain ⟨reads, harrive, hread, -⟩ := responses_roundTrip fixedNearest_plain
    (some "/dev/input/event0") [progress, last] (List.cons_ne_nil _ _) hsendable
  exact ⟨reads, harrive, hread⟩

end WayDisplays.Yaml.MessageCodec
