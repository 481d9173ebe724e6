/- What a server logs before it knows its threshold is printed as if it had known it. -/

import WayDisplays.Model.Log

set_option autoImplicit false
set_option relaxedAutoImplicit false

namespace WayDisplays.Log.Startup

open Lib (OrderedSet)
open Model

variable {isatty : LogStream → Bool} {log : Log}

/-- A list that lines are logged to has them at its end, any other is left as it was. -/
def captured (log : Log) (capLines : List LogCapLine) : Nat → List LogCapLine := fun list =>
  if log.logCapLinesActive.contains list then log.logCapLines list ++ capLines
  else log.logCapLines list

theorem captured_nil (log : Log) : captured log [] = log.logCapLines := by
  funext list
  simp only [captured, List.append_nil, ite_self]

theorem logLine_eq (log : Log) (time : String) (entry : LogEntry) :
    log.logLine isatty time entry =
      { log with
        printed := log.printed ++ printLine isatty log.active time entry.capLine
        logCapLines := captured log [entry.capLine] } := by
  by_cases hsize : 0 < log.logCapLinesActive.size
  · exact if_pos hsize
  · have hvals : log.logCapLinesActive.vals = [] := by
      apply List.length_eq_zero_iff.mp
      simp only [OrderedSet.size] at hsize
      omega
    have hkept : captured log [entry.capLine] = log.logCapLines := by
      funext list
      simp only [captured, OrderedSet.contains, hvals, List.any_nil, Bool.false_eq_true, if_false]
    rw [hkept]
    exact if_neg hsize

/-- Lines logged one after the other are printed and kept in their order. -/
theorem calls_lines (log : Log) (entries : List (LogEntry × String)) :
    log.calls isatty (entries.map (fun e => .line e.1 e.2)) =
      { log with
        printed := log.printed ++
          entries.flatMap (fun e => printLine isatty log.active e.2 e.1.capLine)
        logCapLines := captured log (entries.map (fun e => e.1.capLine)) } := by
  induction entries generalizing log with
  | nil =>
    simp only [List.map_nil, List.flatMap_nil, List.append_nil, captured_nil]
    rfl
  | cons e entries ih =>
    have hstep : log.calls isatty ((e :: entries).map (fun e => .line e.1 e.2)) =
        (log.logLine isatty e.2 e.1).calls isatty (entries.map (fun e => .line e.1 e.2)) := rfl
    have hkept : captured { log with logCapLines := captured log [e.1.capLine] }
        (entries.map (fun e => e.1.capLine)) =
          captured log ((e :: entries).map (fun e => e.1.capLine)) := by
      funext list
      by_cases hlist : log.logCapLinesActive.contains list = true
      · simp [captured, hlist]
      · simp [captured, hlist]
    rw [hstep, ih, logLine_eq]
    simp only [List.flatMap_cons, List.append_assoc]
    exact congrArg (fun lists => Log.mk _ _ lists _) hkept

theorem foldl_print (log : Log) (lines : List (LogCapLine × Nat)) (times : Nat → String) :
    lines.foldl (fun log e => log.print isatty (times e.2) e.1) log =
      { log with
        printed := log.printed ++
          lines.flatMap (fun e => printLine isatty log.active (times e.2) e.1) } := by
  induction lines generalizing log with
  | nil => simp only [List.flatMap_nil, List.append_nil, List.foldl_nil]
  | cons e lines ih =>
    rw [List.foldl_cons, ih, List.flatMap_cons, ← List.append_assoc]
    rfl

theorem playback_eq (log : Log) (times : Nat → String) (capLines : List LogCapLine) :
    log.playback isatty times capLines =
      { log with
        printed := log.printed ++ (capLines.zipIdx).flatMap
          (fun e => printLine isatty log.active (times e.2) e.1) } :=
  foldl_print log _ times

/-! ### The startup of a server -/

/-- A list that is added and removed again was not there before. -/
theorem remove_add {s : OrderedSet Nat (fun a b => a == b)} {list : Nat}
    (h : s.contains list = false) : (s.add list).remove list = s := by
  have hmem : list ∉ s.vals := by
    intro hmem
    rw [OrderedSet.contains_iff.mpr hmem] at h
    contradiction
  apply OrderedSet.ext
  rw [OrderedSet.vals_remove, OrderedSet.add, dif_neg (by simp [h]), List.filter_append]
  have hkept : s.vals.filter (fun b => b != list) = s.vals := by
    apply List.filter_eq_self.mpr
    intro b hb
    have hne : b ≠ list := fun heq => hmem (heq ▸ hb)
    simpa using hne
  rw [hkept]
  simp

theorem contains_add (s : OrderedSet Nat (fun a b => a == b)) (list other : Nat) :
    (s.add list).contains other = (decide (other = list) || s.contains other) := by
  rw [Bool.eq_iff_iff, OrderedSet.contains_iff, OrderedSet.mem_add, Bool.or_eq_true,
    OrderedSet.contains_iff, decide_eq_true_eq]

theorem setThreshold_suppressing (active : LogActive) (suppressing : Bool)
    (threshold : Option LogThreshold) (cli : Bool) :
    { active with suppressing := suppressing }.setThreshold threshold cli =
      { active.setThreshold threshold cli with suppressing := suppressing } := by
  cases threshold with
  | none => rfl
  | some threshold =>
    simp only [LogActive.setThreshold]
    split <;> rfl

/-- Nothing is printed while it is suppressed, and a new list gets all that is logged. -/
theorem calls_suppressed (log : Log) (list : Nat) (entries : List (LogEntry × String)) :
    log.calls isatty ([.capLinesStart list, .suppressStart] ++
        entries.map (fun e => .line e.1 e.2)) =
      { log with
        active := { log.active with suppressing := true }
        logCapLinesActive := log.logCapLinesActive.add list
        logCapLines := captured { log with logCapLinesActive := log.logCapLinesActive.add list }
          (entries.map (fun e => e.1.capLine)) } := by
  have hsplit : log.calls isatty ([.capLinesStart list, .suppressStart] ++
        entries.map (fun e => .line e.1 e.2)) =
      Log.calls isatty { log with
        active := { log.active with suppressing := true }
        logCapLinesActive := log.logCapLinesActive.add list }
        (entries.map (fun e => .line e.1 e.2)) := rfl
  have hnone : ∀ (e : LogEntry × String), printLine isatty
      { log.active with suppressing := true } e.2 e.1.capLine = [] := by
    intro e
    simp [printLine]
  rw [hsplit, calls_lines]
  simp only [hnone, List.flatMap_eq_nil_iff.mpr, implies_true, List.append_nil]
  rfl

def retimed (entries : List (LogEntry × String)) (times : Nat → String) :
    List (LogEntry × String) := (entries.zipIdx).map (fun e => (e.1.1, times e.2))

theorem map_retimed (entries : List (LogEntry × String)) (times : Nat → String) :
    (retimed entries times).map (fun e => e.1.capLine) = entries.map (fun e => e.1.capLine) := by
  rw [retimed, List.map_map]
  nth_rewrite 2 [← List.zipIdx_map_fst 0 entries]
  rw [List.map_map]
  rfl

theorem flatMap_retimed (entries : List (LogEntry × String)) (times : Nat → String)
    (active : LogActive) :
    (retimed entries times).flatMap (fun e => printLine isatty active e.2 e.1.capLine) =
      (entries.map (fun e => e.1.capLine)).zipIdx.flatMap
        (fun e => printLine isatty active (times e.2) e.1) := by
  rw [retimed, List.zipIdx_map, List.flatMap_map, List.flatMap_map]
  rfl

/-- What is logged before the threshold is known is printed as if it had been known before: each
line once, in its order, on its stream, or not at all; nothing is printed earlier, nothing stays
behind, and no other list of lines misses any. -/
theorem startup_prints (isatty : LogStream → Bool) (log : Log) (list : Nat)
    (entries : List (LogEntry × String)) (threshold : Option LogThreshold)
    (times : Nat → String) (hlist : log.logCapLinesActive.contains list = false)
    (hempty : log.logCapLines list = []) (hprinting : log.active.suppressing = false) :
    log.calls isatty (serverStartup list entries threshold times) =
        log.calls isatty (.setThreshold threshold false ::
          (retimed entries times).map (fun e => .line e.1 e.2)) ∧
      (log.calls isatty ([.capLinesStart list, .suppressStart] ++
        entries.map (fun e => .line e.1 e.2))).printed = log.printed := by
  have hsuppressed := @calls_suppressed isatty log list entries
  refine ⟨?_, by rw [hsuppressed]⟩
  have hactive : { { log.active with suppressing := true }.setThreshold threshold false with
      suppressing := false } = log.active.setThreshold threshold false := by
    rw [setThreshold_suppressing, ← hprinting, ← setThreshold_suppressing]
  have hkept : ∀ other, (if other = list then [] else
      captured { log with logCapLinesActive := log.logCapLinesActive.add list }
        (entries.map (fun e => e.1.capLine)) other) =
      captured log (entries.map (fun e => e.1.capLine)) other := by
    intro other
    by_cases hother : other = list
    · subst hother
      simp [captured, hlist, hempty]
    · simp [captured, contains_add, hother]
  have hheld : captured { log with logCapLinesActive := log.logCapLinesActive.add list }
      (entries.map (fun e => e.1.capLine)) list = entries.map (fun e => e.1.capLine) := by
    simp [captured, contains_add, hempty]
  have hdirect : log.calls isatty (.setThreshold threshold false ::
      (retimed entries times).map (fun e => .line e.1 e.2)) =
        Log.calls isatty { log with active := log.active.setThreshold threshold false }
          ((retimed entries times).map (fun e => .line e.1 e.2)) := rfl
  rw [serverStartup, Log.calls, List.foldl_append]
  rw [Log.calls] at hsuppressed
  rw [hsuppressed, hdirect, calls_lines, map_retimed, flatMap_retimed]
  simp only [List.foldl_cons, List.foldl_nil, Log.call, playback_eq, hactive, hheld,
    remove_add hlist]
  exact congrArg (fun lists => Log.mk _ _ lists _) (funext hkept)

/-- A version, and a configuration that is not there, for a server that is to print warnings. -/
theorem startup_prints_warned :
    let entries : List (LogEntry × String) :=
      [(⟨.info, "way-displays version 1.14.1", none⟩, "08:00:00"),
        (⟨.warning, "Unable to read file cfg.yaml", some (2, "No such file or directory")⟩,
          "08:00:00")]
    logInit.calls (fun _ => false)
        (serverStartup 1 entries (some .warning) (fun _ => "08:00:01")) =
      logInit.calls (fun _ => false) (.setThreshold (some .warning) false ::
        (retimed entries (fun _ => "08:00:01")).map (fun e => .line e.1 e.2)) ∧
    (logInit.calls (fun _ => false) ([.capLinesStart 1, .suppressStart] ++
      entries.map (fun e => .line e.1 e.2))).printed = [] := by
  intro entries
  exact startup_prints (fun _ => false) logInit 1 entries (some .warning) (fun _ => "08:00:01")
    (by decide) (by decide) (by decide)

end WayDisplays.Log.Startup
