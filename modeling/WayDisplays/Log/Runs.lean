/- Whatever a process logs, sets and captures: which threshold is in force, and what a list of
lines gets. -/

import WayDisplays.Log.Startup

set_option autoImplicit false
set_option relaxedAutoImplicit false

namespace WayDisplays.Log.Runs

open Lib (OrderedSet)
open Model Startup

variable {isatty : LogStream → Bool}

/-! ### Thresholds -/

/-- The threshold that a call sets, on the command line or elsewhere. -/
def setBy (cli : Bool) : LogCall → Option LogThreshold
  | .setThreshold threshold cli' => if cli' = cli then threshold else none
  | _ => none

def thresholds (cli : Bool) (calls : List LogCall) : List LogThreshold :=
  calls.filterMap (setBy cli)

/-- The threshold in force once calls were made: the last of the command line, else the last. -/
def inForce (active : LogActive) (calls : List LogCall) : LogThreshold :=
  (thresholds true calls).getLast?.getD
    (if active.thresholdCli then active.threshold
    else (thresholds false calls).getLast?.getD active.threshold)

/-- Only a call that sets it changes the threshold. -/
theorem active_call (log : Log) (call : LogCall) (hcall : ∀ cli, setBy cli call = none) :
    (log.call isatty call).active.threshold = log.active.threshold ∧
      (log.call isatty call).active.thresholdCli = log.active.thresholdCli := by
  cases call with
  | line entry time =>
    rw [Log.call, logLine_eq]
    exact ⟨rfl, rfl⟩
  | setThreshold threshold cli =>
    have hnone : threshold = none := (if_pos rfl).symm.trans (hcall cli)
    subst hnone
    exact ⟨rfl, rfl⟩
  | capLinesPlayback list times =>
    rw [Log.call, playback_eq]
    exact ⟨rfl, rfl⟩
  | _ => exact ⟨rfl, rfl⟩

theorem inForce_setBy (log : Log) (threshold : LogThreshold) (cli : Bool) (calls : List LogCall) :
    inForce (log.active.setThreshold (some threshold) cli) calls =
      inForce log.active (.setThreshold (some threshold) cli :: calls) := by
  obtain ⟨⟨current, currentCli, prefixed, suppressing⟩, capturing, capLines, printed⟩ := log
  have hsets : ∀ cli', thresholds cli' (.setThreshold (some threshold) cli :: calls) =
      if cli = cli' then threshold :: thresholds cli' calls else thresholds cli' calls := by
    intro cli'
    by_cases hcli : cli = cli'
    · simp [thresholds, setBy, hcli]
    · simp [thresholds, setBy, hcli]
  rw [inForce, inForce, hsets, hsets]
  cases cli with
  | true => simp [LogActive.setThreshold, List.getLast?_cons]
  | false => cases currentCli <;> simp [LogActive.setThreshold, List.getLast?_cons]

/-- A threshold of the command line is in force whatever configurations are loaded; without one,
the last that was set. -/
theorem threshold_calls (isatty : LogStream → Bool) (log : Log) (calls : List LogCall) :
    (log.calls isatty calls).active.threshold = inForce log.active calls := by
  induction calls generalizing log with
  | nil => simp [inForce, thresholds, Log.calls]
  | cons call calls ih =>
    have hrest : log.calls isatty (call :: calls) = (log.call isatty call).calls isatty calls := rfl
    have hother (hcall : ∀ cli, setBy cli call = none) :
        inForce (log.call isatty call).active calls = inForce log.active (call :: calls) := by
      obtain ⟨hthreshold, hcli⟩ := @active_call isatty log call hcall
      simp only [inForce, thresholds, List.filterMap_cons, hcall, hthreshold, hcli]
    rw [hrest, ih]
    cases call with
    | setThreshold threshold cli =>
      cases threshold with
      | none =>
        apply hother
        intro cli'
        simp [setBy]
      | some threshold => exact inForce_setBy log threshold cli calls
    | _ =>
      apply hother
      intro cli
      rfl

/-! ### Lists of lines -/

/-- The calls that a list of lines is about: what is logged, and its own. -/
def concerns (list : Nat) : LogCall → Bool
  | .line _ _ => true
  | .capLinesStart other | .capLinesStop other | .clear other => other == list
  | _ => false

/-- The list is active in both, or in neither, and has the same lines. -/
structure Agree (list : Nat) (log log' : Log) : Prop where
  active : log.logCapLinesActive.contains list = log'.logCapLinesActive.contains list
  lines : log.logCapLines list = log'.logCapLines list

variable {list : Nat} {log log' : Log}

theorem contains_remove (s : OrderedSet Nat (fun a b => a == b)) (other : Nat) :
    (s.remove other).contains list = (s.contains list && decide (list ≠ other)) := by
  rw [Bool.eq_iff_iff, OrderedSet.contains_iff, OrderedSet.mem_remove, Bool.and_eq_true,
    OrderedSet.contains_iff, decide_eq_true_eq]

theorem Agree.skip (h : Agree list log log') {call : LogCall} (hcall : concerns list call = false)
    (isatty : LogStream → Bool) : Agree list (log.call isatty call) log' := by
  cases call with
  | line entry time => exact absurd hcall (by simp [concerns])
  | setThreshold threshold cli => exact ⟨h.active, h.lines⟩
  | setPrefix prefixed => exact ⟨h.active, h.lines⟩
  | suppressStart => exact ⟨h.active, h.lines⟩
  | suppressStop => exact ⟨h.active, h.lines⟩
  | capLinesStart other =>
    have hne : list ≠ other := fun heq => by simp [concerns, heq] at hcall
    refine ⟨?_, h.lines⟩
    simp only [Log.call, contains_add, hne, decide_false, Bool.false_or, h.active]
  | capLinesStop other =>
    have hne : list ≠ other := fun heq => by simp [concerns, heq] at hcall
    refine ⟨?_, h.lines⟩
    simp only [Log.call, contains_remove, hne, ne_eq, not_false_eq_true, decide_true,
      Bool.and_true, h.active]
  | capLinesPlayback other times =>
    rw [Log.call, playback_eq]
    exact ⟨h.active, h.lines⟩
  | clear other =>
    have hne : list ≠ other := fun heq => by simp [concerns, heq] at hcall
    refine ⟨h.active, ?_⟩
    simp only [Log.call, hne, if_false, h.lines]

theorem Agree.call (h : Agree list log log') {call : LogCall} (hcall : concerns list call = true)
    (isatty isatty' : LogStream → Bool) :
    Agree list (log.call isatty call) (log'.call isatty' call) := by
  cases call with
  | line entry time =>
    rw [Log.call, Log.call, logLine_eq, logLine_eq]
    refine ⟨h.active, ?_⟩
    simp only [captured, h.active, h.lines]
  | capLinesStart other =>
    refine ⟨?_, h.lines⟩
    simp only [Log.call, contains_add, h.active]
  | capLinesStop other =>
    refine ⟨?_, h.lines⟩
    simp only [Log.call, contains_remove, h.active]
  | clear other =>
    refine ⟨h.active, ?_⟩
    simp only [Log.call, h.lines]
  | _ => exact absurd hcall (by simp [concerns])

/-- What a list of lines gets is what is logged while it is active: no threshold, prefix or
terminal, no suppression or playback and no other list makes a difference. -/
theorem captured_alike (isatty isatty' : LogStream → Bool) (h : Agree list log log')
    (calls : List LogCall) :
    Agree list (log.calls isatty calls)
      (log'.calls isatty' (calls.filter (concerns list))) := by
  induction calls generalizing log log' with
  | nil => exact h
  | cons call calls ih =>
    by_cases hcall : concerns list call = true
    · rw [List.filter_cons_of_pos hcall]
      exact ih (h.call hcall isatty isatty')
    · rw [List.filter_cons_of_neg hcall]
      exact ih (h.skip (Bool.not_eq_true _ ▸ hcall) isatty)

/-- One client after another, each with a list of its own, against one client alone. -/
theorem captured_alike_clients :
    let entry : LogEntry := ⟨.debug, "Arrived", none⟩
    Agree 2
      (logInit.calls (fun _ => true) [.setThreshold (some .error) true, .capLinesStart 1,
        .line entry "08:00:00", .capLinesStart 2, .suppressStart, .line entry "08:00:01",
        .capLinesStop 1, .clear 1])
      (logInit.calls (fun _ => false) [.line entry "08:00:00", .capLinesStart 2,
        .line entry "08:00:01"]) :=
  captured_alike (fun _ => true) (fun _ => false) ⟨rfl, rfl⟩
    [.setThreshold (some .error) true, .capLinesStart 1,
      .line ⟨.debug, "Arrived", none⟩ "08:00:00", .capLinesStart 2, .suppressStart,
      .line ⟨.debug, "Arrived", none⟩ "08:00:01", .capLinesStop 1, .clear 1]

/-- An operation whose lines are a list of the log. -/
structure Holds (log : Log) (list : Nat) (operation : IpcOperation) : Prop where
  capturing : operation.capturing = log.logCapLinesActive.contains list
  lines : operation.logCapLines = log.logCapLines list

/-- What is logged reaches the operation by way of its list. -/
theorem Holds.captureLines {operation : IpcOperation} (h : Holds log list operation)
    (isatty : LogStream → Bool) (entries : List (LogEntry × String)) :
    Holds (log.calls isatty (entries.map (fun e => .line e.1 e.2))) list
      (operation.captureLines (entries.map (fun e => e.1.capLine))) := by
  rw [calls_lines]
  cases hcapturing : operation.capturing with
  | true =>
    have hactive : log.logCapLinesActive.contains list = true := h.capturing ▸ hcapturing
    refine ⟨?_, ?_⟩
    · simp only [IpcOperation.captureLines, hcapturing, if_true, hactive]
    · simp only [IpcOperation.captureLines, hcapturing, if_true, captured, hactive, h.lines]
  | false =>
    have hactive : log.logCapLinesActive.contains list = false := h.capturing ▸ hcapturing
    refine ⟨?_, ?_⟩
    · simp only [IpcOperation.captureLines, hcapturing, Bool.false_eq_true, if_false, hactive]
    · simp only [IpcOperation.captureLines, hcapturing, Bool.false_eq_true, if_false, captured,
        hactive, h.lines]

end WayDisplays.Log.Runs
