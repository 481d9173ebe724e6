/- Edits of the configuration file by other programs: when one is lost. -/

import WayDisplays.Lib.Run
import WayDisplays.Model.CfgFile

set_option autoImplicit false
set_option relaxedAutoImplicit false

namespace WayDisplays.CfgFile.Edits

open Lib
open Lib.Run
open Model

variable {w w' : CfgWatch}

/-- What the events that are still unread will bring about. -/
def Reloads (w : CfgWatch) : Prop :=
  w.gCfgFile.fileName ≠ "" ∧
    (if w.gCfgFile.written then (fdCfgFileModified w.gCfgFile w.queue).2 else w.queue).any
      (fun event => event.isOf w.gCfgFile.fileName) = true

def Loaded (w : CfgWatch) : Prop := w.edited = false ∨ Reloads w

theorem modified_none {gCfgFile : CfgFile} (h : gCfgFile.fileName = "")
    (queue : List InotifyEvent) : fdCfgFileModified gCfgFile queue = (false, queue) := if_pos h

theorem modified_cases {gCfgFile : CfgFile} (h : gCfgFile.fileName ≠ "")
    (queue : List InotifyEvent) :
    (fdCfgFileModified gCfgFile queue = (false, []) ∧
      queue.any (fun event => event.isOf gCfgFile.fileName) = false) ∨
    ∃ rest, fdCfgFileModified gCfgFile queue = (true, rest) ∧ rest <:+ queue ∧
      rest.length < queue.length ∧
      queue.any (fun event => event.isOf gCfgFile.fileName) = true := by
  rw [fdCfgFileModified, if_neg h]
  exact Buffered.search_cases InotifyEvent.size_le queue

/-- The event that reloads lies behind the one that tells of the server's own write. -/
theorem modified_of_reloads (h : Reloads w) (hwritten : w.gCfgFile.written = true) :
    ∃ rest, fdCfgFileModified w.gCfgFile w.queue = (true, rest) ∧
      rest.any (fun event => event.isOf w.gCfgFile.fileName) = true ∧
      w.queue.any (fun event => event.isOf w.gCfgFile.fileName) = true := by
  obtain ⟨hname, hreloads⟩ := h
  rw [if_pos hwritten] at hreloads
  rcases modified_cases hname w.queue with ⟨hfalse, -⟩ | ⟨rest, htrue, -, -, hsome⟩
  · rw [hfalse] at hreloads
    contradiction
  · rw [htrue] at hreloads
    exact ⟨rest, htrue, hreloads, hsome⟩

theorem any_of_reloads (h : Reloads w) :
    w.queue.any (fun event => event.isOf w.gCfgFile.fileName) = true := by
  by_cases hwritten : w.gCfgFile.written = true
  · obtain ⟨-, -, -, hsome⟩ := modified_of_reloads h hwritten
    exact hsome
  · have hreloads := h.2
    rwa [if_neg hwritten] at hreloads

theorem modified_snoc {gCfgFile : CfgFile} {queue rest : List InotifyEvent}
    (event : InotifyEvent) (h : fdCfgFileModified gCfgFile queue = (true, rest))
    (hrest : rest ≠ []) :
    fdCfgFileModified gCfgFile (queue ++ [event]) = (true, rest ++ [event]) := by
  by_cases hname : gCfgFile.fileName = ""
  · rw [modified_none hname] at h
    simp at h
  · rw [fdCfgFileModified, if_neg hname] at h ⊢
    exact Buffered.search_snoc InotifyEvent.size_le event h hrest

/-! ### Draining -/

theorem loop_none (h : w.gCfgFile.fileName = "") : loopCfgDir w = w := by
  simp [loopCfgDir, modified_none h]

theorem not_reloads_none (h : w.gCfgFile.fileName = "") : ¬ Reloads w := fun hreloads =>
  hreloads.1 h

theorem filePath_ne (h : w.gCfgFile.fileName ≠ "") : w.gCfgFile.filePath ≠ "" :=
  fun hpath => h (w.gCfgFile.named.mp hpath)

theorem loop_cases (h : w.gCfgFile.fileName ≠ "") :
    (loopCfgDir w = { w with queue := [] } ∧
      w.queue.any (fun event => event.isOf w.gCfgFile.fileName) = false) ∨
    ∃ rest, rest.length < w.queue.length ∧ fdCfgFileModified w.gCfgFile w.queue = (true, rest) ∧
      w.queue.any (fun event => event.isOf w.gCfgFile.fileName) = true ∧
      loopCfgDir w =
        if w.gCfgFile.written then
          { w with queue := rest, gCfgFile := { w.gCfgFile with written := false } }
        else { w with queue := rest, edited := false } := by
  rcases modified_cases h w.queue with ⟨hfalse, hnone⟩ | ⟨rest, htrue, -, hlength, hsome⟩
  · exact .inl ⟨by simp [loopCfgDir, hfalse], hnone⟩
  · refine .inr ⟨rest, hlength, htrue, hsome, ?_⟩
    simp [loopCfgDir, htrue, gCfgFileReload, filePath_ne h]

theorem loop_fileName (w : CfgWatch) :
    (loopCfgDir w).gCfgFile.fileName = w.gCfgFile.fileName := by
  by_cases h : w.gCfgFile.fileName = ""
  · rw [loop_none h]
  · rcases loop_cases h with ⟨hloop, -⟩ | ⟨rest, -, -, -, hloop⟩
    · rw [hloop]
    · rw [hloop]
      split <;> rfl

/-- Reading events brings about what they are to bring about. -/
theorem loaded_loop (w : CfgWatch) : Loaded (loopCfgDir w) ↔ Loaded w := by
  by_cases h : w.gCfgFile.fileName = ""
  · rw [loop_none h]
  · rcases loop_cases h with ⟨hloop, hnone⟩ | ⟨rest, -, htrue, hsome, hloop⟩
    · have hfalse : ¬ Reloads w := by
        intro hreloads
        rw [any_of_reloads hreloads] at hnone
        contradiction
      have hfalse' : ¬ Reloads { w with queue := [] } := by
        intro hreloads
        have hsome := any_of_reloads hreloads
        contradiction
      rw [hloop]
      simp only [Loaded, hfalse, hfalse']
    · rw [hloop]
      by_cases hwritten : w.gCfgFile.written = true
      · simp [Loaded, Reloads, hwritten, htrue]
      · simp [Loaded, Reloads, hwritten, h, hsome]

theorem loaded_iterate (n : Nat) (w : CfgWatch) : Loaded (loopCfgDir^[n] w) ↔ Loaded w := by
  induction n generalizing w with
  | zero => exact Iff.rfl
  | succ n ih =>
    rw [Function.iterate_succ_apply, ih, loaded_loop]

theorem iterate_fileName (n : Nat) (w : CfgWatch) :
    (loopCfgDir^[n] w).gCfgFile.fileName = w.gCfgFile.fileName := by
  induction n generalizing w with
  | zero => rfl
  | succ n ih => rw [Function.iterate_succ_apply, ih, loop_fileName]

theorem iterate_queue (n : Nat) (h : w.gCfgFile.fileName ≠ "") (hlength : w.queue.length ≤ n) :
    (loopCfgDir^[n] w).queue = [] := by
  induction n generalizing w with
  | zero => exact List.eq_nil_of_length_eq_zero (Nat.le_zero.mp hlength)
  | succ n ih =>
    rw [Function.iterate_succ_apply]
    refine ih (by rw [loop_fileName]; exact h) ?_
    rcases loop_cases h with ⟨hloop, -⟩ | ⟨rest, hlt, -, -, hloop⟩
    · rw [hloop]
      exact Nat.zero_le n
    · have hqueue : (loopCfgDir w).queue = rest := by
        rw [hloop]
        split <;> rfl
      rw [hqueue]
      omega

theorem drain_queue (h : w.gCfgFile.fileName ≠ "") : w.drain.queue = [] :=
  iterate_queue _ h (le_refl _)

/-- Once all events are read, no edit is left to be loaded, if the events bring that about. -/
theorem drain_edited (w : CfgWatch) : w.drain.edited = false ↔ Loaded w := by
  have hname : w.drain.gCfgFile.fileName = w.gCfgFile.fileName := iterate_fileName _ w
  have hnone : ¬ Reloads w.drain := by
    intro hreloads
    have hsome := any_of_reloads hreloads
    rw [drain_queue (hname ▸ hreloads.1)] at hsome
    contradiction
  have hloaded : Loaded w.drain ↔ Loaded w := loaded_iterate w.queue.length w
  rw [← hloaded, Loaded, or_iff_left hnone]

/-! ### Steps -/

/-- An edit that arrives while the server's own write has not been read back is out of reach
of the buffer that tells of the write; a file that could not be written had no edit left. -/
def Spared (w : CfgWatch) : WatchEvent → Prop
  | .edit event => w.gCfgFile.written = true →
      (fdCfgFileModified w.gCfgFile (w.queue ++ [event])).2 ≠ []
  | .write .nowhere => w.edited = false
  | _ => True

theorem last_of_suffix {queue rest : List InotifyEvent} {event : InotifyEvent}
    (hsuffix : rest <:+ queue ++ [event]) (hne : rest ≠ []) : event ∈ rest := by
  obtain ⟨before, hbefore⟩ := hsuffix
  obtain ⟨init, last, rfl⟩ : ∃ init last, rest = init ++ [last] :=
    ⟨rest.dropLast, rest.getLast hne, (List.dropLast_append_getLast hne).symm⟩
  rw [← List.append_assoc] at hbefore
  have hlast := (List.append_inj' hbefore rfl).2
  rw [List.singleton_inj.mp hlast]
  exact List.mem_append_right init (List.mem_singleton_self event)

/-- An edit is loaded unless it is given up with the buffer that tells of the write. -/
theorem loaded_edit {event : InotifyEvent} (hname : w.gCfgFile.fileName ≠ "")
    (hevent : event.isOf w.gCfgFile.fileName = true) :
    Loaded { w with queue := w.queue ++ [event], edited := true } ↔
      Spared w (.edit event) := by
  have hqueue : (w.queue ++ [event]).any (fun event => event.isOf w.gCfgFile.fileName) =
      true := by
    simp [List.any_append, hevent]
  by_cases hwritten : w.gCfgFile.written = true
  · rcases modified_cases hname (w.queue ++ [event]) with
      ⟨-, hnone⟩ | ⟨rest, htrue, hsuffix, -, -⟩
    · rw [hqueue] at hnone
      contradiction
    · simp only [Loaded, Reloads, Spared, hwritten, htrue, hname, if_true, ne_eq,
        not_false_eq_true, true_and, forall_const, Bool.true_eq_false, false_or]
      constructor
      · rintro hany rfl
        contradiction
      · exact fun hne => List.any_eq_true.mpr ⟨event, last_of_suffix hsuffix hne, hevent⟩
  · simp [Loaded, Reloads, Spared, hwritten, hname, hevent]

theorem loaded_other (event : InotifyEvent) (h : Loaded w) :
    Loaded { w with queue := w.queue ++ [event] } := by
  rcases h with hedited | hreloads
  · exact .inl hedited
  · refine .inr ⟨hreloads.1, ?_⟩
    by_cases hwritten : w.gCfgFile.written = true
    · obtain ⟨rest, htrue, hrest, -⟩ := modified_of_reloads hreloads hwritten
      have hne : rest ≠ [] := by
        rintro rfl
        contradiction
      simp only [if_pos hwritten, modified_snoc event htrue hne, List.any_append, hrest,
        Bool.true_or]
    · simp only [if_neg hwritten, List.any_append, any_of_reloads hreloads, Bool.true_or]

theorem loaded_notMarshalled (h : Loaded w) : Loaded (gCfgFileWrite w .notMarshalled) := by
  rcases h with hedited | hreloads
  · exact .inl hedited
  · have hsome := any_of_reloads hreloads
    exact .inr ⟨hreloads.1, hsome⟩

theorem loaded_nowhere : Loaded (gCfgFileWrite w .nowhere) ↔ w.edited = false :=
  or_iff_left (not_reloads_none rfl)

theorem step_loaded {event : WatchEvent} (h : Loaded w) (hstep : w.step event = some w') :
    Loaded w' ↔ Spared w event := by
  cases event with
  | edit event =>
    obtain ⟨⟨hname, hevent⟩, hnext⟩ := Option.ite_none_right_eq_some.mp hstep
    rw [← Option.some.inj hnext]
    exact loaded_edit hname hevent
  | other event =>
    obtain ⟨-, hnext⟩ := Option.ite_none_right_eq_some.mp hstep
    rw [← Option.some.inj hnext]
    exact iff_of_true (loaded_other event h) True.intro
  | loop =>
    rw [← Option.some.inj hstep, loaded_loop]
    exact iff_of_true h True.intro
  | write outcome =>
    cases outcome with
    | notMarshalled =>
      rw [← Option.some.inj hstep]
      exact iff_of_true (loaded_notMarshalled h) True.intro
    | inPlace first second =>
      obtain ⟨-, hnext⟩ := Option.ite_none_right_eq_some.mp hstep
      rw [← Option.some.inj hnext]
      exact iff_of_true (.inl rfl) True.intro
    | elsewhere file =>
      obtain ⟨-, hnext⟩ := Option.ite_none_right_eq_some.mp hstep
      rw [← Option.some.inj hnext]
      exact iff_of_true (.inl rfl) True.intro
    | nowhere =>
      rw [← Option.some.inj hstep]
      exact loaded_nowhere

/-- In a run no edit is lost, however far it went before the loop reads all events, exactly
when each edit is spared by the server's own writes. -/
theorem drained_iff_spared (file : CfgFile) (events : List WatchEvent) :
    Always CfgWatch.step (fun w => w.drain.edited = false) (cfgWatchInit file) events ↔
      Along CfgWatch.step Spared (cfgWatchInit file) events := by
  refine always_iff_along (J := fun _ => True) (fun _ _ _ _ _ => True.intro) ?_ True.intro ?_
  · intro w event w' _ hdrained hstep
    rw [drain_edited] at hdrained ⊢
    exact step_loaded hdrained hstep
  · exact (drain_edited _).mpr (.inl rfl)

/-! ### An edit that is lost -/

def cfgYaml : CfgFile :=
  { filePath := "/etc/way-displays/cfg.yaml", fileName := "cfg.yaml", written := false,
    named := by decide }

def closeWrite : InotifyEvent :=
  { closeWrite := true, len := 16, name := "cfg.yaml", len_le := by decide }

/-- The file is edited right after the server wrote it. -/
theorem edit_lost : ¬ Always CfgWatch.step (fun w => w.drain.edited = false)
    (cfgWatchInit cfgYaml) [.write (.inPlace closeWrite (some closeWrite)), .edit closeWrite] := by
  intro h
  have hrun : (run CfgWatch.step (cfgWatchInit cfgYaml)
      [.write (.inPlace closeWrite (some closeWrite)), .edit closeWrite]).map
        (fun w => w.drain.edited) = some true := by
    decide +kernel
  obtain ⟨w, hw, hedited⟩ := Option.map_eq_some_iff.mp hrun
  rw [h.last hw] at hedited
  contradiction

end WayDisplays.CfgFile.Edits
