/- A fragment of the shell: lines of words, where single quotes keep what is between them. -/

import Mathlib.Data.List.Basic

set_option autoImplicit false
set_option relaxedAutoImplicit false

namespace WayDisplays.Lib.Shell

abbrev Word := List Char

/-- How far a script is read: its commands, the words of the next one, and an open word. -/
structure Scan where
  commands : List (List Word)
  words : List Word
  word : Option Word
  quoted : Bool
  deriving DecidableEq, Repr

/-- Characters that mean something other than themselves outside of quotes. -/
def special : List Char := "|&;<>()$`\\\"*?[#~=%!\x7b\x7d".toList

def Scan.push (s : Scan) (c : Char) : Scan := { s with word := some (s.word.getD [] ++ [c]) }

def Scan.endWord (s : Scan) : Scan :=
  match s.word with
  | some w => { s with words := s.words ++ [w], word := none }
  | none => s

def Scan.endCommand (s : Scan) : Scan :=
  if s.endWord.words = [] then s.endWord
  else { s.endWord with commands := s.endWord.commands ++ [s.endWord.words], words := [] }

/-- No expansions, operators or comments: a character that calls for them is not read. -/
def step (s : Scan) (c : Char) : Option Scan :=
  if s.quoted then some (if c = '\'' then { s with quoted := false } else s.push c)
  else if c = '\'' then some { s with word := some (s.word.getD []), quoted := true }
  else if c = ' ' ∨ c = '\t' then some s.endWord
  else if c = '\n' then some s.endCommand
  else if c ∈ special then none
  else some (s.push c)

def scan (s : Scan) (cs : List Char) : Option Scan := cs.foldlM step s

def between (done : List (List Word)) (words : List Word) : Scan :=
  { commands := done, words := words, word := none, quoted := false }

/-- The commands of a script that leaves no quote open. -/
def commands (cs : List Char) : Option (List (List Word)) :=
  (scan (between [] []) cs).bind (fun s => if s.quoted then none else some s.endCommand.commands)

theorem scan_cons (s : Scan) (c : Char) (cs : List Char) :
    scan s (c :: cs) = (step s c).bind (fun s => scan s cs) := by
  rw [scan, List.foldlM_cons]
  rfl

theorem scan_append (s : Scan) (cs ds : List Char) :
    scan s (cs ++ ds) = (scan s cs).bind (fun s => scan s ds) := by
  rw [scan, List.foldlM_append]
  rfl

/-! ### Words -/

/-- A character that stands for itself. -/
def plain (c : Char) : Bool := decide (c ∉ special) && decide (c ∉ [' ', '\t', '\n', '\''])

def Plain (w : Word) : Prop := w ≠ [] ∧ ∀ c ∈ w, plain c = true

instance (w : Word) : Decidable (Plain w) :=
  decidable_of_iff (w ≠ [] ∧ w.all plain = true) (and_congr_right' List.all_eq_true)

theorem step_plain {s : Scan} {c : Char} (hquoted : s.quoted = false) (h : plain c = true) :
    step s c = some (s.push c) := by
  simp only [plain, Bool.and_eq_true, decide_eq_true_eq, List.mem_cons, List.not_mem_nil,
    not_or, or_false] at h
  obtain ⟨hspecial, hblank, htab, hline, hquote⟩ := h
  simp [step, hquoted, hquote, hblank, htab, hline, hspecial]

theorem scan_plain {done : List (List Word)} {words : List Word} (v : Word) {w : Word}
    (h : ∀ c ∈ w, plain c = true) :
    scan ⟨done, words, some v, false⟩ w = some ⟨done, words, some (v ++ w), false⟩ := by
  induction w generalizing v with
  | nil => simp [scan]
  | cons c w ih =>
    have hpush := step_plain (s := ⟨done, words, some v, false⟩) rfl (h c List.mem_cons_self)
    rw [scan_cons, hpush, Option.bind_some, Scan.push, Option.getD_some,
      ih _ fun d hd => h d (List.mem_cons_of_mem c hd), List.append_assoc, List.singleton_append]

theorem scan_quoted {done : List (List Word)} {words : List Word} (v : Word) {w : Word}
    (h : '\'' ∉ w) :
    scan ⟨done, words, some v, true⟩ w = some ⟨done, words, some (v ++ w), true⟩ := by
  induction w generalizing v with
  | nil => simp [scan]
  | cons c w ih =>
    rw [List.mem_cons, not_or] at h
    have hpush : step ⟨done, words, some v, true⟩ c =
        some ⟨done, words, some (v ++ [c]), true⟩ := by
      simp [step, Scan.push, Ne.symm h.1]
    rw [scan_cons, hpush, Option.bind_some, ih _ h.2, List.append_assoc, List.singleton_append]

/-- A text that is read as a word, which is still open at its end. -/
def Spells (cs : List Char) (w : Word) : Prop :=
  ∀ done words, scan (between done words) cs = some ⟨done, words, some w, false⟩

theorem spells_plain {w : Word} (h : Plain w) : Spells w w := by
  intro done words
  cases w with
  | nil => exact absurd rfl h.1
  | cons c w =>
    have hpush := step_plain (s := between done words) rfl (h.2 c List.mem_cons_self)
    rw [scan_cons, hpush, Option.bind_some]
    exact scan_plain [c] fun d hd => h.2 d (List.mem_cons_of_mem c hd)

theorem spells_quoted {w : Word} (h : '\'' ∉ w) : Spells ('\'' :: (w ++ ['\''])) w := by
  intro done words
  have hopen : step (between done words) '\'' = some ⟨done, words, some [], true⟩ := rfl
  rw [scan_cons, hopen, Option.bind_some, scan_append, scan_quoted [] h]
  rfl

/-- How a word is written. -/
inductive Spelling
  | bare (w : Word)
  | quoted (w : Word)

def Spelling.text : Spelling → List Char
  | .bare w => w
  | .quoted w => '\'' :: (w ++ ['\''])

def Spelling.word : Spelling → Word
  | .bare w => w
  | .quoted w => w

/-- What is written is read as the word. -/
def Spelling.Clean : Spelling → Prop
  | .bare w => Plain w
  | .quoted w => '\'' ∉ w

instance : (a : Spelling) → Decidable a.Clean
  | .bare w => inferInstanceAs (Decidable (Plain w))
  | .quoted w => inferInstanceAs (Decidable ('\'' ∉ w))

theorem Spelling.Clean.spells {a : Spelling} (h : a.Clean) : Spells a.text a.word := by
  cases a with
  | bare w => exact spells_plain h
  | quoted w => exact spells_quoted h

/-! ### Commands -/

/-- A text that is read as these words, whether it ends with a blank or not. -/
def Reads (cs : List Char) (ws : List Word) : Prop :=
  ∀ done words, ∃ s, scan (between done words) cs = some s ∧ s.quoted = false ∧
    s.endWord = between done (words ++ ws)

theorem Spells.reads {cs : List Char} {w : Word} (h : Spells cs w) : Reads cs [w] :=
  fun done words => ⟨_, h done words, rfl, rfl⟩

theorem step_blank {s : Scan} (h : s.quoted = false) : step s ' ' = some s.endWord := by
  simp [step, h]

theorem Reads.blank {cs : List Char} {ws : List Word} (h : Reads cs ws) :
    Reads (cs ++ [' ']) ws := by
  intro done words
  obtain ⟨s, hscan, hquoted, hend⟩ := h done words
  refine ⟨s.endWord, ?_, by rw [hend]; rfl, by rw [hend]; rfl⟩
  rw [scan_append, hscan, Option.bind_some, scan_cons, step_blank hquoted]
  rfl

theorem Reads.snoc {cs ds : List Char} {ws : List Word} {w : Word} (h : Reads cs ws)
    (hw : Spells ds w) : Reads (cs ++ ' ' :: ds) (ws ++ [w]) := by
  intro done words
  obtain ⟨s, hscan, hquoted, hend⟩ := h done words
  refine ⟨⟨done, words ++ ws, some w, false⟩, ?_, rfl, ?_⟩
  · rw [scan_append, hscan, Option.bind_some, scan_cons, step_blank hquoted, Option.bind_some,
      hend]
    exact hw done (words ++ ws)
  · rw [← List.append_assoc]
    rfl

/-- Words with a blank in front of each. -/
theorem Reads.spellings {cs : List Char} {ws : List Word} (h : Reads cs ws)
    {spellings : List Spelling} (hclean : ∀ a ∈ spellings, a.Clean) :
    Reads (cs ++ spellings.flatMap (fun a => ' ' :: a.text))
      (ws ++ spellings.map Spelling.word) := by
  induction spellings generalizing cs ws with
  | nil => simpa using h
  | cons a spellings ih =>
    have hrest := ih (h.snoc (hclean a List.mem_cons_self).spells)
      fun b hb => hclean b (List.mem_cons_of_mem a hb)
    simpa using hrest

/-! ### Lines -/

/-- A script of lines. -/
def text (lines : List (List Char)) : List Char := lines.flatMap (· ++ ['\n'])

/-- Lines that are read as these commands. -/
def Lines (lines : List (List Char)) (cmds : List (List Word)) : Prop :=
  ∀ done, scan (between done []) (text lines) = some (between (done ++ cmds) [])

theorem lines_nil : Lines [] [] := by
  intro done
  rw [List.append_nil]
  rfl

theorem lines_append {ls ls' : List (List Char)} {cmds cmds' : List (List Word)}
    (h : Lines ls cmds) (h' : Lines ls' cmds') : Lines (ls ++ ls') (cmds ++ cmds') := by
  intro done
  rw [text, List.flatMap_append, scan_append]
  have hread := h done
  rw [text] at hread
  rw [hread, Option.bind_some, ← List.append_assoc]
  exact h' (done ++ cmds)

/-- An empty line is no command. -/
theorem lines_blank : Lines [[]] [] := by
  intro done
  rw [List.append_nil]
  rfl

theorem lines_map {α : Type} {xs : List α} {line : α → List Char} {words : α → List Word}
    (h : ∀ x ∈ xs, Lines [line x] [words x]) : Lines (xs.map line) (xs.map words) := by
  induction xs with
  | nil => exact lines_nil
  | cons x xs ih =>
    exact lines_append (h x List.mem_cons_self) (ih fun y hy => h y (List.mem_cons_of_mem x hy))

/-- A line of at least one word is a command. -/
theorem Reads.line {cs : List Char} {ws : List Word} (h : Reads cs ws) (hne : ws ≠ []) :
    Lines [cs] [ws] := by
  intro done
  obtain ⟨s, hscan, hquoted, hend⟩ := h done []
  rw [List.nil_append] at hend
  have hnewline : step s '\n' = some (between (done ++ [ws]) []) := by
    have hcommand : s.endCommand = between (done ++ [ws]) [] := by
      rw [Scan.endCommand, hend]
      exact if_neg hne
    rw [← hcommand]
    simp [step, hquoted]
  rw [text, List.flatMap_singleton, scan_append, hscan, Option.bind_some, scan_cons, hnewline]
  rfl

theorem commands_of_lines {ls : List (List Char)} {cmds : List (List Word)} (h : Lines ls cmds) :
    commands (text ls) = some cmds := by
  rw [commands, h, Option.bind_some, List.nil_append]
  rfl

/-- A quote that is never closed. -/
theorem commands_of_open {ls : List (List Char)} {cmds : List (List Word)} {cs : List Char}
    {ws : List Word} {w : Word} (h : Lines ls cmds) (hws : Reads cs ws) (hw : '\'' ∉ w) :
    commands (text (ls ++ [cs ++ ' ' :: '\'' :: w])) = none := by
  obtain ⟨s, hscan, hquoted, hend⟩ := hws cmds []
  have hopen : step (between cmds ([] ++ ws)) '\'' = some ⟨cmds, [] ++ ws, some [], true⟩ := rfl
  have hrest : '\'' ∉ w ++ ['\n'] := by
    rw [List.mem_append, List.mem_singleton, not_or]
    exact ⟨hw, by decide⟩
  have htext : text (ls ++ [cs ++ ' ' :: '\'' :: w]) =
      text ls ++ (cs ++ ' ' :: '\'' :: (w ++ ['\n'])) := by
    simp [text]
  rw [commands, htext, scan_append, h, Option.bind_some, List.nil_append, scan_append, hscan,
    Option.bind_some, scan_cons, step_blank hquoted, Option.bind_some, hend, scan_cons, hopen,
    Option.bind_some, scan_quoted [] hrest]
  rfl

end WayDisplays.Lib.Shell
