/- Patterns of anchors and ordinary characters: the part of the extended regular expressions in
which a character stands for itself. -/

import Mathlib.Data.List.Infix

set_option autoImplicit false
set_option relaxedAutoImplicit false

namespace WayDisplays.Lib.Pattern

inductive Atom
  | start
  | ordinary (c : Char)
  deriving DecidableEq, Repr

/-- Characters that mean something other than themselves; a zero byte ends the pattern. -/
def special : List Char := "^$.[|()*+?\\\x7b\x00".toList

def Atom.char : Atom → Char
  | .start => '^'
  | .ordinary c => c

def Atom.plain : Atom → Bool
  | .start => true
  | .ordinary c => decide (c ∉ special)

def parseChar (c : Char) : Atom := if c = '^' then .start else .ordinary c

/-- The atoms match a prefix of what follows, at the start of the text or not. -/
def matchesAt : List Atom → Bool → List Char → Bool
  | [], _, _ => true
  | .start :: atoms, first, cs => first && matchesAt atoms first cs
  | .ordinary _ :: _, _, [] => false
  | .ordinary a :: atoms, _, c :: cs => a == c && matchesAt atoms false cs

/-- A match somewhere in the text. -/
def Occurs (atoms : List Atom) (cs : List Char) : Prop :=
  ∃ before after, cs = before ++ after ∧ matchesAt atoms before.isEmpty after = true

/-- Try one position after the other. -/
def search (atoms : List Atom) : Bool → List Char → Bool
  | first, [] => matchesAt atoms first []
  | first, c :: cs => matchesAt atoms first (c :: cs) || search atoms false cs

theorem parseChar_char {atom : Atom} (h : atom.plain = true) : parseChar atom.char = atom := by
  cases atom with
  | start => rfl
  | ordinary c =>
    refine if_neg fun hc => of_decide_eq_true h ?_
    rw [show c = '^' from hc]
    decide

theorem map_parseChar {atoms : List Atom} (h : ∀ atom ∈ atoms, atom.plain = true) :
    (atoms.map Atom.char).map parseChar = atoms := by
  rw [List.map_map]
  exact (List.map_congr_left fun atom hatom => parseChar_char (h atom hatom)).trans
    (List.map_id atoms)

/-! ### Searching -/

private theorem search_false_iff {atoms : List Atom} {cs : List Char} :
    search atoms false cs = true ↔
      ∃ before after, cs = before ++ after ∧ matchesAt atoms false after = true := by
  induction cs with
  | nil =>
    constructor
    · exact fun h => ⟨[], [], rfl, h⟩
    · rintro ⟨before, after, hcs, h⟩
      rwa [(List.append_eq_nil_iff.mp hcs.symm).2] at h
  | cons c cs ih =>
    rw [search, Bool.or_eq_true, ih]
    constructor
    · rintro (h | ⟨before, after, rfl, h⟩)
      · exact ⟨[], c :: cs, rfl, h⟩
      · exact ⟨c :: before, after, rfl, h⟩
    · rintro ⟨_ | ⟨b, before⟩, after, hcs, h⟩
      · rw [List.nil_append] at hcs
        exact Or.inl (hcs ▸ h)
      · exact Or.inr ⟨before, after, (List.cons.inj hcs).2, h⟩

theorem search_iff {atoms : List Atom} {cs : List Char} :
    search atoms true cs = true ↔ Occurs atoms cs := by
  cases cs with
  | nil =>
    constructor
    · exact fun h => ⟨[], [], rfl, h⟩
    · rintro ⟨before, after, hcs, h⟩
      obtain ⟨rfl, rfl⟩ := List.append_eq_nil_iff.mp hcs.symm
      exact h
  | cons c cs =>
    rw [search, Bool.or_eq_true, search_false_iff]
    constructor
    · rintro (h | ⟨before, after, rfl, h⟩)
      · exact ⟨[], c :: cs, rfl, h⟩
      · exact ⟨c :: before, after, rfl, h⟩
    · rintro ⟨_ | ⟨b, before⟩, after, hcs, h⟩
      · rw [List.nil_append] at hcs
        exact Or.inl (hcs ▸ h)
      · exact Or.inr ⟨before, after, (List.cons.inj hcs).2, h⟩

/-! ### Anchored words -/

theorem matchesAt_ordinary {word : List Char} {first : Bool} {cs : List Char} :
    matchesAt (word.map Atom.ordinary) first cs = true ↔ word <+: cs := by
  induction word generalizing first cs with
  | nil => exact iff_of_true rfl List.nil_prefix
  | cons a word ih =>
    cases cs with
    | nil => exact iff_of_false (by simp [matchesAt]) (by simp)
    | cons c cs =>
      rw [List.map_cons, matchesAt, Bool.and_eq_true, ih, beq_iff_eq, List.cons_prefix_cons]

/-- A word behind an anchor is found where the text starts with it. -/
theorem occurs_start_ordinary {word cs : List Char} :
    Occurs (.start :: word.map Atom.ordinary) cs ↔ word <+: cs := by
  constructor
  · rintro ⟨before, after, rfl, h⟩
    rw [matchesAt, Bool.and_eq_true, List.isEmpty_iff] at h
    obtain ⟨rfl, h⟩ := h
    exact matchesAt_ordinary.mp h
  · intro h
    exact ⟨[], cs, rfl, matchesAt_ordinary.mpr h⟩

end WayDisplays.Lib.Pattern
