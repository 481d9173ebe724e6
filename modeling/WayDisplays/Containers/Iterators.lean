/- The loops around iterators come to every entry that passes once, and remove what they are to. -/

import WayDisplays.Lib.Cursor
import WayDisplays.Model.Containers

set_option autoImplicit false
set_option relaxedAutoImplicit false

namespace WayDisplays.Containers.Iterators

open Lib (Cursor)
open Model.Containers

variable {β γ : Type}

def cursor (entries : List β) (it : It β) : Cursor β :=
  { vals := entries, position := it.position, attached := it.attached }

/-- What a loop needs of a container that stands for a list of entries. -/
structure Iterable (next : γ → It β → Option (Option (It β)))
    (remove : γ → It β → Option (γ × It β)) (passes : β → Bool) (null : β)
    (rel : γ → List β → Prop) : Prop where
  next : ∀ c entries it, rel c entries → next c it =
    some (((cursor entries it).next passes).bind (fun cur =>
      entries[cur.position]?.map (fun entry => ⟨entry, cur.position, true⟩)))
  remove : ∀ c entries it, rel c entries → entries[it.position]? = some it.entry →
    ∃ c', remove c it = some (c', it.back null) ∧ rel c' (entries.eraseIdx it.position)

section Scan

variable {load : Nat → Option β} {entries : List β} (hload : ∀ i (hi : i < entries.length),
  load i = some entries[i])

include hload

theorem scan_eq (passes : β → Bool) (rest : List β) :
    ∀ seen, entries = seen ++ rest → It.scan load passes rest.length seen.length =
      some ((rest.findIdx? passes).bind (fun i =>
        entries[seen.length + i]?.map (fun entry => ⟨entry, seen.length + i, true⟩))) := by
  induction rest with
  | nil => exact fun _ _ => rfl
  | cons entry rest ih =>
    intro seen hentries
    have hlt : seen.length < entries.length := by
      rw [hentries, List.length_append, List.length_cons]
      omega
    have hget : entries[seen.length] = entry := by
      simp only [hentries, List.getElem_append_right (Nat.le_refl _), Nat.sub_self,
        List.getElem_cons_zero]
    have hrest := ih (seen ++ [entry]) (by rw [hentries, List.append_assoc, List.singleton_append])
    rw [List.length_append, List.length_singleton] at hrest
    rw [List.length_cons, It.scan, List.findIdx?_cons]
    simp only [hload _ hlt, hget, Option.bind_eq_bind, Option.bind_some]
    by_cases hpass : passes entry = true
    · rw [if_pos hpass, if_pos hpass, Option.bind_some, Nat.add_zero, List.getElem?_eq_getElem hlt,
        hget]
      rfl
    · rw [if_neg hpass, if_neg hpass, hrest, Option.bind_map]
      refine congrArg (fun f => some (Option.bind _ f)) (funext fun i => ?_)
      simp only [Function.comp, Nat.add_assoc, Nat.add_comm 1 i]

theorem next_eq (passes : β → Bool) (it : It β) : it.next load passes entries.length =
    some (((cursor entries it).next passes).bind (fun cur =>
      entries[cur.position]?.map (fun entry => ⟨entry, cur.position, true⟩))) := by
  have hscan := scan_eq hload passes (entries.drop (cursor entries it).start)
    (entries.take (cursor entries it).start) (List.take_append_drop _ _).symm
  have hnext : it.next load passes entries.length =
      It.scan load passes (entries.length - (cursor entries it).start)
        (cursor entries it).start := rfl
  rw [hnext, Cursor.next]
  by_cases hstart : (cursor entries it).start ≤ entries.length
  · rw [List.length_drop, List.length_take_of_le hstart] at hscan
    rw [Option.bind_map]
    exact hscan
  · have hdrop : (cursor entries it).vals.drop (cursor entries it).start = [] :=
      List.drop_eq_nil_of_le (Nat.le_of_not_le hstart)
    rw [hdrop, Nat.sub_eq_zero_of_le (Nat.le_of_not_le hstart)]
    rfl

end Scan

variable {next : γ → It β → Option (Option (It β))} {remove : γ → It β → Option (γ × It β)}
  {passes : β → Bool} {null : β} {rel : γ → List β → Prop}

theorem Iterable.each_eq (h : Iterable next remove passes null rel) (drop : β → Bool) (n : Nat) :
    ∀ (c : γ) (entries : List β) (it : It β) (visited left : List β), rel c entries →
      (cursor entries it).walk passes drop n = some (visited, left) →
      ∃ c', It.each next remove drop n c it = some (c', visited) ∧ rel c' left := by
  induction n with
  | zero =>
    intro c entries it visited left _ hwalk
    cases hwalk
  | succ n ih =>
    intro c entries it visited left hrel hwalk
    have hstep := h.next c entries it hrel
    rw [Cursor.walk] at hwalk
    rw [It.each]
    cases hnext : (cursor entries it).next passes with
    | none =>
      rw [hnext] at hstep hwalk
      obtain ⟨rfl, rfl⟩ := Prod.mk.inj (Option.some.inj hwalk)
      refine ⟨c, ?_, hrel⟩
      rw [hstep]
      rfl
    | some cur =>
      obtain ⟨i, -, hcur⟩ := Option.map_eq_some_iff.mp hnext
      have hvals : cur.vals = entries := by rw [← hcur]; rfl
      have hattached : cur.attached = true := by rw [← hcur]
      rw [hnext] at hstep hwalk
      simp only [hvals] at hwalk
      rw [Option.bind_some] at hstep
      cases hget : entries[cur.position]? with
      | none =>
        rw [hget] at hwalk
        cases hwalk
      | some entry =>
        rw [hget] at hstep hwalk
        obtain ⟨⟨rest, left'⟩, hrest, heq⟩ := Option.map_eq_some_iff.mp hwalk
        obtain ⟨rfl, rfl⟩ := Prod.mk.inj heq
        rw [hstep]
        simp only [Option.map_some, Option.bind_eq_bind, Option.bind_some]
        by_cases hdrop : drop entry = true
        · obtain ⟨c₁, hremove, hrel₁⟩ :=
            h.remove c entries ⟨entry, cur.position, true⟩ hrel hget
          have hcursor : cur.remove =
              cursor (entries.eraseIdx cur.position)
                (It.back null ⟨entry, cur.position, true⟩) := by
            rw [Cursor.remove, hvals]
            rfl
          rw [if_pos hdrop, hcursor] at hrest
          obtain ⟨c', heach, hrel'⟩ := ih c₁ _ _ rest left' hrel₁ hrest
          refine ⟨c', ?_, hrel'⟩
          rw [if_pos hdrop, hremove]
          simp only [Option.bind_some, heach]
        · have hcursor : cur = cursor entries ⟨entry, cur.position, true⟩ := by
            cases cur
            cases hvals
            cases hattached
            rfl
          rw [if_neg hdrop, hcursor] at hrest
          obtain ⟨c', heach, hrel'⟩ := ih c entries _ rest left' hrel hrest
          refine ⟨c', ?_, hrel'⟩
          rw [if_neg hdrop]
          simp only [Option.bind_some, heach]

/-- From in front of the first entry, with as many turns as there are entries and one to end. -/
theorem Iterable.each_init (h : Iterable next remove passes null rel) (drop : β → Bool) {c : γ}
    {entries : List β} (hrel : rel c entries) :
    ∃ c', It.each next remove drop (entries.length + 1) c (It.init null) =
        some (c', entries.filter passes) ∧
      rel c' (entries.filter (fun entry => !(passes entry && drop entry))) :=
  h.each_eq drop _ c entries (It.init null) _ _ hrel (Cursor.walk_front passes drop entries)

end WayDisplays.Containers.Iterators
