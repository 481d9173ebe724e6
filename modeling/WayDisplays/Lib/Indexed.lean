/- Ordered maps and sets by the position of a key or value. -/

import WayDisplays.Lib.OrderedMap
import WayDisplays.Lib.OrderedSet

set_option autoImplicit false
set_option relaxedAutoImplicit false

namespace WayDisplays.Lib

universe u v

namespace OrderedMap

variable {κ : Type u} {ν : Type v} [DecidableEq κ] {m : OrderedMap κ ν} {k : κ}

def indexOf (m : OrderedMap κ ν) (k : κ) : Option Nat := m.keys.findIdx? (fun k' => decide (k' = k))

theorem indexOf_eq_none (h : m.indexOf k = none) : k ∉ m.keys := by
  intro hk
  have hpass := List.findIdx?_eq_none_iff.mp h k hk
  simp at hpass

theorem indexOf_of_getElem? {i : Nat} (h : m.keys[i]? = some k) : m.indexOf k = some i := by
  obtain ⟨hi, rfl⟩ := List.getElem?_eq_some_iff.mp h
  refine List.findIdx?_eq_some_iff_getElem.mpr ⟨hi, decide_eq_true rfl, fun j hj => ?_⟩
  rw [decide_eq_true_eq]
  exact fun heq => absurd ((m.keys_nodup.getElem_inj_iff).mp heq) (Nat.ne_of_lt hj)

/-- An entry between those of other keys. -/
structure At (m : OrderedMap κ ν) (k : κ) (i : Nat) (v : ν) (before after : List (κ × ν)) :
    Prop where
  entries : m.entries = before ++ (k, v) :: after
  index : before.length = i
  before_ne : ∀ e ∈ before, e.1 ≠ k
  after_ne : ∀ e ∈ after, e.1 ≠ k

theorem exists_at {i : Nat} (h : m.indexOf k = some i) :
    ∃ v before after, m.At k i v before after := by
  obtain ⟨hlt, hpass, -⟩ := List.findIdx?_eq_some_iff_getElem.mp h
  have hlength : i < m.entries.length := by simpa [keys] using hlt
  have hkey : (m.entries[i]).1 = k := by simpa [keys] using of_decide_eq_true hpass
  have hsplit : m.entries =
      m.entries.take i ++ (k, (m.entries[i]).2) :: m.entries.drop (i + 1) := by
    rw [← hkey, Prod.mk.eta, List.getElem_cons_drop hlength, List.take_append_drop]
  have hnodup := m.nodup
  rw [hsplit, List.map_append, List.map_cons, List.nodup_append] at hnodup
  obtain ⟨-, hafter, hdisjoint⟩ := hnodup
  refine ⟨(m.entries[i]).2, m.entries.take i, m.entries.drop (i + 1), hsplit, ?_, ?_, ?_⟩
  · rw [List.length_take]
    omega
  · intro e he
    exact hdisjoint e.1 (List.mem_map_of_mem he) k List.mem_cons_self
  · intro e he hkey
    have hnot : k ∉ (m.entries.drop (i + 1)).map Prod.fst := (List.nodup_cons.mp hafter).1
    exact hnot (hkey ▸ List.mem_map_of_mem he)

variable {i : Nat} {v : ν} {before after : List (κ × ν)}

theorem At.get? (h : m.At k i v before after) : m.get? k = some v :=
  get?_eq_some_iff.mpr (h.entries ▸ List.mem_append_right _ List.mem_cons_self)

theorem At.mem_keys (h : m.At k i v before after) : k ∈ m.keys := mem_keys_of_get? h.get?

omit [DecidableEq κ] in
theorem At.keys (h : m.At k i v before after) :
    m.keys = before.map Prod.fst ++ k :: after.map Prod.fst := by
  rw [OrderedMap.keys, h.entries, List.map_append, List.map_cons]

omit [DecidableEq κ] in
theorem At.vals (h : m.At k i v before after) :
    m.vals = before.map Prod.snd ++ v :: after.map Prod.snd := by
  rw [OrderedMap.vals, h.entries, List.map_append, List.map_cons]

theorem At.put (h : m.At k i v before after) (w : ν) :
    (m.put k w).entries = before ++ (k, w) :: after := by
  have hsame (es : List (κ × ν)) (hne : ∀ e ∈ es, e.1 ≠ k) :
      es.map (fun e => (e.1, if e.1 = k then w else e.2)) = es := by
    refine (List.map_congr_left fun e he => ?_).trans (List.map_id es)
    rw [if_neg (hne e he), Prod.mk.eta]
    rfl
  rw [OrderedMap.put, dif_pos h.mem_keys, modify, mapVals]
  simp only [h.entries, List.map_append, List.map_cons]
  rw [hsame before h.before_ne, hsame after h.after_ne, if_pos trivial]

theorem At.remove (h : m.At k i v before after) :
    (m.remove k).entries = before ++ after := by
  have hkeep (es : List (κ × ν)) (hne : ∀ e ∈ es, e.1 ≠ k) :
      es.filter (fun e => decide (e.1 ≠ k)) = es :=
    List.filter_eq_self.mpr fun e he => decide_eq_true (hne e he)
  rw [OrderedMap.remove, OrderedMap.filter]
  simp only [h.entries, List.filter_append]
  rw [hkeep before h.before_ne, List.filter_cons_of_neg (by simp), hkeep after h.after_ne]

theorem At.vals_put (h : m.At k i v before after) (w : ν) : (m.put k w).vals = m.vals.set i w := by
  rw [OrderedMap.vals, h.put w, h.vals, List.map_append, List.map_cons,
    List.set_append_right _ _ (by rw [List.length_map, h.index]), List.length_map, h.index,
    Nat.sub_self, List.set_cons_zero]

omit [DecidableEq κ] in
theorem At.vals_getElem (h : m.At k i v before after) : m.vals[i]? = some v := by
  rw [h.vals, List.getElem?_append_right (by rw [List.length_map, h.index]), List.length_map,
    h.index, Nat.sub_self, List.getElem?_cons_zero]

theorem At.keys_remove (h : m.At k i v before after) : (m.remove k).keys = m.keys.eraseIdx i := by
  rw [OrderedMap.keys, h.remove, h.keys,
    List.eraseIdx_append_of_length_le (by rw [List.length_map, h.index]), List.length_map, h.index,
    Nat.sub_self, List.eraseIdx_cons_zero, List.map_append]

theorem At.vals_remove (h : m.At k i v before after) : (m.remove k).vals = m.vals.eraseIdx i := by
  rw [OrderedMap.vals, h.remove, h.vals,
    List.eraseIdx_append_of_length_le (by rw [List.length_map, h.index]), List.length_map, h.index,
    Nat.sub_self, List.eraseIdx_cons_zero, List.map_append]

theorem entries_remove_getElem? {e : κ × ν} (he : m.entries[i]? = some e) :
    (m.remove e.1).entries = m.entries.eraseIdx i := by
  obtain ⟨hi, rfl⟩ := List.getElem?_eq_some_iff.mp he
  have hkeys : m.keys[i]? = some (m.entries[i]).1 := by
    rw [keys, List.getElem?_map, he, Option.map_some]
  obtain ⟨v, before, after, hat⟩ := exists_at (indexOf_of_getElem? hkeys)
  rw [hat.remove, hat.entries, List.eraseIdx_append_of_length_le (Nat.le_of_eq hat.index),
    hat.index, Nat.sub_self, List.eraseIdx_cons_zero]

/-! ### Maps that hold the same -/

theorem size_eq_of_get? {m m' : OrderedMap κ ν} (h : ∀ k, m.get? k = m'.get? k) :
    m.size = m'.size := by
  have hperm : m.keys.Perm m'.keys := by
    refine (List.perm_ext_iff_of_nodup m.keys_nodup m'.keys_nodup).mpr fun k => ?_
    rw [← isSome_get?_iff, ← isSome_get?_iff, h]
  simpa [OrderedMap.keys, size] using hperm.length_eq

/-- A map that is no larger, and holds all of another. -/
theorem get?_eq_of_subset {m m' : OrderedMap κ ν} (hsize : m.size ≤ m'.size)
    (h : ∀ e ∈ m'.entries, m.get? e.1 = some e.2) (k : κ) : m.get? k = m'.get? k := by
  have hsubset : m'.keys ⊆ m.keys := by
    intro k' hk'
    obtain ⟨e, he, rfl⟩ := List.mem_map.mp hk'
    exact mem_keys_of_get? (h e he)
  have hlength : m.keys.length ≤ m'.keys.length := by
    simpa [OrderedMap.keys, size] using hsize
  have hperm := (List.subperm_of_subset m'.keys_nodup hsubset).perm_of_length_le hlength
  cases hget : m'.get? k with
  | none =>
    rw [get?_eq_none_iff] at hget ⊢
    exact fun hk => hget (hperm.mem_iff.mpr hk)
  | some v => exact h (k, v) (get?_eq_some_iff.mp hget)

end OrderedMap

end WayDisplays.Lib
