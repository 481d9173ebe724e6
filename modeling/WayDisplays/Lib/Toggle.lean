/- Membership flipped one by one: of values in a set, of keys in a map. -/

import WayDisplays.Lib.OrderedMap
import WayDisplays.Lib.OrderedSet

set_option autoImplicit false
set_option relaxedAutoImplicit false

namespace WayDisplays.Lib

universe u v

/-! ### Sets -/

namespace OrderedSet

variable {α : Type u} [DecidableEq α]

def toggle (s : OrderedSet α (fun a b => a == b)) (a : α) : OrderedSet α (fun a b => a == b) :=
  if s.contains a then s.remove a else s.add a

def toggleAll (s : OrderedSet α (fun a b => a == b)) (vals : List α) :
    OrderedSet α (fun a b => a == b) :=
  vals.foldl toggle s

variable {s : OrderedSet α (fun a b => a == b)} {a b : α} {vals : List α}

theorem mem_toggle_self : a ∈ (s.toggle a).vals ↔ a ∉ s.vals := by
  unfold toggle
  split_ifs with hmem
  · simp [mem_remove, contains_iff.mp hmem]
  · have hnot : a ∉ s.vals := fun h => hmem (contains_iff.mpr h)
    simp [mem_add, hnot]

theorem mem_toggle_ne (h : b ≠ a) : b ∈ (s.toggle a).vals ↔ b ∈ s.vals := by
  unfold toggle
  split_ifs
  · simp [mem_remove, h]
  · simp [mem_add, h]

theorem mem_toggleAll_of_not_mem (h : b ∉ vals) : b ∈ (s.toggleAll vals).vals ↔ b ∈ s.vals := by
  induction vals generalizing s with
  | nil => exact Iff.rfl
  | cons a vals ih =>
    rw [List.mem_cons, not_or] at h
    exact (ih (s := s.toggle a) h.2).trans (mem_toggle_ne h.1)

theorem mem_toggleAll_of_mem (hvals : vals.Nodup) (h : b ∈ vals) :
    b ∈ (s.toggleAll vals).vals ↔ b ∉ s.vals := by
  induction vals generalizing s with
  | nil => exact absurd h List.not_mem_nil
  | cons a vals ih =>
    obtain ⟨hnew, hrest⟩ := List.nodup_cons.mp hvals
    rcases List.mem_cons.mp h with rfl | h
    · exact (mem_toggleAll_of_not_mem hnew).trans mem_toggle_self
    · have hne : b ≠ a := fun hba => hnew (hba ▸ h)
      exact (ih (s := s.toggle a) hrest h).trans (not_congr (mem_toggle_ne hne))

/-- The values that are not toggled stay as they are, in their order. -/
theorem filter_toggleAll {p : α → Bool} (h : ∀ a ∈ vals, p a = false) :
    (s.toggleAll vals).vals.filter p = s.vals.filter p := by
  induction vals generalizing s with
  | nil => rfl
  | cons a vals ih =>
    have ha := h a List.mem_cons_self
    have hrest := ih (s := s.toggle a) fun b hb => h b (List.mem_cons_of_mem _ hb)
    refine hrest.trans ?_
    unfold toggle
    split_ifs
    · exact filter_remove ha
    · exact filter_add ha

/-- Twice is not at all. -/
theorem equal_toggleAll_toggleAll (hvals : vals.Nodup) :
    ((s.toggleAll vals).toggleAll vals).equal s = true := by
  refine equal_of_mem_iff fun b => ?_
  by_cases h : b ∈ vals
  · rw [mem_toggleAll_of_mem hvals h, mem_toggleAll_of_mem hvals h, not_not]
  · rw [mem_toggleAll_of_not_mem h, mem_toggleAll_of_not_mem h]

end OrderedSet

/-! ### Maps -/

namespace OrderedMap

variable {κ : Type u} {ν : Type v} [DecidableEq κ]

def toggle (m : OrderedMap κ ν) (e : κ × ν) : OrderedMap κ ν :=
  if m.contains e.1 then m.remove e.1 else m.put e.1 e.2

def toggleAll (m : OrderedMap κ ν) (es : List (κ × ν)) : OrderedMap κ ν := es.foldl toggle m

variable {m : OrderedMap κ ν} {k : κ} {v : ν} {es : List (κ × ν)}

theorem get?_toggle_self :
    (m.toggle (k, v)).get? k = if k ∈ m.keys then none else some v := by
  unfold toggle
  by_cases hmem : k ∈ m.keys
  · rw [if_pos (by simpa [contains] using hmem), if_pos hmem, get?_remove_self]
  · rw [if_neg (by simpa [contains] using hmem), if_neg hmem, get?_put_self]

theorem get?_toggle_ne {e : κ × ν} (h : k ≠ e.1) : (m.toggle e).get? k = m.get? k := by
  unfold toggle
  split_ifs
  · exact get?_remove_ne m h
  · exact get?_put_ne m e.2 h

theorem get?_toggleAll_of_not_mem (h : k ∉ es.map Prod.fst) :
    (m.toggleAll es).get? k = m.get? k := by
  induction es generalizing m with
  | nil => rfl
  | cons e es ih =>
    rw [List.map_cons, List.mem_cons, not_or] at h
    exact (ih (m := m.toggle e) h.2).trans (get?_toggle_ne h.1)

theorem get?_toggleAll_of_mem (hes : (es.map Prod.fst).Nodup) (h : (k, v) ∈ es) :
    (m.toggleAll es).get? k = if k ∈ m.keys then none else some v := by
  induction es generalizing m with
  | nil => exact absurd h List.not_mem_nil
  | cons e es ih =>
    obtain ⟨hnew, hrest⟩ := List.nodup_cons.mp hes
    rcases List.mem_cons.mp h with rfl | h
    · exact (get?_toggleAll_of_not_mem hnew).trans get?_toggle_self
    · have hne : k ≠ e.1 := fun hk => hnew (hk ▸ List.mem_map_of_mem h)
      have hkeys : k ∈ (m.toggle e).keys ↔ k ∈ m.keys := by
        rw [← isSome_get?_iff, get?_toggle_ne hne, isSome_get?_iff]
      exact (ih (m := m.toggle e) hrest h).trans (if_congr hkeys rfl rfl)

theorem mem_keys_toggleAll (hes : (es.map Prod.fst).Nodup) (h : k ∈ es.map Prod.fst) :
    k ∈ (m.toggleAll es).keys ↔ k ∉ m.keys := by
  obtain ⟨⟨k, v⟩, he, rfl⟩ := List.mem_map.mp h
  rw [← isSome_get?_iff, get?_toggleAll_of_mem hes he]
  split_ifs with hk <;> simp [hk]

/-- The entries that are not toggled stay as they are, in their order. -/
theorem filter_toggleAll {p : κ → Bool} (h : ∀ k ∈ es.map Prod.fst, p k = false) :
    (m.toggleAll es).filter (fun k _ => p k) = m.filter (fun k _ => p k) := by
  induction es generalizing m with
  | nil => rfl
  | cons e es ih =>
    have he := h e.1 (List.mem_map_of_mem List.mem_cons_self)
    have hrest := ih (m := m.toggle e) fun k hk => h k (List.mem_cons_of_mem _ hk)
    refine hrest.trans ?_
    unfold toggle
    split_ifs
    · exact filter_remove he m
    · exact filter_put he m e.2

/-- Twice is not at all, if what is put back equals what was there. -/
theorem equal_toggleAll_toggleAll {eqVal : ν → ν → Bool} (hrefl : ∀ v, eqVal v v = true)
    (hes : (es.map Prod.fst).Nodup)
    (hput : ∀ k v w, (k, v) ∈ es → m.get? k = some w → eqVal v w = true) :
    ((m.toggleAll es).toggleAll es).equal eqVal m = true := by
  have hback (k : κ) (v : ν) (hmem : (k, v) ∈ es) :
      ((m.toggleAll es).toggleAll es).get? k = if k ∈ m.keys then some v else none := by
    have hflipped := mem_keys_toggleAll (m := m) hes (List.mem_map_of_mem (f := Prod.fst) hmem)
    rw [get?_toggleAll_of_mem hes hmem, if_congr hflipped rfl rfl, ite_not]
  have hsame (k : κ) (hmem : k ∉ es.map Prod.fst) :
      ((m.toggleAll es).toggleAll es).get? k = m.get? k := by
    rw [get?_toggleAll_of_not_mem hmem, get?_toggleAll_of_not_mem hmem]
  refine equal_of_get? (fun k => ?_) fun k v w hv hw => ?_
  · rw [← isSome_get?_iff, ← isSome_get?_iff]
    by_cases hmem : k ∈ es.map Prod.fst
    · obtain ⟨⟨k, v⟩, he, rfl⟩ := List.mem_map.mp hmem
      rw [hback k v he, isSome_get?_iff]
      split_ifs with hk <;> simp [hk]
    · rw [hsame k hmem]
  · by_cases hmem : k ∈ es.map Prod.fst
    · obtain ⟨⟨k, v'⟩, he, rfl⟩ := List.mem_map.mp hmem
      rw [hback k v' he, if_pos (mem_keys_of_get? hw)] at hv
      exact Option.some.inj hv ▸ hput k v' w he hw
    · rw [hsame k hmem, hw] at hv
      exact Option.some.inj hv ▸ hrefl w

end OrderedMap

end WayDisplays.Lib
