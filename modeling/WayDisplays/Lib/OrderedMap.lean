/- Insertion-ordered finite maps with one entry for each key. -/

import Mathlib.Algebra.GroupWithZero.Nat
import Mathlib.Algebra.Order.BigOperators.Group.List
import Mathlib.Algebra.Order.Group.Nat
import Mathlib.Data.List.Basic
import Mathlib.Data.List.Nodup
import Mathlib.Data.List.Perm.Subperm

set_option autoImplicit false
set_option relaxedAutoImplicit false

namespace WayDisplays.Lib

universe u v w

/-- A map that keeps its entries in the order in which their keys first arrived. -/
structure OrderedMap (κ : Type u) (ν : Type v) where
  entries : List (κ × ν)
  nodup : (entries.map Prod.fst).Nodup

namespace OrderedMap

variable {κ : Type u} {ν : Type v}

@[ext] theorem ext {m m' : OrderedMap κ ν} (h : m.entries = m'.entries) : m = m' := by
  cases m
  cases m'
  cases h
  rfl

def empty : OrderedMap κ ν := ⟨[], List.nodup_nil⟩

instance : Inhabited (OrderedMap κ ν) := ⟨empty⟩

def keys (m : OrderedMap κ ν) : List κ := m.entries.map Prod.fst

def vals (m : OrderedMap κ ν) : List ν := m.entries.map Prod.snd

def size (m : OrderedMap κ ν) : Nat := m.entries.length

def find? (m : OrderedMap κ ν) (p : κ → ν → Bool) : Option (κ × ν) :=
  m.entries.find? (fun e => p e.1 e.2)

private theorem map_fst_mapSnd (es : List (κ × ν)) {ω : Type w} (f : κ → ν → ω) :
    (es.map (fun e => (e.1, f e.1 e.2))).map Prod.fst = es.map Prod.fst := by
  simp [List.map_map, Function.comp_def]

/-- Rewrite every value, keeping the keys and their order. -/
def mapVals {ω : Type w} (m : OrderedMap κ ν) (f : κ → ν → ω) : OrderedMap κ ω :=
  ⟨m.entries.map (fun e => (e.1, f e.1 e.2)), by rw [map_fst_mapSnd]; exact m.nodup⟩

def filter (m : OrderedMap κ ν) (p : κ → ν → Bool) : OrderedMap κ ν :=
  ⟨m.entries.filter (fun e => p e.1 e.2), m.nodup.sublist (List.filter_sublist.map Prod.fst)⟩

variable [DecidableEq κ]

def get? (m : OrderedMap κ ν) (k : κ) : Option ν :=
  (m.entries.find? (fun e => e.1 = k)).map Prod.snd

def contains (m : OrderedMap κ ν) (k : κ) : Bool := decide (k ∈ m.keys)

/-- Rewrite the value of one key, if it is present. -/
def modify (m : OrderedMap κ ν) (k : κ) (f : ν → ν) : OrderedMap κ ν :=
  m.mapVals (fun k' v => if k' = k then f v else v)

/-- Overwrite in place, or append a new key at the end. -/
def put (m : OrderedMap κ ν) (k : κ) (v : ν) : OrderedMap κ ν :=
  if h : k ∈ m.keys then m.modify k (fun _ => v)
  else ⟨m.entries ++ [(k, v)], by
    simp only [List.map_append, List.map_cons, List.map_nil]
    refine List.nodup_append.mpr ⟨m.nodup, List.nodup_singleton k, ?_⟩
    intro a ha b hb
    obtain rfl := List.mem_singleton.mp hb
    exact fun hab => h (hab ▸ ha)⟩

def remove (m : OrderedMap κ ν) (k : κ) : OrderedMap κ ν :=
  m.filter (fun k' _ => decide (k' ≠ k))

def putAll (m : OrderedMap κ ν) (es : List (κ × ν)) : OrderedMap κ ν :=
  es.foldl (fun m e => m.put e.1 e.2) m

def removeAll (m : OrderedMap κ ν) (ks : List κ) : OrderedMap κ ν :=
  ks.foldl remove m

/-- Visit keys in order, threading a state and storing the value each visit computes. -/
def forEach {σ : Type w} (f : σ → OrderedMap κ ν → ν → σ × ν) :
    List κ → σ → OrderedMap κ ν → σ × OrderedMap κ ν
  | [], s, m => (s, m)
  | k :: ks, s, m => match m.get? k with
    | none => forEach f ks s m
    | some v => forEach f ks (f s m v).1 (m.put k (f s m v).2)

/-- The same size, and an equal value under every key: the order is not compared. -/
def equal (eqVal : ν → ν → Bool) (m m' : OrderedMap κ ν) : Bool :=
  decide (m.size = m'.size) &&
    m'.entries.all (fun e => match m.get? e.1 with
      | some v => eqVal v e.2
      | none => false)

/-! ### Lookup -/

theorem get?_eq_some_iff {m : OrderedMap κ ν} {k : κ} {v : ν} :
    m.get? k = some v ↔ (k, v) ∈ m.entries := by
  unfold get?
  constructor
  · intro h
    obtain ⟨⟨k', v'⟩, hf, rfl⟩ := Option.map_eq_some_iff.mp h
    have hk : k' = k := by simpa using List.find?_some hf
    exact hk ▸ List.mem_of_find?_eq_some hf
  · intro h
    cases hf : m.entries.find? (fun e => decide (e.1 = k)) with
    | none =>
      have := List.find?_eq_none.mp hf (k, v) h
      simp at this
    | some e =>
      have hk : e.1 = k := by simpa using List.find?_some hf
      have he := List.mem_of_find?_eq_some hf
      have : e = (k, v) := List.inj_on_of_nodup_map m.nodup he h hk
      simp [this]

theorem get?_eq_none_iff {m : OrderedMap κ ν} {k : κ} : m.get? k = none ↔ k ∉ m.keys := by
  constructor
  · intro h hk
    obtain ⟨⟨k', v⟩, he, rfl⟩ := List.mem_map.mp hk
    rw [get?_eq_some_iff.mpr he] at h
    exact Option.some_ne_none v h
  · intro h
    cases hg : m.get? k with
    | none => rfl
    | some v => exact absurd (List.mem_map_of_mem (f := Prod.fst) (get?_eq_some_iff.mp hg)) h

theorem isSome_get?_iff {m : OrderedMap κ ν} {k : κ} : (m.get? k).isSome ↔ k ∈ m.keys := by
  rw [Option.isSome_iff_ne_none, Ne, get?_eq_none_iff, not_not]

theorem mem_keys_of_get? {m : OrderedMap κ ν} {k : κ} {v : ν} (h : m.get? k = some v) :
    k ∈ m.keys :=
  isSome_get?_iff.mp (by simp [h])

theorem exists_get?_of_mem_keys {m : OrderedMap κ ν} {k : κ} (h : k ∈ m.keys) :
    ∃ v, m.get? k = some v :=
  Option.isSome_iff_exists.mp (isSome_get?_iff.mpr h)

omit [DecidableEq κ] in
theorem keys_nodup (m : OrderedMap κ ν) : m.keys.Nodup := m.nodup

theorem find?_eq_some {m : OrderedMap κ ν} {p : κ → ν → Bool} {k : κ} {v : ν}
    (h : m.find? p = some (k, v)) : m.get? k = some v ∧ p k v = true := by
  have hp := List.find?_some (p := fun e : κ × ν => p e.1 e.2) h
  exact ⟨get?_eq_some_iff.mpr (List.mem_of_find?_eq_some h), hp⟩

theorem find?_eq_none {m : OrderedMap κ ν} {p : κ → ν → Bool} (h : m.find? p = none)
    {k : κ} {v : ν} (hk : m.get? k = some v) : p k v = false := by
  have := List.find?_eq_none.mp h (k, v) (get?_eq_some_iff.mp hk)
  simpa using this

@[simp] theorem get?_empty (k : κ) : (empty : OrderedMap κ ν).get? k = none := rfl

omit [DecidableEq κ] in
@[simp] theorem keys_empty : (empty : OrderedMap κ ν).keys = [] := rfl

/-! ### Updates -/

omit [DecidableEq κ] in
@[simp] theorem keys_mapVals {ω : Type w} (m : OrderedMap κ ν) (f : κ → ν → ω) :
    (m.mapVals f).keys = m.keys :=
  map_fst_mapSnd m.entries f

@[simp] theorem get?_mapVals {ω : Type w} (m : OrderedMap κ ν) (f : κ → ν → ω) (k : κ) :
    (m.mapVals f).get? k = (m.get? k).map (f k) := by
  cases hg : m.get? k with
  | none =>
    rw [Option.map_none, get?_eq_none_iff, keys_mapVals]
    exact get?_eq_none_iff.mp hg
  | some v =>
    rw [Option.map_some, get?_eq_some_iff]
    exact List.mem_map.mpr ⟨(k, v), get?_eq_some_iff.mp hg, rfl⟩

omit [DecidableEq κ] in
theorem find?_mapVals {ω : Type w} (m : OrderedMap κ ν) (f : κ → ν → ω) (p : κ → Bool) :
    (m.mapVals f).find? (fun k _ => p k) =
      (m.find? (fun k _ => p k)).map (fun e => (e.1, f e.1 e.2)) := by
  simp only [find?, mapVals, List.find?_map, Function.comp_def]

@[simp] theorem keys_modify (m : OrderedMap κ ν) (k : κ) (f : ν → ν) :
    (m.modify k f).keys = m.keys :=
  keys_mapVals m _

theorem get?_modify (m : OrderedMap κ ν) (k : κ) (f : ν → ν) (k' : κ) :
    (m.modify k f).get? k' = if k' = k then (m.get? k').map f else m.get? k' := by
  rw [modify, get?_mapVals]
  split
  · rfl
  · simp

@[simp] theorem get?_modify_self (m : OrderedMap κ ν) (k : κ) (f : ν → ν) :
    (m.modify k f).get? k = (m.get? k).map f := by
  rw [get?_modify, if_pos rfl]

theorem get?_modify_ne (m : OrderedMap κ ν) {k k' : κ} (f : ν → ν) (h : k' ≠ k) :
    (m.modify k f).get? k' = m.get? k' := by
  rw [get?_modify, if_neg h]

theorem get?_filter (m : OrderedMap κ ν) (p : κ → ν → Bool) (k : κ) :
    (m.filter p).get? k = (m.get? k).filter (p k) := by
  cases hg : m.get? k with
  | none =>
    rw [Option.filter_none, get?_eq_none_iff]
    intro hk
    obtain ⟨e, he, rfl⟩ := List.mem_map.mp hk
    have hmem : e.1 ∈ m.keys := List.mem_map_of_mem (List.mem_filter.mp he).1
    exact get?_eq_none_iff.mp hg hmem
  | some v =>
    cases hp : p k v with
    | true =>
      rw [Option.filter_some, if_pos hp, get?_eq_some_iff]
      exact List.mem_filter.mpr ⟨get?_eq_some_iff.mp hg, hp⟩
    | false =>
      rw [Option.filter_some, if_neg (by simp [hp]), get?_eq_none_iff]
      intro hk
      obtain ⟨⟨k', v'⟩, he, rfl⟩ := List.mem_map.mp hk
      obtain ⟨he, hp'⟩ := List.mem_filter.mp he
      rw [get?_eq_some_iff.mpr he] at hg
      obtain rfl := Option.some.inj hg
      simp [hp] at hp'

@[simp] theorem get?_remove_self (m : OrderedMap κ ν) (k : κ) : (m.remove k).get? k = none := by
  rw [remove, get?_filter]
  cases m.get? k <;> simp

theorem get?_remove_ne (m : OrderedMap κ ν) {k k' : κ} (h : k' ≠ k) :
    (m.remove k).get? k' = m.get? k' := by
  rw [remove, get?_filter]
  cases m.get? k' <;> simp [h]

theorem keys_remove (m : OrderedMap κ ν) (k : κ) :
    (m.remove k).keys = m.keys.filter (fun k' => decide (k' ≠ k)) := by
  simp only [remove, filter, keys, List.filter_map, Function.comp_def]

theorem mem_keys_remove {m : OrderedMap κ ν} {k k' : κ} :
    k' ∈ (m.remove k).keys ↔ k' ∈ m.keys ∧ k' ≠ k := by
  simp [keys_remove]

theorem size_remove_lt {m : OrderedMap κ ν} {k : κ} (h : k ∈ m.keys) :
    (m.remove k).size < m.size := by
  obtain ⟨e, he, rfl⟩ := List.mem_map.mp h
  exact List.length_filter_lt_length_iff_exists.mpr ⟨e, he, by simp⟩

@[simp] theorem get?_put_self (m : OrderedMap κ ν) (k : κ) (v : ν) :
    (m.put k v).get? k = some v := by
  unfold put
  split
  · rename_i hk
    obtain ⟨w, hw⟩ := exists_get?_of_mem_keys hk
    simp [hw]
  · exact get?_eq_some_iff.mpr (by simp)

theorem get?_put_ne (m : OrderedMap κ ν) {k k' : κ} (v : ν) (h : k' ≠ k) :
    (m.put k v).get? k' = m.get? k' := by
  unfold put
  split
  · exact get?_modify_ne m _ h
  · cases hg : m.get? k' with
    | none =>
      refine get?_eq_none_iff.mpr fun hk => ?_
      simp only [keys, List.map_append, List.map_cons, List.map_nil, List.mem_append,
        List.mem_singleton] at hk
      rcases hk with hk | hk
      · exact get?_eq_none_iff.mp hg hk
      · exact h hk
    | some w =>
      exact get?_eq_some_iff.mpr (List.mem_append_left _ (get?_eq_some_iff.mp hg))

theorem mem_keys_put {m : OrderedMap κ ν} {k k' : κ} {v : ν} :
    k' ∈ (m.put k v).keys ↔ k' = k ∨ k' ∈ m.keys := by
  by_cases h : k' = k
  · subst h
    exact iff_of_true (mem_keys_of_get? (get?_put_self m k' v)) (Or.inl rfl)
  · rw [← isSome_get?_iff, get?_put_ne m v h, isSome_get?_iff]
    simp [h]

theorem keys_put_of_mem {m : OrderedMap κ ν} {k : κ} (v : ν) (h : k ∈ m.keys) :
    (m.put k v).keys = m.keys := by
  rw [put, dif_pos h, keys_modify]

theorem entries_put_of_not_mem {m : OrderedMap κ ν} {k : κ} (v : ν) (h : k ∉ m.keys) :
    (m.put k v).entries = m.entries ++ [(k, v)] := by
  rw [put, dif_neg h]

/-- A key that was not there leaves no trace once removed. -/
theorem remove_put_of_not_mem {m : OrderedMap κ ν} {k : κ} (v : ν) (h : k ∉ m.keys) :
    (m.put k v).remove k = m := by
  apply ext
  have hkept : m.entries.filter (fun e => decide (e.1 ≠ k)) = m.entries := by
    refine List.filter_eq_self.mpr fun e he => decide_eq_true fun hek => h ?_
    exact hek ▸ List.mem_map_of_mem he
  calc (m.put k v).entries.filter (fun e => decide (e.1 ≠ k))
      = (m.entries ++ [(k, v)]).filter (fun e => decide (e.1 ≠ k)) := by
        rw [entries_put_of_not_mem v h]
    _ = m.entries := by
        rw [List.filter_append, hkept]
        simp

theorem get?_putAll_of_not_mem (m : OrderedMap κ ν) (es : List (κ × ν)) {k : κ}
    (h : k ∉ es.map Prod.fst) : (m.putAll es).get? k = m.get? k := by
  induction es generalizing m with
  | nil => rfl
  | cons e es ih =>
    simp only [List.map_cons, List.mem_cons, not_or] at h
    exact (ih (m.put e.1 e.2) h.2).trans (get?_put_ne m e.2 h.1)

/-- Of distinct keys, each ends with the value it was put with. -/
theorem get?_putAll_of_mem (m : OrderedMap κ ν) (es : List (κ × ν))
    (hes : (es.map Prod.fst).Nodup) {k : κ} {v : ν} (h : (k, v) ∈ es) :
    (m.putAll es).get? k = some v := by
  induction es generalizing m with
  | nil => simp at h
  | cons e es ih =>
    obtain ⟨hnew, hes⟩ := List.nodup_cons.mp hes
    rcases List.mem_cons.mp h with rfl | h
    · exact (get?_putAll_of_not_mem _ es hnew).trans (get?_put_self m k v)
    · exact ih (m.put e.1 e.2) hes h

/-- New keys that are put in turn follow the old ones. -/
theorem entries_putAll {m : OrderedMap κ ν} {es : List (κ × ν)}
    (h : (m.keys ++ es.map Prod.fst).Nodup) : (m.putAll es).entries = m.entries ++ es := by
  induction es generalizing m with
  | nil => exact (List.append_nil _).symm
  | cons e es ih =>
    have hnew : e.1 ∉ m.keys := by
      intro hmem
      exact (List.nodup_append.mp h).2.2 e.1 hmem e.1 List.mem_cons_self rfl
    have hput := entries_put_of_not_mem e.2 hnew
    have hkeys : ((m.put e.1 e.2).keys ++ es.map Prod.fst).Nodup := by
      rw [keys, hput, List.map_append, List.append_assoc]
      exact h
    calc ((m.put e.1 e.2).putAll es).entries = (m.put e.1 e.2).entries ++ es := ih hkeys
      _ = m.entries ++ e :: es := by
        rw [hput, List.append_assoc]
        rfl

/-- Visits that put every new key with its value. -/
theorem foldl_eq_putAll {f : OrderedMap κ ν → κ × ν → OrderedMap κ ν} {m : OrderedMap κ ν}
    {es : List (κ × ν)} (hf : ∀ e ∈ es, ∀ m : OrderedMap κ ν, e.1 ∉ m.keys → f m e = m.put e.1 e.2)
    (h : (m.keys ++ es.map Prod.fst).Nodup) : es.foldl f m = m.putAll es := by
  induction es generalizing m with
  | nil => rfl
  | cons e es ih =>
    have hnew : e.1 ∉ m.keys := by
      intro hmem
      exact (List.nodup_append.mp h).2.2 e.1 hmem e.1 List.mem_cons_self rfl
    have hkeys : ((m.put e.1 e.2).keys ++ es.map Prod.fst).Nodup := by
      rw [keys, entries_put_of_not_mem e.2 hnew, List.map_append, List.append_assoc]
      exact h
    rw [List.foldl_cons, hf e List.mem_cons_self m hnew,
      ih (fun e he => hf e (List.mem_cons_of_mem _ he)) hkeys]
    rfl

/-- The entries of a map put into an empty one make the map again. -/
theorem putAll_entries (m : OrderedMap κ ν) : empty.putAll m.entries = m :=
  ext (entries_putAll (m := empty) m.nodup)

theorem equal_self {eqVal : ν → ν → Bool} (heq : ∀ v, eqVal v v = true) (m : OrderedMap κ ν) :
    m.equal eqVal m = true := by
  rw [equal, decide_eq_true rfl, Bool.true_and, List.all_eq_true]
  intro e he
  rw [get?_eq_some_iff.mpr he]
  exact heq e.2

theorem mem_keys_putAll {m : OrderedMap κ ν} {es : List (κ × ν)} {k : κ} :
    k ∈ (m.putAll es).keys ↔ k ∈ m.keys ∨ k ∈ es.map Prod.fst := by
  induction es generalizing m with
  | nil => simp [putAll]
  | cons e es ih =>
    have := ih (m := m.put e.1 e.2)
    rw [mem_keys_put] at this
    simp only [List.map_cons, List.mem_cons]
    exact this.trans (by tauto)

/-! ### Values -/

omit [DecidableEq κ] in
theorem mem_vals_filter {m : OrderedMap κ ν} {p : κ → ν → Bool} {w : ν}
    (h : w ∈ (m.filter p).vals) : w ∈ m.vals := by
  obtain ⟨e, he, rfl⟩ := List.mem_map.mp h
  exact List.mem_map_of_mem (List.mem_of_mem_filter he)

theorem mem_vals_remove {m : OrderedMap κ ν} {k : κ} {w : ν} (h : w ∈ (m.remove k).vals) :
    w ∈ m.vals :=
  mem_vals_filter h

theorem mem_vals_put {m : OrderedMap κ ν} {k : κ} {v w : ν} (h : w ∈ (m.put k v).vals) :
    w = v ∨ w ∈ m.vals := by
  obtain ⟨e, he, rfl⟩ := List.mem_map.mp h
  have hget := get?_eq_some_iff.mpr he
  by_cases hk : e.1 = k
  · rw [hk, get?_put_self] at hget
    exact Or.inl (Option.some.inj hget).symm
  · rw [get?_put_ne m v hk] at hget
    exact Or.inr (List.mem_map.mpr ⟨e, get?_eq_some_iff.mp hget, rfl⟩)

theorem mem_vals_putAll {m : OrderedMap κ ν} {es : List (κ × ν)} {w : ν}
    (h : w ∈ (m.putAll es).vals) : w ∈ m.vals ∨ w ∈ es.map Prod.snd := by
  induction es generalizing m with
  | nil => exact Or.inl h
  | cons e es ih =>
    rcases ih (m := m.put e.1 e.2) h with hput | hes
    · rcases mem_vals_put hput with rfl | hm
      · exact Or.inr List.mem_cons_self
      · exact Or.inl hm
    · exact Or.inr (List.mem_cons_of_mem _ hes)

theorem mem_vals_removeAll {m : OrderedMap κ ν} {ks : List κ} {w : ν}
    (h : w ∈ (m.removeAll ks).vals) : w ∈ m.vals := by
  induction ks generalizing m with
  | nil => exact h
  | cons k ks ih => exact mem_vals_remove (ih (m := m.remove k) h)

theorem mem_vals_of_get? {m : OrderedMap κ ν} {k : κ} {v : ν} (h : m.get? k = some v) :
    v ∈ m.vals :=
  List.mem_map.mpr ⟨(k, v), get?_eq_some_iff.mp h, rfl⟩

/-- A filter by keys does not see what is put under a key it drops. -/
theorem filter_put {p : κ → Bool} {k : κ} (hk : p k = false) (m : OrderedMap κ ν) (v : ν) :
    (m.put k v).filter (fun k _ => p k) = m.filter (fun k _ => p k) := by
  apply ext
  by_cases hmem : k ∈ m.keys
  · rw [put, dif_pos hmem]
    simp only [filter, modify, mapVals, List.filter_map, Function.comp_def]
    refine (List.map_congr_left fun e he => ?_).trans (List.map_id _)
    have hne : e.1 ≠ k := by
      rintro rfl
      have hpasses : p e.1 = true := (List.mem_filter.mp he).2
      rw [hk] at hpasses
      exact absurd hpasses (by simp)
    rw [if_neg hne, id]
  · simp only [filter, entries_put_of_not_mem v hmem, List.filter_append, List.filter_cons, hk]
    simp

theorem filter_remove {p : κ → Bool} {k : κ} (hk : p k = false) (m : OrderedMap κ ν) :
    (m.remove k).filter (fun k _ => p k) = m.filter (fun k _ => p k) := by
  apply ext
  simp only [remove, filter, List.filter_filter]
  refine List.filter_congr fun e _ => ?_
  by_cases he : e.1 = k
  · simp [he, hk]
  · simp [he]

theorem putAll_entries_get? (m m' : OrderedMap κ ν) (k : κ) :
    (m.putAll m'.entries).get? k = (m'.get? k).or (m.get? k) := by
  cases hget : m'.get? k with
  | none =>
    rw [Option.none_or]
    exact get?_putAll_of_not_mem m m'.entries (get?_eq_none_iff.mp hget)
  | some v =>
    rw [Option.some_or]
    exact get?_putAll_of_mem m m'.entries m'.nodup (get?_eq_some_iff.mp hget)

theorem get?_removeAll (m : OrderedMap κ ν) (ks : List κ) (k : κ) :
    (m.removeAll ks).get? k = if k ∈ ks then none else m.get? k := by
  induction ks generalizing m with
  | nil => simp [removeAll]
  | cons k' ks ih =>
    have hrest : (m.removeAll (k' :: ks)).get? k = ((m.remove k').removeAll ks).get? k := rfl
    rw [hrest, ih]
    by_cases hk : k = k'
    · subst hk
      simp
    · simp only [List.mem_cons, hk, false_or, get?_remove_ne m hk]

/-- An entry that is neither put nor removed keeps its place. -/
theorem filter_putAll {p : κ → Bool} {es : List (κ × ν)} (h : ∀ k ∈ es.map Prod.fst, p k = false)
    (m : OrderedMap κ ν) :
    (m.putAll es).filter (fun k _ => p k) = m.filter (fun k _ => p k) := by
  induction es generalizing m with
  | nil => rfl
  | cons e es ih =>
    have hrest := ih (fun k hk => h k (List.mem_cons_of_mem _ hk)) (m.put e.1 e.2)
    exact hrest.trans (filter_put (h e.1 List.mem_cons_self) m e.2)

theorem filter_removeAll {p : κ → Bool} {ks : List κ} (h : ∀ k ∈ ks, p k = false)
    (m : OrderedMap κ ν) :
    (m.removeAll ks).filter (fun k _ => p k) = m.filter (fun k _ => p k) := by
  induction ks generalizing m with
  | nil => rfl
  | cons k ks ih =>
    have hrest := ih (fun k' hk' => h k' (List.mem_cons_of_mem _ hk')) (m.remove k)
    exact hrest.trans (filter_remove (h k List.mem_cons_self) m)

/-- Maps with the same keys, in whatever order, and equal values. -/
theorem equal_of_get? {eqVal : ν → ν → Bool} {m m' : OrderedMap κ ν}
    (hkeys : ∀ k, k ∈ m.keys ↔ k ∈ m'.keys)
    (hvals : ∀ k v w, m.get? k = some v → m'.get? k = some w → eqVal v w = true) :
    m.equal eqVal m' = true := by
  have hperm : m.keys.Perm m'.keys :=
    (List.perm_ext_iff_of_nodup m.keys_nodup m'.keys_nodup).mpr hkeys
  have hsize : m.size = m'.size := by simpa [keys, size] using hperm.length_eq
  rw [equal, decide_eq_true hsize, Bool.true_and, List.all_eq_true]
  rintro ⟨k, w⟩ hmem
  have hw := get?_eq_some_iff.mpr hmem
  obtain ⟨v, hv⟩ := exists_get?_of_mem_keys ((hkeys k).mpr (mem_keys_of_get? hw))
  rw [hv]
  exact hvals k v w hv hw

theorem exists_get?_of_equal {eqVal : ν → ν → Bool} {m m' : OrderedMap κ ν}
    (h : m.equal eqVal m' = true) {k : κ} {w : ν} (hw : m'.get? k = some w) :
    ∃ v, m.get? k = some v ∧ eqVal v w = true := by
  rw [equal, Bool.and_eq_true, List.all_eq_true] at h
  have hk := h.2 (k, w) (get?_eq_some_iff.mp hw)
  cases hv : m.get? k with
  | none => simp [hv] at hk
  | some v =>
    simp only [hv] at hk
    exact ⟨v, rfl, hk⟩

theorem mem_keys_of_equal {eqVal : ν → ν → Bool} {m m' : OrderedMap κ ν}
    (h : m.equal eqVal m' = true) {k : κ} : k ∈ m.keys ↔ k ∈ m'.keys := by
  have hsubset : m'.keys ⊆ m.keys := by
    intro k hk
    obtain ⟨w, hw⟩ := exists_get?_of_mem_keys hk
    obtain ⟨v, hv, -⟩ := exists_get?_of_equal h hw
    exact mem_keys_of_get? hv
  have hlength : m.keys.length ≤ m'.keys.length := by
    rw [equal, Bool.and_eq_true, decide_eq_true_eq] at h
    simpa [keys, size] using h.1.le
  have hperm : m'.keys.Perm m.keys :=
    (List.subperm_of_subset m'.keys_nodup hsubset).perm_of_length_le hlength
  exact hperm.mem_iff.symm

/-- The comparison is blind to the order in which the maps were filled. -/
theorem equal_iff_get? {eqVal : ν → ν → Bool} (heq : ∀ v w, eqVal v w = true ↔ v = w)
    {m m' : OrderedMap κ ν} : m.equal eqVal m' = true ↔ ∀ k, m.get? k = m'.get? k := by
  constructor
  · intro h k
    cases hw : m'.get? k with
    | none =>
      rw [get?_eq_none_iff, mem_keys_of_equal h]
      exact get?_eq_none_iff.mp hw
    | some w =>
      obtain ⟨v, hv, hvw⟩ := exists_get?_of_equal h hw
      rw [hv, (heq v w).mp hvw]
  · intro h
    refine equal_of_get? (fun k => ?_) fun k v w hv hw => (heq v w).mpr ?_
    · rw [← isSome_get?_iff, ← isSome_get?_iff, h]
    · exact Option.some.inj (hv.symm.trans ((h k).trans hw))

theorem removeAll_eq_filter (m : OrderedMap κ ν) (ks : List κ) :
    m.removeAll ks = m.filter (fun k _ => decide (k ∉ ks)) := by
  induction ks generalizing m with
  | nil => exact ext (List.filter_eq_self.mpr fun _ _ => by simp).symm
  | cons k ks ih =>
    have hrest : m.removeAll (k :: ks) = (m.remove k).removeAll ks := rfl
    rw [hrest, ih]
    apply ext
    simp only [remove, filter, List.filter_filter]
    refine List.filter_congr fun e _ => ?_
    simp [Bool.and_comm]

/-- Entries that are put change a map unless each of them is there, with an equal value. -/
theorem putAll_equal_iff {eqVal : ν → ν → Bool} (hself : ∀ v, eqVal v v = true)
    {m m' : OrderedMap κ ν} : (m.putAll m'.entries).equal eqVal m = true ↔
      ∀ k v, m'.get? k = some v → ∃ w, m.get? k = some w ∧ eqVal v w = true := by
  constructor
  · intro h k v hv
    have hput : (m.putAll m'.entries).get? k = some v := by
      rw [putAll_entries_get?, hv, Option.some_or]
    obtain ⟨w, hw⟩ :=
      exists_get?_of_mem_keys ((mem_keys_of_equal h).mp (mem_keys_of_get? hput))
    obtain ⟨v', hv', hequal⟩ := exists_get?_of_equal h hw
    obtain rfl := Option.some.inj (hput.symm.trans hv')
    exact ⟨w, hw, hequal⟩
  · intro h
    refine equal_of_get? (fun k => ?_) fun k v w hv hw => ?_
    · rw [mem_keys_putAll]
      refine or_iff_left_of_imp fun hk => ?_
      obtain ⟨v, hv⟩ := exists_get?_of_mem_keys hk
      obtain ⟨w, hw, -⟩ := h k v hv
      exact mem_keys_of_get? hw
    · rw [putAll_entries_get?] at hv
      cases hreq : m'.get? k with
      | none =>
        rw [hreq, Option.none_or, hw] at hv
        exact Option.some.inj hv ▸ hself w
      | some v' =>
        rw [hreq, Option.some_or] at hv
        obtain rfl := Option.some.inj hv
        obtain ⟨w', hw', hequal⟩ := h k v' hreq
        exact Option.some.inj (hw'.symm.trans hw) ▸ hequal

/-- Keys that are removed change a map unless none of them is there. -/
theorem removeAll_equal_iff {eqVal : ν → ν → Bool} (hself : ∀ v, eqVal v v = true)
    {m : OrderedMap κ ν} {ks : List κ} :
    (m.removeAll ks).equal eqVal m = true ↔ ∀ k ∈ ks, k ∉ m.keys := by
  constructor
  · intro h k hk hmem
    have hthere := (mem_keys_of_equal h).mpr hmem
    rw [← isSome_get?_iff, get?_removeAll, if_pos hk] at hthere
    exact absurd hthere (by simp)
  · intro h
    have hsame : m.removeAll ks = m := by
      rw [removeAll_eq_filter]
      refine ext (List.filter_eq_self.mpr fun e he => decide_eq_true fun hk => ?_)
      exact h e.1 hk (List.mem_map_of_mem he)
    rw [hsame]
    exact equal_self hself m

/-- Removing what passes is keeping what does not. -/
theorem removeAll_keys_filter (m : OrderedMap κ ν) (p : κ → ν → Bool) :
    m.removeAll (m.filter p).keys = m.filter (fun k v => !p k v) := by
  rw [removeAll_eq_filter]
  apply ext
  refine List.filter_congr fun e he => ?_
  have hmem : e.1 ∈ (m.filter p).keys ↔ p e.1 e.2 = true := by
    rw [← isSome_get?_iff, get?_filter, get?_eq_some_iff.mpr he]
    cases hp : p e.1 e.2 <;> simp [hp]
  simp only [hmem, decide_not, Bool.decide_eq_true]

theorem remove_of_not_mem {m : OrderedMap κ ν} {k : κ} (h : k ∉ m.keys) : m.remove k = m := by
  apply ext
  refine List.filter_eq_self.mpr fun e he => decide_eq_true fun hek => h ?_
  exact hek ▸ List.mem_map_of_mem he

theorem mapVals_put {ω : Type w} (m : OrderedMap κ ν) (f : ν → ω) (k : κ) (v : ν) :
    (m.put k v).mapVals (fun _ => f) = (m.mapVals (fun _ => f)).put k (f v) := by
  apply ext
  by_cases hk : k ∈ m.keys
  · have hk' : k ∈ (m.mapVals (fun _ => f)).keys := by rwa [keys_mapVals]
    rw [put, dif_pos hk, put, dif_pos hk']
    simp only [modify, mapVals, List.map_map]
    refine List.map_congr_left fun e _ => ?_
    simp only [Function.comp_apply]
    split <;> rfl
  · have hk' : k ∉ (m.mapVals (fun _ => f)).keys := by rwa [keys_mapVals]
    rw [entries_put_of_not_mem _ hk']
    change (m.put k v).entries.map (fun e => (e.1, f e.2)) = _
    rw [entries_put_of_not_mem _ hk, List.map_append]
    rfl

theorem mapVals_remove {ω : Type w} (m : OrderedMap κ ν) (f : ν → ω) (k : κ) :
    (m.remove k).mapVals (fun _ => f) = (m.mapVals (fun _ => f)).remove k := by
  apply ext
  simp only [remove, filter, mapVals, List.filter_map]
  rfl

/-- Two maps with the same keys in the same order are equal once their lookups agree. -/
theorem ext_get? {m m' : OrderedMap κ ν} (hk : m.keys = m'.keys)
    (h : ∀ k ∈ m.keys, m.get? k = m'.get? k) : m = m' := by
  apply ext
  apply List.ext_getElem
  · simpa [keys] using congrArg List.length hk
  · intro i hi hi'
    have hfst : m.entries[i].1 = m'.entries[i].1 := by
      have := List.getElem_of_eq hk (i := i) (by simpa [keys] using hi)
      simpa [keys] using this
    have he : m.get? m.entries[i].1 = some m.entries[i].2 :=
      get?_eq_some_iff.mpr (List.getElem_mem hi)
    have he' : m'.get? m'.entries[i].1 = some m'.entries[i].2 :=
      get?_eq_some_iff.mpr (List.getElem_mem hi')
    have hget := h _ (mem_keys_of_get? he)
    rw [he, hfst, he'] at hget
    exact Prod.ext hfst (Option.some.inj hget)

/-! ### Modifications in turn -/

theorem modify_modify (m : OrderedMap κ ν) (k : κ) (f g : ν → ν) :
    (m.modify k f).modify k g = m.modify k (fun v => g (f v)) := by
  refine ext_get? (by simp) fun k' _ => ?_
  simp only [get?_modify]
  split
  · rw [Option.map_map]
    rfl
  · rfl

theorem modify_comm (m : OrderedMap κ ν) {k k' : κ} (hne : k ≠ k') (f g : ν → ν) :
    (m.modify k f).modify k' g = (m.modify k' g).modify k f := by
  refine ext_get? (by simp) fun a _ => ?_
  simp only [get?_modify]
  by_cases hk : a = k
  · have hk' : a ≠ k' := fun h => hne (hk.symm.trans h)
    simp only [if_pos hk, if_neg hk']
  · simp only [if_neg hk]

/-! ### Sums of the values -/

omit [DecidableEq κ] in
def sumBy (m : OrderedMap κ ν) (f : ν → Nat) : Nat := (m.entries.map (fun e => f e.2)).sum

private theorem sumBy_eq_keys (m : OrderedMap κ ν) (f : ν → Nat) :
    m.sumBy f = (m.keys.map (fun k => (m.get? k).elim 0 f)).sum := by
  rw [sumBy, keys, List.map_map]
  refine congrArg List.sum (List.map_congr_left fun e he => ?_)
  rw [Function.comp_apply, get?_eq_some_iff.mpr he, Option.elim_some]

theorem sumBy_le {ω : Type w} {m : OrderedMap κ ν} {m' : OrderedMap κ ω} (hkeys : m'.keys = m.keys)
    {f : ν → Nat} {g : ω → Nat}
    (h : ∀ k v v', m.get? k = some v → m'.get? k = some v' → g v' ≤ f v) :
    m'.sumBy g ≤ m.sumBy f := by
  rw [sumBy_eq_keys, sumBy_eq_keys, hkeys]
  refine List.sum_le_sum fun k hk => ?_
  obtain ⟨v, hv⟩ := exists_get?_of_mem_keys hk
  obtain ⟨v', hv'⟩ := exists_get?_of_mem_keys (hkeys ▸ hk)
  rw [hv, hv', Option.elim_some, Option.elim_some]
  exact h k v v' hv hv'

theorem sumBy_lt {ω : Type w} {m : OrderedMap κ ν} {m' : OrderedMap κ ω} (hkeys : m'.keys = m.keys)
    {f : ν → Nat} {g : ω → Nat}
    (h : ∀ k v v', m.get? k = some v → m'.get? k = some v' → g v' ≤ f v)
    {k : κ} {v : ν} {v' : ω} (hv : m.get? k = some v) (hv' : m'.get? k = some v')
    (hlt : g v' < f v) : m'.sumBy g < m.sumBy f := by
  rw [sumBy_eq_keys, sumBy_eq_keys, hkeys]
  refine List.sum_lt_sum _ _ (fun k hk => ?_) ⟨k, mem_keys_of_get? hv, ?_⟩
  · obtain ⟨v, hv⟩ := exists_get?_of_mem_keys hk
    obtain ⟨v', hv'⟩ := exists_get?_of_mem_keys (hkeys ▸ hk)
    rw [hv, hv', Option.elim_some, Option.elim_some]
    exact h k v v' hv hv'
  · rw [hv, hv', Option.elim_some, Option.elim_some]
    exact hlt

/-! ### Visits -/

/-- Rule for `forEach`: `J` is kept by every visit, and `R` relates the value a key is
visited with, which is its first one, to the value it ends with. -/
theorem forEach_spec {σ : Type w} {f : σ → OrderedMap κ ν → ν → σ × ν}
    {J : σ → OrderedMap κ ν → Prop} {R : ν → ν → Prop}
    (hvisit : ∀ s m k v, J s m → m.get? k = some v →
      R v (f s m v).2 ∧ J (f s m v).1 (m.put k (f s m v).2))
    {ks : List κ} (hks : ks.Nodup) {s : σ} {m : OrderedMap κ ν} (hJ : J s m) :
    J (forEach f ks s m).1 (forEach f ks s m).2 ∧
      (forEach f ks s m).2.keys = m.keys ∧
      (∀ k ∈ ks, ∀ v, m.get? k = some v →
        ∃ v', (forEach f ks s m).2.get? k = some v' ∧ R v v') ∧
      ∀ k, k ∉ ks → (forEach f ks s m).2.get? k = m.get? k := by
  induction ks generalizing s m with
  | nil => exact ⟨hJ, rfl, fun k hk => absurd hk List.not_mem_nil, fun k _ => rfl⟩
  | cons k₀ ks ih =>
    obtain ⟨hk₀, hks⟩ := List.nodup_cons.mp hks
    cases hv : m.get? k₀ with
    | none =>
      simp only [forEach, hv]
      obtain ⟨hJ', hkeys, hin, hout⟩ := ih hks hJ
      refine ⟨hJ', hkeys, ?_, fun k hk => hout k (fun h => hk (List.mem_cons_of_mem _ h))⟩
      intro k hk v hkv
      rcases List.mem_cons.mp hk with rfl | hk
      · simp [hv] at hkv
      · exact hin k hk v hkv
    | some v₀ =>
      simp only [forEach, hv]
      obtain ⟨hR, hJ₁⟩ := hvisit s m k₀ v₀ hJ hv
      obtain ⟨hJ', hkeys, hin, hout⟩ := ih hks hJ₁
      refine ⟨hJ', hkeys.trans (keys_put_of_mem _ (mem_keys_of_get? hv)), ?_, ?_⟩
      · intro k hk v hkv
        rcases List.mem_cons.mp hk with rfl | hk
        · obtain rfl := Option.some.inj (hv.symm.trans hkv)
          exact ⟨_, (hout k hk₀).trans (get?_put_self m k _), hR⟩
        · have hne : k ≠ k₀ := fun h => hk₀ (h ▸ hk)
          exact hin k hk v ((get?_put_ne m _ hne).trans hkv)
      · intro k hk
        simp only [List.mem_cons, not_or] at hk
        exact (hout k hk.2).trans (get?_put_ne m _ hk.1)

/-- An invariant of the values that every visit keeps, whatever the keys and their order. -/
theorem forEach_inv {σ : Type w} {f : σ → OrderedMap κ ν → ν → σ × ν} {I : κ → ν → Prop}
    (hvisit : ∀ s m k v, I k v → I k (f s m v).2) (ks : List κ) (s : σ) {m : OrderedMap κ ν}
    (h : ∀ k v, m.get? k = some v → I k v) :
    (forEach f ks s m).2.keys = m.keys ∧
      ∀ k v, (forEach f ks s m).2.get? k = some v → I k v := by
  induction ks generalizing s m with
  | nil => exact ⟨rfl, h⟩
  | cons k₀ ks ih =>
    cases hv : m.get? k₀ with
    | none =>
      simp only [forEach, hv]
      exact ih s h
    | some v₀ =>
      simp only [forEach, hv]
      obtain ⟨hkeys, hI⟩ := ih (f s m v₀).1 (m := m.put k₀ (f s m v₀).2) (by
        intro k v hk
        by_cases hne : k = k₀
        · subst hne
          rw [get?_put_self] at hk
          exact Option.some.inj hk ▸ hvisit s m k v₀ (h k v₀ hv)
        · exact h k v (get?_put_ne m _ hne ▸ hk))
      exact ⟨hkeys.trans (keys_put_of_mem _ (mem_keys_of_get? hv)), hI⟩

theorem get?_forEach_of_not_mem {σ : Type w} (f : σ → OrderedMap κ ν → ν → σ × ν) {ks : List κ}
    {k : κ} (h : k ∉ ks) (s : σ) (m : OrderedMap κ ν) :
    (forEach f ks s m).2.get? k = m.get? k := by
  induction ks generalizing s m with
  | nil => rfl
  | cons k₀ ks ih =>
    simp only [List.mem_cons, not_or] at h
    cases hv : m.get? k₀ with
    | none =>
      simp only [forEach, hv]
      exact ih h.2 s m
    | some v =>
      simp only [forEach, hv]
      exact (ih h.2 _ _).trans (get?_put_ne m _ h.1)

omit [DecidableEq κ] in
/-- The values that visits compute in turn when they do not look at the map. -/
def visitAll {σ : Type w} (f : σ → ν → σ × ν) : σ → List ν → List ν
  | _, [] => []
  | s, v :: vs => (f s v).2 :: visitAll f (f s v).1 vs

/-- Visits to distinct keys leave what they compute from the values that were there. -/
theorem filterMap_forEach {σ : Type w} (f : σ → ν → σ × ν) {ks : List κ} (hks : ks.Nodup) (s : σ)
    (m : OrderedMap κ ν) :
    ks.filterMap (forEach (fun s _ v => f s v) ks s m).2.get? =
      visitAll f s (ks.filterMap m.get?) := by
  induction ks generalizing s m with
  | nil => rfl
  | cons k ks ih =>
    obtain ⟨hk, hks⟩ := List.nodup_cons.mp hks
    cases hv : m.get? k with
    | none =>
      simp only [forEach, hv]
      rw [List.filterMap_cons_none hv, List.filterMap_cons_none, ih hks]
      exact (get?_forEach_of_not_mem _ hk s m).trans hv
    | some v =>
      have hrest : ks.filterMap (m.put k (f s v).2).get? = ks.filterMap m.get? :=
        List.filterMap_congr fun k' hk' => get?_put_ne m _ (fun heq => hk (heq ▸ hk'))
      have hself := (get?_forEach_of_not_mem (fun s _ v => f s v) hk (f s v).1
        (m.put k (f s v).2)).trans (get?_put_self m k (f s v).2)
      simp only [forEach, hv]
      rw [List.filterMap_cons_some hself, List.filterMap_cons_some hv, ih hks, hrest, visitAll]

/-- The state that visits to distinct keys end in, when it takes no more than the values that
were there. -/
theorem forEach_fst {σ : Type w} {f : σ → OrderedMap κ ν → ν → σ × ν} {g : σ → ν → σ}
    {J : σ → OrderedMap κ ν → Prop}
    (hvisit : ∀ s m k v, J s m → m.get? k = some v →
      (f s m v).1 = g s v ∧ J (f s m v).1 (m.put k (f s m v).2))
    {ks : List κ} (hks : ks.Nodup) {s : σ} {m : OrderedMap κ ν} (hJ : J s m) :
    (forEach f ks s m).1 = (ks.filterMap m.get?).foldl g s := by
  induction ks generalizing s m with
  | nil => rfl
  | cons k ks ih =>
    obtain ⟨hk, hks⟩ := List.nodup_cons.mp hks
    cases hv : m.get? k with
    | none =>
      simp only [forEach, hv]
      rw [ih hks hJ, List.filterMap_cons_none hv]
    | some v =>
      obtain ⟨hstate, hJ'⟩ := hvisit s m k v hJ hv
      have hrest : ks.filterMap (m.put k (f s m v).2).get? = ks.filterMap m.get? :=
        List.filterMap_congr fun k' hk' => get?_put_ne m _ (fun heq => hk (heq ▸ hk'))
      simp only [forEach, hv]
      rw [ih hks hJ', hrest, List.filterMap_cons_some hv, List.foldl_cons, hstate]

omit [DecidableEq κ] in
theorem vals_mapVals {ω : Type w} (m : OrderedMap κ ν) (f : κ → ν → ω) :
    (m.mapVals f).vals = m.entries.map (fun e => f e.1 e.2) := by
  simp only [vals, mapVals, List.map_map, Function.comp_def]

theorem filterMap_get?_keys (m : OrderedMap κ ν) : m.keys.filterMap m.get? = m.vals := by
  rw [keys, List.filterMap_map, vals, ← List.filterMap_eq_map]
  refine List.filterMap_congr fun e he => ?_
  exact get?_eq_some_iff.mpr he

theorem put_self {m : OrderedMap κ ν} {k : κ} {v : ν} (h : m.get? k = some v) : m.put k v = m := by
  refine ext_get? (keys_put_of_mem v (mem_keys_of_get? h)) fun k' _ => ?_
  by_cases hk : k' = k
  · rw [hk, get?_put_self, h]
  · exact get?_put_ne m v hk

/-- A map that is equal to itself before a value was put has that value already. -/
theorem put_of_equal {eqVal : ν → ν → Bool} {m : OrderedMap κ ν} {k : κ} {v : ν}
    (heq : ∀ w, eqVal v w = true → w = v) (h : (m.put k v).equal eqVal m = true) :
    m.put k v = m := by
  have hmem : k ∈ m.keys := (mem_keys_of_equal h).mp (mem_keys_put.mpr (Or.inl rfl))
  obtain ⟨w, hw⟩ := exists_get?_of_mem_keys hmem
  obtain ⟨v', hv', hvw⟩ := exists_get?_of_equal h hw
  rw [get?_put_self] at hv'
  obtain rfl := Option.some.inj hv'
  exact put_self (hw.trans (congrArg some (heq w hvw)))

/-- Visits that leave the value and their state alone may be left out. -/
theorem forEach_filter {σ : Type w} {f : σ → ν → σ × ν} {p : ν → Bool}
    (hskip : ∀ s v, p v = false → f s v = (s, v)) (hkeep : ∀ s v, p (f s v).2 = p v) (ks : List κ)
    (s : σ) (m : OrderedMap κ ν) :
    forEach (fun s _ v => f s v) ks s m =
      forEach (fun s _ v => f s v) (ks.filter (fun k => (m.get? k).any p)) s m := by
  induction ks generalizing s m with
  | nil => rfl
  | cons k ks ih =>
    cases hv : m.get? k with
    | none =>
      rw [List.filter_cons_of_neg (by simp [hv])]
      simp only [forEach, hv]
      exact ih s m
    | some v =>
      cases hp : p v with
      | false =>
        rw [List.filter_cons_of_neg (by simp [hv, hp])]
        simp only [forEach, hv, hskip s v hp, put_self hv]
        exact ih s m
      | true =>
        have hsame : ks.filter (fun k' => ((m.put k (f s v).2).get? k').any p) =
            ks.filter (fun k' => (m.get? k').any p) := by
          refine List.filter_congr fun k' _ => ?_
          by_cases hk : k' = k
          · rw [hk, get?_put_self, hv, Option.any_some, Option.any_some, hkeep]
          · rw [get?_put_ne m _ hk]
        rw [List.filter_cons_of_pos (by simp [hv, hp])]
        simp only [forEach, hv]
        rw [ih, hsame]

/-- What the visits do not see of their state. -/
theorem forEach_state {σ : Type w} {f : σ → OrderedMap κ ν → ν → σ × ν} {g : σ → σ}
    (h : ∀ s m v, f (g s) m v = (g (f s m v).1, (f s m v).2)) (ks : List κ) (s : σ)
    (m : OrderedMap κ ν) :
    forEach f ks (g s) m = (g (forEach f ks s m).1, (forEach f ks s m).2) := by
  induction ks generalizing s m with
  | nil => rfl
  | cons k ks ih =>
    cases hv : m.get? k with
    | none =>
      simp only [forEach, hv]
      exact ih s m
    | some v =>
      simp only [forEach, hv, h]
      exact ih (f s m v).1 (m.put k (f s m v).2)

/-- What each visit is made with: the state, the map and the value. -/
def visits {σ : Type w} (f : σ → OrderedMap κ ν → ν → σ × ν) :
    List κ → σ → OrderedMap κ ν → List (σ × OrderedMap κ ν × ν)
  | [], _, _ => []
  | k :: ks, s, m => match m.get? k with
    | none => visits f ks s m
    | some v => (s, m, v) :: visits f ks (f s m v).1 (m.put k (f s m v).2)

/-- A visit that notes what it comes across. -/
def logged {σ : Type w} {ι : Type} (note : σ → OrderedMap κ ν → ν → List ι)
    (f : σ → OrderedMap κ ν → ν → σ × ν) (s : σ × List ι) (m : OrderedMap κ ν) (v : ν) :
    (σ × List ι) × ν :=
  (((f s.1 m v).1, s.2 ++ note s.1 m v), (f s.1 m v).2)

/-- Rule for `visits`: what every visit keeps holds at each, and each key is visited once, with
its first value. -/
theorem visits_spec {σ : Type w} {f : σ → OrderedMap κ ν → ν → σ × ν}
    {J : σ → OrderedMap κ ν → Prop}
    (hvisit : ∀ s m k v, J s m → m.get? k = some v → J (f s m v).1 (m.put k (f s m v).2))
    {ks : List κ} (hks : ks.Nodup) {s : σ} {m : OrderedMap κ ν} (hJ : J s m) :
    (∀ visit ∈ visits f ks s m,
      J visit.1 visit.2.1 ∧ ∃ k ∈ ks, m.get? k = some visit.2.2) ∧
    ∀ k ∈ ks, ∀ v, m.get? k = some v → ∃ s' m', (s', m', v) ∈ visits f ks s m := by
  induction ks generalizing s m with
  | nil => exact ⟨fun _ h => absurd h List.not_mem_nil, fun k h => absurd h List.not_mem_nil⟩
  | cons k₀ ks ih =>
    obtain ⟨hk₀, hks⟩ := List.nodup_cons.mp hks
    cases hv : m.get? k₀ with
    | none =>
      obtain ⟨hat, hall⟩ := ih hks hJ
      simp only [visits, hv]
      refine ⟨?_, ?_⟩
      · intro visit hmem
        obtain ⟨hJ', k, hk, hget⟩ := hat visit hmem
        exact ⟨hJ', k, List.mem_cons_of_mem _ hk, hget⟩
      · intro k hk v hget
        rcases List.mem_cons.mp hk with rfl | hk
        · simp [hv] at hget
        · exact hall k hk v hget
    | some v₀ =>
      obtain ⟨hat, hall⟩ := ih hks (hvisit s m k₀ v₀ hJ hv)
      have hrest (k : κ) (hk : k ∈ ks) : (m.put k₀ (f s m v₀).2).get? k = m.get? k :=
        get?_put_ne m _ (fun heq => hk₀ (heq ▸ hk))
      simp only [visits, hv]
      refine ⟨?_, ?_⟩
      · intro visit hmem
        rcases List.mem_cons.mp hmem with rfl | hmem
        · exact ⟨hJ, k₀, List.mem_cons_self, hv⟩
        · obtain ⟨hJ', k, hk, hget⟩ := hat visit hmem
          exact ⟨hJ', k, List.mem_cons_of_mem _ hk, (hrest k hk).symm.trans hget⟩
      · intro k hk v hget
        rcases List.mem_cons.mp hk with rfl | hk
        · obtain rfl := Option.some.inj (hv.symm.trans hget)
          exact ⟨s, m, List.mem_cons_self⟩
        · obtain ⟨s', m', hmem⟩ := hall k hk v ((hrest k hk).trans hget)
          exact ⟨s', m', List.mem_cons_of_mem _ hmem⟩

end OrderedMap

end WayDisplays.Lib
