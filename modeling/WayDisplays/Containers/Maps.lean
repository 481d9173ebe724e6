/- A map of pointers is an ordered map, and keeps within its blocks. -/

import WayDisplays.Lib.Indexed
import WayDisplays.Containers.Freeing
import WayDisplays.Containers.Iterators

set_option autoImplicit false
set_option relaxedAutoImplicit false

namespace WayDisplays.Containers.Maps

open Lib (Block OrderedMap)
open Lib.OrderedMap (indexOf)
open Model.Containers Freeing

variable {κ ν : Type} [DecidableEq κ]

/-- Keys are compared by what they are, and a copy is as good as what was copied. -/
structure Copies (params : PPmapParams κ ν) : Prop where
  equalKey : ∀ a b, params.equalKey a b = decide (a = b)
  allocKey : ∀ key, params.allocKey key = some key
  allocVal : ∀ val, params.allocVal val = val

/-- The entries lie at the front of the blocks, with nothing but room behind them. -/
structure Represents (map : PPmap κ ν) (m : OrderedMap κ (Option ν)) : Prop where
  copies : Copies map.params
  keys : m.keys.map some <+: map.keys
  vals : m.vals <+: map.vals
  size : map.size = m.size
  keysCapacity : map.keys.length = map.capacity
  valsCapacity : map.vals.length = map.capacity
  storable : ∀ val ∈ m.vals, map.storable val = true

section Fields

omit [DecidableEq κ]

theorem length_keys (m : OrderedMap κ (Option ν)) : (m.keys.map some).length = m.size := by
  rw [List.length_map, OrderedMap.keys, List.length_map, OrderedMap.size]

theorem length_vals (m : OrderedMap κ (Option ν)) : m.vals.length = m.size := by
  rw [OrderedMap.vals, List.length_map, OrderedMap.size]

end Fields

variable {map : PPmap κ ν} {m : OrderedMap κ (Option ν)}

theorem represents_init {params : PPmapParams κ ν} (h : Copies params) :
    Represents (PPmap.init params) .empty where
  copies := h
  keys := List.nil_prefix
  vals := List.nil_prefix
  size := rfl
  keysCapacity := List.length_replicate
  valsCapacity := List.length_replicate
  storable := fun _ hmem => absurd hmem List.not_mem_nil

theorem position_eq (h : Represents map m) (key : κ) :
    map.position (some key) = some (m.indexOf key) := by
  have hsearch := Block.search_of_prefix h.keys
    (fun k => equalPtr map.params.equalKey k (some key))
  have hindex : (m.keys.map some).findIdx? (fun k => equalPtr map.params.equalKey k (some key)) =
      m.indexOf key := by
    rw [List.findIdx?_map]
    exact congrArg (fun p => m.keys.findIdx? p) (funext fun k => h.copies.equalKey k key)
  rw [length_keys, ← h.size] at hsearch
  rw [PPmap.position, hsearch, hindex]

/-! ### Storing -/

theorem growBlocks_represents (h : Represents map m) :
    ∃ map', map.growBlocks = some map' ∧ Represents map' m ∧ map.capacity < map'.capacity ∧
      map'.params = map.params := by
  have hgrown : map.capacity < grownCapacity map.capacity map.params.grow := by
    unfold grownCapacity defaultGrow
    split <;> omega
  set capacity := grownCapacity map.capacity map.params.grow with hcapacity
  have hkeysRoom : map.keys.length ≤ capacity := by
    rw [h.keysCapacity]
    exact le_of_lt hgrown
  have hvalsRoom : map.vals.length ≤ capacity := by
    rw [h.valsCapacity]
    exact le_of_lt hgrown
  obtain ⟨keys, hkeys, hkeysPrefix, hkeysLength⟩ := Block.copy_of_prefix h.keys hkeysRoom
  obtain ⟨vals, hvals, hvalsPrefix, hvalsLength⟩ := Block.copy_of_prefix h.vals hvalsRoom
  rw [h.keysCapacity, hcapacity] at hkeys
  rw [h.valsCapacity, hcapacity] at hvals
  refine ⟨{ map with keys := keys, vals := vals, capacity := capacity }, ?_, ?_, hgrown, rfl⟩
  · rw [PPmap.growBlocks]
    simp only [hkeys, hvals, Option.bind_eq_bind, Option.bind_some]
    rfl
  · exact {
      copies := h.copies
      keys := hkeysPrefix
      vals := hvalsPrefix
      size := h.size
      keysCapacity := hkeysLength
      valsCapacity := hvalsLength
      storable := h.storable }

theorem room_represents (h : Represents map m) :
    ∃ map', map.room = some map' ∧
      Represents map' m ∧ m.size < map'.capacity ∧ map'.params = map.params := by
  by_cases hfull : map.capacity ≤ map.size
  · obtain ⟨map', hmap', hrepresents, hgrown, hparams⟩ := growBlocks_represents h
    have hfits : map.size ≤ map.capacity := by
      have hlength := h.keys.length_le
      rwa [length_keys, ← h.size, h.keysCapacity] at hlength
    refine ⟨map', ?_, hrepresents, by rw [← h.size]; omega, hparams⟩
    rw [PPmap.room, if_pos hfull, hmap']
  · refine ⟨map, if_neg hfull, h, by rw [← h.size]; omega, rfl⟩

theorem overwriteAt_represents (h : Represents map m) {key : κ} {i : Nat} {old : Option ν}
    {before after : List (κ × Option ν)} (hat : m.At key i old before after) {val : Option ν}
    (hval : map.storable val = true) (overwrite : Bool) :
    ∃ map', map.overwriteAt i val id overwrite = some ⟨map', old, true⟩ ∧
      Represents map' (if overwrite then m.put key val else m) ∧ map'.params = map.params := by
  have hi : i < m.vals.length := (List.getElem?_eq_some_iff.mp hat.vals_getElem).1
  have hload := Block.load_of_prefix h.vals hi
  have hold : m.vals[i] = old := (List.getElem?_eq_some_iff.mp hat.vals_getElem).2
  rw [hold] at hload
  obtain ⟨vals, hstore, hprefix, hlength⟩ := Block.store_of_prefix h.vals hi val
  cases overwrite with
  | false =>
    refine ⟨map, ?_, h, rfl⟩
    rw [PPmap.overwriteAt, hload]
    rfl
  | true =>
    refine ⟨{ map with vals := vals }, ?_, ?_, rfl⟩
    · rw [PPmap.overwriteAt, hload]
      simp only [Option.bind_eq_bind, Option.bind_some, id, hval, hstore, Bool.not_true,
        Bool.false_eq_true, if_false]
    · have hkeys : (m.put key val).keys = m.keys := m.keys_put_of_mem val hat.mem_keys
      have hsize : (m.put key val).size = m.size := by
        rw [← length_keys, ← length_keys, hkeys]
      exact {
        copies := h.copies
        keys := hkeys ▸ h.keys
        vals := hat.vals_put val ▸ hprefix
        size := h.size.trans hsize.symm
        keysCapacity := h.keysCapacity
        valsCapacity := hlength.trans h.valsCapacity
        storable := fun w hw => (OrderedMap.mem_vals_put hw).elim (fun hnew => hnew ▸ hval)
          (h.storable w) }

theorem append_represents (h : Represents map m) {key : κ} (hkey : key ∉ m.keys) {val : Option ν}
    (hval : map.storable val = true) :
    ∃ map', map.append (some key) val id = some ⟨map', none, false⟩ ∧
      Represents map' (m.put key val) ∧ map'.params = map.params := by
  obtain ⟨map', hroom, hrepresents, hlt, hparams⟩ := room_represents h
  have hkeysRoom : (m.keys.map some).length < map'.keys.length := by
    rwa [length_keys, hrepresents.keysCapacity]
  have hvalsRoom : m.vals.length < map'.vals.length := by
    rwa [length_vals, hrepresents.valsCapacity]
  obtain ⟨keys, hkeys, hkeysPrefix, hkeysLength⟩ :=
    Block.store_snoc hrepresents.keys hkeysRoom (some key)
  obtain ⟨vals, hvals, hvalsPrefix, hvalsLength⟩ := Block.store_snoc hrepresents.vals hvalsRoom val
  rw [length_keys, ← hrepresents.size] at hkeys
  rw [length_vals, ← hrepresents.size] at hvals
  have hentries := OrderedMap.entries_put_of_not_mem val hkey
  refine ⟨{ map' with keys := keys, vals := vals, size := map'.size + 1 }, ?_, ?_, hparams⟩
  · have halloc : (some key).bind map.params.allocKey = some key := h.copies.allocKey key
    rw [PPmap.append, halloc]
    simp only [id, hval, Bool.not_true, Bool.false_eq_true, if_false, hroom, hkeys, hvals,
      Option.bind_eq_bind, Option.bind_some]
  · exact {
      copies := hrepresents.copies
      keys := by
        rw [OrderedMap.keys, hentries, List.map_append, List.map_append]
        exact hkeysPrefix
      vals := by
        rw [OrderedMap.vals, hentries, List.map_append]
        exact hvalsPrefix
      size := by
        rw [OrderedMap.size, hentries, List.length_append, hrepresents.size]
        rfl
      keysCapacity := hkeysLength.trans hrepresents.keysCapacity
      valsCapacity := hvalsLength.trans hrepresents.valsCapacity
      storable := fun w hw => (OrderedMap.mem_vals_put hw).elim
        (fun hnew => by
          rw [hnew]
          simpa only [PPmap.storable, hparams] using hval) (hrepresents.storable w) }

/-- A value that may not be stored changes nothing; one under a new key is appended. -/
theorem putWith_represents (h : Represents map m) (key : κ) (val : Option ν) (overwrite : Bool) :
    ∃ map', map.putWith (some key) val id overwrite =
        some ⟨map', if map.storable val then (m.get? key).join else none,
          map.storable val && decide (key ∈ m.keys)⟩ ∧
      Represents map'
        (if map.storable val && (overwrite || decide (key ∉ m.keys)) then m.put key val else m) ∧
      map'.params = map.params := by
  by_cases hval : map.storable val = true
  · rw [PPmap.putWith]
    simp only [hval, Bool.not_true, Bool.false_eq_true, if_false, if_true, Bool.true_and,
      position_eq h key, Option.bind_eq_bind, Option.bind_some]
    cases hindex : m.indexOf key with
    | none =>
      have hkey := OrderedMap.indexOf_eq_none hindex
      obtain ⟨map', hput, hrepresents, hparams⟩ := append_represents h hkey hval
      refine ⟨map', ?_, ?_, hparams⟩
      · simp only [hput, OrderedMap.get?_eq_none_iff.mpr hkey, Option.join_none, hkey,
          decide_false]
      · simpa only [hkey, not_false_eq_true, decide_true, Bool.or_true, if_true] using hrepresents
    | some i =>
      obtain ⟨old, before, after, hat⟩ := OrderedMap.exists_at hindex
      obtain ⟨map', hput, hrepresents, hparams⟩ := overwriteAt_represents h hat hval overwrite
      refine ⟨map', ?_, ?_, hparams⟩
      · simp only [hput, hat.get?, Option.join_some, hat.mem_keys, decide_true]
      · simpa only [hat.mem_keys, not_true_eq_false, decide_false, Bool.or_false] using hrepresents
  · rw [Bool.not_eq_true] at hval
    refine ⟨map, ?_, ?_, rfl⟩
    · rw [PPmap.putWith, hval]
      rfl
    · simpa only [hval, Bool.false_and, Bool.false_eq_true, if_false] using h

theorem Copies.allocVal_eq {params : PPmapParams κ ν} (h : Copies params) :
    params.allocVal = id := funext h.allocVal

/-! ### Removing -/

theorem removeAt_represents (h : Represents map m) {key : κ} {i : Nat} {old : Option ν}
    {before after : List (κ × Option ν)} (hat : m.At key i old before after) :
    ∃ map', map.removeAt i = some ⟨map', old, true⟩ ∧ Represents map' (m.remove key) ∧
      map'.params = map.params := by
  have hi : i < m.vals.length := (List.getElem?_eq_some_iff.mp hat.vals_getElem).1
  have hold : m.vals[i] = old := (List.getElem?_eq_some_iff.mp hat.vals_getElem).2
  have hik : i < (m.keys.map some).length := by rwa [length_keys, ← length_vals]
  have hload := Block.load_of_prefix h.vals hi
  rw [hold] at hload
  obtain ⟨keys₁, hkeys₁, hkeysPrefix₁, hkeysLength₁⟩ := Block.store_of_prefix h.keys hik none
  obtain ⟨vals₁, hvals₁, hvalsPrefix₁, hvalsLength₁⟩ := Block.store_of_prefix h.vals hi none
  obtain ⟨keys₂, hkeys₂, hkeysPrefix₂, hkeysLength₂⟩ :=
    Block.shiftDown_of_prefix hkeysPrefix₁ (by rwa [List.length_set])
  obtain ⟨vals₂, hvals₂, hvalsPrefix₂, hvalsLength₂⟩ :=
    Block.shiftDown_of_prefix hvalsPrefix₁ (by rwa [List.length_set])
  rw [List.length_set, length_keys, ← h.size] at hkeys₂
  rw [List.length_set, length_vals, ← h.size] at hvals₂
  rw [List.eraseIdx_set_eq] at hkeysPrefix₂ hvalsPrefix₂
  refine ⟨{ map with keys := keys₂, vals := vals₂, size := map.size - 1 }, ?_, ?_, rfl⟩
  · rw [PPmap.removeAt]
    simp only [hkeys₁, hload, hvals₁, hkeys₂, hvals₂, Option.bind_eq_bind, Option.bind_some]
  · exact {
      copies := h.copies
      keys := by
        rw [hat.keys_remove, ← List.eraseIdx_map]
        exact hkeysPrefix₂
      vals := by
        rw [hat.vals_remove]
        exact hvalsPrefix₂
      size := by
        rw [← length_vals, hat.vals_remove, List.length_eraseIdx_of_lt hi, length_vals, ← h.size]
      keysCapacity := hkeysLength₂.trans (hkeysLength₁.trans h.keysCapacity)
      valsCapacity := hvalsLength₂.trans (hvalsLength₁.trans h.valsCapacity)
      storable := fun w hw => h.storable w (OrderedMap.mem_vals_remove hw) }

theorem remove_represents (h : Represents map m) (key : κ) :
    ∃ map', map.remove (some key) =
        some ⟨map', (m.get? key).join, decide (key ∈ m.keys)⟩ ∧
      Represents map' (m.remove key) ∧ map'.params = map.params := by
  rw [PPmap.remove]
  simp only [Option.isNone_some, Bool.false_eq_true, if_false, position_eq h key,
    Option.bind_eq_bind, Option.bind_some]
  cases hindex : m.indexOf key with
  | none =>
    have hkey := OrderedMap.indexOf_eq_none hindex
    refine ⟨map, ?_, ?_, rfl⟩
    · simp only [OrderedMap.get?_eq_none_iff.mpr hkey, Option.join_none, hkey, decide_false]
    · rwa [OrderedMap.remove_of_not_mem hkey]
  | some i =>
    obtain ⟨old, before, after, hat⟩ := OrderedMap.exists_at hindex
    obtain ⟨map', hremove, hrepresents, hparams⟩ := removeAt_represents h hat
    refine ⟨map', ?_, hrepresents, hparams⟩
    simp only [hremove, hat.get?, Option.join_some, hat.mem_keys, decide_true]

theorem removeAll_represents (h : Represents map m) :
    ∃ map', map.removeAll = some (map', m.size) ∧ Represents map' .empty ∧
      map'.params = map.params := by
  have hkeysFits : map.size ≤ map.keys.length := by
    have hlength := h.keys.length_le
    rwa [length_keys, ← h.size] at hlength
  have hvalsFits : map.size ≤ map.vals.length := by
    have hlength := h.vals.length_le
    rwa [length_vals, ← h.size] at hlength
  obtain ⟨keys, hkeys, hkeysLength⟩ := Block.clear_of_le hkeysFits
  obtain ⟨vals, hvals, hvalsLength⟩ := Block.clear_of_le hvalsFits
  refine ⟨{ map with keys := keys, vals := vals, size := 0 }, ?_, ?_, rfl⟩
  · rw [PPmap.removeAll, ← h.size]
    simp only [hkeys, hvals, Option.bind_eq_bind, Option.bind_some]
  · exact { (represents_init h.copies) with
      keys := List.nil_prefix
      vals := List.nil_prefix
      size := rfl
      keysCapacity := hkeysLength.trans h.keysCapacity
      valsCapacity := hvalsLength.trans h.valsCapacity
      storable := fun _ hmem => absurd hmem List.not_mem_nil }

/-! ### Looking up -/

theorem get_represents (h : Represents map m) (key : κ) :
    map.get (some key) = some (m.get? key).join := by
  rw [PPmap.get]
  simp only [Option.isNone_some, Bool.false_eq_true, if_false, position_eq h key,
    Option.bind_eq_bind, Option.bind_some]
  cases hindex : m.indexOf key with
  | none =>
    rw [OrderedMap.get?_eq_none_iff.mpr (OrderedMap.indexOf_eq_none hindex), Option.join_none]
  | some i =>
    obtain ⟨old, before, after, hat⟩ := OrderedMap.exists_at hindex
    have hi : i < m.vals.length := (List.getElem?_eq_some_iff.mp hat.vals_getElem).1
    have hold : m.vals[i] = old := (List.getElem?_eq_some_iff.mp hat.vals_getElem).2
    rw [hat.get?, Option.join_some, ← hold]
    exact Block.load_of_prefix h.vals hi

theorem containsKey_represents (h : Represents map m) (key : κ) :
    map.containsKey (some key) = some (m.contains key) := by
  rw [PPmap.containsKey]
  simp only [Option.isNone_some, Bool.false_eq_true, if_false, position_eq h key, Option.map_some]
  cases hindex : m.indexOf key with
  | none =>
    rw [OrderedMap.contains, decide_eq_false (OrderedMap.indexOf_eq_none hindex)]
    rfl
  | some i =>
    obtain ⟨old, before, after, hat⟩ := OrderedMap.exists_at hindex
    rw [OrderedMap.contains, decide_eq_true hat.mem_keys]
    rfl

theorem load_entry (h : Represents map m) {i : Nat} {e : κ × Option ν}
    (he : m.entries[i]? = some e) :
    map.keys.load i = some (some e.1) ∧ map.vals.load i = some e.2 := by
  obtain ⟨hi, rfl⟩ := List.getElem?_eq_some_iff.mp he
  have hkeys := Block.load_of_prefix h.keys (by rwa [length_keys])
  have hvals := Block.load_of_prefix h.vals (by rwa [length_vals])
  refine ⟨hkeys.trans ?_, hvals.trans ?_⟩
  · rw [List.getElem_map]
    exact congrArg (fun k => some (some k)) (List.getElem_map Prod.fst)
  · exact congrArg some (List.getElem_map Prod.snd)

theorem equalFrom_loop {a b : PPmap κ ν} {am bm : OrderedMap κ (Option ν)}
    (ha : Represents a am) (hb : Represents b bm) (rest : List (κ × Option ν)) :
    ∀ seen, bm.entries = seen ++ rest → PPmap.equalFrom a b rest.length seen.length =
      some (rest.all (fun e => a.params.equalVal (am.get? e.1).join e.2)) := by
  induction rest with
  | nil => exact fun _ _ => rfl
  | cons e rest ih =>
    intro seen hentries
    obtain ⟨hkey, hval⟩ := load_entry hb (show bm.entries[seen.length]? = some e by
      rw [hentries, List.getElem?_append_right (Nat.le_refl _), Nat.sub_self,
        List.getElem?_cons_zero])
    have hrest := ih (seen ++ [e]) (by rw [hentries, List.append_assoc, List.singleton_append])
    rw [List.length_append, List.length_singleton] at hrest
    rw [List.length_cons, PPmap.equalFrom, List.all_cons]
    simp only [hkey, hval, get_represents ha, hrest, Option.bind_eq_bind, Option.bind_some]
    cases a.params.equalVal (am.get? e.1).join e.2 <;> rfl

/-- Maps are compared by what is under the keys of the second. -/
theorem equal_represents {a b : PPmap κ ν} {am bm : OrderedMap κ (Option ν)}
    (ha : Represents a am) (hb : Represents b bm) : a.equal b =
      some (decide (am.size = bm.size) &&
        bm.entries.all (fun e => a.params.equalVal (am.get? e.1).join e.2)) := by
  by_cases hsize : am.size = bm.size
  · rw [PPmap.equal, ha.size, hb.size, if_neg (not_not.mpr hsize), decide_eq_true hsize,
      Bool.true_and]
    exact equalFrom_loop ha hb bm.entries [] rfl
  · rw [PPmap.equal, ha.size, hb.size, if_pos hsize, decide_eq_false hsize, Bool.false_and]

/-- Where no value is null, maps are equal that have the same under every key. -/
theorem equal_iff {a b : PPmap κ ν} {am bm : OrderedMap κ (Option ν)}
    (ha : Represents a am) (hb : Represents b bm)
    (heq : ∀ v w, a.params.equalVal v w = true ↔ v = w) (hnull : b.params.allowNullVal = false) :
    a.equal b = some true ↔ ∀ key, am.get? key = bm.get? key := by
  have hval : ∀ e ∈ bm.entries, e.2 ≠ none := by
    intro e he hnone
    have hstorable := hb.storable e.2 (List.mem_map_of_mem he)
    rw [PPmap.storable, hnone, hnull] at hstorable
    cases hstorable
  have hone : ∀ e ∈ bm.entries, a.params.equalVal (am.get? e.1).join e.2 = true ↔
      am.get? e.1 = some e.2 := by
    intro e he
    rw [heq]
    cases hget : am.get? e.1 with
    | none => exact iff_of_false (hval e he).symm (by simp)
    | some v => rw [Option.join_some, Option.some.injEq]
  rw [equal_represents ha hb, Option.some.injEq, Bool.and_eq_true, decide_eq_true_eq,
    List.all_eq_true]
  constructor
  · rintro ⟨hsize, hall⟩
    exact OrderedMap.get?_eq_of_subset hsize.le fun e he => (hone e he).mp (hall e he)
  · intro hget
    refine ⟨OrderedMap.size_eq_of_get? hget, fun e he => (hone e he).mpr ?_⟩
    rw [hget]
    exact OrderedMap.get?_eq_some_iff.mpr he

/-! ### Loops around iterators -/

/-- The entries that a loop comes to. -/
def slots (m : OrderedMap κ (Option ν)) : List (Option κ × Option ν) :=
  m.entries.map (fun e => (some e.1, e.2))

theorem iterable (params : PPmapParams κ ν) (passes : Option κ × Option ν → Bool) :
    Iterators.Iterable (PPmap.itNext passes) PPmap.itRemove passes (none, none)
      (fun map entries => map.params = params ∧ ∃ m, Represents map m ∧ slots m = entries) where
  next := by
    rintro map entries it ⟨-, m, h, rfl⟩
    have hlength : (slots m).length = m.size := List.length_map _
    have hload : ∀ i (hi : i < (slots m).length), map.entry i = some (slots m)[i] := by
      intro i hi
      have hlt : i < m.entries.length := lt_of_lt_of_eq hi hlength
      obtain ⟨hkey, hval⟩ := load_entry h (List.getElem?_eq_getElem hlt)
      rw [PPmap.entry]
      simp only [hkey, hval, Option.bind_eq_bind, Option.bind_some, slots, List.getElem_map]
    have hnext := Iterators.next_eq hload passes it
    rwa [hlength, ← h.size] at hnext
  remove := by
    rintro map entries it ⟨hparams, m, h, rfl⟩ hentry
    obtain ⟨e, he, hslot⟩ : ∃ e, m.entries[it.position]? = some e ∧ (some e.1, e.2) = it.entry := by
      rw [slots, List.getElem?_map] at hentry
      exact Option.map_eq_some_iff.mp hentry
    obtain ⟨map', hremove, hrepresents, hkept⟩ := remove_represents h e.1
    refine ⟨map', ?_, hkept.trans hparams, m.remove e.1, hrepresents, ?_⟩
    · rw [PPmap.itRemove, ← hslot, hremove]
      rfl
    · rw [slots, slots, List.eraseIdx_map]
      exact congrArg _ (OrderedMap.entries_remove_getElem? he)

/-- A loop comes to every entry that passes, once and in order, and leaves the entries that it is
not to remove. -/
theorem each_represents (h : Represents map m) (passes drop : Option κ × Option ν → Bool) :
    ∃ map', It.each (PPmap.itNext passes) PPmap.itRemove drop (m.size + 1) map
        (It.init (none, none)) = some (map', (slots m).filter passes) ∧
      Represents map'
        (m.filter (fun key val => !(passes (some key, val) && drop (some key, val)))) ∧
      map'.params = map.params := by
  obtain ⟨map', heach, hparams, m', hrepresents, hslots⟩ :=
    (iterable map.params passes).each_init drop ⟨rfl, m, h, rfl⟩
  have hlength : (slots m).length = m.size := List.length_map _
  rw [hlength] at heach
  refine ⟨map', heach, ?_⟩
  have hm' : m' = m.filter (fun key val => !(passes (some key, val) && drop (some key, val))) := by
    apply OrderedMap.ext
    have hinj : Function.Injective (fun e : κ × Option ν => (some e.1, e.2)) := by
      rintro ⟨k, v⟩ ⟨k', v'⟩ heq
      simpa using heq
    refine List.map_injective_iff.mpr hinj ?_
    rw [OrderedMap.filter, ← slots, hslots, slots, List.filter_map]
    rfl
  exact ⟨hm' ▸ hrepresents, hparams⟩

/-! ### Many entries at once -/

variable [DecidableEq ν]

def olds (m : OrderedMap κ (Option ν)) (keys : List κ) : List (Option ν) :=
  keys.map (fun key => (m.get? key).join)

omit [DecidableEq ν] in
theorem olds_append (m : OrderedMap κ (Option ν)) (keys keys' : List κ) :
    olds m (keys ++ keys') = olds m keys ++ olds m keys' := List.map_append

omit [DecidableEq ν] in
/-- There is room to remember what is under a key that was not hit before. -/
theorem length_olds_lt {hits : List κ} (hsub : ∀ key ∈ hits, key ∈ m.keys) (hnodup : hits.Nodup)
    {key : κ} (hkey : key ∈ m.keys) (hnew : key ∉ hits) : (olds m hits).length < m.size := by
  have hall : (key :: hits).Nodup := List.nodup_cons.mpr ⟨hnew, hnodup⟩
  have hcount : (key :: hits).length ≤ m.keys.length := by
    refine (hall.subperm fun k hk => ?_).length_le
    rcases List.mem_cons.mp hk with hk | hk
    · exact hk ▸ hkey
    · exact hsub k hk
  have hkeys : m.keys.length = m.size := by rw [← length_keys, List.length_map]
  rw [List.length_cons, hkeys] at hcount
  rw [olds, List.length_map]
  omega

/-- The entries that may be stored. -/
def kept (map : PPmap κ ν) (es : List (κ × Option ν)) : List (κ × Option ν) :=
  es.filter (fun e => map.storable e.2)

/-- The keys of entries that are stored over others. -/
def overwritten (map : PPmap κ ν) (m : OrderedMap κ (Option ν)) (es : List (κ × Option ν)) :
    List κ :=
  ((kept map es).map Prod.fst).filter (fun key => decide (key ∈ m.keys))

omit [DecidableEq κ] [DecidableEq ν] in
theorem kept_append (map : PPmap κ ν) (es es' : List (κ × Option ν)) :
    kept map (es ++ es') = kept map es ++ kept map es' := List.filter_append ..

omit [DecidableEq ν] in
theorem overwritten_subset {es : List (κ × Option ν)} :
    ∀ key ∈ overwritten map m es, key ∈ m.keys ∧ key ∈ es.map Prod.fst := by
  intro key hkey
  obtain ⟨hmem, hkeys⟩ := List.mem_filter.mp hkey
  obtain ⟨e, he, rfl⟩ := List.mem_map.mp hmem
  exact ⟨of_decide_eq_true hkeys, List.mem_map_of_mem (List.mem_filter.mp he).1⟩

omit [DecidableEq ν] in
theorem nodup_overwritten {es : List (κ × Option ν)} (h : (es.map Prod.fst).Nodup) :
    (overwritten map m es).Nodup :=
  (h.sublist (List.filter_sublist.map Prod.fst)).filter _

section PutAll

variable {source : PPmap κ ν} {sm : OrderedMap κ (Option ν)}

/-- A loop over the rest of the source, whose first entries were put already. -/
theorem putAll_loop (hsource : Represents source sm) (rest : List (κ × Option ν)) :
    ∀ (front : List (κ × Option ν)) (mapNow : PPmap κ ν) (freed : Freed ν),
      sm.entries = front ++ rest → mapNow.params = map.params →
      Represents mapNow (m.putAll (kept map front)) →
      FreedOf (olds m (overwritten map m front)) freed → freed.freed.length = m.size →
      ∃ map' freed', PPmap.putAll id true source rest.length front.length
          (mapNow, (overwritten map m front).length, freed) =
            some (map', (overwritten map m sm.entries).length, freed') ∧
        Represents map' (m.putAll (kept map sm.entries)) ∧ map'.params = map.params ∧
        FreedOf (olds m (overwritten map m sm.entries)) freed' := by
  induction rest with
  | nil =>
    intro front mapNow freed hentries hparams hrepresents hfreed _
    rw [List.append_nil] at hentries
    rw [hentries]
    exact ⟨mapNow, freed, rfl, hrepresents, hparams, hfreed⟩
  | cons e rest ih =>
    intro front mapNow freed hentries hparams hrepresents hfreed hsize
    have hnodup := sm.nodup
    rw [hentries, List.map_append, List.map_cons, List.nodup_append] at hnodup
    obtain ⟨hfront, -, hdisjoint⟩ := hnodup
    have hnew : e.1 ∉ front.map Prod.fst := fun hmem =>
      hdisjoint e.1 hmem e.1 List.mem_cons_self rfl
    have hkept : e.1 ∉ (kept map front).map Prod.fst := fun hmem =>
      hnew ((List.filter_sublist.map Prod.fst).subset hmem)
    have hget : (m.putAll (kept map front)).get? e.1 = m.get? e.1 :=
      OrderedMap.get?_putAll_of_not_mem m _ hkept
    have hkeys : e.1 ∈ (m.putAll (kept map front)).keys ↔ e.1 ∈ m.keys := by
      rw [← OrderedMap.isSome_get?_iff, hget, OrderedMap.isSome_get?_iff]
    have hstorable : mapNow.storable e.2 = map.storable e.2 := by
      rw [PPmap.storable, PPmap.storable, hparams]
    obtain ⟨hkey, hval⟩ := load_entry hsource
      (show sm.entries[front.length]? = some e by
        rw [hentries, List.getElem?_append_right (Nat.le_refl _), Nat.sub_self,
          List.getElem?_cons_zero])
    obtain ⟨mapNext, hput, hnext, hnextParams⟩ := putWith_represents hrepresents e.1 e.2 true
    have hentries' : sm.entries = (front ++ [e]) ++ rest := by
      rw [hentries, List.append_assoc, List.singleton_append]
    have hlength : (front ++ [e]).length = front.length + 1 := List.length_append
    have hnext' : Represents mapNext (m.putAll (kept map (front ++ [e]))) := by
      rw [kept_append, OrderedMap.putAll, List.foldl_append]
      rw [Bool.true_or, Bool.and_true, hstorable] at hnext
      by_cases hs : map.storable e.2 = true
      · have hone : kept map [e] = [e] := List.filter_cons_of_pos hs
        rw [if_pos hs] at hnext
        rw [hone]
        exact hnext
      · have hone : kept map [e] = [] := List.filter_cons_of_neg hs
        rw [if_neg hs] at hnext
        rw [hone]
        exact hnext
    have hover : overwritten map m (front ++ [e]) = overwritten map m front ++
        if map.storable e.2 = true ∧ e.1 ∈ m.keys then [e.1] else [] := by
      rw [overwritten, overwritten, kept_append, List.map_append, List.filter_append]
      congr 1
      by_cases hs : map.storable e.2 = true <;> by_cases hk : e.1 ∈ m.keys <;> simp [kept, hs, hk]
    rw [List.length_cons, PPmap.putAll]
    simp only [hkey, hval, hput, Option.bind_eq_bind, Option.bind_some, hstorable, hget, hkeys]
    by_cases hhit : map.storable e.2 = true ∧ e.1 ∈ m.keys
    · have hroom : (olds m (overwritten map m front)).length < m.size :=
        length_olds_lt (fun key hmem => (overwritten_subset key hmem).1)
          (nodup_overwritten hfront) hhit.2 (fun hmem => hnew (overwritten_subset e.1 hmem).2)
      obtain ⟨freed', hfree, hfreed', hsize'⟩ := hfreed.step (hsize ▸ hroom) (m.get? e.1).join
      rw [if_pos hhit] at hover
      have hrest := ih (front ++ [e]) mapNext freed' hentries' (hnextParams.trans hparams) hnext'
        (by rw [hover, olds_append]; exact hfreed') (hsize'.trans hsize)
      rw [hlength, hover, List.length_append, List.length_singleton] at hrest
      simpa only [hhit.1, hhit.2, Bool.true_and, decide_true, if_true, hfree, Option.bind_some]
        using hrest
    · rw [if_neg hhit, List.append_nil] at hover
      have hrest := ih (front ++ [e]) mapNext freed hentries' (hnextParams.trans hparams) hnext'
        (hover ▸ hfreed) hsize
      rw [hlength, hover] at hrest
      have hmiss : (map.storable e.2 && decide (e.1 ∈ m.keys)) = false := by
        rw [Bool.eq_false_iff, Ne, Bool.and_eq_true, decide_eq_true_eq]
        exact hhit
      simpa only [hmiss, Bool.false_eq_true, if_false] using hrest

/-- The values that were overwritten are freed once each. -/
theorem putAllFree_represents (h : Represents map m) (hsource : Represents source sm) :
    ∃ map' freed, map.putAllFree source =
        some (map', (overwritten map m sm.entries).length, freed) ∧
      Represents map' (m.putAll (kept map sm.entries)) ∧ map'.params = map.params ∧
      FreedOf (olds m (overwritten map m sm.entries)) freed := by
  rw [PPmap.putAllFree, h.copies.allocVal_eq, hsource.size]
  exact putAll_loop hsource sm.entries [] map (freedInit map.size) rfl rfl h
    (freedOf_init map.size) (List.length_replicate.trans h.size)

def removed (m : OrderedMap κ (Option ν)) (keys : List κ) : List κ :=
  keys.filter (fun key => decide (key ∈ m.keys))

omit [DecidableEq ν] in
theorem mem_removed {keys : List κ} {key : κ} :
    key ∈ removed m keys ↔ key ∈ keys ∧ key ∈ m.keys := by
  rw [removed, List.mem_filter, decide_eq_true_eq]

theorem removeIn_loop (hsource : Represents source sm) (rest : List κ) :
    ∀ (front : List κ) (mapNow : PPmap κ ν) (freed : Freed ν),
      sm.keys = front ++ rest → mapNow.params = map.params →
      Represents mapNow (m.removeAll front) → FreedOf (olds m (removed m front)) freed →
      freed.freed.length = m.size →
      ∃ map' freed', PPmap.removeIn true source rest.length front.length
          (mapNow, (removed m front).length, freed) =
            some (map', (removed m sm.keys).length, freed') ∧
        Represents map' (m.removeAll sm.keys) ∧ map'.params = map.params ∧
        FreedOf (olds m (removed m sm.keys)) freed' := by
  induction rest with
  | nil =>
    intro front mapNow freed hkeys hparams hrepresents hfreed _
    rw [List.append_nil] at hkeys
    rw [hkeys]
    exact ⟨mapNow, freed, rfl, hrepresents, hparams, hfreed⟩
  | cons key rest ih =>
    intro front mapNow freed hkeys hparams hrepresents hfreed hsize
    have hnodup := sm.keys_nodup
    rw [hkeys, List.nodup_append] at hnodup
    obtain ⟨hfront, -, hdisjoint⟩ := hnodup
    have hnew : key ∉ front := fun hmem => hdisjoint key hmem key List.mem_cons_self rfl
    have hget : (m.removeAll front).get? key = m.get? key := by
      rw [OrderedMap.get?_removeAll, if_neg hnew]
    have hmem : key ∈ (m.removeAll front).keys ↔ key ∈ m.keys := by
      rw [← OrderedMap.isSome_get?_iff, hget, OrderedMap.isSome_get?_iff]
    have hload : source.keys.load front.length = some (some key) := by
      have hlt : front.length < (sm.keys.map some).length := by
        rw [List.length_map, hkeys, List.length_append, List.length_cons]
        omega
      refine (Block.load_of_prefix hsource.keys hlt).trans (congrArg some ?_)
      simp [hkeys]
    obtain ⟨mapNext, hremove, hnext, hnextParams⟩ := remove_represents hrepresents key
    have hkeys' : sm.keys = (front ++ [key]) ++ rest := by
      rw [hkeys, List.append_assoc, List.singleton_append]
    have hlength : (front ++ [key]).length = front.length + 1 := List.length_append
    have hnext' : Represents mapNext (m.removeAll (front ++ [key])) := by
      rw [OrderedMap.removeAll, List.foldl_append]
      exact hnext
    have hremoved : removed m (front ++ [key]) =
        removed m front ++ if key ∈ m.keys then [key] else [] := by
      rw [removed, removed, List.filter_append]
      congr 1
      by_cases hk : key ∈ m.keys <;> simp [hk]
    rw [List.length_cons, PPmap.removeIn]
    simp only [hload, hremove, Option.bind_eq_bind, Option.bind_some, hget, hmem]
    by_cases hhit : key ∈ m.keys
    · have hroom := length_olds_lt (fun k hk => (mem_removed.mp hk).2) (hfront.filter _) hhit
        (fun hk => hnew (mem_removed.mp hk).1)
      obtain ⟨freed', hfree, hfreed', hsize'⟩ := hfreed.step (hsize ▸ hroom) (m.get? key).join
      rw [if_pos hhit] at hremoved
      have hrest := ih (front ++ [key]) mapNext freed' hkeys' (hnextParams.trans hparams) hnext'
        (by rw [hremoved, olds_append]; exact hfreed') (hsize'.trans hsize)
      rw [hlength, hremoved, List.length_append, List.length_singleton] at hrest
      simpa only [hhit, decide_true, if_true, hfree, Option.bind_some] using hrest
    · rw [if_neg hhit, List.append_nil] at hremoved
      have hrest := ih (front ++ [key]) mapNext freed hkeys' (hnextParams.trans hparams) hnext'
        (hremoved ▸ hfreed) hsize
      rw [hlength, hremoved] at hrest
      simpa only [hhit, decide_false, Bool.false_eq_true, if_false] using hrest

/-- The values that were removed are freed once each. -/
theorem removeInFree_represents (h : Represents map m) (hsource : Represents source sm) :
    ∃ map' freed, map.removeInFree source = some (map', (removed m sm.keys).length, freed) ∧
      Represents map' (m.removeAll sm.keys) ∧ map'.params = map.params ∧
      FreedOf (olds m (removed m sm.keys)) freed := by
  have hlength : sm.keys.length = sm.size := by rw [← length_keys, List.length_map]
  rw [PPmap.removeInFree, hsource.size, ← hlength]
  exact removeIn_loop hsource sm.keys [] map (freedInit map.size) rfl rfl h
    (freedOf_init map.size) (List.length_replicate.trans h.size)

end PutAll

end WayDisplays.Containers.Maps
