/- Keys of a map taken out one at a time, by a choice made afresh on what remains. -/

import WayDisplays.Lib.OrderedMap

set_option autoImplicit false
set_option relaxedAutoImplicit false

namespace WayDisplays.Lib.Drain

universe u v

variable {κ : Type u} {ν : Type v} [DecidableEq κ] (choose : OrderedMap κ ν → Option κ)

/-- At most `fuel` choices in turn. -/
def drainFor : Nat → OrderedMap κ ν → List κ
  | 0, _ => []
  | fuel + 1, m => match choose m with
    | none => []
    | some k => k :: drainFor fuel (m.remove k)

/-- As many choices as there are entries. -/
def drain (m : OrderedMap κ ν) : List κ := drainFor choose m.size m

variable {choose}

theorem length_drainFor (fuel : Nat) (m : OrderedMap κ ν) :
    (drainFor choose fuel m).length ≤ fuel := by
  induction fuel generalizing m with
  | zero => exact Nat.le_refl 0
  | succ fuel ih =>
    rw [drainFor]
    split
    · exact Nat.zero_le _
    · exact Nat.succ_le_succ (ih _)

theorem length_drain (m : OrderedMap κ ν) : (drain choose m).length ≤ m.size :=
  length_drainFor m.size m

section Chosen

variable (hmem : ∀ m k, choose m = some k → k ∈ m.keys)
include hmem

theorem mem_drainFor {fuel : Nat} {m : OrderedMap κ ν} {k : κ} (h : k ∈ drainFor choose fuel m) :
    k ∈ m.keys := by
  induction fuel generalizing m with
  | zero => exact absurd h List.not_mem_nil
  | succ fuel ih =>
    rw [drainFor] at h
    split at h
    · exact absurd h List.not_mem_nil
    · rename_i k' hchoose
      rcases List.mem_cons.mp h with rfl | h
      · exact hmem m k hchoose
      · exact (OrderedMap.mem_keys_remove.mp (ih h)).1

/-- A key that was taken is not chosen again. -/
theorem nodup_drainFor (fuel : Nat) (m : OrderedMap κ ν) : (drainFor choose fuel m).Nodup := by
  induction fuel generalizing m with
  | zero => exact List.nodup_nil
  | succ fuel ih =>
    rw [drainFor]
    split
    · exact List.nodup_nil
    · rename_i k hchoose
      refine List.nodup_cons.mpr ⟨fun h => ?_, ih _⟩
      exact (OrderedMap.mem_keys_remove.mp (mem_drainFor hmem h)).2 rfl

theorem nodup_drain (m : OrderedMap κ ν) : (drain choose m).Nodup := nodup_drainFor hmem m.size m

omit [DecidableEq κ] in
private theorem choose_of_size {m : OrderedMap κ ν} (h : m.size = 0) : choose m = none := by
  cases hchoose : choose m with
  | none => rfl
  | some k =>
    have hk := hmem m k hchoose
    rw [OrderedMap.keys, List.length_eq_zero_iff.mp h] at hk
    exact absurd hk List.not_mem_nil

private theorem drainFor_of_size_le {fuel fuel' : Nat} {m : OrderedMap κ ν} (h : m.size ≤ fuel)
    (h' : m.size ≤ fuel') : drainFor choose fuel m = drainFor choose fuel' m := by
  induction fuel generalizing fuel' m with
  | zero =>
    have hnone := choose_of_size hmem (Nat.le_zero.mp h)
    cases fuel' with
    | zero => rfl
    | succ fuel' => rw [drainFor, drainFor, hnone]
  | succ fuel ih =>
    cases fuel' with
    | zero => rw [drainFor, drainFor, choose_of_size hmem (Nat.le_zero.mp h')]
    | succ fuel' =>
      rw [drainFor, drainFor]
      cases hchoose : choose m with
      | none => rfl
      | some k =>
        have hlt : (m.remove k).size < m.size := OrderedMap.size_remove_lt (hmem m k hchoose)
        have hrest : drainFor choose fuel (m.remove k) = drainFor choose fuel' (m.remove k) :=
          ih (by omega) (by omega)
        simp only [hrest]

theorem drain_of_some {m : OrderedMap κ ν} {k : κ} (h : choose m = some k) :
    drain choose m = k :: drain choose (m.remove k) := by
  have hlt : (m.remove k).size < m.size := OrderedMap.size_remove_lt (hmem m k h)
  obtain ⟨n, hn⟩ : ∃ n, m.size = n + 1 := ⟨m.size - 1, by omega⟩
  have hle : (m.remove k).size ≤ n := by omega
  have hrest := drainFor_of_size_le hmem hle (Nat.le_refl (m.remove k).size)
  rw [drain, hn, drainFor, h]
  simp only [hrest, drain]

end Chosen

/-- Where there is a choice as long as there are entries, every key is taken. -/
theorem mem_drain (hmem : ∀ m k, choose m = some k → k ∈ m.keys)
    (htotal : ∀ m, choose m = none → m.size = 0) (m : OrderedMap κ ν) {k : κ}
    (h : k ∈ m.keys) : k ∈ drain choose m := by
  induction hn : m.size using Nat.strongRecOn generalizing m with
  | ind n ih =>
    cases hchoose : choose m with
    | none =>
      have hsize := htotal m hchoose
      rw [OrderedMap.keys, List.length_eq_zero_iff.mp hsize] at h
      exact absurd h List.not_mem_nil
    | some k' =>
      rw [drain_of_some hmem hchoose]
      by_cases hk : k = k'
      · exact hk ▸ List.mem_cons_self
      · have hlt : (m.remove k').size < m.size :=
          OrderedMap.size_remove_lt (hmem m k' hchoose)
        refine List.mem_cons_of_mem _ (ih _ (by omega) (m.remove k') ?_ rfl)
        exact OrderedMap.mem_keys_remove.mpr ⟨h, hk⟩

end WayDisplays.Lib.Drain
