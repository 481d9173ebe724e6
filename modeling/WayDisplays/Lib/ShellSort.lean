/- Shell sort of a list by index: it permutes its input, and a last pass without gaps sorts it. -/

import Mathlib.Data.List.Basic
import Mathlib.Data.List.Induction

set_option autoImplicit false
set_option relaxedAutoImplicit false

namespace WayDisplays.Lib.ShellSort

universe u

variable {α : Type u} (lessThan : α → α → Bool)

/-- Shift elements up by `gap` below the hole at `j`, then drop `tmp` into the last hole.
The fuel is the number of shifts left, of which `j` are always enough. -/
def sink (gap : Nat) (tmp : α) : Nat → Nat → List α → List α
  | 0, j, vals => vals.set j tmp
  | fuel + 1, j, vals =>
    if gap ≤ j then
      match vals[j - gap]? with
      | some v =>
        if lessThan tmp v then sink gap tmp fuel (j - gap) (vals.set j v) else vals.set j tmp
      | none => vals.set j tmp
    else vals.set j tmp

/-- Take the element at `i` out and insert it among the elements `gap` apart below it. -/
def insertAt (gap i : Nat) (vals : List α) : List α :=
  match vals[i]? with
  | some tmp => sink lessThan gap tmp i i vals
  | none => vals

/-- Insert the elements from index `gap` up. -/
def pass (gap : Nat) (vals : List α) : List α :=
  (List.range' gap (vals.length - gap)).foldl (fun vals i => insertAt lessThan gap i vals) vals

def sort (gaps : List Nat) (vals : List α) : List α :=
  gaps.foldl (fun vals gap => pass lessThan gap vals) vals

private theorem set_shift_perm {vals : List α} {j k : Nat} {v : α} (tmp : α)
    (hj : j < vals.length) (hk : vals[k]? = some v) (hne : k ≠ j) :
    ((vals.set j v).set k tmp).Perm (vals.set j tmp) := by
  obtain ⟨hlt, rfl⟩ := List.getElem?_eq_some_iff.mp hk
  have hj' : j < (vals.set j tmp).length := by simpa using hj
  have hlt' : k < (vals.set j tmp).length := by simpa using hlt
  have hswap := List.set_set_perm hj' hlt'
  simpa [List.getElem_set_ne hne.symm] using hswap

theorem sink_perm {gap : Nat} (hgap : 0 < gap) (tmp : α) (fuel j : Nat) (vals : List α)
    (hj : j < vals.length) : (sink lessThan gap tmp fuel j vals).Perm (vals.set j tmp) := by
  induction fuel generalizing j vals with
  | zero => exact List.Perm.refl _
  | succ fuel ih =>
    rw [sink]
    split
    · rename_i hle
      split
      · rename_i v hv
        split
        · have hdeep := ih (j - gap) (vals.set j v) (by rw [List.length_set]; omega)
          exact hdeep.trans (set_shift_perm tmp hj hv (by omega))
        · exact List.Perm.refl _
      · exact List.Perm.refl _
    · exact List.Perm.refl _

theorem insertAt_perm {gap : Nat} (hgap : 0 < gap) (i : Nat) (vals : List α) :
    (insertAt lessThan gap i vals).Perm vals := by
  unfold insertAt
  split
  · rename_i tmp htmp
    obtain ⟨hi, rfl⟩ := List.getElem?_eq_some_iff.mp htmp
    have hperm := sink_perm lessThan hgap vals[i] i i vals hi
    rwa [List.set_getElem_self] at hperm
  · exact List.Perm.refl _

theorem pass_perm {gap : Nat} (hgap : 0 < gap) (vals : List α) :
    (pass lessThan gap vals).Perm vals := by
  unfold pass
  generalize List.range' gap (vals.length - gap) = is
  induction is generalizing vals with
  | nil => exact List.Perm.refl _
  | cons i is ih => exact (ih _).trans (insertAt_perm lessThan hgap i vals)

/-- Every gap sequence without zero permutes the list. -/
theorem sort_perm {gaps : List Nat} (hgaps : ∀ gap ∈ gaps, 0 < gap) (vals : List α) :
    (sort lessThan gaps vals).Perm vals := by
  induction gaps generalizing vals with
  | nil => exact List.Perm.refl _
  | cons gap gaps ih =>
    have hrest := ih (fun g hg => hgaps g (List.mem_cons_of_mem _ hg))
      (pass lessThan gap vals)
    exact hrest.trans (pass_perm lessThan (hgaps gap List.mem_cons_self) vals)

/-! ### Sorted results -/

/-- No element comes before one that it is to follow. -/
def Sorted (vals : List α) : Prop := vals.Pairwise (fun a b => lessThan b a = false)

private theorem sink_one (tmp : α) (fuel : Nat) (below : List α) (hole : α) (above : List α)
    (hfuel : below.length ≤ fuel) :
    ∃ low high, below = low ++ high ∧
      sink lessThan 1 tmp fuel below.length (below ++ hole :: above) =
        low ++ tmp :: (high ++ above) ∧
      (∀ v ∈ high, lessThan tmp v = true) ∧ ∀ v ∈ low.getLast?, lessThan tmp v = false := by
  induction below using List.reverseRecOn generalizing fuel hole above with
  | nil =>
    refine ⟨[], [], rfl, ?_, by simp, by simp⟩
    cases fuel with
    | zero => rfl
    | succ fuel => rfl
  | append_singleton below v ih =>
    obtain ⟨fuel, rfl⟩ : ∃ n, fuel = n + 1 := ⟨fuel - 1, by simp at hfuel; omega⟩
    have hlen : (below ++ [v]).length = below.length + 1 := by simp
    have hget : ((below ++ [v]) ++ hole :: above)[below.length]? = some v := by simp
    have hset (w : α) : ((below ++ [v]) ++ hole :: above).set (below.length + 1) w =
        (below ++ [v]) ++ w :: above := by simp
    rw [hlen, sink, if_pos (by omega), Nat.add_sub_cancel, hget]
    dsimp only
    rw [hset, hset]
    by_cases hless : lessThan tmp v = true
    · rw [if_pos hless, List.append_assoc]
      obtain ⟨low, high, rfl, hsink, hhigh, hlow⟩ :=
        ih fuel v (v :: above) (by simp at hfuel; omega)
      refine ⟨low, high ++ [v], by simp, ?_, ?_, hlow⟩
      · rw [List.singleton_append, hsink]
        simp
      · intro w hw
        rcases List.mem_append.mp hw with hw | hw
        · exact hhigh w hw
        · exact List.mem_singleton.mp hw ▸ hless
    · rw [if_neg hless]
      refine ⟨below ++ [v], [], (List.append_nil _).symm, rfl, by simp, by simpa using hless⟩

variable {lessThan}

/-- Where the comparison is a strict weak order. -/
structure StrictWeak (lessThan : α → α → Bool) : Prop where
  asymm : ∀ {a b}, lessThan a b = true → lessThan b a = false
  trans : ∀ {a b c}, lessThan b a = false → lessThan c b = false → lessThan c a = false

theorem StrictWeak.irrefl (h : StrictWeak lessThan) (a : α) : lessThan a a = false := by
  cases ha : lessThan a a with
  | false => rfl
  | true => exact ha ▸ h.asymm ha

private theorem sorted_insert (h : StrictWeak lessThan) {low high : List α} {tmp : α}
    (hsorted : Sorted lessThan (low ++ high)) (hhigh : ∀ v ∈ high, lessThan tmp v = true)
    (hlow : ∀ v ∈ low.getLast?, lessThan tmp v = false) :
    Sorted lessThan (low ++ tmp :: high) := by
  obtain ⟨hlows, hhighs, hacross⟩ := List.pairwise_append.mp hsorted
  have hbelow : ∀ v ∈ low, lessThan tmp v = false := by
    intro v hv
    obtain ⟨init, last, rfl⟩ := (List.eq_nil_or_concat' low).resolve_left (List.ne_nil_of_mem hv)
    have hlast : lessThan tmp last = false := hlow last (by simp)
    rcases List.mem_append.mp hv with hinit | hend
    · have hle := (List.pairwise_append.mp hlows).2.2 v hinit last List.mem_cons_self
      exact h.trans hle hlast
    · exact List.mem_singleton.mp hend ▸ hlast
  refine List.pairwise_append.mpr ⟨hlows, List.pairwise_cons.mpr ⟨?_, hhighs⟩, ?_⟩
  · exact fun v hv => h.asymm (hhigh v hv)
  · intro v hv w hw
    rcases List.mem_cons.mp hw with rfl | hw
    · exact hbelow v hv
    · exact hacross v hv w hw

/-- An insertion without a gap extends the sorted start of the list by one element. -/
private theorem insertAt_one (h : StrictWeak lessThan) {i : Nat} {vals : List α}
    (hi : i < vals.length) (hsorted : Sorted lessThan (vals.take i)) :
    Sorted lessThan ((insertAt lessThan 1 i vals).take (i + 1)) := by
  have hsplit : vals.take i ++ vals[i] :: vals.drop (i + 1) = vals := by simp
  have hlen : (vals.take i).length = i := List.length_take_of_le (Nat.le_of_lt hi)
  obtain ⟨low, high, hbelow, hsink, hhigh, hlow⟩ :=
    sink_one lessThan vals[i] i (vals.take i) vals[i] (vals.drop (i + 1)) (Nat.le_of_eq hlen)
  rw [hlen, hsplit] at hsink
  have hinsert : insertAt lessThan 1 i vals = (low ++ vals[i] :: high) ++ vals.drop (i + 1) := by
    rw [insertAt, List.getElem?_eq_getElem hi]
    simpa using hsink
  have hcount : (low ++ vals[i] :: high).length = i + 1 := by
    have := congrArg List.length hbelow
    rw [hlen, List.length_append] at this
    simp only [List.length_append, List.length_cons]
    omega
  rw [hinsert, List.take_left' hcount]
  exact sorted_insert h (hbelow ▸ hsorted) hhigh hlow

/-- A pass without gaps sorts. -/
theorem pass_one_sorted (h : StrictWeak lessThan) (vals : List α) :
    Sorted lessThan (pass lessThan 1 vals) := by
  have hsteps : ∀ n ≤ vals.length - 1, ∀ result,
      (List.range' 1 n).foldl (fun vals i => insertAt lessThan 1 i vals) vals = result →
      result.length = vals.length ∧ Sorted lessThan (result.take (n + 1)) := by
    intro n
    induction n with
    | zero =>
      rintro - result rfl
      refine ⟨rfl, ?_⟩
      cases vals with
      | nil => exact List.Pairwise.nil
      | cons v vals => exact List.pairwise_singleton _ v
    | succ n ih =>
      rintro hn result rfl
      obtain ⟨hlen, hsorted⟩ := ih (by omega) _ rfl
      rw [List.range'_concat, List.foldl_append]
      generalize (List.range' 1 n).foldl (fun vals i => insertAt lessThan 1 i vals) vals = mid
        at hlen hsorted
      simp only [List.foldl_cons, List.foldl_nil, Nat.one_mul, Nat.add_comm 1 n]
      refine ⟨?_, insertAt_one h (by omega) hsorted⟩
      rw [(insertAt_perm lessThan Nat.one_pos (n + 1) mid).length_eq, hlen]
  obtain ⟨hlen, hsorted⟩ := hsteps (vals.length - 1) (Nat.le_refl _) _ rfl
  rwa [List.take_of_length_le (by omega)] at hsorted

/-- Whatever the earlier gaps leave, the last pass sorts. -/
theorem sort_sorted (h : StrictWeak lessThan) (gaps : List Nat) (vals : List α) :
    Sorted lessThan (sort lessThan (gaps ++ [1]) vals) := by
  rw [sort, List.foldl_append]
  exact pass_one_sorted h _

/-- The first element that passes is not to follow any other that passes. -/
theorem find?_least (h : StrictWeak lessThan) {vals : List α} (hsorted : Sorted lessThan vals)
    {p : α → Bool} {a : α} (ha : vals.find? p = some a) {b : α} (hb : b ∈ vals)
    (hp : p b = true) : lessThan b a = false := by
  obtain ⟨_, low, high, rfl, hlow⟩ := List.find?_eq_some_iff_append.mp ha
  rcases List.mem_append.mp hb with hmem | hmem
  · exact absurd hp (by simpa using hlow b hmem)
  · rcases List.mem_cons.mp hmem with rfl | hmem
    · exact h.irrefl b
    · exact (List.pairwise_cons.mp (List.pairwise_append.mp hsorted).2.1).1 b hmem

end WayDisplays.Lib.ShellSort
