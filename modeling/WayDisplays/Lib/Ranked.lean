/- Searches by tests of several kinds, the strongest kind first, and lists sorted by them. -/

import Mathlib.Data.List.Basic
import Mathlib.Data.List.Nodup

set_option autoImplicit false
set_option relaxedAutoImplicit false

namespace WayDisplays.Lib.Ranked

universe u v w x

variable {κ : Type u} {α : Type v}

/-- The first value for the strongest kind of test that a value passes. -/
def best (kinds : List κ) (test : κ → α → Bool) (vals : List α) : Option (κ × α) :=
  kinds.findSome? (fun k => (vals.find? (test k)).map (fun a => (k, a)))

def passes (kinds : List κ) (test : κ → α → Bool) (a : α) : Bool := kinds.any (fun k => test k a)

/-- The strength of the strongest test that a value passes: the lower, the stronger. -/
def rank (kinds : List κ) (test : κ → α → Bool) (a : α) : Nat := kinds.findIdx (fun k => test k a)

/-- The first value that passes at all passes a test as strong as those after it do. -/
def StrongestFirst (kinds : List κ) (test : κ → α → Bool) (vals : List α) : Prop :=
  ∀ before a after, vals = before ++ a :: after → (∀ b ∈ before, passes kinds test b = false) →
    passes kinds test a = true → ∀ b ∈ after, rank kinds test a ≤ rank kinds test b

section Search

variable {kinds : List κ} {test : κ → α → Bool} {vals : List α}

theorem best_nil : best [] test vals = none := rfl

theorem best_cons (k : κ) : best (k :: kinds) test vals =
    ((vals.find? (test k)).map (fun a => (k, a))).or (best kinds test vals) := by
  unfold best
  cases h : vals.find? (test k) with
  | none => rw [List.findSome?_cons_of_isNone (by simp [h]), Option.map_none, Option.none_or]
  | some a => rw [List.findSome?_cons_of_isSome (by simp [h]), h, Option.map_some, Option.some_or]

theorem best_eq_some_iff {k : κ} {a : α} : best kinds test vals = some (k, a) ↔
    ∃ before after, kinds = before ++ k :: after ∧
      (∀ k' ∈ before, ∀ b ∈ vals, test k' b = false) ∧ vals.find? (test k) = some a := by
  unfold best
  rw [List.findSome?_eq_some_iff]
  constructor
  · rintro ⟨before, k', after, rfl, hk, hbefore⟩
    obtain ⟨a', hfind, heq⟩ := Option.map_eq_some_iff.mp hk
    obtain ⟨rfl, rfl⟩ := Prod.mk.inj heq
    refine ⟨before, after, rfl, fun k'' hk'' b hb => ?_, hfind⟩
    have hnone := Option.map_eq_none_iff.mp (hbefore k'' hk'')
    exact Bool.eq_false_iff.mpr (List.find?_eq_none.mp hnone b hb)
  · rintro ⟨before, after, rfl, hbefore, hfind⟩
    refine ⟨before, k, after, rfl, by rw [hfind, Option.map_some], fun k' hk' => ?_⟩
    rw [Option.map_eq_none_iff, List.find?_eq_none]
    exact fun b hb => Bool.eq_false_iff.mp (hbefore k' hk' b hb)

theorem best_eq_some {k : κ} {a : α} (h : best kinds test vals = some (k, a)) :
    k ∈ kinds ∧ a ∈ vals ∧ test k a = true := by
  obtain ⟨before, after, rfl, -, hfind⟩ := best_eq_some_iff.mp h
  exact ⟨by simp, List.mem_of_find?_eq_some hfind, List.find?_some hfind⟩

/-! The best with one kind more, which is the strongest. -/

theorem best_cons_eq_self {k : κ} (hk : k ∉ kinds) {a : α} :
    best (k :: kinds) test vals = some (k, a) ↔ vals.find? (test k) = some a := by
  rw [best_cons]
  cases vals.find? (test k) with
  | none =>
    have hother : best kinds test vals ≠ some (k, a) := fun h => hk (best_eq_some h).1
    simp [hother]
  | some b => simp

theorem best_cons_eq_other {k k' : κ} (hne : k ≠ k') {a : α} :
    best (k :: kinds) test vals = some (k', a) ↔
      best kinds test vals = some (k', a) ∧ vals.find? (test k) = none := by
  rw [best_cons]
  cases vals.find? (test k) with
  | none => simp
  | some b => simp [hne]

theorem best_cons_eq_none {k : κ} :
    best (k :: kinds) test vals = none ↔
      best kinds test vals = none ∧ vals.find? (test k) = none := by
  rw [best_cons]
  cases vals.find? (test k) with
  | none => simp
  | some b => simp

theorem best_eq_none :
    best kinds test vals = none ↔ ∀ a ∈ vals, passes kinds test a = false := by
  simp only [best, List.findSome?_eq_none_iff, Option.map_eq_none_iff, List.find?_eq_none, passes,
    List.any_eq_false]
  exact ⟨fun h a ha k hk => h k hk a ha, fun h k hk a ha => h a ha k hk⟩

section Rank

variable {before after : List κ} {k : κ} {a : α}

/-- Below the stronger tests that a value does not pass, its rank starts with the next one. -/
theorem rank_append (h : ∀ k' ∈ before, test k' a = false) :
    rank (before ++ k :: after) test a = before.length + rank (k :: after) test a := by
  have hnone : before.findIdx (fun k => test k a) = before.length :=
    List.findIdx_eq_length.mpr h
  rw [rank, List.findIdx_append, hnone, if_neg (Nat.lt_irrefl _), rank, Nat.add_comm]

theorem rank_cons : rank (k :: after) test a =
    if test k a then 0 else rank after test a + 1 := by
  rw [rank, List.findIdx_cons, rank]
  cases test k a <;> rfl

theorem rank_le_of_test (h : test k a = true) :
    rank (before ++ k :: after) test a ≤ before.length := by
  induction before with
  | nil =>
    rw [List.nil_append, rank_cons, if_pos h]
    exact Nat.zero_le _
  | cons k' before ih =>
    rw [List.cons_append, rank_cons, List.length_cons]
    split
    · exact Nat.zero_le _
    · exact Nat.succ_le_succ ih

theorem test_of_rank_le (h : ∀ k' ∈ before, test k' a = false)
    (hle : rank (before ++ k :: after) test a ≤ before.length) : test k a = true := by
  rw [rank_append h, rank_cons] at hle
  by_contra hfails
  rw [if_neg hfails] at hle
  omega

end Rank

/-- Behind values that pass nothing, a value is the first to pass each of its tests. -/
theorem find?_test_of_first {before after : List α} {a : α} {k : κ} (hk : k ∈ kinds)
    (hbefore : ∀ b ∈ before, passes kinds test b = false) (ha : test k a = true) :
    (before ++ a :: after).find? (test k) = some a := by
  refine List.find?_eq_some_iff_append.mpr ⟨ha, before, after, rfl, fun b hb => ?_⟩
  simpa using List.any_eq_false.mp (hbefore b hb) k hk

theorem rank_best_le {k : κ} {a : α} (h : best kinds test vals = some (k, a)) {b : α}
    (hb : b ∈ vals) : rank kinds test a ≤ rank kinds test b := by
  obtain ⟨before, after, rfl, hbefore, hfind⟩ := best_eq_some_iff.mp h
  calc rank (before ++ k :: after) test a ≤ before.length :=
        rank_le_of_test (List.find?_some hfind)
    _ ≤ before.length + rank (k :: after) test b := Nat.le_add_right _ _
    _ = rank (before ++ k :: after) test b :=
        (rank_append fun k' hk' => hbefore k' hk' b hb).symm

/-- The first value that passes at all is the best one exactly when it is as strong as any. -/
theorem find?_passes_eq_best_iff :
    vals.find? (passes kinds test) = (best kinds test vals).map Prod.snd ↔
      StrongestFirst kinds test vals := by
  constructor
  · intro h before a after hvals hbefore ha b hb
    have hfirst : vals.find? (passes kinds test) = some a :=
      List.find?_eq_some_iff_append.mpr
        ⟨ha, before, after, hvals, fun c hc => by simp [hbefore c hc]⟩
    obtain ⟨⟨k, a'⟩, hbest, rfl⟩ := Option.map_eq_some_iff.mp (h.symm.trans hfirst)
    refine rank_best_le hbest ?_
    rw [hvals]
    exact List.mem_append_right _ (List.mem_cons_of_mem _ hb)
  · intro hstrongest
    cases hfirst : vals.find? (passes kinds test) with
    | none =>
      have hnone : best kinds test vals = none :=
        best_eq_none.mpr fun a ha => Bool.eq_false_iff.mpr (List.find?_eq_none.mp hfirst a ha)
      rw [hnone, Option.map_none]
    | some a =>
      obtain ⟨hpasses, before, after, hvals, hbefore⟩ := List.find?_eq_some_iff_append.mp hfirst
      have hbefore : ∀ b ∈ before, passes kinds test b = false := by simpa using hbefore
      have hrank := hstrongest before a after hvals hbefore hpasses
      cases hbest : best kinds test vals with
      | none =>
        rw [best_eq_none.mp hbest a (List.mem_of_find?_eq_some hfirst)] at hpasses
        exact absurd hpasses (by simp)
      | some e =>
        obtain ⟨k, c⟩ := e
        obtain ⟨stronger, weaker, rfl, hstronger, hfind⟩ := best_eq_some_iff.mp hbest
        have hc : c ∈ before ++ a :: after := hvals ▸ List.mem_of_find?_eq_some hfind
        have htestc : test k c = true := List.find?_some hfind
        -- the first value is as strong as the best, so it passes the same test before it
        have hle : rank (stronger ++ k :: weaker) test a ≤
            rank (stronger ++ k :: weaker) test c := by
          rcases List.mem_append.mp hc with hc | hc
          · have hweak := List.any_eq_false.mp (hbefore c hc) k (by simp)
            exact absurd htestc hweak
          · rcases List.mem_cons.mp hc with rfl | hc
            · exact Nat.le_refl _
            · exact hrank c hc
        have htest : test k a = true :=
          test_of_rank_le
            (fun k' hk' => hstronger k' hk' a (List.mem_of_find?_eq_some hfirst))
            (Nat.le_trans hle (rank_le_of_test htestc))
        have hsame : (before ++ a :: after).find? (test k) = some a :=
          find?_test_of_first (List.mem_append_right stronger List.mem_cons_self) hbefore htest
        rw [← hvals] at hsame
        rw [Option.map_some]
        exact hsame.symm.trans hfind

end Search

/-! ### Buckets -/

section Buckets

variable {γ : Type w} {β : Type x} [DecidableEq κ] [DecidableEq α]

/-- Move the candidates that pass with a bucket's key to the end of the bucket. -/
def fill (p : γ → α → Bool) (out : γ → β) :
    List (α × List β) → List γ → List (α × List β) × List γ
  | [], candidates => ([], candidates)
  | (key, val) :: buckets, candidates =>
    let matching := candidates.filter (fun c => p c key)
    let remaining := candidates.filter (fun c => !p c key)
    let (buckets, remaining) := fill p out buckets remaining
    ((key, val ++ matching.map out) :: buckets, remaining)

/-- One pass for each kind of test, in order. -/
def fillAll (test : γ → κ → α → Bool) (out : γ → β) (kinds : List κ)
    (state : List (α × List β) × List γ) : List (α × List β) × List γ :=
  kinds.foldl (fun s k => fill (fun c => test c k) out s.1 s.2) state

/-- A pass gives each candidate to the first key that it passes with. -/
theorem fill_eq (p : γ → α → Bool) (out : γ → β) {buckets : List (α × List β)}
    (hkeys : (buckets.map Prod.fst).Nodup) (candidates : List γ) :
    fill p out buckets candidates =
      (buckets.map (fun b => (b.1, b.2 ++ (candidates.filter
          (fun c => decide ((buckets.map Prod.fst).find? (p c) = some b.1))).map out)),
        candidates.filter (fun c => decide ((buckets.map Prod.fst).find? (p c) = none))) := by
  induction buckets generalizing candidates with
  | nil => simp [fill]
  | cons b buckets ih =>
    obtain ⟨key, val⟩ := b
    obtain ⟨hkey, hkeys⟩ := List.nodup_cons.mp hkeys
    have hmem : ∀ b ∈ buckets, b.1 ∈ buckets.map Prod.fst := fun b hb => List.mem_map_of_mem hb
    rw [fill, ih hkeys]
    simp only [List.map_cons, List.filter_filter]
    generalize buckets.map Prod.fst = keys at hkey hmem
    have hfirst (c : γ) : (key :: keys).find? (p c) =
        if p c key then some key else keys.find? (p c) := by
      rw [List.find?_cons]
      cases p c key <;> rfl
    simp only [hfirst]
    refine Prod.ext (List.cons_eq_cons.mpr ⟨?_, List.map_congr_left fun b hb => ?_⟩) ?_
    · refine congrArg (fun kept => (key, val ++ List.map out kept)) ?_
      refine List.filter_congr fun c _ => ?_
      cases hpass : p c key with
      | true => simp
      | false =>
        have hother : keys.find? (p c) ≠ some key :=
          fun hfind => hkey (List.mem_of_find?_eq_some hfind)
        simp [hother]
    · have hne : key ≠ b.1 := fun heq => hkey (heq ▸ hmem b hb)
      refine congrArg (fun kept => (b.1, b.2 ++ List.map out kept)) ?_
      refine List.filter_congr fun c _ => ?_
      cases p c key with
      | true => simp [hne]
      | false => simp
    · refine List.filter_congr fun c _ => ?_
      cases p c key with
      | true => simp
      | false => simp

/-- The passes give each candidate to the best of the keys: its groups, kind by kind, in each
bucket, and the candidates that pass with none, all in the order of the candidates. -/
theorem fillAll_eq (test : γ → κ → α → Bool) (out : γ → β) {kinds : List κ} (hkinds : kinds.Nodup)
    {buckets : List (α × List β)} (hkeys : (buckets.map Prod.fst).Nodup) (candidates : List γ) :
    fillAll test out kinds (buckets, candidates) =
      (buckets.map (fun b => (b.1, b.2 ++ (kinds.flatMap (fun k => candidates.filter (fun c =>
          decide (best kinds (test c) (buckets.map Prod.fst) = some (k, b.1))))).map out)),
        candidates.filter (fun c =>
          decide (best kinds (test c) (buckets.map Prod.fst) = none))) := by
  induction kinds generalizing buckets candidates with
  | nil => simp [fillAll, best]
  | cons k kinds ih =>
    obtain ⟨hk, hkinds⟩ := List.nodup_cons.mp hkinds
    have hfilled := fill_eq (fun c => test c k) out hkeys candidates
    have hfst : (fill (fun c => test c k) out buckets candidates).1.map Prod.fst =
        buckets.map Prod.fst := by
      rw [hfilled, List.map_map]
      rfl
    have hstep : fillAll test out (k :: kinds) (buckets, candidates) =
        fillAll test out kinds ((fill (fun c => test c k) out buckets candidates).1,
          (fill (fun c => test c k) out buckets candidates).2) := rfl
    rw [hstep, ih hkinds (by rw [hfst]; exact hkeys), hfst, hfilled]
    simp only [List.map_map, Function.comp_def, List.filter_filter, List.flatMap_cons,
      List.map_append, List.append_assoc]
    generalize buckets.map Prod.fst = keys
    refine Prod.ext (List.map_congr_left fun b _ => ?_) (List.filter_congr fun c _ => ?_)
    · have hgroup : candidates.filter (fun c => decide (keys.find? (test c k) = some b.1)) =
          candidates.filter (fun c =>
            decide (best (k :: kinds) (test c) keys = some (k, b.1))) := by
        refine List.filter_congr fun c _ => ?_
        rw [Bool.eq_iff_iff, decide_eq_true_eq, decide_eq_true_eq, best_cons_eq_self hk]
      have hgroups : kinds.flatMap (fun k' => candidates.filter (fun c =>
            decide (best kinds (test c) keys = some (k', b.1)) &&
              decide (keys.find? (test c k) = none))) =
          kinds.flatMap (fun k' => candidates.filter (fun c =>
            decide (best (k :: kinds) (test c) keys = some (k', b.1)))) := by
        refine List.flatMap_congr fun k' hk' => List.filter_congr fun c _ => ?_
        have hne : k ≠ k' := fun heq => hk (heq ▸ hk')
        rw [Bool.eq_iff_iff, Bool.and_eq_true, decide_eq_true_eq, decide_eq_true_eq,
          decide_eq_true_eq, best_cons_eq_other hne]
      rw [hgroup, hgroups]
    · rw [Bool.eq_iff_iff, Bool.and_eq_true, decide_eq_true_eq, decide_eq_true_eq,
        decide_eq_true_eq, best_cons_eq_none]

omit [DecidableEq κ] [DecidableEq α] in
/-- A pass loses and duplicates nothing. -/
theorem fill_perm (p : γ → α → Bool) (out : γ → β) (buckets : List (α × List β))
    (candidates : List γ) :
    (((fill p out buckets candidates).1.map Prod.snd).flatten ++
        (fill p out buckets candidates).2.map out).Perm
      ((buckets.map Prod.snd).flatten ++ candidates.map out) := by
  induction buckets generalizing candidates with
  | nil => exact List.Perm.refl _
  | cons b buckets ih =>
    obtain ⟨key, val⟩ := b
    have hrest := ih (candidates.filter (fun c => !p c key))
    have hsplit : ((candidates.filter (fun c => p c key)).map out ++
        (candidates.filter (fun c => !p c key)).map out).Perm (candidates.map out) := by
      rw [← List.map_append]
      exact (List.filter_append_perm (fun c => p c key) candidates).map out
    simp only [fill, List.map_cons, List.flatten_cons, List.append_assoc]
    refine List.Perm.append_left val ?_
    refine (List.Perm.append_left _ hrest).trans (List.perm_append_comm_assoc _ _ _ |>.trans ?_)
    exact List.Perm.append_left _ hsplit

omit [DecidableEq κ] [DecidableEq α] in
theorem fillAll_perm (test : γ → κ → α → Bool) (out : γ → β) (kinds : List κ)
    (buckets : List (α × List β)) (candidates : List γ) :
    (((fillAll test out kinds (buckets, candidates)).1.map Prod.snd).flatten ++
        (fillAll test out kinds (buckets, candidates)).2.map out).Perm
      ((buckets.map Prod.snd).flatten ++ candidates.map out) := by
  induction kinds generalizing buckets candidates with
  | nil => exact List.Perm.refl _
  | cons k kinds ih =>
    exact (ih _ _).trans (fill_perm (fun c => test c k) out buckets candidates)

end Buckets

end WayDisplays.Lib.Ranked
