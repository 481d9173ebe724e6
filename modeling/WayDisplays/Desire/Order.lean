/- The order in which heads are positioned: each head with the name it matches best. -/

import WayDisplays.Names.Precedence

set_option autoImplicit false
set_option relaxedAutoImplicit false

namespace WayDisplays.Desire.Order

open Lib (OrderedMap OrderedSet)
open Lib.Ranked (best fill fillAll)
open Model
open Names.Precedence (MatchKind matchKinds matchKinds_nodup matchesBy)

theorem fillOrderBuckets_eq (pred : Head → String → Bool) (buckets : List (String × List ZHead))
    (candidates : List (ZHead × Head)) :
    fillOrderBuckets pred buckets candidates =
      fill (fun (c : ZHead × Head) key => pred c.2 key) Prod.fst buckets candidates := by
  induction buckets generalizing candidates with
  | nil => rfl
  | cons b buckets ih =>
    obtain ⟨key, val⟩ := b
    rw [fillOrderBuckets, fill, ih]

theorem nodup_vals (names : Sset) : names.vals.Nodup := by
  refine names.distinct.imp fun hne => ?_
  rintro rfl
  simp at hne

variable [Platform]

/-- The first name that the head matches exactly, else the first that it matches as a regex,
else the first that it matches fuzzily. -/
def assignment (orderNameDesc : Sset) (head : Head) : Option (MatchKind × String) :=
  best matchKinds (matchesBy head) orderNameDesc.vals

def group (orderNameDesc : Sset) (heads : Heads) (nameDesc : String) (kind : MatchKind) :
    List ZHead :=
  (heads.entries.filter (fun e =>
    decide (assignment orderNameDesc e.2 = some (kind, nameDesc)))).map Prod.fst

def remainder (orderNameDesc : Sset) (heads : Heads) : List ZHead :=
  (heads.entries.filter (fun e => decide (assignment orderNameDesc e.2 = none))).map Prod.fst

theorem assignment_eq (orderNameDesc : Sset) (head : Head) :
    assignment orderNameDesc head =
      (((orderNameDesc.vals.find? (headMatchesNameDescExact head)).map (fun n => (.exact, n))).or
        ((orderNameDesc.vals.find? (headMatchesNameDescRegex head)).map
          (fun n => (.regex, n)))).or
          ((orderNameDesc.vals.find? (headMatchesNameDescFuzzy head)).map
            (fun n => (.fuzzy, n))) := by
  simp only [assignment, matchKinds, Lib.Ranked.best_cons, Lib.Ranked.best_nil, Option.or_none,
    matchesBy, Option.or_assoc]

def emptyBuckets (orderNameDesc : Sset) : List (String × List ZHead) :=
  orderNameDesc.vals.map (fun nameDesc => (nameDesc, []))

omit [Platform] in
theorem map_fst_emptyBuckets (orderNameDesc : Sset) :
    (emptyBuckets orderNameDesc).map Prod.fst = orderNameDesc.vals := by
  simp [emptyBuckets, List.map_map, Function.comp_def]

/-- The three passes fill the buckets, and leave the heads that match no name. -/
theorem desireOrder_eq_fillAll (orderNameDesc : Sset) (heads : Heads) :
    let filled := fillAll (fun (c : ZHead × Head) => matchesBy c.2) Prod.fst matchKinds
      (emptyBuckets orderNameDesc, heads.entries)
    desireOrder orderNameDesc heads =
      (filled.1.map Prod.snd).flatten ++ filled.2.map Prod.fst := by
  unfold desireOrder
  simp only [fillOrderBuckets_eq]
  rfl

/-- Each name's groups in turn, then the remainder. -/
theorem desireOrder_eq (orderNameDesc : Sset) (heads : Heads) :
    desireOrder orderNameDesc heads =
      orderNameDesc.vals.flatMap (fun nameDesc =>
        matchKinds.flatMap (group orderNameDesc heads nameDesc)) ++
      remainder orderNameDesc heads := by
  have hkeys := map_fst_emptyBuckets orderNameDesc
  rw [desireOrder_eq_fillAll, Lib.Ranked.fillAll_eq _ _ matchKinds_nodup
    (by rw [hkeys]; exact nodup_vals orderNameDesc), hkeys]
  simp only [emptyBuckets, List.map_map, Function.comp_def, List.nil_append, List.flatMap_def,
    List.map_flatten, remainder, assignment]
  rfl

theorem desireOrder_perm (orderNameDesc : Sset) (heads : Heads) :
    (desireOrder orderNameDesc heads).Perm heads.keys := by
  have hperm := Lib.Ranked.fillAll_perm (fun (c : ZHead × Head) => matchesBy c.2) Prod.fst
    matchKinds (emptyBuckets orderNameDesc) heads.entries
  rw [← desireOrder_eq_fillAll] at hperm
  refine hperm.trans (List.Perm.of_eq ?_)
  simp [emptyBuckets, List.map_map, Function.comp_def, OrderedMap.keys]

/-- A permutation of the heads, each with the name it is assigned to: the names in turn, the
exact, regex and fuzzy matches of one name in turn, then the heads that match none. -/
theorem desireOrder_assigns (orderNameDesc : Sset) (heads : Heads) :
    (desireOrder orderNameDesc heads).Perm heads.keys ∧
      desireOrder orderNameDesc heads =
        orderNameDesc.vals.flatMap (fun nameDesc =>
          group orderNameDesc heads nameDesc .exact ++
            (group orderNameDesc heads nameDesc .regex ++
              group orderNameDesc heads nameDesc .fuzzy)) ++
        remainder orderNameDesc heads ∧
      ∀ head, assignment orderNameDesc head =
        (((orderNameDesc.vals.find? (headMatchesNameDescExact head)).map
          (fun n => (.exact, n))).or
        ((orderNameDesc.vals.find? (headMatchesNameDescRegex head)).map
          (fun n => (.regex, n)))).or
        ((orderNameDesc.vals.find? (headMatchesNameDescFuzzy head)).map
          (fun n => (.fuzzy, n))) := by
  refine ⟨desireOrder_perm orderNameDesc heads, ?_, assignment_eq orderNameDesc⟩
  rw [desireOrder_eq]
  simp only [matchKinds, List.flatMap_cons, List.flatMap_nil, List.append_nil]

end WayDisplays.Desire.Order
