/- Runs of a list: what follows an element and is the same as it, then the next one. -/

import Mathlib.Data.List.Nodup
import Mathlib.Order.Basic

set_option autoImplicit false
set_option relaxedAutoImplicit false

namespace WayDisplays.Lib.Clusters

universe u v

/-- A cluster has an element that opens it, so none is empty. -/
structure Cluster (α : Type u) where
  first : α
  rest : List α
  deriving DecidableEq

variable {α : Type u}

def Cluster.members (cluster : Cluster α) : List α := cluster.first :: cluster.rest

theorem Cluster.first_mem (cluster : Cluster α) : cluster.first ∈ cluster.members :=
  List.mem_cons_self

variable (same : α → α → Bool)

/-- What is the same as the first of the cluster joins it, and another one opens the next. -/
def gather (cluster : Cluster α) : List α → List (Cluster α)
  | [] => [cluster]
  | a :: as =>
    if same cluster.first a then gather { cluster with rest := cluster.rest ++ [a] } as
    else cluster :: gather ⟨a, []⟩ as

def clusters : List α → List (Cluster α)
  | [] => []
  | a :: as => gather same ⟨a, []⟩ as

/-! ### Members -/

theorem members_gather (cluster : Cluster α) (as : List α) :
    (gather same cluster as).flatMap Cluster.members = cluster.members ++ as := by
  induction as generalizing cluster with
  | nil => simp [gather]
  | cons a as ih =>
    rw [gather]
    split
    · rw [ih]
      simp [Cluster.members]
    · rw [List.flatMap_cons, ih]
      rfl

/-- Nothing is left out, nor put elsewhere. -/
theorem members_clusters (as : List α) : (clusters same as).flatMap Cluster.members = as := by
  cases as with
  | nil => rfl
  | cons a as => exact members_gather same ⟨a, []⟩ as

theorem mem_of_mem_clusters {cluster : Cluster α} {as : List α}
    (h : cluster ∈ clusters same as) {a : α} (ha : a ∈ cluster.members) : a ∈ as := by
  rw [← members_clusters same as]
  exact List.mem_flatMap.mpr ⟨cluster, h, ha⟩

/-- A search ends at the first of a cluster, if that passes and none before it does. -/
theorem find?_of_split {as : List α} {before after : List (Cluster α)} {cluster : Cluster α}
    (hsplit : clusters same as = before ++ cluster :: after) {p : α → Bool}
    (hp : p cluster.first = true) (hbefore : ∀ g ∈ before, ∀ a ∈ g.members, p a = false) :
    as.find? p = some cluster.first := by
  have hnone : (before.flatMap Cluster.members).find? p = none := by
    apply List.find?_eq_none.mpr
    intro a ha
    obtain ⟨g, hg, hmem⟩ := List.mem_flatMap.mp ha
    simp [hbefore g hg a hmem]
  rw [← members_clusters same as, hsplit, List.flatMap_append, List.find?_append, hnone,
    List.flatMap_cons, Cluster.members, List.cons_append, List.find?_cons_of_pos hp]
  rfl

/-! ### Clusters by a key -/

section Key

variable {κ : Type v} {key : α → κ} {same}

theorem key_gather (hsame : ∀ a b, same a b = true ↔ key a = key b) {cluster : Cluster α}
    (hcluster : ∀ a ∈ cluster.rest, key a = key cluster.first) (as : List α) :
    ∀ g ∈ gather same cluster as, ∀ a ∈ g.rest, key a = key g.first := by
  induction as generalizing cluster with
  | nil =>
    intro g hg
    rw [gather, List.mem_singleton] at hg
    exact hg ▸ hcluster
  | cons a as ih =>
    rw [gather]
    split
    · rename_i hjoins
      apply ih
      intro b hb
      rcases List.mem_append.mp hb with hb | hb
      · exact hcluster b hb
      · obtain rfl := List.mem_singleton.mp hb
        exact ((hsame _ _).mp hjoins).symm
    · intro g hg
      rcases List.mem_cons.mp hg with rfl | hg
      · exact hcluster
      · exact ih (by simp) g hg

theorem key_clusters (hsame : ∀ a b, same a b = true ↔ key a = key b) {as : List α}
    {cluster : Cluster α} (h : cluster ∈ clusters same as) {a : α} (ha : a ∈ cluster.members) :
    key a = key cluster.first := by
  cases as with
  | nil => contradiction
  | cons b as =>
    rcases List.mem_cons.mp ha with rfl | hrest
    · rfl
    · exact key_gather hsame (by simp) as cluster h a hrest

variable [PartialOrder κ]

theorem descending_gather (hsame : ∀ a b, same a b = true ↔ key a = key b) {cluster : Cluster α}
    {as : List α} (hbelow : ∀ a ∈ as, key a ≤ key cluster.first)
    (hsorted : as.Pairwise (fun a b => key b ≤ key a)) :
    (gather same cluster as).Pairwise (fun g h => key h.first < key g.first) ∧
      ∀ g ∈ gather same cluster as, key g.first ≤ key cluster.first := by
  induction as generalizing cluster with
  | nil => simp [gather]
  | cons a as ih =>
    obtain ⟨hhead, htail⟩ := List.pairwise_cons.mp hsorted
    have hrest : ∀ b ∈ as, key b ≤ key cluster.first :=
      fun b hb => hbelow b (List.mem_cons_of_mem _ hb)
    rw [gather]
    split
    · exact @ih { cluster with rest := cluster.rest ++ [a] } hrest htail
    · rename_i hopens
      obtain ⟨hpairs, hle⟩ := @ih ⟨a, []⟩ hhead htail
      have hlt : key a < key cluster.first := by
        apply lt_of_le_of_ne (hbelow a List.mem_cons_self)
        intro heq
        exact hopens ((hsame _ _).mpr heq.symm)
      refine ⟨List.pairwise_cons.mpr ⟨?_, hpairs⟩, ?_⟩
      · intro g hg
        exact lt_of_le_of_lt (hle g hg) hlt
      · intro g hg
        rcases List.mem_cons.mp hg with rfl | hg
        · exact le_rfl
        · exact (hle g hg).trans hlt.le

/-- Of a list that descends, the clusters descend strictly. -/
theorem descending_clusters (hsame : ∀ a b, same a b = true ↔ key a = key b) {as : List α}
    (hsorted : as.Pairwise (fun a b => key b ≤ key a)) :
    (clusters same as).Pairwise (fun g h => key h.first < key g.first) := by
  cases as with
  | nil => exact List.Pairwise.nil
  | cons a as =>
    obtain ⟨hhead, htail⟩ := List.pairwise_cons.mp hsorted
    exact (@descending_gather _ _ _ _ _ hsame ⟨a, []⟩ as hhead htail).1

/-- Then there is one cluster for each key. -/
theorem mem_members_iff (hsame : ∀ a b, same a b = true ↔ key a = key b) {as : List α}
    (hsorted : as.Pairwise (fun a b => key b ≤ key a)) {cluster : Cluster α}
    (h : cluster ∈ clusters same as) {a : α} :
    a ∈ cluster.members ↔ a ∈ as ∧ key a = key cluster.first := by
  constructor
  · exact fun ha => ⟨mem_of_mem_clusters same h ha, key_clusters hsame h ha⟩
  · rintro ⟨ha, hkey⟩
    rw [← members_clusters same as] at ha
    obtain ⟨other, hother, hmem⟩ := List.mem_flatMap.mp ha
    have hnodup : ((clusters same as).map (fun g => key g.first)).Nodup := by
      apply List.pairwise_map.mpr
      exact (descending_clusters hsame hsorted).imp fun hlt => hlt.ne'
    have heq := List.inj_on_of_nodup_map hnodup hother h
      ((key_clusters hsame hother hmem).symm.trans hkey)
    exact heq ▸ hmem

end Key

end WayDisplays.Lib.Clusters
