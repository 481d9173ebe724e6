/- How a compositor may answer a configuration, and what each answer leaves of the heads. -/

import WayDisplays.Act.Listeners
import WayDisplays.Act.Spec

set_option autoImplicit false
set_option relaxedAutoImplicit false

namespace WayDisplays.Act.Answers

open Lib (OrderedMap)
open Model
open Spec (Handled)

/-! ### Reports -/

def report : HeadChange → Option HeadEvent
  | .setMode zmode => zmode.map .currentMode
  | .setAdaptiveSync state => some (.adaptiveSync state)
  | .setScale scale => some (.scale scale)
  | .setPosition x y => some (.position x y)
  | .setTransform transform => some (.transform transform)

def headReports : HeadConfig → List HeadEvent
  | .disable => [.enabled false]
  | .enable changes => .enabled true :: changes.filterMap report

def reports (configuration : Configuration) : List WlEvent :=
  configuration.flatMap (fun e => (headReports e.2).map (.head e.1))

/-- A configuration is granted once all it requests is reported, in whatever order; a mode may
fail, and an adaptive sync fail or go unreported, with no change. -/
inductive Answer : Configuration → List WlEvent → Prop
  | granted {configuration : Configuration} {events : List WlEvent}
      (h : events.Perm (reports configuration)) :
      Answer configuration (events ++ [.configuration .succeeded])
  | modeRefused {zhead : ZHead} {zmode : Option ZMode} :
      Answer [(zhead, .enable [.setMode zmode])] [.configuration .failed]
  | adaptiveSyncRefused {zhead : ZHead} {state : AdaptiveSync} {reply : Reply}
      (h : reply = .failed ∨ reply = .succeeded) :
      Answer [(zhead, .enable [.setAdaptiveSync state])] [.configuration reply]

/-! ### The order of reports -/

/-- The head after what a configuration requests of it is reported. -/
def grant (config : HeadConfig) (head : Head) : Head := (headReports config).foldl headListener head

/-- Heads are named once, and what is requested of each may be reported in any order. -/
structure Orderly (configuration : Configuration) : Prop where
  nodup : (configuration.map Prod.fst).Nodup
  commute : ∀ e ∈ configuration, ∀ a ∈ headReports e.2, ∀ b ∈ headReports e.2, ∀ head,
    headListener (headListener head a) b = headListener (headListener head b) a

private theorem foldl_headReports (displ : Displ) (zhead : ZHead) (events : List HeadEvent) :
    (events.map (.head zhead)).foldl displListener displ =
      { displ with
        heads := displ.heads.modify zhead (fun head => events.foldl headListener head) } := by
  induction events generalizing displ with
  | nil =>
    have hsame : displ.heads.modify zhead (fun head => head) = displ.heads := by
      refine OrderedMap.ext_get? (OrderedMap.keys_modify _ _ _) fun k _ => ?_
      rw [OrderedMap.get?_modify]
      split
      · exact Option.map_id'
      · rfl
    simp only [List.map_nil, List.foldl_nil, hsame]
  | cons event events ih =>
    rw [List.map_cons, List.foldl_cons, ih]
    simp only [displListener, OrderedMap.modify_modify, List.foldl_cons]

theorem foldl_reports (displ : Displ) (configuration : Configuration) :
    (reports configuration).foldl displListener displ =
      { displ with
        heads := configuration.foldl (fun heads e => heads.modify e.1 (grant e.2)) displ.heads
      } := by
  induction configuration generalizing displ with
  | nil => rfl
  | cons e configuration ih =>
    rw [reports, List.flatMap_cons, List.foldl_append, foldl_headReports]
    exact ih _

theorem foldl_perm_reports {configuration : Configuration} (horderly : Orderly configuration)
    {events : List WlEvent} (h : events.Perm (reports configuration)) (displ : Displ) :
    events.foldl displListener displ = (reports configuration).foldl displListener displ := by
  refine h.foldl_eq' (fun a ha b hb d => ?_) displ
  obtain ⟨⟨z, config⟩, he, ha⟩ := List.mem_flatMap.mp (h.mem_iff.mp ha)
  obtain ⟨⟨z', config'⟩, he', hb⟩ := List.mem_flatMap.mp (h.mem_iff.mp hb)
  obtain ⟨event, hevent, rfl⟩ := List.mem_map.mp ha
  obtain ⟨event', hevent', rfl⟩ := List.mem_map.mp hb
  simp only [displListener]
  by_cases hz : z = z'
  · subst hz
    obtain rfl : config = config' := by
      have hsame := List.inj_on_of_nodup_map horderly.nodup he he' rfl
      exact (Prod.mk.inj hsame).2
    rw [OrderedMap.modify_modify, OrderedMap.modify_modify]
    have hcommute := horderly.commute _ he event hevent event' hevent'
    simp only [hcommute]
  · rw [OrderedMap.modify_comm _ hz]

/-- What a configuration that names heads once leaves of the heads. -/
theorem get?_grants {configuration : Configuration} (hnodup : (configuration.map Prod.fst).Nodup)
    (heads : Heads) (zhead : ZHead) :
    (∀ config, (zhead, config) ∈ configuration →
      (configuration.foldl (fun heads e => heads.modify e.1 (grant e.2)) heads).get? zhead =
        (heads.get? zhead).map (grant config)) ∧
    (zhead ∉ configuration.map Prod.fst →
      (configuration.foldl (fun heads e => heads.modify e.1 (grant e.2)) heads).get? zhead =
        heads.get? zhead) := by
  induction configuration generalizing heads with
  | nil => exact ⟨fun _ h => absurd h List.not_mem_nil, fun _ => rfl⟩
  | cons e configuration ih =>
    obtain ⟨hnot, hnodup⟩ := List.nodup_cons.mp hnodup
    obtain ⟨hin, hout⟩ := ih hnodup (heads.modify e.1 (grant e.2))
    constructor
    · intro config hmem
      rcases List.mem_cons.mp hmem with rfl | hmem
      · rw [List.foldl_cons, hout hnot, OrderedMap.get?_modify_self]
      · have hne : zhead ≠ e.1 := fun h => hnot (h ▸ List.mem_map_of_mem hmem)
        rw [List.foldl_cons, hin config hmem, OrderedMap.get?_modify_ne _ _ hne]
    · intro hmem
      simp only [List.map_cons, List.mem_cons, not_or] at hmem
      rw [List.foldl_cons, hout hmem.2, OrderedMap.get?_modify_ne _ _ hmem.1]

theorem keys_grants (configuration : Configuration) (heads : Heads) :
    (configuration.foldl (fun heads e => heads.modify e.1 (grant e.2)) heads).keys =
      heads.keys := by
  induction configuration generalizing heads with
  | nil => rfl
  | cons e configuration ih =>
    rw [List.foldl_cons, ih]
    exact OrderedMap.keys_modify _ _ _

end WayDisplays.Act.Answers
