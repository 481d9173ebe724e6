/- The divisors that desire computes for the lengths of heads, disabled ones included. -/

import WayDisplays.Scale.Logical
import WayDisplays.Scale.Positive

set_option autoImplicit false
set_option relaxedAutoImplicit false

namespace WayDisplays.Scale.Divisor

open Lib (OrderedMap)
open Model
open Desire.Heads
open Desire.Spec
open Fixed
open Auto
open Logical (scaledDivisor scaledDivisor_of_steps desiredScaledLength_divisor)
open Scale.Positive (requestedScale desireScale_requested requestedScale_nonneg)

/-! ### The divisors of one head -/

variable [Platform]

/-! ### The divisors of a run -/

section Head

variable (lid : Option Lid) (cfg : Cfg) (heads : Heads) (head : Head)

end Head

section Active

variable {cfg : Cfg} (hbase : ScaleRoundTo cfg) (hdpi : cfg.autoScaleDpi > autoScaleDpiMin)
  {lid : Option Lid} {heads : Heads} {head : Head} (hactive : active cfg lid heads head = true)

include hbase hdpi hactive

end Active

section Visits

variable (cfg : Cfg) (lid : Option Lid) (heads : Heads)

/-- The configuration and the heads of a visit, as far as the steps of a head depend on them. -/
private def Visited (visit : Cfg × Heads × Head) : Prop :=
  quiet visit.1 = quiet cfg ∧ names visit.2.1 = names heads ∧
    ∃ zhead, heads.get? zhead = some visit.2.2

private theorem visited :
    (∀ visit ∈ OrderedMap.visits (desireHead lid) heads.keys cfg heads,
      Visited cfg heads visit) ∧
    ∀ zhead head, heads.get? zhead = some head →
      ∃ c hs, (c, hs, head) ∈ OrderedMap.visits (desireHead lid) heads.keys cfg heads := by
  obtain ⟨hat, hall⟩ := OrderedMap.visits_spec (f := desireHead lid)
    (J := fun c hs => quiet c = quiet cfg ∧ names hs = names heads)
    (fun c hs zhead head hJ hget => ⟨(quiet_desireHead lid c hs head).trans hJ.1,
      (names_put hget (frame_desireHead lid c hs head)).trans hJ.2⟩)
    heads.keys_nodup (s := cfg) (m := heads) ⟨rfl, rfl⟩
  constructor
  · intro visit hvisit
    obtain ⟨⟨hquiet, hnames⟩, zhead, -, hget⟩ := hat visit hvisit
    exact ⟨hquiet, hnames, zhead, hget⟩
  · exact fun zhead head hget => hall zhead (OrderedMap.mem_keys_of_get? hget) head hget

variable {cfg lid heads} {visit : Cfg × Heads × Head} (hvisited : Visited cfg heads visit)

include hvisited

omit [Platform] in
private theorem Visited.scaleRoundTo (hbase : ScaleRoundTo cfg) : ScaleRoundTo visit.1 := by
  rwa [ScaleRoundTo, quiet_field Cfg.scalingBase (fun _ => rfl) hvisited.1]

omit [Platform] in
private theorem Visited.autoScaleDpi (hdpi : cfg.autoScaleDpi > autoScaleDpiMin) :
    visit.1.autoScaleDpi > autoScaleDpiMin := by
  rwa [quiet_field Cfg.autoScaleDpi (fun _ => rfl) hvisited.1]

end Visits

end WayDisplays.Scale.Divisor
