/- What a server may say to its clients: one of them is served, the others are turned away. -/

import WayDisplays.Model.Loop

set_option autoImplicit false
set_option relaxedAutoImplicit false

namespace WayDisplays.Ipc.Dialogue

open Lib
open Model

/-- Between clients, with a response due, or with a socket to close; a client that is served
meanwhile waits. -/
inductive Phase
  | ready (serving : Option Nat)
  | asked (connection : Nat) (yaml : String) (serving : Option Nat)
  | closing (connection : Nat) (serving : Option Nat)
  deriving DecidableEq

structure State where
  phase : Phase
  /-- Connections are numbered as they are accepted. -/
  next : Nat

def start : State := { phase := .ready none, next := 0 }

/-- The last response of an operation is done, or was not delivered. -/
def last (response : IpcResponse) (delivery : Delivery) : Bool :=
  response.done || delivery.failed

/-- Whether a response may answer a message: a rejected one is a bad request, a request made
while another client is served is refused. -/
def answers [Codec] (yaml : String) (serving : Option Nat) (response : IpcResponse) : Bool :=
  match Codec.unmarshal yaml, serving with
  | none, _ => response.done && response.rc == IpcRc.badRequest.val
  | some _, some _ => response.done && response.rc == IpcRc.requestInProgress.val
  | some _, none => true

def step [Codec] (d : State) (io : Io) : Option State :=
  match d.phase, io with
  | .ready serving, .received connection yaml =>
    if connection = d.next then some ⟨.asked connection yaml serving, d.next + 1⟩ else none
  | .ready serving, .closed peer =>
    if peer = some d.next then some ⟨.ready serving, d.next + 1⟩ else none
  | .ready (some connection), .answered peer response delivery =>
    if peer = some connection then
      let phase := if last response delivery then .closing connection none
        else .ready (some connection)
      some { d with phase := phase }
    else none
  | .asked connection yaml serving, .answered peer response delivery =>
    if peer = some connection ∧ answers yaml serving response = true then
      let phase := if last response delivery then .closing connection serving
        else .ready (some connection)
      some { d with phase := phase }
    else none
  | .closing connection serving, .closed peer =>
    if peer = some connection then some { d with phase := .ready serving } else none
  | _, _ => none

/-- Every response goes to the client it is for, and every close. -/
def Allowed [Codec] (trace : List Io) : Prop := (Run.run step start trace).isSome = true

/-! ### The part of one connection -/

/-- A client is heard once, answered until a last response, and its socket closed after that. -/
inductive Turn
  | unheard | heard | answered | over
  deriving DecidableEq

def turn : Turn → Io → Option Turn
  | .unheard, .received _ _ => some .heard
  | .unheard, .closed _ => some .over
  | .heard, .answered _ response delivery =>
    some (if last response delivery then .answered else .heard)
  | .answered, .closed _ => some .over
  | _, _ => none

def about (connection : Nat) : Io → Bool
  | .received other _ => other == connection
  | .answered peer _ _ => peer == some connection
  | .closed peer => peer == some connection

def State.turnOf (d : State) (connection : Nat) : Turn :=
  if d.next ≤ connection then .unheard
  else match d.phase with
    | .ready serving => if serving = some connection then .heard else .over
    | .asked other _ serving =>
      if other = connection ∨ serving = some connection then .heard else .over
    | .closing other serving =>
      if other = connection then .answered
      else if serving = some connection then .heard else .over

/-- The connections of a dialogue were accepted, and differ. -/
def State.WellFormed (d : State) : Prop :=
  match d.phase with
  | .ready serving => ∀ connection ∈ serving, connection < d.next
  | .asked connection _ serving | .closing connection serving =>
    connection < d.next ∧ ∀ other ∈ serving, other < d.next ∧ other ≠ connection

section Turns

variable [Codec] {d d' : State}

theorem done_of_answers {yaml : String} {other : Nat} {response : IpcResponse}
    (h : answers yaml (some other) response = true) : response.done = true := by
  unfold answers at h
  split at h
  · exact (Bool.and_eq_true _ _ ▸ h).1
  · exact (Bool.and_eq_true _ _ ▸ h).1
  · contradiction

/-- The steps there are, a response that is not the last only for the client that is served. -/
inductive Step : State → Io → State → Prop
  | heard (serving : Option Nat) (next : Nat) (yaml : String) :
      Step ⟨.ready serving, next⟩ (.received next yaml) ⟨.asked next yaml serving, next + 1⟩
  | unread (serving : Option Nat) (next : Nat) :
      Step ⟨.ready serving, next⟩ (.closed (some next)) ⟨.ready serving, next + 1⟩
  | progress (connection next : Nat) (response : IpcResponse) (delivery : Delivery) :
      last response delivery = false →
      Step ⟨.ready (some connection), next⟩ (.answered (some connection) response delivery)
        ⟨.ready (some connection), next⟩
  | finished (connection next : Nat) (response : IpcResponse) (delivery : Delivery) :
      last response delivery = true →
      Step ⟨.ready (some connection), next⟩ (.answered (some connection) response delivery)
        ⟨.closing connection none, next⟩
  | begun (connection next : Nat) (yaml : String) (response : IpcResponse)
      (delivery : Delivery) : last response delivery = false →
      Step ⟨.asked connection yaml none, next⟩ (.answered (some connection) response delivery)
        ⟨.ready (some connection), next⟩
  | ended (connection next : Nat) (yaml : String) (serving : Option Nat)
      (response : IpcResponse) (delivery : Delivery) : last response delivery = true →
      Step ⟨.asked connection yaml serving, next⟩ (.answered (some connection) response delivery)
        ⟨.closing connection serving, next⟩
  | closed (connection next : Nat) (serving : Option Nat) :
      Step ⟨.closing connection serving, next⟩ (.closed (some connection))
        ⟨.ready serving, next⟩

theorem step_cases {io : Io} (h : step d io = some d') : Step d io d' := by
  obtain ⟨phase, next⟩ := d
  unfold step at h
  split at h
  case h_1 serving connection yaml hphase =>
    obtain ⟨rfl, hnext⟩ := Option.ite_none_right_eq_some.mp h
    obtain rfl := Option.some.inj hnext
    subst hphase
    exact .heard serving connection yaml
  case h_2 serving peer hphase =>
    obtain ⟨rfl, hnext⟩ := Option.ite_none_right_eq_some.mp h
    obtain rfl := Option.some.inj hnext
    subst hphase
    exact .unread serving next
  case h_3 connection peer response delivery hphase =>
    obtain ⟨rfl, hnext⟩ := Option.ite_none_right_eq_some.mp h
    obtain rfl := Option.some.inj hnext
    subst hphase
    cases hlast : last response delivery with
    | false => exact .progress connection next response delivery hlast
    | true => exact .finished connection next response delivery hlast
  case h_4 connection yaml serving peer response delivery hphase =>
    obtain ⟨⟨rfl, hanswers⟩, hnext⟩ := Option.ite_none_right_eq_some.mp h
    obtain rfl := Option.some.inj hnext
    subst hphase
    cases hlast : last response delivery with
    | true => exact .ended connection next yaml serving response delivery hlast
    | false =>
      cases serving with
      | none => exact .begun connection next yaml response delivery hlast
      | some other =>
        have hdone := done_of_answers hanswers
        simp [last, hdone] at hlast
  case h_5 connection serving peer hphase =>
    obtain ⟨rfl, hnext⟩ := Option.ite_none_right_eq_some.mp h
    obtain rfl := Option.some.inj hnext
    subst hphase
    exact .closed connection next serving
  case h_6 => contradiction

omit [Codec] in
theorem Step.wellFormed {io : Io} (hstep : Step d io d') (h : d.WellFormed) :
    d'.WellFormed := by
  cases hstep with
  | heard serving next yaml =>
    refine ⟨Nat.lt_succ_self next, fun other hother => ?_⟩
    have hlt : other < next := h other hother
    exact ⟨Nat.lt_succ_of_lt hlt, ne_of_lt hlt⟩
  | unread serving next => exact fun other hother => Nat.lt_succ_of_lt (h other hother)
  | progress connection next response delivery hlast => exact h
  | finished connection next response delivery hlast => exact ⟨h connection rfl, by simp⟩
  | begun connection next yaml response delivery hlast =>
    intro other hother
    exact Option.some.inj hother ▸ h.1
  | ended connection next yaml serving response delivery hlast => exact h
  | closed connection next serving => exact fun other hother => (h.2 other hother).1

omit [Codec] in
/-- What is about a connection is its turn; what is not leaves it where it stands. -/
theorem Step.turnOf {io : Io} (hstep : Step d io d') (h : d.WellFormed) (connection : Nat) :
    (if about connection io then turn (d.turnOf connection) io
      else some (d.turnOf connection)) = some (d'.turnOf connection) := by
  cases hstep <;>
    simp_all only [State.WellFormed, State.turnOf, about, turn, Option.mem_def] <;> grind [turn]

theorem run_turnOf {trace : List Io} (h : d.WellFormed)
    (hrun : Run.run step d trace = some d') (connection : Nat) :
    Run.run turn (d.turnOf connection) (trace.filter (about connection)) =
      some (d'.turnOf connection) := by
  induction trace generalizing d with
  | nil =>
    obtain rfl := Option.some.inj hrun
    rfl
  | cons io trace ih =>
    obtain ⟨d₁, hstep, hrest⟩ := Run.run_cons_eq_some.mp hrun
    have hturn := (step_cases hstep).turnOf h connection
    have htail := ih ((step_cases hstep).wellFormed h) hrest
    by_cases habout : about connection io = true
    · rw [if_pos habout] at hturn
      rw [List.filter_cons_of_pos habout, Run.run_cons hturn]
      exact htail
    · rw [if_neg habout] at hturn
      rw [List.filter_cons_of_neg habout, Option.some.inj hturn]
      exact htail

/-- Each connection is heard once, answered until a last response, then closed once. -/
theorem Allowed.turns {trace : List Io} (h : Allowed trace) (connection : Nat) :
    (Run.run turn .unheard (trace.filter (about connection))).isSome = true := by
  obtain ⟨d, hrun⟩ := Option.isSome_iff_exists.mp h
  have hstart : start.WellFormed := by simp [start, State.WellFormed]
  have hturns := run_turnOf hstart hrun connection
  rw [show start.turnOf connection = .unheard from if_pos (Nat.zero_le connection)] at hturns
  rw [hturns, Option.isSome_some]

end Turns

end WayDisplays.Ipc.Dialogue
