/- However servers are started and stopped, one at most runs, and the file names it. -/

import WayDisplays.Model.Process
import WayDisplays.Yaml.Scalars

set_option autoImplicit false
set_option relaxedAutoImplicit false

namespace WayDisplays.Process.Lock

open Lib.Run (run Along Always Reachable)
open Model Yaml.Scalars

/-- What a process only does while it holds the lock. -/
def Locked (phase : PidPhase) : Prop := phase ∈ [.truncating, .writing, .running]

instance (phase : PidPhase) : Decidable (Locked phase) := inferInstanceAs (Decidable (_ ∈ _))

structure Held (pids : Pids) : Prop where
  lock : ∀ pid, pids.lock = some pid ↔ Locked (pids.phase pid)
  cleared : ∀ pid, pids.phase pid = .writing → pids.file = some ""
  named : ∀ pid, pids.phase pid = .running → pids.file = some (snprintfInt pid)
  range : ∀ pid, pids.phase pid ≠ .absent → 0 < pid ∧ pid < 2 ^ 31

theorem held_init (file : Option String) : Held (pidsInit file) where
  lock := fun _ => iff_of_false (by simp [pidsInit]) (by simp [pidsInit, Locked])
  cleared := fun _ h => absurd h (by simp [pidsInit])
  named := fun _ h => absurd h (by simp [pidsInit])
  range := fun _ h => absurd rfl h

variable {pids : Pids} {pid : Nat}

theorem Held.unique (h : Held pids) {p q : Nat} (hp : Locked (pids.phase p))
    (hq : Locked (pids.phase q)) : p = q :=
  Option.some.inj (((h.lock p).mpr hp).symm.trans ((h.lock q).mpr hq))

theorem phase_goOn_self (pids : Pids) (pid : Nat) (phase : PidPhase) :
    (pids.goOn pid phase).phase pid = phase := Function.update_self ..

theorem phase_goOn_of_ne (pids : Pids) {pid q : Nat} (phase : PidPhase) (hq : q ≠ pid) :
    (pids.goOn pid phase).phase q = pids.phase q := Function.update_of_ne hq ..

theorem phase_leave_of_ne (pids : Pids) {pid q : Nat} (hq : q ≠ pid) :
    (pids.leave pid).phase q = pids.phase q := Function.update_of_ne hq ..

def actor : PidEvent → Nat
  | .start pid => pid
  | .call pid _ => pid
  | .leave pid => pid

theorem phase_call_of_ne (kill : Int → Bool) (pids : Pids) {pid q : Nat} (hq : q ≠ pid)
    (failed : Bool) : (pids.call kill pid failed).1.phase q = pids.phase q := by
  cases hphase : pids.phase pid <;> cases failed <;>
    simp only [Pids.call, hphase, phase_leave_of_ne _ hq, phase_goOn_of_ne _ _ hq]
  · split <;> simp only [phase_goOn_of_ne _ _ hq]

/-- No process is moved by what another does. -/
theorem phase_step_of_ne {kill : Int → Bool} {event : PidEvent} {pids pids' : Pids} {q : Nat}
    (hstep : pids.step kill event = some pids') (hq : q ≠ actor event) :
    pids'.phase q = pids.phase q := by
  cases event with
  | start pid =>
    obtain ⟨-, hnext⟩ := Option.ite_none_right_eq_some.mp hstep
    rw [← Option.some.inj hnext]
    exact phase_goOn_of_ne pids _ hq
  | call pid failed => exact Option.some.inj hstep ▸ phase_call_of_ne kill pids hq failed
  | leave pid => exact Option.some.inj hstep ▸ phase_leave_of_ne pids hq

/-- A process without the lock that goes on without it, and leaves alone what another wrote. -/
theorem Held.goOn (h : Held pids) (phase : PidPhase) (file : Option String)
    (hold : ¬ Locked (pids.phase pid)) (hnew : ¬ Locked phase) (hrange : 0 < pid ∧ pid < 2 ^ 31)
    (hfile : pids.file.isSome → file = pids.file) :
    Held ({ pids with file := file }.goOn pid phase) where
  lock := by
    intro q
    by_cases hq : q = pid
    · subst hq
      rw [phase_goOn_self]
      exact iff_of_false (fun hlock => hold ((h.lock q).mp hlock)) hnew
    · rw [phase_goOn_of_ne _ _ hq]
      exact h.lock q
  cleared := by
    intro q hwriting
    by_cases hq : q = pid
    · subst hq
      rw [phase_goOn_self] at hwriting
      exact absurd (by simp [Locked, hwriting]) hnew
    · rw [phase_goOn_of_ne _ _ hq] at hwriting
      have hcontent := h.cleared q hwriting
      exact (hfile (hcontent ▸ rfl)).trans hcontent
  named := by
    intro q hrunning
    by_cases hq : q = pid
    · subst hq
      rw [phase_goOn_self] at hrunning
      exact absurd (by simp [Locked, hrunning]) hnew
    · rw [phase_goOn_of_ne _ _ hq] at hrunning
      have hcontent := h.named q hrunning
      exact (hfile (hcontent ▸ rfl)).trans hcontent
  range := by
    intro q hq
    by_cases heq : q = pid
    · exact heq ▸ hrange
    · rw [phase_goOn_of_ne _ _ heq] at hq
      exact h.range q hq

theorem Held.leave (h : Held pids) (pid : Nat) : Held (pids.leave pid) where
  lock := by
    intro q
    by_cases hq : q = pid
    · subst hq
      have hnone : (pids.leave q).lock ≠ some q := by
        by_cases hlock : pids.lock = some q <;> simp [Pids.leave, hlock]
      exact iff_of_false hnone (by simp [Pids.leave, Locked])
    · rw [phase_leave_of_ne _ hq, ← h.lock q]
      by_cases hlock : pids.lock = some pid
      · simp [Pids.leave, hlock, Ne.symm hq]
      · simp [Pids.leave, hlock]
  cleared := by
    intro q hwriting
    by_cases hq : q = pid
    · simp [Pids.leave, hq] at hwriting
    · rw [phase_leave_of_ne _ hq] at hwriting
      exact h.cleared q hwriting
  named := by
    intro q hrunning
    by_cases hq : q = pid
    · simp [Pids.leave, hq] at hrunning
    · rw [phase_leave_of_ne _ hq] at hrunning
      exact h.named q hrunning
  range := by
    intro q hphase
    by_cases hq : q = pid
    · simp [Pids.leave, hq] at hphase
    · rw [phase_leave_of_ne _ hq] at hphase
      exact h.range q hphase

/-- The holder of the lock goes on with it. -/
theorem Held.goOn_locked (h : Held pids) (phase : PidPhase) (lock : Option Nat)
    (file : Option String) (hnew : Locked phase) (hrange : 0 < pid ∧ pid < 2 ^ 31)
    (hlock : lock = some pid) (hother : ∀ q, q ≠ pid → pids.lock ≠ some q)
    (hcleared : phase = .writing → file = some "")
    (hnamed : phase = .running → file = some (snprintfInt pid)) :
    Held ({ pids with file := file, lock := lock }.goOn pid phase) where
  lock := by
    intro q
    by_cases hq : q = pid
    · subst hq
      rw [phase_goOn_self]
      exact iff_of_true hlock hnew
    · rw [phase_goOn_of_ne _ _ hq, ← h.lock q]
      refine iff_of_false (fun hsome => hq ?_) (hother q hq)
      exact Option.some.inj (hsome.symm.trans hlock)
  cleared := by
    intro q hwriting
    by_cases hq : q = pid
    · subst hq
      rw [phase_goOn_self] at hwriting
      exact hcleared hwriting
    · rw [phase_goOn_of_ne _ _ hq] at hwriting
      have hlocked : Locked (pids.phase q) := by simp only at hwriting; simp [Locked, hwriting]
      exact absurd ((h.lock q).mpr hlocked) (hother q hq)
  named := by
    intro q hrunning
    by_cases hq : q = pid
    · subst hq
      rw [phase_goOn_self] at hrunning
      exact hnamed hrunning
    · rw [phase_goOn_of_ne _ _ hq] at hrunning
      have hlocked : Locked (pids.phase q) := by simp only at hrunning; simp [Locked, hrunning]
      exact absurd ((h.lock q).mpr hlocked) (hother q hq)
  range := by
    intro q hphase
    by_cases hq : q = pid
    · exact hq ▸ hrange
    · rw [phase_goOn_of_ne _ _ hq] at hphase
      exact h.range q hphase

/-- A call ends the process, leaves it where it is, or takes it on to what it calls next. -/
theorem Held.call (kill : Int → Bool) (h : Held pids) (pid : Nat) (failed : Bool) :
    Held (pids.call kill pid failed).1 := by
  have hother (hlocked : Locked (pids.phase pid)) : ∀ q, q ≠ pid → pids.lock ≠ some q := by
    intro q hq hlock
    exact hq (h.unique ((h.lock q).mp hlock) hlocked)
  cases hphase : pids.phase pid with
  | absent => simpa only [Pids.call, hphase] using h
  | opening =>
    have hrange := h.range pid (by simp [hphase])
    cases failed with
    | true => simpa only [Pids.call, hphase] using h.leave pid
    | false =>
      have hnew : ¬ Locked (if pids.file.isSome then .locking else .creating) := by
        split <;> simp [Locked]
      simpa only [Pids.call, hphase] using
        h.goOn _ pids.file (by simp [hphase, Locked]) hnew hrange (fun _ => rfl)
  | creating =>
    have hrange := h.range pid (by simp [hphase])
    cases failed with
    | true => simpa only [Pids.call, hphase] using h.leave pid
    | false =>
      have hsame : pids.file.isSome → some (pids.file.getD "") = pids.file := by
        intro hsome
        obtain ⟨content, hcontent⟩ := Option.isSome_iff_exists.mp hsome
        rw [hcontent, Option.getD_some]
      simpa only [Pids.call, hphase] using
        h.goOn .locking _ (by simp [hphase, Locked]) (by simp [Locked]) hrange hsame
  | locking =>
    have hrange := h.range pid (by simp [hphase])
    cases failed with
    | true => simpa only [Pids.call, hphase] using h.leave pid
    | false =>
      cases hlock : pids.lock with
      | none =>
        have hheld := h.goOn_locked .truncating (some pid) pids.file (by simp [Locked])
          hrange rfl (by simp [hlock]) (by simp) (by simp)
        simpa only [Pids.call, hphase, hlock, Option.isNone_none, if_true] using hheld
      | some holder =>
        have hheld := h.goOn .refused pids.file (by simp [hphase, Locked]) (by simp [Locked])
          hrange (fun _ => rfl)
        have hsame : { pids with file := pids.file } = pids := rfl
        simp only [Pids.call, hphase, hlock, Option.isNone_some, Bool.false_eq_true, if_false]
        rwa [hsame] at hheld
  | refused => simpa only [Pids.call, hphase] using h.leave pid
  | truncating =>
    have hrange := h.range pid (by simp [hphase])
    have hlocked : Locked (pids.phase pid) := by simp [hphase, Locked]
    cases failed with
    | true => simpa only [Pids.call, hphase] using h.leave pid
    | false =>
      have hheld := h.goOn_locked .writing pids.lock (some "") (by simp [Locked]) hrange
        ((h.lock pid).mpr hlocked) (hother hlocked) (fun _ => rfl) (by simp)
      simpa only [Pids.call, hphase] using hheld
  | writing =>
    have hrange := h.range pid (by simp [hphase])
    have hlocked : Locked (pids.phase pid) := by simp [hphase, Locked]
    cases failed with
    | true => simpa only [Pids.call, hphase] using h.leave pid
    | false =>
      have hwritten : pids.file.map (fun content => overwriteStart content (snprintfInt pid)) =
          some (snprintfInt pid) := by
        rw [h.cleared pid hphase, Option.map_some, overwriteStart]
        simp
      have hheld := h.goOn_locked .running pids.lock _ (by simp [Locked]) hrange
        ((h.lock pid).mpr hlocked) (hother hlocked) (by simp) (fun _ => hwritten)
      simpa only [Pids.call, hphase] using hheld
  | running => simpa only [Pids.call, hphase] using h

theorem Held.step {kill : Int → Bool} {event : PidEvent} {pids' : Pids} (h : Held pids)
    (hstep : pids.step kill event = some pids') : Held pids' := by
  cases event with
  | start pid =>
    obtain ⟨⟨habsent, hrange⟩, hnext⟩ := Option.ite_none_right_eq_some.mp hstep
    rw [← Option.some.inj hnext]
    exact h.goOn .opening pids.file (by simp [habsent, Locked]) (by simp [Locked]) hrange
      (fun _ => rfl)
  | call pid failed => exact Option.some.inj hstep ▸ h.call kill pid failed
  | leave pid => exact Option.some.inj hstep ▸ h.leave pid

/-! ### What the file tells -/

theorem length_digits_le {n : Nat} (h : n < 10 ^ 10) : (Lib.Decimal.digits n).length ≤ 10 := by
  rw [Lib.Decimal.digits, Lib.Decimal.length_padded]
  have hlog : Nat.log 10 n < 10 := by
    by_cases hn : n = 0
    · simp [hn]
    · exact (Nat.log_lt_iff_lt_pow (by omega) hn).mpr h
  omega

/-- The process that runs is found, unless it must not be signalled. -/
theorem pidActiveServer_running {kill : Int → Bool} (hrange : 0 < pid ∧ pid < 2 ^ 31)
    (hkill : kill pid = true) : pidActiveServer kill (some (snprintfInt pid)) = pid := by
  have hint : IsInt32 pid := ⟨by omega, by omega⟩
  have hdigits : Lib.Decimal.writeInt pid = Lib.Decimal.digits pid := by
    rw [Lib.Decimal.writeInt, if_neg (by omega), Int.natAbs_natCast]
  have hwhole : (snprintfInt pid).toList.take 11 = (snprintfInt pid).toList := by
    refine List.take_of_length_le ?_
    rw [snprintfInt, String.toList_ofList, hdigits]
    exact le_trans (length_digits_le (by omega)) (by omega)
  rw [pidActiveServer, Option.bind_some, hwhole, String.ofList_toList, sscanfInt_snprintfInt hint]
  exact if_pos hkill

/-- At most one server runs, and a client finds that one, however many were started, stopped or
killed in between, whatever the file held before and whichever calls failed. -/
theorem server_unique (kill : Int → Bool) (file : Option String) {pids : Pids}
    (h : Reachable (Pids.step kill) (pidsInit file) pids) {pid : Nat}
    (hrunning : pids.phase pid = .running) :
    (∀ q, pids.phase q = .running → q = pid) ∧
      (kill pid = true → pidActiveServer kill pids.file = pid) := by
  have hheld : Held pids := h.invariant (held_init file) (fun _ _ _ hI hstep => hI.step hstep)
  refine ⟨fun q hq => hheld.unique (by simp [Locked, hq]) (by simp [Locked, hrunning]), ?_⟩
  intro hkill
  rw [hheld.named pid hrunning]
  exact pidActiveServer_running (hheld.range pid (by simp [hrunning])) hkill

/-- A server that was killed before it wrote its number, between one that ran and one that is to. -/
def killedRun : List PidEvent :=
  [.start 7, .call 7 false, .call 7 false, .call 7 false, .call 7 false, .call 7 false, .leave 7,
    .start 8, .call 8 false, .call 8 false, .call 8 false, .leave 8]

theorem server_unique_killed :
    ∃ pids, Reachable (Pids.step (fun _ => true)) (pidsInit none) pids ∧
      pids.phase 9 = .running ∧ (∀ q, pids.phase q = .running → q = 9) ∧
      ((fun _ => true) (9 : Int) = true → pidActiveServer (fun _ => true) pids.file = 9) := by
  obtain ⟨pids, hrun, hphase⟩ : ∃ pids, run (Pids.step (fun _ => true)) (pidsInit none)
      (killedRun ++ [.start 9, .call 9 false, .call 9 false, .call 9 false, .call 9 false]) =
        some pids ∧ pids.phase 9 = .running := ⟨_, rfl, rfl⟩
  obtain ⟨hunique, hfound⟩ := server_unique (fun _ => true) none ⟨_, hrun⟩ hphase
  exact ⟨pids, ⟨_, hrun⟩, hphase, hunique, hfound⟩

/-! ### A server that runs stays -/

def Stays (pid : Nat) (pids : Pids) : Prop :=
  Held pids ∧ pids.phase pid = .running

theorem Stays.call {kill : Int → Bool} (h : Stays pid pids) (q : Nat) (failed : Bool) :
    (pids.call kill q failed).1.phase pid = .running := by
  by_cases hq : pid = q
  · subst hq
    simp only [Pids.call, h.2]
  · rw [phase_call_of_ne kill pids hq failed, h.2]

/-- While it is not stopped itself, a server goes on to run, the file goes on to name it, and no
other gets to run: those that try give up. -/
theorem server_stays (kill : Int → Bool) (file : Option String) {pids : Pids}
    (h : Reachable (Pids.step kill) (pidsInit file) pids) {pid : Nat}
    (hrunning : pids.phase pid = .running) {events : List PidEvent}
    (hevents : PidEvent.leave pid ∉ events) :
    Always (Pids.step kill)
      (fun pids => pids.phase pid = .running ∧ pids.file = some (snprintfInt pid) ∧
        ∀ q, q ≠ pid → ¬ Locked (pids.phase q)) pids events := by
  have hheld : Held pids := h.invariant (held_init file) (fun _ _ _ hI hstep => hI.step hstep)
  have halong : Along (Pids.step kill) (fun _ event => event ≠ .leave pid) pids events :=
    Lib.Run.along_of_mem (C := fun event => event ≠ PidEvent.leave pid)
      (fun _ hmem heq => hevents (heq ▸ hmem)) pids
  refine (Lib.Run.always_of_along (I := Stays pid) ?_ ⟨hheld, hrunning⟩ halong).mono ?_
  · rintro pids event pids' hstays hne hstep
    refine ⟨hstays.1.step hstep, ?_⟩
    cases event with
    | start q =>
      obtain ⟨⟨habsent, -⟩, -⟩ := Option.ite_none_right_eq_some.mp hstep
      have hq : pid ≠ q := fun heq => by simp [← heq, hstays.2] at habsent
      rw [phase_step_of_ne hstep hq, hstays.2]
    | call q failed => exact Option.some.inj hstep ▸ hstays.call q failed
    | leave q =>
      have hq : pid ≠ q := fun heq => hne (heq ▸ rfl)
      rw [phase_step_of_ne hstep hq, hstays.2]
  · rintro pids ⟨hI, hrun⟩
    refine ⟨hrun, hI.named pid hrun, fun q hq hlocked => hq ?_⟩
    exact hI.unique hlocked (by simp [Locked, hrun])

theorem server_stays_refused :
    ∃ pids, run (Pids.step (fun _ => true)) (pidsInit none)
        [.start 7, .call 7 false, .call 7 false, .call 7 false, .call 7 false, .call 7 false] =
          some pids ∧
      Always (Pids.step (fun _ => true))
        (fun pids => pids.phase 7 = .running ∧ pids.file = some (snprintfInt 7) ∧
          ∀ q, q ≠ 7 → ¬ Locked (pids.phase q)) pids
        [.start 8, .call 8 false, .call 8 false, .call 8 false] := by
  obtain ⟨pids, hrun, hphase⟩ : ∃ pids, run (Pids.step (fun _ => true)) (pidsInit none)
      [.start 7, .call 7 false, .call 7 false, .call 7 false, .call 7 false, .call 7 false] =
        some pids ∧ pids.phase 7 = .running := ⟨_, rfl, rfl⟩
  exact ⟨pids, hrun, server_stays (fun _ => true) none ⟨_, hrun⟩ hphase (by simp)⟩

/-! ### A server can start again -/

/-- A process gets to run by a number of calls, if none fails and no other process comes between. -/
def Runs (kill : Int → Bool) (pid n : Nat) (pids : Pids) : Prop :=
  ∃ pids', run (Pids.step kill) pids (List.replicate n (.call pid false)) = some pids' ∧
    pids'.phase pid = .running

variable {kill : Int → Bool}

theorem Runs.cons (pids' : Pids) {n : Nat} (hcall : (pids.call kill pid false).1 = pids')
    (hrest : Runs kill pid n pids') : Runs kill pid (n + 1) pids := by
  obtain ⟨last, hrun, hphase⟩ := hrest
  refine ⟨last, ?_, hphase⟩
  rw [List.replicate_succ, Lib.Run.run_cons (congrArg some hcall)]
  exact hrun

theorem runs_writing (hphase : pids.phase pid = .writing) : Runs kill pid 1 pids := by
  refine Runs.cons _ rfl ⟨_, rfl, ?_⟩
  simp only [Pids.call, hphase, phase_goOn_self]

theorem runs_locking (hphase : pids.phase pid = .locking) (hlock : pids.lock = none) :
    Runs kill pid 3 pids := by
  refine Runs.cons ({ pids with lock := some pid }.goOn pid .truncating)
    (by simp [Pids.call, hphase, hlock]) ?_
  refine Runs.cons ({ { pids with lock := some pid }.goOn pid .truncating with
    file := some "" }.goOn pid .writing) (by simp only [Pids.call, phase_goOn_self]) ?_
  exact runs_writing (phase_goOn_self ..)

theorem runs_creating (hphase : pids.phase pid = .creating) (hlock : pids.lock = none) :
    Runs kill pid 4 pids := by
  refine Runs.cons ({ pids with file := some (pids.file.getD "") }.goOn pid .locking)
    (by simp only [Pids.call, hphase]) (runs_locking (phase_goOn_self ..) hlock)

/-- Whatever was left behind by those that ended, also at a call between others, a server that is
started once all are gone gets to run. -/
theorem server_restarts (kill : Int → Bool) (file : Option String) {pids : Pids}
    (h : Reachable (Pids.step kill) (pidsInit file) pids)
    (hgone : ∀ q, pids.phase q = .absent) {pid : Nat} (hrange : 0 < pid ∧ pid < 2 ^ 31) :
    ∃ started, pids.step kill (.start pid) = some started ∧ ∃ n ≤ 5, Runs kill pid n started := by
  have hheld : Held pids := h.invariant (held_init file) (fun _ _ _ hI hstep => hI.step hstep)
  have habsent := hgone pid
  have hlock : pids.lock = none := by
    cases hholder : pids.lock with
    | none => rfl
    | some q =>
      have hlocked := (hheld.lock q).mp hholder
      rw [hgone q] at hlocked
      simp [Locked] at hlocked
  refine ⟨pids.goOn pid .opening, if_pos ⟨habsent, hrange⟩, ?_⟩
  by_cases hfile : pids.file.isSome = true
  · refine ⟨4, by omega, Runs.cons ((pids.goOn pid .opening).goOn pid .locking) ?_
      (runs_locking (phase_goOn_self ..) hlock)⟩
    have hkept : (pids.goOn pid .opening).file.isSome = true := hfile
    simp only [Pids.call, phase_goOn_self, hkept, if_true]
  · refine ⟨5, Nat.le_refl 5, Runs.cons ((pids.goOn pid .opening).goOn pid .creating) ?_
      (runs_creating (phase_goOn_self ..) hlock)⟩
    have hkept : ¬ (pids.goOn pid .opening).file.isSome = true := hfile
    simp only [Pids.call, phase_goOn_self, if_neg hkept]

theorem server_restarts_killed :
    ∃ pids started, run (Pids.step (fun _ => true)) (pidsInit none) killedRun = some pids ∧
      pids.step (fun _ => true) (.start 9) = some started ∧
      ∃ n ≤ 5, Runs (fun _ => true) 9 n started := by
  obtain ⟨pids, hrun, hgone⟩ : ∃ pids, run (Pids.step (fun _ => true)) (pidsInit none)
      killedRun = some pids ∧ ∀ q, pids.phase q = .absent := by
    refine ⟨_, rfl, fun q => ?_⟩
    simp [Pids.leave, Pids.goOn, Pids.call, pidsInit, Function.update]
  obtain ⟨started, hstart, hruns⟩ :=
    server_restarts (fun _ => true) none ⟨_, hrun⟩ hgone (by omega : 0 < 9 ∧ 9 < 2 ^ 31)
  exact ⟨pids, started, hrun, hstart, hruns⟩

end WayDisplays.Process.Lock
