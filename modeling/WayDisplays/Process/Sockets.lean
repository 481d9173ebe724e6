/- A server that listens keeps its socket: it is reached by the path of its environment. -/

import WayDisplays.Model.Sockets
import WayDisplays.Process.Lock
import WayDisplays.Yaml.LaptopPrefix

set_option autoImplicit false
set_option relaxedAutoImplicit false

namespace WayDisplays.Process.Sockets

open Lib.Run (run Always)
open Lock
open Model
open Yaml.LaptopPrefix (takeBytes_eq_self)

/-! ### Paths -/

/-- The number of a terminal is no path, and it is short. -/
def VtnrPlain (xdgVtnr : Option String) : Prop :=
  ∀ vtnr, xdgVtnr = some vtnr → '/' ∉ vtnr.toList ∧ strlen vtnr ≤ 84

def nameStart : List Char := "way-displays".toList

def nameEnd : List Char := ".soc".toList

def terminal (xdgVtnr : Option String) : List Char :=
  xdgVtnr.elim [] (fun vtnr => '.' :: vtnr.toList)

def nameTail (xdgVtnr : Option String) : List Char :=
  nameStart ++ terminal xdgVtnr ++ nameEnd ++ ['k']

def size (cs : List Char) : Nat := (cs.map Char.utf8Size).sum

@[simp] theorem size_nil : size [] = 0 := rfl

@[simp] theorem size_cons (c : Char) (cs : List Char) : size (c :: cs) = c.utf8Size + size cs := rfl

@[simp] theorem size_append (cs ds : List Char) : size (cs ++ ds) = size cs + size ds := by
  simp [size]

/-- One byte more than fits is the last character. -/
theorem takeBytes_snoc {cs : List Char} {c : Char} (n : Nat) (h : size cs = n)
    (hc : c.utf8Size = 1) : takeBytes n (cs ++ [c]) = cs := by
  induction cs generalizing n with
  | nil =>
    rw [size_nil] at h
    subst h
    simp [takeBytes, hc]
  | cons d cs ih =>
    rw [size_cons] at h
    rw [List.cons_append, takeBytes, if_pos (by omega), ih _ (by omega)]

theorem size_nameStart : size nameStart = 12 := by decide

theorem size_nameEnd : size nameEnd = 4 := by decide

theorem size_nameTail_le {xdgVtnr : Option String} (h : VtnrPlain xdgVtnr) :
    size (nameTail xdgVtnr) ≤ 102 := by
  have hk : 'k'.utf8Size = 1 := by decide
  have hterminal : size (terminal xdgVtnr) ≤ 85 := by
    cases xdgVtnr with
    | none => exact Nat.zero_le _
    | some vtnr =>
      have hshort : size vtnr.toList ≤ 84 := (h vtnr rfl).2
      have hdot : '.'.utf8Size = 1 := by decide
      rw [terminal, Option.elim_some, size_cons, hdot]
      omega
  rw [nameTail, size_append, size_append, size_append, size_nameStart, size_nameEnd, size_cons,
    size_nil, hk]
  omega

theorem toList_fullName (xdgVtnr : Option String) :
    (xdgVtnr.elim "/way-displays.sock" (fun vtnr => "/way-displays." ++ vtnr ++ ".sock")).toList =
      '/' :: nameTail xdgVtnr := by
  cases xdgVtnr with
  | none => rfl
  | some vtnr =>
    have hstart : "/way-displays.".toList = '/' :: (nameStart ++ ['.']) := rfl
    have hend : ".sock".toList = nameEnd ++ ['k'] := rfl
    rw [Option.elim_some, String.toList_append, String.toList_append, hstart, hend, nameTail,
      terminal, Option.elim_some]
    simp only [List.cons_append, List.append_assoc, List.nil_append]

theorem toList_socketName {xdgVtnr : Option String} (h : VtnrPlain xdgVtnr) :
    (socketName xdgVtnr).toList = '/' :: nameTail xdgVtnr := by
  have hsize := size_nameTail_le h
  have hslash : '/'.utf8Size = 1 := by decide
  have hfits : size ('/' :: nameTail xdgVtnr) ≤ sunPathSize - 4 - 1 := by
    rw [size_cons, hslash, sunPathSize]
    omega
  rw [socketName, snprintfArray, String.toList_ofList, toList_fullName, takeBytes_eq_self hfits]

def tmp : List Char := "/tmp".toList

theorem size_tmp : size tmp = 4 := by decide

theorem toList_tmpPath {xdgVtnr : Option String} (h : VtnrPlain xdgVtnr) :
    (snprintfArray sunPathSize ("/tmp" ++ socketName xdgVtnr)).toList =
      tmp ++ '/' :: nameTail xdgVtnr := by
  have hsize := size_nameTail_le h
  have hslash : '/'.utf8Size = 1 := by decide
  have hfits : size (tmp ++ '/' :: nameTail xdgVtnr) ≤ sunPathSize - 1 := by
    rw [size_append, size_cons, size_tmp, hslash, sunPathSize]
    omega
  rw [snprintfArray, String.toList_ofList, String.toList_append, toList_socketName h]
  exact takeBytes_eq_self hfits

/-- The name is the same up to its last character, which a directory that is too long by one
byte takes away. -/
theorem exists_socketPath {environment : Environment} (h : VtnrPlain environment.xdgVtnr) :
    ∃ dir lost, (lost = [] ∨ lost = ['k']) ∧
      (socketPath environment).toList ++ lost = dir ++ '/' :: nameTail environment.xdgVtnr := by
  unfold socketPath
  cases environment.xdgRuntimeDir with
  | none => exact ⟨tmp, [], Or.inl rfl, by rw [List.append_nil, toList_tmpPath h]⟩
  | some dir =>
    dsimp only
    split
    · exact ⟨tmp, [], Or.inl rfl, by rw [List.append_nil, toList_tmpPath h]⟩
    · rename_i hfits
      have hname := toList_socketName h
      have hle : size (dir.toList ++ '/' :: nameTail environment.xdgVtnr) ≤ sunPathSize := by
        rw [← hname, size_append]
        unfold strlen at hfits
        unfold size
        omega
      rw [snprintfArray, String.toList_ofList, String.toList_append, hname]
      refine ⟨dir.toList, ?_⟩
      rcases Nat.lt_or_eq_of_le hle with hlt | heq
      · refine ⟨[], Or.inl rfl, ?_⟩
        rw [List.append_nil, takeBytes_eq_self (Nat.le_sub_one_of_lt hlt)]
      · refine ⟨['k'], Or.inr rfl, ?_⟩
        have hk : 'k'.utf8Size = 1 := by decide
        obtain ⟨front, hfront⟩ : ∃ front,
            dir.toList ++ '/' :: nameTail environment.xdgVtnr = front ++ ['k'] := by
          refine ⟨dir.toList ++ '/' :: (nameStart ++ terminal environment.xdgVtnr ++ nameEnd), ?_⟩
          simp only [nameTail, List.append_assoc, List.cons_append]
        rw [hfront, size_append, size_cons, hk, size_nil] at heq
        rw [hfront, takeBytes_snoc _ (by omega) hk]

/-! ### One terminal for a socket -/

theorem not_mem_nameTail {xdgVtnr : Option String} (h : VtnrPlain xdgVtnr) :
    '/' ∉ nameTail xdgVtnr := by
  have hstart : '/' ∉ nameStart := by decide
  have hend : '/' ∉ nameEnd := by decide
  have hterminal : '/' ∉ terminal xdgVtnr := by
    cases xdgVtnr with
    | none => exact List.not_mem_nil
    | some vtnr =>
      rw [terminal, Option.elim_some, List.mem_cons]
      rintro (hdot | hmem)
      · exact absurd hdot (by decide)
      · exact (h vtnr rfl).1 hmem
  simp [nameTail, hstart, hend, hterminal]

theorem terminal_injective {a b : Option String} (h : terminal a = terminal b) : a = b := by
  cases a with
  | none =>
    cases b with
    | none => rfl
    | some b => exact absurd h (by simp [terminal])
  | some a =>
    cases b with
    | none => exact absurd h (by simp [terminal])
    | some b =>
      rw [terminal, terminal, Option.elim_some, Option.elim_some] at h
      rw [String.toList_inj.mp (List.cons.inj h).2]

theorem tail_of_slash {ds es cs cs' : List Char} (h : ds ++ '/' :: cs = es ++ '/' :: cs')
    (hcs : '/' ∉ cs) (hcs' : '/' ∉ cs') : cs = cs' := by
  have htake {xs ys : List Char} (hys : '/' ∉ ys) :
      (xs ++ '/' :: ys).reverse.takeWhile (· ≠ '/') = ys.reverse := by
    rw [List.reverse_append, List.reverse_cons, List.append_assoc, List.takeWhile_append_of_pos]
    · simp
    · intro c hc
      simp only [ne_eq, decide_not, Bool.not_eq_true', decide_eq_false_iff_not]
      rintro rfl
      exact hys (List.mem_reverse.mp hc)
  have hreverse := congrArg (fun xs => xs.reverse.takeWhile (· ≠ '/')) h
  simp only [htake hcs, htake hcs'] at hreverse
  exact List.reverse_injective hreverse

/-- A path with its last character lost is no path without. -/
theorem no_shorter {p ds es cs cs' : List Char} (h : p = ds ++ cs ++ nameEnd ++ ['k'])
    (h' : p ++ ['k'] = es ++ cs' ++ nameEnd ++ ['k']) : False := by
  have hp := List.append_cancel_right h'
  have hlast : p.getLast? = some 'k' := by rw [h, List.getLast?_append]; rfl
  have hc : (es ++ cs' ++ nameEnd).getLast? = some 'c' := by rw [List.getLast?_append]; rfl
  rw [hp, hc] at hlast
  exact absurd hlast (by decide)

theorem toTail (dir : List Char) (xdgVtnr : Option String) :
    dir ++ '/' :: nameTail xdgVtnr =
      (dir ++ ['/']) ++ (nameStart ++ terminal xdgVtnr) ++ nameEnd ++ ['k'] := by
  simp only [nameTail, List.append_assoc, List.cons_append, List.nil_append]

/-- Servers with one socket are servers of one terminal. -/
theorem xdgVtnr_of_socketPath {a b : Environment} (ha : VtnrPlain a.xdgVtnr)
    (hb : VtnrPlain b.xdgVtnr) (h : socketPath a = socketPath b) : a.xdgVtnr = b.xdgVtnr := by
  obtain ⟨dir, lost, hlost, hpath⟩ := exists_socketPath ha
  obtain ⟨dir', lost', hlost', hpath'⟩ := exists_socketPath hb
  have hsame : lost = lost' := by
    rcases hlost with rfl | rfl
    · rcases hlost' with rfl | rfl
      · rfl
      · rw [← h, toTail] at hpath'
        rw [List.append_nil, toTail] at hpath
        exact (no_shorter hpath hpath').elim
    · rcases hlost' with rfl | rfl
      · rw [h, toTail] at hpath
        rw [List.append_nil, toTail] at hpath'
        exact (no_shorter hpath' hpath).elim
      · rfl
  rw [h, hsame, hpath'] at hpath
  have htail := tail_of_slash hpath (not_mem_nameTail hb) (not_mem_nameTail ha)
  unfold nameTail at htail
  have hterminal := List.append_cancel_left
    (List.append_cancel_right (List.append_cancel_right htail))
  exact (terminal_injective hterminal).symm

/-! ### Servers next to each other -/

/-- Each file is locked by one process at most, and a process has to do with its own file only. -/
structure Owned (servers : Servers) : Prop where
  held : ∀ path, Held (servers.pids path)
  own : ∀ path pid, (servers.pids path).phase pid ≠ .absent → path = servers.pidPath pid

variable {kill : Int → Bool} {servers servers' : Servers} {pid : Nat}

theorem Owned.unique (h : Owned servers) {p q : Nat} (hp : servers.phase p = .running)
    (hq : servers.phase q = .running)
    (hsame : (servers.environment p).xdgVtnr = (servers.environment q).xdgVtnr) : p = q := by
  have hpath : servers.pidPath p = servers.pidPath q := congrArg pidPathGenerate hsame
  unfold Servers.phase at hp hq
  rw [hpath] at hp
  exact (h.held (servers.pidPath q)).unique (by simp [Locked, hp]) (by simp [Locked, hq])

/-- What a process does to its file leaves each other process as it is. -/
theorem Owned.stepPids {event : PidEvent} (h : Owned servers)
    (hstep : servers.stepPids kill (servers.pidPath pid) event = some servers')
    (hactor : actor event = pid) :
    Owned servers' ∧ ∀ q, q ≠ pid → servers'.phase q = servers.phase q := by
  obtain ⟨pids, hpids, rfl⟩ := Option.map_eq_some_iff.mp hstep
  have hphase (path : String) (q : Nat) (hq : q ≠ pid) :
      (Function.update servers.pids (servers.pidPath pid) pids path).phase q =
        (servers.pids path).phase q := by
    by_cases hpath : path = servers.pidPath pid
    · rw [hpath, Function.update_self, phase_step_of_ne hpids (hactor.symm ▸ hq)]
    · rw [Function.update_of_ne hpath]
  refine ⟨⟨fun path => ?_, fun path q hpresent => ?_⟩, fun q hq => hphase _ q hq⟩
  · by_cases hpath : path = servers.pidPath pid
    · rw [hpath]
      simp only [Function.update_self]
      exact (h.held _).step hpids
    · simp only [Function.update_of_ne hpath]
      exact h.held path
  · by_cases hpath : path = servers.pidPath pid
    · by_cases hq : q = pid
      · exact hq ▸ hpath
      · exact h.own path q (hphase path q hq ▸ hpresent)
    · simp only [Function.update_of_ne hpath] at hpresent
      exact h.own path q hpresent

/-- A process with its environment and no socket, before it makes any call. -/
def given (servers : Servers) (pid : Nat) (environment : Environment) : Servers :=
  { servers with
    environment := Function.update servers.environment pid environment
    fdSocketServer := Function.update servers.fdSocketServer pid none }

theorem pidPath_given (environment : Environment) :
    (given servers pid environment).pidPath pid = pidPathGenerate environment.xdgVtnr := by
  simp only [Servers.pidPath, given, Function.update_self]

theorem phase_given (environment : Environment) {q : Nat} (hq : q ≠ pid) :
    (given servers pid environment).phase q = servers.phase q := by
  simp only [Servers.phase, Servers.pidPath, given, Function.update_of_ne hq]

/-- A process that is not there yet can have any environment. -/
theorem Owned.given (h : Owned servers) (habsent : servers.phase pid = .absent)
    (environment : Environment) : Owned (given servers pid environment) where
  held := h.held
  own := by
    intro path q hpresent
    have hpath := h.own path q hpresent
    have hq : q ≠ pid := by
      rintro rfl
      rw [hpath] at hpresent
      exact hpresent habsent
    rw [hpath]
    simp only [Servers.pidPath, Sockets.given, Function.update_of_ne hq]

/-- A server that listens is reached where its environment says, and no other there. -/
structure Apart (servers : Servers) : Prop extends Owned servers where
  plain : ∀ pid, servers.phase pid ≠ .absent → VtnrPlain (servers.environment pid).xdgVtnr
  fresh : ∀ pid, servers.phase pid ≠ .absent → servers.phase pid ≠ .running →
    servers.fdSocketServer pid = none
  reached : ∀ pid, servers.phase pid = .running →
    servers.fdSocketServer pid = some .listening →
      servers.listener (socketPath (servers.environment pid)) = some pid
  listens : ∀ path pid, servers.listener path = some pid → servers.phase pid = .running ∧
    servers.fdSocketServer pid = some .listening ∧ path = socketPath (servers.environment pid)

theorem apart_init (files : String → Option String) : Apart (serversInit files) where
  held := fun path => held_init (files path)
  own := fun _ _ hpresent => absurd rfl hpresent
  plain := fun _ hpresent => absurd rfl hpresent
  fresh := fun _ hpresent => absurd rfl hpresent
  reached := fun _ hrunning => absurd hrunning (by simp [Servers.phase, serversInit, pidsInit])
  listens := fun _ _ hlistener => absurd hlistener (by simp [serversInit])

theorem Apart.socket_unique (h : Apart servers) {p q : Nat} (hp : servers.phase p = .running)
    (hq : servers.phase q = .running)
    (hsame : socketPath (servers.environment p) = socketPath (servers.environment q)) : p = q :=
  h.unique hp hq (xdgVtnr_of_socketPath (h.plain p (by simp [hp])) (h.plain q (by simp [hq])) hsame)

/-- A process without a socket moves, and the others stay as they are. -/
theorem Apart.move (h : Apart servers) (howned : Owned servers')
    (hlistener : servers'.listener = servers.listener) (hnot : servers.phase pid ≠ .running)
    (hphase : ∀ q, q ≠ pid → servers'.phase q = servers.phase q)
    (henvironment : ∀ q, q ≠ pid → servers'.environment q = servers.environment q)
    (hfd : ∀ q, q ≠ pid → servers'.fdSocketServer q = servers.fdSocketServer q)
    (hplain : VtnrPlain (servers'.environment pid).xdgVtnr)
    (hnone : servers'.fdSocketServer pid = none) : Apart servers' where
  toOwned := howned
  plain := by
    intro q hpresent
    by_cases hq : q = pid
    · exact hq ▸ hplain
    · rw [henvironment q hq]
      exact h.plain q (hphase q hq ▸ hpresent)
  fresh := by
    intro q hpresent hrunning
    by_cases hq : q = pid
    · exact hq ▸ hnone
    · rw [hphase q hq] at hpresent hrunning
      rw [hfd q hq]
      exact h.fresh q hpresent hrunning
  reached := by
    intro q hrunning hlistening
    by_cases hq : q = pid
    · rw [hq, hnone] at hlistening
      exact absurd hlistening (by simp)
    · rw [hphase q hq] at hrunning
      rw [hfd q hq] at hlistening
      rw [hlistener, henvironment q hq]
      exact h.reached q hrunning hlistening
  listens := by
    intro path q hlistens
    rw [hlistener] at hlistens
    have hold := h.listens path q hlistens
    have hq : q ≠ pid := fun heq => hnot (heq ▸ hold.1)
    rw [hphase q hq, henvironment q hq, hfd q hq]
    exact hold

theorem Apart.call {failed : Bool} (h : Apart servers)
    (hstep : servers.stepPids kill (servers.pidPath pid) (.call pid failed) = some servers') :
    Apart servers' := by
  obtain ⟨howned, hphase⟩ := h.stepPids hstep rfl
  obtain ⟨pids, hpids, rfl⟩ := Option.map_eq_some_iff.mp hstep
  -- a process that is not there, or that runs, makes no call for the file
  have hidle (hphase : servers.phase pid = .absent ∨ servers.phase pid = .running) :
      pids = servers.pids (servers.pidPath pid) := by
    rw [← Option.some.inj hpids]
    unfold Servers.phase at hphase
    rcases hphase with hphase | hphase <;> simp only [Pids.call, hphase]
  by_cases habsent : servers.phase pid = .absent
  · rw [hidle (Or.inl habsent), Function.update_eq_self]
    exact h
  by_cases hrunning : servers.phase pid = .running
  · rw [hidle (Or.inr hrunning), Function.update_eq_self]
    exact h
  · exact h.move howned rfl hrunning hphase (fun _ _ => rfl) (fun _ _ => rfl)
      (h.plain pid habsent) (h.fresh pid habsent hrunning)

theorem Apart.start {environment : Environment} (h : Apart servers)
    (hplain : VtnrPlain environment.xdgVtnr) (habsent : servers.phase pid = .absent)
    (hstep : (given servers pid environment).stepPids kill
      (pidPathGenerate environment.xdgVtnr) (.start pid) = some servers') : Apart servers' := by
  rw [← pidPath_given] at hstep
  obtain ⟨howned, hphase⟩ := (h.toOwned.given habsent environment).stepPids hstep rfl
  obtain ⟨pids, -, rfl⟩ := Option.map_eq_some_iff.mp hstep
  have henvironment : (given servers pid environment).environment pid = environment :=
    Function.update_self ..
  exact h.move howned rfl (by simp [habsent])
    (fun q hq => (hphase q hq).trans (phase_given environment hq))
    (fun q hq => Function.update_of_ne hq _ _) (fun q hq => Function.update_of_ne hq _ _)
    (henvironment.symm ▸ hplain) (Function.update_self ..)

/-- What was at the path belonged to no server that runs. -/
theorem Apart.createFds {outcome : SocketOutcome} (h : Apart servers)
    (hstep : servers.step kill (.createFds pid outcome) = some servers') : Apart servers' := by
  obtain ⟨⟨hrunning, hnone⟩, hnext⟩ := Option.ite_none_right_eq_some.mp hstep
  obtain rfl := Option.some.inj hnext
  refine ⟨⟨h.held, h.own⟩, h.plain, ?_, ?_, ?_⟩
  · intro q hpresent hphase
    have hq : q ≠ pid := by
      rintro rfl
      exact hphase hrunning
    exact (Function.update_of_ne hq _ _).trans (h.fresh q hpresent hphase)
  · intro q hphase hlistening
    by_cases hq : q = pid
    · subst hq
      obtain rfl : outcome = .listening := by simpa using hlistening
      exact Function.update_self ..
    · have hold := h.reached q hphase ((Function.update_of_ne hq _ _).symm.trans hlistening)
      have hpath : socketPath (servers.environment q) ≠ socketPath (servers.environment pid) :=
        fun hsame => hq (h.socket_unique hphase hrunning hsame)
      cases outcome with
      | noSocket => exact hold
      | unlinked => exact (Function.update_of_ne hpath _ _).trans hold
      | listening => exact (Function.update_of_ne hpath _ _).trans hold
  · intro path q hlistens
    have hkept (hold : servers.listener path = some q) : servers.phase q = .running ∧
        Function.update servers.fdSocketServer pid (some outcome) q = some .listening ∧
          path = socketPath (servers.environment q) := by
      obtain ⟨hphase, hlistening, hpath⟩ := h.listens path q hold
      have hq : q ≠ pid := by
        rintro rfl
        simp [hnone] at hlistening
      exact ⟨hphase, (Function.update_of_ne hq _ _).trans hlistening, hpath⟩
    by_cases hpath : path = socketPath (servers.environment pid)
    · cases outcome with
      | noSocket => exact hkept hlistens
      | unlinked =>
        simp only [createSocketServer, hpath, Function.update_self] at hlistens
        exact absurd hlistens (by simp)
      | listening =>
        simp only [createSocketServer, hpath, Function.update_self] at hlistens
        obtain rfl := Option.some.inj hlistens
        exact ⟨hrunning, Function.update_self .., hpath⟩
    · cases outcome with
      | noSocket => exact hkept hlistens
      | unlinked => exact hkept ((Function.update_of_ne hpath _ _).symm.trans hlistens)
      | listening => exact hkept ((Function.update_of_ne hpath _ _).symm.trans hlistens)

theorem Apart.leave (h : Apart servers)
    (hstep : Servers.stepPids kill { servers with
      listener := fun path => (servers.listener path).filter (· ≠ pid) } (servers.pidPath pid)
        (.leave pid) = some servers') : Apart servers' := by
  have hclosed : Owned { servers with
      listener := fun path => (servers.listener path).filter (· ≠ pid) } := ⟨h.held, h.own⟩
  obtain ⟨howned, hphase⟩ := hclosed.stepPids hstep rfl
  obtain ⟨pids, hpids, rfl⟩ := Option.map_eq_some_iff.mp hstep
  have hgone : Servers.phase { servers with
      pids := Function.update servers.pids (servers.pidPath pid) pids
      listener := fun path => (servers.listener path).filter (· ≠ pid) } pid = .absent := by
    simp only [Servers.phase, Servers.pidPath, Function.update_self]
    rw [← Option.some.inj hpids]
    exact Function.update_self ..
  refine ⟨howned, ?_, ?_, ?_, ?_⟩
  · intro q hpresent
    have hq : q ≠ pid := fun heq => hpresent (heq ▸ hgone)
    exact h.plain q (hphase q hq ▸ hpresent)
  · intro q hpresent hrunning
    have hq : q ≠ pid := fun heq => hpresent (heq ▸ hgone)
    exact h.fresh q (hphase q hq ▸ hpresent) (hphase q hq ▸ hrunning)
  · intro q hrunning hlistening
    have hq : q ≠ pid := by
      rintro rfl
      exact absurd (hgone.symm.trans hrunning) (by simp)
    have hold := h.reached q (hphase q hq ▸ hrunning) hlistening
    simp only [hold, Option.filter_some]
    simp [hq]
  · intro path q hlistens
    obtain ⟨hold, hne⟩ := Option.filter_eq_some_iff.mp hlistens
    have hq : q ≠ pid := by simpa using hne
    obtain ⟨hrunning, hrest⟩ := h.listens path q hold
    exact ⟨(hphase q hq).trans hrunning, hrest⟩

/-- A server is started for a terminal. -/
def StartsPlain : ServerEvent → Prop
  | .start _ environment => VtnrPlain environment.xdgVtnr
  | _ => True

theorem Apart.step {event : ServerEvent} (h : Apart servers) (hplain : StartsPlain event)
    (hstep : servers.step kill event = some servers') : Apart servers' := by
  cases event with
  | start pid environment =>
    obtain ⟨habsent, hstep⟩ := Option.ite_none_right_eq_some.mp hstep
    exact h.start hplain habsent hstep
  | call pid failed => exact h.call hstep
  | createFds pid outcome => exact h.createFds hstep
  | leave pid => exact h.leave hstep

/-- However servers of terminals are started, stopped and killed next to each other, each that
listens is reached at the path of its environment, and who is reached at the path of an
environment is the one server of that terminal that runs, the one that the file names. -/
theorem server_reached (kill : Int → Bool) (files : String → Option String)
    {events : List ServerEvent} (hplain : ∀ event ∈ events, StartsPlain event) :
    Always (Servers.step kill) (fun servers =>
      (∀ pid, servers.phase pid = .running → servers.fdSocketServer pid = some .listening →
        servers.listener (socketPath (servers.environment pid)) = some pid) ∧
      ∀ environment pid, VtnrPlain environment.xdgVtnr →
        servers.listener (socketPath environment) = some pid →
          servers.phase pid = .running ∧
          (∀ q, servers.phase q = .running →
            (servers.environment q).xdgVtnr = environment.xdgVtnr → q = pid) ∧
          (kill pid = true → pidActiveServer kill
            (servers.pids (pidPathGenerate environment.xdgVtnr)).file = pid))
      (serversInit files) events := by
  have hapart : Always (Servers.step kill) Apart (serversInit files) events :=
    Lib.Run.always_of_along (fun _ _ _ h hstart hstep => h.step hstart hstep) (apart_init files)
      (Lib.Run.along_of_mem hplain _)
  refine hapart.mono fun servers h => ⟨h.reached, fun environment pid hvtnr hlistens => ?_⟩
  obtain ⟨hrunning, -, hpath⟩ := h.listens _ pid hlistens
  have hsame := xdgVtnr_of_socketPath hvtnr (h.plain pid (by simp [hrunning])) hpath
  have hfile : pidPathGenerate environment.xdgVtnr = servers.pidPath pid :=
    congrArg pidPathGenerate hsame
  have hheld := h.held (servers.pidPath pid)
  have hphase : (servers.pids (servers.pidPath pid)).phase pid = .running := hrunning
  refine ⟨hrunning, fun q hq hvtnr' => h.unique hq hrunning (hvtnr'.trans hsame), fun hkill => ?_⟩
  rw [hfile, hheld.named pid hphase]
  exact pidActiveServer_running (hheld.range pid (by simp [hphase])) hkill

def terminalOf (vtnr : String) : Environment :=
  { xdgVtnr := some vtnr, xdgRuntimeDir := some "/run/user/1000" }

def comesToListen (pid : Nat) (environment : Environment) (calls : Nat) : List ServerEvent :=
  .start pid environment :: List.replicate calls (.call pid false) ++ [.createFds pid .listening]

/-- Two terminals, of which one has its server killed and started again. -/
def twoTerminals : List ServerEvent :=
  comesToListen 7 (terminalOf "1") 5 ++ comesToListen 8 (terminalOf "2") 5 ++
    [.leave 7] ++ comesToListen 9 (terminalOf "1") 4

theorem server_reached_twoTerminals :
    ∃ servers, run (Servers.step (fun _ => true)) (serversInit (fun _ => none)) twoTerminals =
        some servers ∧
      servers.listener (socketPath (terminalOf "1")) = some 9 ∧
      servers.listener (socketPath (terminalOf "2")) = some 8 := by
  have hvalue : (run (Servers.step (fun _ => true)) (serversInit (fun _ => none))
      twoTerminals).map (fun servers =>
        (servers.phase 9, servers.fdSocketServer 9, servers.environment 9,
          servers.phase 8, servers.fdSocketServer 8, servers.environment 8)) =
      some (.running, some .listening, terminalOf "1", .running, some .listening,
        terminalOf "2") := by
    decide +kernel
  obtain ⟨servers, hrun, hvalue⟩ := Option.map_eq_some_iff.mp hvalue
  simp only [Prod.mk.injEq] at hvalue
  obtain ⟨hphase, hfd, henvironment, hphase', hfd', henvironment'⟩ := hvalue
  have hplain : ∀ event ∈ twoTerminals, StartsPlain event := by
    have hvtnr (vtnr : String) (h : '/' ∉ vtnr.toList ∧ strlen vtnr ≤ 84) :
        VtnrPlain (terminalOf vtnr).xdgVtnr := fun _ hsome => Option.some.inj hsome ▸ h
    simp [twoTerminals, comesToListen, StartsPlain, hvtnr "1" (by decide), hvtnr "2" (by decide)]
  have hreached := (server_reached (fun _ => true) (fun _ => none) hplain).last hrun
  refine ⟨servers, hrun, ?_, ?_⟩
  · exact henvironment ▸ hreached.1 9 hphase hfd
  · exact henvironment' ▸ hreached.1 8 hphase' hfd'

end WayDisplays.Process.Sockets
