import Unx511.Machine.Run

/-!
Lab 5b, how `sysmonExec.cpp` starts and stops its children. The parent sends SIGUSR1 to
each child, pauses, sends SIGUSR2 to each and waits for all of them. A child,
`intfMonitor.cpp`, waits until `isRunning` is true and works until it is false; its
handler stores true for the one signal and false for the other.

A child is modelled from the first test of its waiting loop on, with the handler
installed; a signal that comes between the two is handled in front of that test. No
signal is blocked by the handler of another one.
-/

namespace Unx511.Lab5b

open Machine

inductive Signal where
  | usr1
  | usr2
  | int
  | tstp
  deriving DecidableEq, Repr

/-- The statement of `main` that a child is at: `testStart` is `while (!isRunning)`, `test` is
`while(isRunning)`, and `body` gathers the statistics and writes them. An exited child is
reaped once the parent has waited for it. -/
inductive Pc where
  | testStart
  | sleepStart
  | test
  | body
  | sleep
  | close
  | exited
  | reaped
  deriving DecidableEq, Repr

/-- `frames` are the handlers the child is in, the innermost one first; `handled` is a
history. -/
structure Child where
  pc : Pc
  isRunning : Bool
  pending : Signal → Bool
  frames : List Signal
  handled : Signal → Bool

/-- A signal is delivered, the innermost handler runs to its end, or `main` goes on. -/
inductive ChildAction where
  | deliver (sig : Signal)
  | handle
  | main
  deriving DecidableEq, Repr

/-- `isRunning` after `signalHandler`. -/
def signalHandler (isRunning : Bool) : Signal → Bool
  | .usr1 => true
  | .usr2 => false
  | .int | .tstp => isRunning

namespace Pc

/-- In the waiting loop. -/
def waiting : Pc → Bool
  | .testStart | .sleepStart => true
  | _ => false

def gone : Pc → Bool
  | .exited | .reaped => true
  | _ => false

theorem not_waiting_of_closed {pc : Pc} (h : pc = .close ∨ pc.gone = true) :
    ¬ pc.waiting = true := by
  cases pc <;> simp_all [gone, waiting]

end Pc

namespace Child

def initial : Child where
  pc := .testStart
  isRunning := false
  pending := fun _ => false
  frames := []
  handled := fun _ => false

/-- `kill`, to this child. -/
def kill (c : Child) (sig : Signal) : Child :=
  { c with pending := Function.update c.pending sig true }

/-- The next statement of `main`. -/
def mainStep (c : Child) : Option Child :=
  match c.pc with
  | .testStart => some { c with pc := if c.isRunning then .test else .sleepStart }
  | .sleepStart => some { c with pc := .testStart }
  | .test => some { c with pc := if c.isRunning then .body else .close }
  | .body => some { c with pc := .sleep }
  | .sleep => some { c with pc := .test }
  | .close => some { c with pc := .exited }
  | .exited | .reaped => none

def step (c : Child) : ChildAction → Option Child
  | .deliver sig =>
      if c.pending sig = true ∧ sig ∉ c.frames ∧ c.pc.gone = false then
        some { c with
          pending := Function.update c.pending sig false
          frames := sig :: c.frames }
      else none
  | .handle =>
      match c.frames with
      | [] => none
      | sig :: outer =>
          some { c with
            isRunning := signalHandler c.isRunning sig
            frames := outer
            handled := Function.update c.handled sig true }
  | .main => if c.frames = [] then c.mainStep else none

/-- The child goes on by itself, without a signal. -/
def advance (c : Child) : Child :=
  (c.step (if c.frames = [] then .main else .handle)).getD c

/-- Left to itself the child comes to its end. -/
def Exits (c : Child) : Prop := ∃ k, (advance^[k] c).pc.gone = true

def bothHandled (c : Child) : Bool := c.handled .usr1 && c.handled .usr2

/-- Nobody will ever wake the child up. -/
def Stuck (c : Child) : Prop :=
  c.bothHandled = true ∧ c.pc.waiting = true ∧ c.isRunning = false

/-- The handler of SIGUSR2 stores false when the child is out of its waiting loop, or
before SIGUSR1 is handled; the one of SIGUSR1 stores true before SIGUSR2 is handled. -/
def Timely (c : Child) : ChildAction → Prop
  | .deliver _ | .main => True
  | .handle =>
      match c.frames with
      | .usr1 :: _ => c.handled .usr2 = false
      | .usr2 :: _ => c.handled .usr1 = true → c.pc.waiting = false
      | _ => True

end Child

/-- `start` and `stop` send SIGUSR1 and SIGUSR2 to child `i`, with `sleep(30)` between. -/
inductive ParentPc where
  | start (i : Nat)
  | pause
  | stop (i : Nat)
  | wait
  | finished
  deriving DecidableEq, Repr

/-- `NUM` is the number of children. -/
structure State (num : Nat) where
  parent : ParentPc
  child : Fin num → Child

/-- A statement of the parent, the end of its `wait` by a child, a ctrl-C or ctrl-Z for
a child, or something that a child does. -/
inductive Action (num : Nat) where
  | parent
  | reap (i : Fin num)
  | ctrlC (i : Fin num)
  | ctrlZ (i : Fin num)
  | child (i : Fin num) (a : ChildAction)
  deriving DecidableEq, Repr

namespace State

variable {num : Nat}

def initial : State num where
  parent := .start 0
  child := fun _ => .initial

def setChild (s : State num) (i : Fin num) (c : Child) : State num :=
  { s with child := Function.update s.child i c }

def kill (s : State num) (i : Fin num) (sig : Signal) : State num :=
  s.setChild i ((s.child i).kill sig)

def parentStep (s : State num) : Option (State num) :=
  match s.parent with
  | .start i =>
      if h : i < num then some { s.kill ⟨i, h⟩ .usr1 with parent := .start (i + 1) }
      else some { s with parent := .pause }
  | .pause => some { s with parent := .stop 0 }
  | .stop i =>
      if h : i < num then some { s.kill ⟨i, h⟩ .usr2 with parent := .stop (i + 1) }
      else some { s with parent := .wait }
  | .wait =>
      -- ECHILD ends the loop
      if ∀ i, (s.child i).pc = .reaped then some { s with parent := .finished } else none
  | .finished => none

def step (s : State num) : Action num → Option (State num)
  | .parent => s.parentStep
  | .reap i =>
      if s.parent = .wait ∧ (s.child i).pc = .exited then
        some (s.setChild i { s.child i with pc := .reaped })
      else none
  | .ctrlC i => some (s.kill i .int)
  | .ctrlZ i => some (s.kill i .tstp)
  | .child i a => ((s.child i).step a).map (s.setChild i)

/-- No child is stuck, and every child that has handled both signals answers the wait of
its parent. -/
structure Lawful (s : State num) : Prop where
  awake : ∀ i, ¬ (s.child i).Stuck
  answers : ∀ i, (s.child i).bothHandled = true → (s.child i).Exits

/-- What the child does is timely. -/
def Timely (s : State num) : Action num → Prop
  | .child i a => (s.child i).Timely a
  | .parent | .reap _ | .ctrlC _ | .ctrlZ _ => True

end State

namespace Child

variable {c d : Child} {a : ChildAction} {sent : Signal → Bool} {sig : Signal}

/-- What is known of a child when its parent has sent it the signals `sent`. Each of
SIGUSR1 and SIGUSR2 is sent once, and is then pending, being handled or handled. -/
structure Invariant (sent : Signal → Bool) (c : Child) : Prop where
  tally : ∀ sig, sig = .usr1 ∨ sig = .usr2 →
    (c.pending sig).toNat + c.frames.count sig + (c.handled sig).toNat = (sent sig).toNat
  unstarted : c.handled .usr1 = false → c.isRunning = false ∧ c.pc.waiting = true
  running : c.handled .usr1 = true → c.handled .usr2 = false → c.isRunning = true
  closed : c.pc = .close ∨ c.pc.gone = true → c.handled .usr2 = true ∧ c.isRunning = false

theorem Invariant.initial : Invariant (fun _ => false) Child.initial where
  tally := fun _ _ => rfl
  unstarted := fun _ => ⟨rfl, rfl⟩
  running := fun hstart => nomatch hstart
  closed := fun hclosed => by rcases hclosed with h | h <;> cases h

/-- A signal that is handled is no longer in a handler, nor pending. -/
theorem Invariant.not_mem_of_handled (h : Invariant sent c) (hsig : sig = .usr1 ∨ sig = .usr2)
    (hhandled : c.handled sig = true) : sig ∉ c.frames ∧ c.pending sig = false := by
  have htally := h.tally sig hsig
  have hsent := Bool.toNat_le (sent sig)
  rw [hhandled, Bool.toNat_true] at htally
  constructor
  · apply List.count_eq_zero.mp
    omega
  · cases hpending : c.pending sig with
    | false => rfl
    | true =>
        rw [hpending, Bool.toNat_true] at htally
        omega

theorem Invariant.unhandled (h : Invariant sent c) (hsig : sig = .usr1 ∨ sig = .usr2)
    {outer : List Signal} (hframes : c.frames = sig :: outer) : c.handled sig = false := by
  by_contra hnot
  have hmem := (h.not_mem_of_handled hsig (by simpa using hnot)).1
  rw [hframes] at hmem
  exact hmem List.mem_cons_self

theorem Invariant.deliver (h : Invariant sent c) (hpending : c.pending sig = true) :
    Invariant sent { c with
      pending := Function.update c.pending sig false
      frames := sig :: c.frames } where
  tally := by
    intro other hother
    have htally := h.tally other hother
    rcases eq_or_ne other sig with rfl | hne
    · rw [hpending, Bool.toNat_true] at htally
      simp only [Function.update_self, Bool.toNat_false, List.count_cons_self]
      omega
    · simpa [hne, List.count_cons_of_ne hne.symm] using htally
  unstarted := h.unstarted
  running := h.running
  closed := h.closed

/-- The account when the innermost handler has run. -/
theorem Invariant.tally_handle (h : Invariant sent c) {outer : List Signal}
    (hframes : c.frames = sig :: outer) (other : Signal) (hother : other = .usr1 ∨ other = .usr2) :
    (c.pending other).toNat + outer.count other +
      (Function.update c.handled sig true other).toNat = (sent other).toNat := by
  have htally := h.tally other hother
  rw [hframes] at htally
  rcases eq_or_ne other sig with rfl | hne
  · rw [h.unhandled hother hframes, List.count_cons_self, Bool.toNat_false] at htally
    rw [Function.update_self, Bool.toNat_true]
    omega
  · rw [List.count_cons_of_ne hne.symm] at htally
    rw [Function.update_of_ne hne]
    exact htally

theorem Invariant.handle (h : Invariant sent c) {outer : List Signal}
    (hframes : c.frames = sig :: outer) :
    Invariant sent { c with
      isRunning := signalHandler c.isRunning sig
      frames := outer
      handled := Function.update c.handled sig true } := by
  refine ⟨h.tally_handle hframes, ?_, ?_, ?_⟩
  · cases sig with
    | usr1 => simp
    | usr2 => exact fun hnot => ⟨rfl, (h.unstarted (by simpa using hnot)).2⟩
    | int | tstp => simpa [signalHandler] using h.unstarted
  · cases sig with
    | usr1 => exact fun _ _ => rfl
    | usr2 => simp
    | int | tstp => simpa [signalHandler] using h.running
  · cases sig with
    | usr1 =>
        -- the child is still in its waiting loop
        have hwaiting := (h.unstarted (h.unhandled (.inl rfl) hframes)).2
        exact fun hclosed => absurd hwaiting (Pc.not_waiting_of_closed hclosed)
    | usr2 => exact fun _ => ⟨by simp, rfl⟩
    | int | tstp => simpa [signalHandler] using h.closed

/-- A statement of `main`, with the value of `isRunning` that a test reads. -/
inductive Moves : Bool → Pc → Pc → Prop where
  | started : Moves true .testStart .test
  | idle : Moves false .testStart .sleepStart
  | wakes (isRunning : Bool) : Moves isRunning .sleepStart .testStart
  | works : Moves true .test .body
  | stops : Moves false .test .close
  | writes (isRunning : Bool) : Moves isRunning .body .sleep
  | slept (isRunning : Bool) : Moves isRunning .sleep .test
  | exits (isRunning : Bool) : Moves isRunning .close .exited

theorem mainStep_cases (h : c.mainStep = some d) :
    ∃ pc, Moves c.isRunning c.pc pc ∧ d = { c with pc := pc } := by
  unfold mainStep at h
  cases hpc : c.pc with
  | testStart | test =>
      rw [hpc] at h
      cases h
      refine ⟨_, ?_, rfl⟩
      cases c.isRunning <;> constructor
  | sleepStart | body | sleep | close =>
      rw [hpc] at h
      cases h
      exact ⟨_, by constructor, rfl⟩
  | exited | reaped =>
      rw [hpc] at h
      cases h

theorem step_deliver (h : c.step (.deliver sig) = some d) :
    c.pending sig = true ∧ sig ∉ c.frames ∧ c.pc.gone = false ∧
      d = { c with pending := Function.update c.pending sig false, frames := sig :: c.frames } := by
  change (if _ then some _ else none) = some d at h
  obtain ⟨⟨hpending, hframes, hgone⟩, heq⟩ := Option.ite_none_right_eq_some.mp h
  exact ⟨hpending, hframes, hgone, (Option.some.inj heq).symm⟩

theorem step_handle (h : c.step .handle = some d) :
    ∃ sig outer, c.frames = sig :: outer ∧
      d = { c with
        isRunning := signalHandler c.isRunning sig
        frames := outer
        handled := Function.update c.handled sig true } := by
  change (match c.frames with | [] => none | sig :: outer => some _) = some d at h
  split at h
  case h_1 => cases h
  case h_2 sig outer hframes =>
    cases h
    exact ⟨sig, outer, hframes, rfl⟩

theorem step_main (h : c.step .main = some d) :
    c.frames = [] ∧ ∃ pc, Moves c.isRunning c.pc pc ∧ d = { c with pc := pc } := by
  change (if _ then _ else none) = some d at h
  obtain ⟨hframes, hmain⟩ := Option.ite_none_right_eq_some.mp h
  exact ⟨hframes, mainStep_cases hmain⟩

theorem Moves.waiting {pc pc' : Pc} (h : Moves false pc pc') (hpc : pc.waiting = true) :
    pc'.waiting = true := by
  cases h <;> first | rfl | cases hpc

/-- Once out of the waiting loop, out of it for good. -/
theorem Moves.out {isRunning : Bool} {pc pc' : Pc} (h : Moves isRunning pc pc')
    (hpc : pc.waiting = false) : pc'.waiting = false := by
  cases h <;> first | rfl | cases hpc

theorem Moves.closed {isRunning : Bool} {pc pc' : Pc} (h : Moves isRunning pc pc')
    (hpc : pc' = .close ∨ pc'.gone = true) : isRunning = false ∧ pc = .test ∨ pc = .close := by
  cases h <;> simp_all [Pc.gone]

theorem Invariant.main (h : Invariant sent c) {pc : Pc} (hmoves : Moves c.isRunning c.pc pc) :
    Invariant sent { c with pc := pc } := by
  refine ⟨h.tally, fun hnot => ?_, h.running, fun hpc => ?_⟩
  · obtain ⟨hidle, hwaiting⟩ := h.unstarted hnot
    rw [hidle] at hmoves
    exact ⟨hidle, hmoves.waiting hwaiting⟩
  · rcases hmoves.closed hpc with ⟨hidle, htest⟩ | hclose
    · -- the child was started, so it is SIGUSR2 that has stopped it
      have hstarted : c.handled .usr1 = true := by
        by_contra hnot
        have hwaiting := (h.unstarted (by simpa using hnot)).2
        rw [htest] at hwaiting
        cases hwaiting
      refine ⟨?_, hidle⟩
      by_contra hnot
      have hrunning := h.running hstarted (by simpa using hnot)
      rw [hidle] at hrunning
      cases hrunning
    · exact h.closed (.inl hclose)

theorem Invariant.step (h : Invariant sent c) (hstep : c.step a = some d) : Invariant sent d := by
  cases a with
  | deliver sig =>
      obtain ⟨hpending, _, _, rfl⟩ := step_deliver hstep
      exact h.deliver hpending
  | handle =>
      obtain ⟨sig, outer, hframes, rfl⟩ := step_handle hstep
      exact h.handle hframes
  | main =>
      obtain ⟨_, pc, hmoves, rfl⟩ := step_main hstep
      exact h.main hmoves

/-- A signal that the parent had not sent before. -/
theorem Invariant.kill (h : Invariant sent c) (hsent : sent sig = false) :
    Invariant (Function.update sent sig true) (c.kill sig) where
  tally := by
    intro other hother
    have htally := h.tally other hother
    change (Function.update c.pending sig true other).toNat + c.frames.count other +
      (c.handled other).toNat = _
    rcases eq_or_ne other sig with rfl | hne
    · rw [hsent, Bool.toNat_false] at htally
      rw [Function.update_self, Function.update_self, Bool.toNat_true]
      omega
    · simpa [hne] using htally
  unstarted := h.unstarted
  running := h.running
  closed := h.closed

/-- A signal that the handler discards. -/
theorem Invariant.discarded (h : Invariant sent c) (hsig : sig = .int ∨ sig = .tstp) :
    Invariant sent (c.kill sig) where
  tally := by
    intro other hother
    have hne : other ≠ sig := by
      rintro rfl
      rcases hother with rfl | rfl <;> simp at hsig
    change (Function.update c.pending sig true other).toNat + c.frames.count other +
      (c.handled other).toNat = _
    rw [Function.update_of_ne hne]
    exact h.tally other hother
  unstarted := h.unstarted
  running := h.running
  closed := h.closed

theorem Invariant.reap (h : Invariant sent c) (hpc : c.pc = .exited) :
    Invariant sent { c with pc := .reaped } where
  tally := h.tally
  unstarted := by
    intro hnot
    have hwaiting := (h.unstarted hnot).2
    rw [hpc] at hwaiting
    cases hwaiting
  running := h.running
  closed := fun _ => h.closed (.inr (by rw [hpc]; rfl))

/-- Out of the waiting loop, and told to stop. -/
def Stopped (c : Child) : Prop := c.isRunning = false ∧ c.pc.waiting = false

/-- SIGUSR1 and SIGUSR2 are in no handler. -/
def Quiet (c : Child) : Prop := .usr1 ∉ c.frames ∧ .usr2 ∉ c.frames

theorem Invariant.quiet (h : Invariant sent c) (hboth : c.bothHandled = true) : c.Quiet := by
  obtain ⟨hstart, hstop⟩ := Bool.and_eq_true_iff.mp hboth
  exact ⟨(h.not_mem_of_handled (.inl rfl) hstart).1, (h.not_mem_of_handled (.inr rfl) hstop).1⟩

/-- By itself a child leaves a handler or takes a step of `main`. -/
theorem advance_step (hgone : c.pc.gone = false) :
    ∃ a, (a = .handle ∨ a = .main) ∧ c.step a = some c.advance := by
  unfold advance
  cases hframes : c.frames with
  | nil =>
      refine ⟨.main, .inr rfl, ?_⟩
      have hmain : c.step .main = c.mainStep := if_pos hframes
      rw [if_pos rfl, hmain]
      unfold mainStep
      cases hpc : c.pc with
      | exited | reaped =>
          rw [hpc] at hgone
          cases hgone
      | _ => rfl
  | cons sig outer =>
      refine ⟨.handle, .inl rfl, ?_⟩
      rw [if_neg (by simp)]
      simp [step, hframes]

theorem signalHandler_of_discarded {isRunning : Bool} (hstart : sig ≠ .usr1) (hstop : sig ≠ .usr2) :
    signalHandler isRunning sig = isRunning := by
  cases sig with
  | usr1 => exact absurd rfl hstart
  | usr2 => exact absurd rfl hstop
  | int | tstp => rfl

/-- A handler that is left, while SIGUSR1 and SIGUSR2 are in none. -/
theorem Quiet.handle (h : c.Quiet) (hstep : c.step .handle = some d) :
    d.Quiet ∧ d.isRunning = c.isRunning ∧ d.pc = c.pc ∧
      d.frames.length + 1 = c.frames.length := by
  obtain ⟨sig, outer, hframes, rfl⟩ := step_handle hstep
  unfold Quiet at *
  rw [hframes, List.mem_cons, List.mem_cons, not_or, not_or] at h
  obtain ⟨⟨hstart, hstart'⟩, hstop, hstop'⟩ := h
  exact ⟨⟨hstart', hstop'⟩, signalHandler_of_discarded (Ne.symm hstart) (Ne.symm hstop), rfl,
    by rw [hframes, List.length_cons]⟩

/-- The statements of `main` that are left for a child that is told to stop. -/
def rank : Pc → Nat
  | .body => 4
  | .sleep => 3
  | .test => 2
  | .close => 1
  | .testStart | .sleepStart | .exited | .reaped => 0

theorem Moves.rank {pc pc' : Pc} (h : Moves false pc pc') (hpc : pc.waiting = false) :
    rank pc' + 1 = rank pc := by
  cases h <;> first | rfl | cases hpc

theorem exits_of_stopped (hquiet : c.Quiet) (hstopped : c.Stopped) : c.Exits := by
  obtain ⟨bound, hbound⟩ : ∃ bound, c.frames.length + rank c.pc = bound := ⟨_, rfl⟩
  induction bound using Nat.strong_induction_on generalizing c with
  | _ bound ih =>
      cases hgone : c.pc.gone with
      | true => exact ⟨0, hgone⟩
      | false =>
          obtain ⟨hidle, hout⟩ := hstopped
          obtain ⟨a, ha, hstep⟩ := advance_step hgone
          have hexits : c.advance.Exits := by
            rcases ha with rfl | rfl
            · obtain ⟨hquiet', hrunning, hpc, hlength⟩ := hquiet.handle hstep
              refine ih _ ?_ hquiet' ⟨hrunning.trans hidle, by rw [hpc]; exact hout⟩ rfl
              rw [hpc]
              omega
            · obtain ⟨_, pc, hmoves, heq⟩ := step_main hstep
              rw [heq]
              have hrank := (hidle ▸ hmoves).rank hout
              refine ih _ ?_ hquiet ⟨hidle, hmoves.out hout⟩ rfl
              change c.frames.length + Child.rank pc < bound
              omega
          obtain ⟨k, hk⟩ := hexits
          exact ⟨k + 1, hk⟩

/-- Told to go on, or asleep in the waiting loop. -/
def Lost (c : Child) : Prop :=
  c.Quiet ∧ (c.isRunning = true ∨ c.pc.waiting = true) ∧ ¬ (c.pc = .close ∨ c.pc.gone = true)

theorem Lost.advance (h : c.Lost) : c.advance.Lost := by
  obtain ⟨hquiet, hwhich, hopen⟩ := h
  have hgone : c.pc.gone = false := by
    by_contra hnot
    exact hopen (.inr (by simpa using hnot))
  obtain ⟨a, ha, hstep⟩ := advance_step hgone
  rcases ha with rfl | rfl
  · obtain ⟨hquiet', hrunning, hpc, _⟩ := hquiet.handle hstep
    unfold Lost
    rw [hrunning, hpc]
    exact ⟨hquiet', hwhich, hopen⟩
  · obtain ⟨_, pc, hmoves, heq⟩ := step_main hstep
    rw [heq]
    refine ⟨hquiet, ?_, fun hclosed => ?_⟩
    · rcases hwhich with hrunning | hwaiting
      · exact .inl hrunning
      · cases hrunning : c.isRunning with
        | true => exact .inl rfl
        | false => exact .inr ((hrunning ▸ hmoves).waiting hwaiting)
    · rcases hmoves.closed hclosed with ⟨hidle, htest⟩ | hclose
      · rw [hidle, htest] at hwhich
        rcases hwhich with h | h <;> cases h
      · exact hopen (.inl hclose)

theorem Lost.not_exits (h : c.Lost) : ¬ c.Exits := by
  rintro ⟨k, hk⟩
  induction k generalizing c with
  | zero => exact h.2.2 (.inr hk)
  | succ k ih => exact ih h.advance hk

/-- A child that has handled both signals comes to its end exactly when it is out of
the waiting loop and was told to stop last. -/
theorem Invariant.exits_iff (h : Invariant sent c) (hboth : c.bothHandled = true) :
    c.Exits ↔ c.Stopped := by
  have hquiet := h.quiet hboth
  refine ⟨fun hexits => ?_, exits_of_stopped hquiet⟩
  by_contra hnot
  refine Lost.not_exits ⟨hquiet, ?_, fun hclosed => hnot ?_⟩ hexits
  · cases hrunning : c.isRunning with
    | true => exact .inl rfl
    | false =>
        right
        by_contra hout
        exact hnot ⟨hrunning, by simpa using hout⟩
  · exact ⟨(h.closed hclosed).2, by simpa using Pc.not_waiting_of_closed hclosed⟩

/-- What the law asks of one child. -/
def Lawful (c : Child) : Prop := c.bothHandled = true → c.Stopped

/-- A step of a child keeps the law exactly when it is timely. -/
theorem lawful_iff_timely (hlaw : c.Lawful)
    (hstep : c.step a = some d) : d.Lawful ↔ c.Timely a := by
  cases a with
  | deliver sig =>
      obtain ⟨_, _, _, rfl⟩ := step_deliver hstep
      exact iff_of_true hlaw trivial
  | main =>
      obtain ⟨_, pc, hmoves, rfl⟩ := step_main hstep
      refine iff_of_true (fun hboth => ?_) trivial
      obtain ⟨hidle, hout⟩ := hlaw hboth
      exact ⟨hidle, hmoves.out hout⟩
  | handle =>
      obtain ⟨sig, outer, hframes, rfl⟩ := step_handle hstep
      unfold Timely
      rw [hframes]
      cases sig with
      | usr1 =>
          change (_ → true = false ∧ _) ↔ c.handled .usr2 = false
          simp [bothHandled]
      | usr2 =>
          change (_ → false = false ∧ _) ↔ (c.handled .usr1 = true → c.pc.waiting = false)
          simp [bothHandled]
      | int | tstp =>
          refine iff_of_true ?_ trivial
          simpa [Lawful, bothHandled, Stopped, signalHandler] using hlaw

end Child

/-- The signals that the parent has sent to child `i`. -/
def ParentPc.sent {num : Nat} (i : Fin num) : ParentPc → Signal → Bool
  | .start j, .usr1 => decide (i.val < j)
  | .pause, .usr1 | .stop _, .usr1 | .wait, .usr1 | .finished, .usr1 => true
  | .stop j, .usr2 => decide (i.val < j)
  | .wait, .usr2 | .finished, .usr2 => true
  | _, _ => false

namespace State

variable {num : Nat} {s t : State num}

def Invariant (s : State num) : Prop := ∀ i, (s.child i).Invariant (s.parent.sent i)

theorem forall_setChild {Q : Fin num → Child → Prop} {i : Fin num} {c : Child}
    (h : ∀ j, Q j (s.child j)) (hc : Q i c) (j : Fin num) : Q j ((s.setChild i c).child j) := by
  unfold setChild
  rcases eq_or_ne j i with rfl | hne
  · simpa using hc
  · simpa [hne] using h j

theorem Invariant.initial : Invariant (State.initial : State num) := by
  intro i
  have hnone : ParentPc.sent i (.start 0) = fun _ => false := by
    funext sig
    cases sig <;> simp [ParentPc.sent]
  change Child.Invariant (ParentPc.sent i (.start 0)) Child.initial
  rw [hnone]
  exact Child.Invariant.initial

/-- The parent sends `sig` to child `i`, for the first time, and goes on. -/
theorem Invariant.kill (h : Invariant s) {i : Fin num} {sig : Signal} {pc : ParentPc}
    (hfirst : s.parent.sent i sig = false)
    (hsent : ∀ j other, pc.sent j other = (s.parent.sent j other || j == i && other == sig)) :
    Invariant { s.kill i sig with parent := pc } := by
  intro j
  change Child.Invariant (pc.sent j) (Function.update s.child i ((s.child i).kill sig) j)
  rcases eq_or_ne j i with rfl | hne
  · have hnow : pc.sent j = Function.update (s.parent.sent j) sig true := by
      funext other
      rw [hsent]
      rcases eq_or_ne other sig with rfl | hother
      · simp
      · simp [hother]
    rw [Function.update_self, hnow]
    exact (h j).kill hfirst
  · have hsame : pc.sent j = s.parent.sent j := by
      funext other
      simp [hsent, hne]
    rw [Function.update_of_ne hne, hsame]
    exact h j

theorem Invariant.goto (h : Invariant s) {pc : ParentPc}
    (hsent : ∀ i : Fin num, pc.sent i = s.parent.sent i) : Invariant { s with parent := pc } := by
  intro i
  change Child.Invariant (pc.sent i) (s.child i)
  rw [hsent i]
  exact h i

/-- The loops that send a signal go over the children in order. -/
theorem sent_next {i : Nat} (hi : i < num) (j : Fin num) (other : Signal) :
    (ParentPc.start (i + 1)).sent j other =
        ((ParentPc.start i).sent j other || j == ⟨i, hi⟩ && other == .usr1) ∧
      (ParentPc.stop (i + 1)).sent j other =
        ((ParentPc.stop i).sent j other || j == ⟨i, hi⟩ && other == .usr2) := by
  have hstep : decide (j.val < i + 1) = (decide (j.val < i) || j == ⟨i, hi⟩) := by
    rw [Bool.eq_iff_iff]
    simp only [decide_eq_true_eq, Bool.or_eq_true, beq_iff_eq, Fin.ext_iff]
    omega
  simp only [Nat.lt_succ_iff] at hstep
  cases other <;> simp [ParentPc.sent, hstep]

theorem sent_done {i : Nat} (hi : ¬ i < num) (j : Fin num) :
    ParentPc.pause.sent j = (ParentPc.start i).sent j ∧
      ParentPc.wait.sent j = (ParentPc.stop i).sent j := by
  have hlast : decide (j.val < i) = true := by
    rw [decide_eq_true_eq]
    omega
  constructor
  all_goals
    funext other
    cases other <;> simp only [ParentPc.sent, hlast]

theorem sent_pause (j : Fin num) : (ParentPc.stop 0).sent j = ParentPc.pause.sent j := by
  funext other
  cases other <;> simp [ParentPc.sent]

theorem Invariant.parentStep (h : Invariant s) (hstep : s.parentStep = some t) : Invariant t := by
  unfold State.parentStep at hstep
  cases hparent : s.parent with
  | start i =>
      rw [hparent] at hstep
      by_cases hi : i < num
      · simp only [hi, dif_pos] at hstep
        cases hstep
        apply h.kill
        · rw [hparent]
          simp [ParentPc.sent]
        · intro j other
          rw [hparent]
          exact (sent_next hi j other).1
      · simp only [hi, dif_neg, not_false_eq_true] at hstep
        cases hstep
        apply h.goto
        intro j
        rw [hparent]
        exact (sent_done hi j).1
  | pause =>
      rw [hparent] at hstep
      cases hstep
      apply h.goto
      intro j
      rw [hparent]
      exact sent_pause j
  | stop i =>
      rw [hparent] at hstep
      by_cases hi : i < num
      · simp only [hi, dif_pos] at hstep
        cases hstep
        apply h.kill
        · rw [hparent]
          simp [ParentPc.sent]
        · intro j other
          rw [hparent]
          exact (sent_next hi j other).2
      · simp only [hi, dif_neg, not_false_eq_true] at hstep
        cases hstep
        apply h.goto
        intro j
        rw [hparent]
        exact (sent_done hi j).2
  | wait =>
      rw [hparent] at hstep
      obtain ⟨_, heq⟩ := Option.ite_none_right_eq_some.mp hstep
      cases heq
      apply h.goto
      intro j
      rw [hparent]
      funext other
      cases other <;> rfl
  | finished =>
      rw [hparent] at hstep
      cases hstep

theorem Invariant.step (h : Invariant s) {a : Action num} (hstep : s.step a = some t) :
    Invariant t := by
  cases a with
  | parent => exact h.parentStep hstep
  | reap i =>
      obtain ⟨⟨_, hpc⟩, heq⟩ := Option.ite_none_right_eq_some.mp hstep
      cases heq
      exact forall_setChild (Q := fun j c => c.Invariant (s.parent.sent j)) h ((h i).reap hpc)
  | ctrlC i =>
      cases hstep
      exact forall_setChild (Q := fun j c => c.Invariant (s.parent.sent j)) h
        ((h i).discarded (.inl rfl))
  | ctrlZ i =>
      cases hstep
      exact forall_setChild (Q := fun j c => c.Invariant (s.parent.sent j)) h
        ((h i).discarded (.inr rfl))
  | child i a =>
      obtain ⟨c, hchild, rfl⟩ := Option.map_eq_some_iff.mp hstep
      exact forall_setChild (Q := fun j c => c.Invariant (s.parent.sent j)) h ((h i).step hchild)

/-- A child that is not stuck and answers is out of its loop and was told to stop last. -/
theorem Invariant.lawful_iff (h : Invariant s) : s.Lawful ↔ ∀ i, (s.child i).Lawful := by
  constructor
  · exact fun hlaw i hboth => ((h i).exits_iff hboth).mp (hlaw.answers i hboth)
  · refine fun hlaw =>
      ⟨fun i hstuck => ?_, fun i hboth => ((h i).exits_iff hboth).mpr (hlaw i hboth)⟩
    obtain ⟨hboth, hwaiting, _⟩ := hstuck
    rw [(hlaw i hboth).2] at hwaiting
    cases hwaiting

theorem forall_kill {Q : Child → Prop} (h : ∀ j, Q (s.child j)) {i : Fin num} {sig : Signal}
    (hkill : Q ((s.child i).kill sig)) : ∀ j, Q ((s.kill i sig).child j) :=
  forall_setChild (Q := fun _ c => Q c) h hkill

/-- What the parent does leaves the children where they are. -/
theorem parentStep_lawful (hlaw : ∀ j, (s.child j).Lawful) (hstep : s.parentStep = some t) :
    ∀ j, (t.child j).Lawful := by
  unfold State.parentStep at hstep
  cases hparent : s.parent with
  | start i | stop i =>
      rw [hparent] at hstep
      by_cases hi : i < num
      · simp only [hi, dif_pos] at hstep
        cases hstep
        exact forall_kill hlaw (hlaw ⟨i, hi⟩)
      · simp only [hi, dif_neg, not_false_eq_true] at hstep
        cases hstep
        exact hlaw
  | pause =>
      rw [hparent] at hstep
      cases hstep
      exact hlaw
  | wait =>
      rw [hparent] at hstep
      obtain ⟨_, heq⟩ := Option.ite_none_right_eq_some.mp hstep
      cases heq
      exact hlaw
  | finished =>
      rw [hparent] at hstep
      cases hstep

/-- A step keeps the law of every child exactly when it is timely. -/
theorem lawful_iff_timely (hlaw : ∀ j, (s.child j).Lawful) {a : Action num}
    (hstep : s.step a = some t) : (∀ j, (t.child j).Lawful) ↔ s.Timely a := by
  cases a with
  | parent => exact iff_of_true (parentStep_lawful hlaw hstep) trivial
  | reap i =>
      obtain ⟨⟨_, hpc⟩, heq⟩ := Option.ite_none_right_eq_some.mp hstep
      cases heq
      refine iff_of_true (forall_setChild (Q := fun _ c => c.Lawful) hlaw fun hboth => ?_) trivial
      exact ⟨(hlaw i hboth).1, rfl⟩
  | ctrlC i | ctrlZ i =>
      cases hstep
      exact iff_of_true (forall_kill hlaw (hlaw i)) trivial
  | child i a =>
      obtain ⟨c, hchild, rfl⟩ := Option.map_eq_some_iff.mp hstep
      change _ ↔ (s.child i).Timely a
      rw [← Child.lawful_iff_timely (hlaw i) hchild]
      constructor
      · intro hall
        have hi := hall i
        unfold setChild at hi
        simpa using hi
      · exact forall_setChild (Q := fun _ c => c.Lawful) hlaw

end State

/-- In every run, with any number of children, ctrl-C and ctrl-Z, no child is ever stuck
and all answer exactly as long as the handlers store in time. -/
theorem startStop_iff (num : Nat) (actions : List (Action num)) :
    StatesMeet State.step State.Lawful State.initial actions ↔
      StepsMeet State.step State.Timely State.initial actions := by
  refine statesMeet_iff_stepsMeet (I := State.Invariant) (fun _ _ _ h hstep => h.step hstep) ?_
    State.Invariant.initial ?_ actions
  · intro s a t h hlaw hstep
    rw [(h.step hstep).lawful_iff]
    exact State.lawful_iff_timely (h.lawful_iff.mp hlaw) hstep
  · exact State.Invariant.initial.lawful_iff.mpr fun _ hboth => nomatch hboth

/-- The first child sleeps while both signals are sent, and gets them in order. -/
def oversleeps : List (Action 2) :=
  [.child 0 .main, .parent, .parent, .parent, .parent, .parent, .child 0 (.deliver .usr1),
    .child 0 .handle, .child 0 (.deliver .usr2), .child 0 .handle]

/-- It stays in its waiting loop, and the parent waits for it in vain. -/
theorem oversleeps_stuck :
    ∃ t, run State.step (State.initial : State 2) oversleeps = some t ∧ (t.child 0).Stuck ∧
      ¬ (t.child 0).Exits := by
  refine ⟨_, rfl, ?_, Child.Lost.not_exits ?_⟩
  · exact ⟨by decide, by decide, by decide⟩
  · exact ⟨⟨by decide, by decide⟩, .inr (by decide), by decide⟩

end Unx511.Lab5b
