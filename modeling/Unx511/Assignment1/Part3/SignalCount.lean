import Unx511.Assignment1.Worker
import Unx511.Machine.Run

/-!
Assignment 1, Part 3, `test_worker_main.c`: the parent counts the two signals of
its worker in `dhsb_signals_received` and sleeps in `pause()` until there are two.

`sa_mask` is empty, so a handler blocks only its own signal and the handler of the
other one may interrupt it anywhere. The increment is a load and a store. What the
handlers print is left out, and so is SIGCHLD, which is ignored by default and
does not end `pause()`.
-/

namespace Unx511.Assignment1.Part3

open Machine

/-- At `pause` the test of `dhsb_signals_received < 2` was true and `pause()` is next; `waiting`
is the `waitpid` behind the loop. -/
inductive ParentPc where
  | test
  | pause
  | paused
  | waiting
  deriving DecidableEq, Repr

/-- Where one of the two signals is. Its handler has not read the counter (`entered`), has read
`n` from it, or has stored it. -/
inductive Phase where
  | unsent
  | pending
  | entered
  | loaded (n : Nat)
  | stored
  | finished
  deriving DecidableEq, Repr

/-- The handler of the signal has written the counter. -/
def Phase.counted : Phase → Bool
  | .stored | .finished => true
  | _ => false

/-- `received` is `dhsb_signals_received`, and `stack` has the running handlers, the innermost
first. -/
structure State where
  parent : ParentPc
  received : Nat
  phase : Signal → Phase
  stack : List Signal

namespace State

def initial : State where
  parent := .test
  received := 0
  phase := fun _ => .unsent
  stack := []

def setPhase (s : State) (sig : Signal) (p : Phase) : State :=
  { s with phase := Function.update s.phase sig p }

/-- Both handlers have finished. -/
def Finished (s : State) : Prop := s.phase .usr1 = .finished ∧ s.phase .usr2 = .finished

instance (s : State) : Decidable s.Finished := inferInstanceAs (Decidable (_ ∧ _))

end State

/-- The worker sends SIGUSR1 first. `handler` is the next statement of the innermost
handler. -/
inductive Action where
  | parent
  | send (sig : Signal)
  | deliver (sig : Signal)
  | handler
  deriving DecidableEq, Repr

def parentStep (s : State) : Option State :=
  match s.parent with
  | .test => some { s with parent := if s.received < 2 then .pause else .waiting }
  | .pause => some { s with parent := .paused }
  | .paused | .waiting => none

def sendStep (sig : Signal) (s : State) : Option State :=
  if s.phase sig = .unsent ∧ (sig = .usr2 → s.phase .usr1 ≠ .unsent) then
    some (s.setPhase sig .pending)
  else none

/-- The handler starts. A parent that sleeps in `pause()` is back at its test when
the handlers have returned. -/
def deliverStep (sig : Signal) (s : State) : Option State :=
  if s.phase sig = .pending then
    some { s.setPhase sig .entered with
      stack := sig :: s.stack
      parent := if s.parent = .paused then .test else s.parent }
  else none

/-- `dhsb_signal_handler`, up to its return. -/
def handlerStep (s : State) : Option State :=
  match s.stack with
  | [] => none
  | sig :: rest =>
      match s.phase sig with
      | .entered => some (s.setPhase sig (.loaded s.received))
      | .loaded n => some { s.setPhase sig .stored with received := n + 1 }
      | .stored => some { s.setPhase sig .finished with stack := rest }
      | _ => none

def step (s : State) : Action → Option State
  | .parent => if s.stack = [] then parentStep s else none
  | .send sig => sendStep sig s
  | .deliver sig => deliverStep sig s
  | .handler => handlerStep s

/-- What one step can do. -/
inductive Move (s : State) : Action → State → Prop
  | test (hpc : s.parent = .test) :
      Move s .parent { s with parent := if s.received < 2 then .pause else .waiting }
  | pause (hstack : s.stack = []) (hpc : s.parent = .pause) :
      Move s .parent { s with parent := .paused }
  | send (sig : Signal) (hphase : s.phase sig = .unsent) :
      Move s (.send sig) (s.setPhase sig .pending)
  | deliver (sig : Signal) (hphase : s.phase sig = .pending) :
      Move s (.deliver sig)
        { s.setPhase sig .entered with
          stack := sig :: s.stack
          parent := if s.parent = .paused then .test else s.parent }
  | load (sig : Signal) (rest : List Signal) (hstack : s.stack = sig :: rest)
      (hphase : s.phase sig = .entered) :
      Move s .handler (s.setPhase sig (.loaded s.received))
  | store (sig : Signal) (rest : List Signal) (n : Nat) (hstack : s.stack = sig :: rest)
      (hphase : s.phase sig = .loaded n) :
      Move s .handler { s.setPhase sig .stored with received := n + 1 }
  | leave (sig : Signal) (rest : List Signal) (hstack : s.stack = sig :: rest)
      (hphase : s.phase sig = .stored) :
      Move s .handler { s.setPhase sig .finished with stack := rest }

theorem step_move {s t : State} {a : Action} (h : step s a = some t) : Move s a t := by
  cases a with
  | parent =>
      simp only [step, parentStep] at h
      split at h
      · rename_i hstack
        split at h
        · cases h
          exact .test ‹_›
        · cases h
          exact .pause hstack ‹_›
        · cases h
        · cases h
      · cases h
  | send sig =>
      simp only [step, sendStep] at h
      split at h
      · rename_i hphase
        cases h
        exact .send sig hphase.1
      · cases h
  | deliver sig =>
      simp only [step, deliverStep] at h
      split at h
      · rename_i hphase
        cases h
        exact .deliver sig hphase
      · cases h
  | handler =>
      simp only [step, handlerStep] at h
      split at h
      · cases h
      · rename_i sig rest hstack
        split at h
        · cases h
          exact .load sig rest hstack ‹_›
        · cases h
          exact .store sig rest _ hstack ‹_›
        · cases h
          exact .leave sig rest hstack ‹_›
        · cases h

/-- A store finds the counter as its load has left it, and `pause()` is not called
when no signal is left to end it. -/
def undisturbed (s : State) : Action → Bool
  | .handler =>
      match s.stack with
      | [] => true
      | sig :: _ =>
          match s.phase sig with
          | .loaded n => s.received == n
          | _ => true
  | .parent => !(s.parent == .pause && decide s.Finished)
  | .send _ | .deliver _ => true

def Undisturbed (s : State) (a : Action) : Prop := undisturbed s a = true

instance (s : State) (a : Action) : Decidable (Undisturbed s a) :=
  inferInstanceAs (Decidable (_ = _))

/-- The number of handlers that have written the counter. -/
def State.counted (s : State) : Nat :=
  (s.phase .usr1).counted.toNat + (s.phase .usr2).counted.toNat

theorem counted_setPhase (s : State) (sig : Signal) (p : Phase) :
    (s.setPhase sig p).counted + (s.phase sig).counted.toNat = s.counted + p.counted.toNat := by
  cases sig with
  | usr1 =>
      simp only [State.counted, State.setPhase, Function.update_self,
        Function.update_of_ne (show Signal.usr2 ≠ Signal.usr1 by decide)]
      omega
  | usr2 =>
      simp only [State.counted, State.setPhase, Function.update_self,
        Function.update_of_ne (show Signal.usr1 ≠ Signal.usr2 by decide)]
      omega

theorem setPhase_self (s : State) (sig : Signal) (p : Phase) :
    (s.setPhase sig p).phase sig = p := by
  simp [State.setPhase]

theorem setPhase_of_ne (s : State) {sig sig' : Signal} (h : sig' ≠ sig) (p : Phase) :
    (s.setPhase sig p).phase sig' = s.phase sig' := by
  simp [State.setPhase, h]

theorem not_finished_setPhase {s : State} {sig : Signal} {p : Phase} (hp : p ≠ .finished) :
    ¬ (s.setPhase sig p).Finished := by
  rintro ⟨h1, h2⟩
  cases sig with
  | usr1 => exact hp ((setPhase_self s .usr1 p).symm.trans h1)
  | usr2 => exact hp ((setPhase_self s .usr2 p).symm.trans h2)

theorem loaded_setPhase {s : State} {sig sig' : Signal} {p : Phase} {n : Nat}
    (h : (s.setPhase sig p).phase sig' = .loaded n) : p = .loaded n ∨ s.phase sig' = .loaded n := by
  by_cases hsig : sig' = sig
  · subst hsig
    exact .inl ((setPhase_self s _ p).symm.trans h)
  · exact .inr ((setPhase_of_ne s hsig p).symm.trans h)

/-- The counter is right so far and the parent does not sleep for good. -/
structure Counting (s : State) : Prop where
  received : s.received = s.counted
  loaded : ∀ sig n, s.phase sig = .loaded n → n ≤ s.received
  awake : s.stack ≠ [] → s.parent ≠ .paused
  answered : s.parent = .paused → ¬ s.Finished

theorem initial_counting : Counting State.initial where
  received := rfl
  loaded := fun _ _ h => by cases h
  awake := fun h => absurd rfl h
  answered := fun h => by cases h

/-- One step that is not disturbed keeps the count. -/
theorem Counting.step {s t : State} {a : Action} (h : Counting s) (hund : Undisturbed s a)
    (hmove : Move s a t) : Counting t := by
  cases hmove with
  | test hpc =>
      have hawake : (if s.received < 2 then ParentPc.pause else .waiting) ≠ .paused := by
        split <;> decide
      exact ⟨h.received, h.loaded, fun _ => hawake, fun hp => absurd hp hawake⟩
  | pause hstack hpc =>
      refine ⟨h.received, h.loaded, fun hne => absurd hstack hne, fun _ hfin => ?_⟩
      have hdone : decide s.Finished = true := decide_eq_true hfin
      simp [Undisturbed, undisturbed, hpc, hdone] at hund
  | send sig hphase =>
      have hcount := counted_setPhase s sig .pending
      rw [hphase] at hcount
      refine ⟨h.received.trans (by simpa [Phase.counted] using hcount.symm), fun sig' n hn => ?_,
        h.awake, fun _ => not_finished_setPhase (by simp)⟩
      rcases loaded_setPhase hn with hp | hs
      · cases hp
      · exact h.loaded sig' n hs
  | deliver sig hphase =>
      have hcount := counted_setPhase s sig .entered
      rw [hphase] at hcount
      have hreceived : s.received = (s.setPhase sig .entered).counted :=
        h.received.trans (by simpa [Phase.counted] using hcount.symm)
      have hawake : (if s.parent = .paused then ParentPc.test else s.parent) ≠ .paused := by
        split
        · decide
        · assumption
      refine ⟨hreceived, fun sig' n hn => ?_, fun _ => hawake, fun hp => absurd hp hawake⟩
      rcases loaded_setPhase hn with hp | hs
      · cases hp
      · exact h.loaded sig' n hs
  | load sig rest hstack hphase =>
      have hcount := counted_setPhase s sig (.loaded s.received)
      rw [hphase] at hcount
      refine ⟨h.received.trans (by simpa [Phase.counted] using hcount.symm), fun sig' n hn => ?_,
        h.awake, fun _ => not_finished_setPhase (by simp)⟩
      rcases loaded_setPhase hn with hp | hs
      · cases hp
        exact le_rfl
      · exact h.loaded sig' n hs
  | store sig rest n hstack hphase =>
      have hcount := counted_setPhase s sig .stored
      have hn : s.received = n := by
        simpa [Undisturbed, undisturbed, hstack, hphase] using hund
      have hreceived := h.received
      rw [hphase] at hcount
      refine ⟨?_, fun sig' m hm => ?_, h.awake, fun _ => not_finished_setPhase (by simp)⟩
      · change n + 1 = (s.setPhase sig .stored).counted
        simp only [Phase.counted, Bool.toNat_false, Bool.toNat_true] at hcount
        omega
      · change m ≤ n + 1
        rcases loaded_setPhase hm with hp | hs
        · cases hp
        · have := h.loaded sig' m hs
          omega
  | leave sig rest hstack hphase =>
      have hcount := counted_setPhase s sig .finished
      have hawake : s.parent ≠ .paused := h.awake (by simp [hstack])
      rw [hphase] at hcount
      have hreceived : s.received = (s.setPhase sig .finished).counted :=
        h.received.trans (by simpa [Phase.counted] using hcount.symm)
      refine ⟨hreceived, fun sig' n hn => ?_, fun _ => hawake, fun hp => absurd hp hawake⟩
      rcases loaded_setPhase hn with hp | hs
      · cases hp
      · exact h.loaded sig' n hs

/-- An increment is lost for good, or the parent sleeps for good. -/
inductive Spoiled (s : State) : Prop
  | lost (hcounted : s.counted = 2) (hreceived : s.received ≤ 1)
  | asleep (hpc : s.parent = .paused) (hfinished : s.Finished)

/-- A disturbed step spoils the run. -/
theorem Counting.spoiled {s t : State} {a : Action} (h : Counting s) (hund : ¬ Undisturbed s a)
    (hmove : Move s a t) : Spoiled t := by
  cases hmove with
  | test hpc => simp [Undisturbed, undisturbed, hpc] at hund
  | pause hstack hpc =>
      have hfinished : s.Finished := by simpa [Undisturbed, undisturbed, hpc] using hund
      exact .asleep rfl hfinished
  | send sig hphase => exact absurd rfl hund
  | deliver sig hphase => exact absurd rfl hund
  | load sig rest hstack hphase =>
      simp [Undisturbed, undisturbed, hstack, hphase] at hund
  | leave sig rest hstack hphase =>
      simp [Undisturbed, undisturbed, hstack, hphase] at hund
  | store sig rest n hstack hphase =>
      have hcount := counted_setPhase s sig .stored
      have hne : s.received ≠ n := by
        simpa [Undisturbed, undisturbed, hstack, hphase] using hund
      have hle := h.loaded sig n hphase
      have hreceived := h.received
      rw [hphase] at hcount
      simp only [Phase.counted, Bool.toNat_false, Bool.toNat_true] at hcount
      -- only the other handler can have changed the counter, and it has written 1
      have hbound : (s.setPhase sig .stored).counted ≤ 2 := by
        have h1 := Bool.toNat_le ((s.setPhase sig .stored).phase .usr1).counted
        have h2 := Bool.toNat_le ((s.setPhase sig .stored).phase .usr2).counted
        unfold State.counted
        omega
      have htwo : (s.setPhase sig .stored).counted = 2 := by omega
      have hone : n + 1 ≤ 1 := by omega
      exact .lost htwo hone

theorem Spoiled.step {s t : State} {a : Action} (h : Spoiled s) (hmove : Move s a t) :
    Spoiled t := by
  cases h with
  | lost hcounted hreceived =>
      have hphase : ∀ sig, (s.phase sig).counted = true := by
        have h1 := Bool.toNat_le (s.phase .usr1).counted
        have h2 := Bool.toNat_le (s.phase .usr2).counted
        unfold State.counted at hcounted
        intro sig
        cases sig with
        | usr1 => exact Bool.toNat_eq_one.mp (by omega)
        | usr2 => exact Bool.toNat_eq_one.mp (by omega)
      cases hmove with
      | test hpc => exact .lost hcounted hreceived
      | pause hstack hpc => exact .lost hcounted hreceived
      | send sig h => exact absurd (hphase sig) (by simp [h, Phase.counted])
      | deliver sig h => exact absurd (hphase sig) (by simp [h, Phase.counted])
      | load sig rest hstack h => exact absurd (hphase sig) (by simp [h, Phase.counted])
      | store sig rest n hstack h => exact absurd (hphase sig) (by simp [h, Phase.counted])
      | leave sig rest hstack h =>
          have hcount := counted_setPhase s sig .finished
          rw [h] at hcount
          have hcounted' : (s.setPhase sig .finished).counted = 2 := by
            simp only [Phase.counted, Bool.toNat_true] at hcount
            omega
          exact .lost hcounted' hreceived
  | asleep hpc hfinished =>
      have hphase : ∀ sig, s.phase sig = .finished := by
        intro sig
        cases sig with
        | usr1 => exact hfinished.1
        | usr2 => exact hfinished.2
      cases hmove with
      | test h => exact absurd (hpc.symm.trans h) (by decide)
      | pause hstack h => exact absurd (hpc.symm.trans h) (by decide)
      | send sig h => exact absurd ((hphase sig).symm.trans h) (by decide)
      | deliver sig h => exact absurd ((hphase sig).symm.trans h) (by decide)
      | load sig rest hstack h => exact absurd ((hphase sig).symm.trans h) (by decide)
      | store sig rest n hstack h => exact absurd ((hphase sig).symm.trans h) (by simp)
      | leave sig rest hstack h => exact absurd ((hphase sig).symm.trans h) (by decide)

/-- The parent has counted both signals and is on its way past the loop. -/
def State.Counted (s : State) : Prop := s.received = 2 ∧ s.parent ≠ .paused

instance (s : State) : Decidable s.Counted := inferInstanceAs (Decidable (_ ∧ _))

theorem Counting.counted {s : State} (h : Counting s) (hfinished : s.Finished) : s.Counted := by
  refine ⟨?_, fun hpaused => h.answered hpaused hfinished⟩
  rw [h.received, State.counted, hfinished.1, hfinished.2]
  rfl

theorem Spoiled.not_counted {s : State} (h : Spoiled s) : ¬ s.Counted := by
  rintro ⟨htwo, hawake⟩
  cases h with
  | lost hcounted hreceived => omega
  | asleep hpc hfinished => exact hawake hpc

/-- Once both handlers have finished, the parent has counted both signals in exactly
the undisturbed runs. -/
theorem counted_iff_undisturbed (acts : List Action) {s : State}
    (hrun : run step .initial acts = some s) (hfinished : s.Finished) :
    s.Counted ↔ StepsMeet step Undisturbed .initial acts := by
  have hkeep : ∀ u a v, Counting u → Undisturbed u a → step u a = some v → Counting v :=
    fun u a v hc hund hstep => hc.step hund (step_move hstep)
  constructor
  · intro hcounted
    have hcases := stepsMeet_or hkeep
      (fun u a v hc hund hstep => hc.spoiled hund (step_move hstep))
      (fun u a v hsp hstep => hsp.step (step_move hstep)) initial_counting hrun
    rcases hcases with hmeet | hspoiled
    · exact hmeet
    · exact absurd hcounted hspoiled.not_counted
  · intro hmeet
    exact ((StatesMeet.of_stepsMeet hkeep initial_counting hmeet).last hrun).counted hfinished

/-- The two handlers one after the other, while the parent sleeps. -/
def inTurn : List Action :=
  [.parent, .parent, .send .usr1, .deliver .usr1, .handler, .handler, .handler, .parent, .parent,
    .send .usr2, .deliver .usr2, .handler, .handler, .handler]

theorem counted_inTurn :
    ∃ s, run step .initial inTurn = some s ∧ s.Finished ∧
      (s.Counted ↔ StepsMeet step Undisturbed .initial inTurn) := by
  refine ⟨_, rfl, ⟨rfl, rfl⟩, ?_⟩
  exact counted_iff_undisturbed inTurn rfl ⟨rfl, rfl⟩

/-- The handler of SIGUSR2 runs between the load and the store of the other one. -/
def interrupted : List Action :=
  [.parent, .parent, .send .usr1, .deliver .usr1, .handler, .send .usr2, .deliver .usr2, .handler,
    .handler, .handler, .handler, .handler, .parent, .parent]

/-- The second increment overwrites the first, and the parent goes back to sleep. -/
theorem interrupted_not_counted :
    ∃ s, run step .initial interrupted = some s ∧ s.Finished ∧ s.received = 1 ∧
      s.parent = .paused :=
  ⟨_, rfl, ⟨rfl, rfl⟩, rfl, rfl⟩

/-- No increment is lost here, but both signals arrive between the test and `pause()`. -/
example :
    ∃ s, run step .initial
        [.parent, .send .usr1, .deliver .usr1, .handler, .handler, .handler, .send .usr2,
          .deliver .usr2, .handler, .handler, .handler, .parent] = some s ∧
      s.Finished ∧ s.received = 2 ∧ s.parent = .paused :=
  ⟨_, rfl, ⟨rfl, rfl⟩, rfl, rfl⟩

end Unx511.Assignment1.Part3
