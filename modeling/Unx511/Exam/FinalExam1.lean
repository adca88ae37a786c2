import Unx511.Machine.Run
import Unx511.Posix.Semaphore

/-!
`FinalExam1.c`: a parent sets a System V semaphore to 1, forks its children and waits
for as many of them, then removes the semaphore. Each child takes the unit, sleeps and
gives it back. `num_processes` is any number, and an earlier run may have left a
semaphore with any value under `KEY`.
-/

namespace Unx511.Exam

open Machine Posix

/-- The argument of `exit`. -/
inductive Status where
  | success
  | failure
  deriving DecidableEq, Repr

/-- The statement a child is at: `take` and `give` are the calls of
`performSemaphoreOperation`, `attempt` and `enter` the `printf` in front of and behind the
first one. An exited child is reaped once the parent has waited for it. -/
inductive ChildPc where
  | unborn
  | attempt
  | take
  | enter
  | sleep
  | give
  | exit
  | exited (status : Status)
  | reaped (status : Status)
  deriving DecidableEq, Repr

inductive ParentPc where
  | semget
  | setval
  | fork (i : Nat)
  | wait (i : Nat)
  | remove
  | exited (status : Status)
  deriving DecidableEq, Repr

namespace ChildPc

/-- Between the -1 and the +1. -/
def inCritical : ChildPc → Bool
  | .enter | .sleep | .give => true
  | _ => false

def isReaped : ChildPc → Bool
  | .reaped _ => true
  | _ => false

def finished : ChildPc → Bool
  | .exited _ | .reaped _ => true
  | _ => false

def failed : ChildPc → Bool
  | .exited .failure | .reaped .failure => true
  | _ => false

end ChildPc

/-- The semaphore is that of `KEY`, `none` while there is no such set. `valueSet` and
`removed` are histories: SETVAL and IPC_RMID were done. -/
structure State (numProcesses : Nat) where
  sem : Option Nat
  parent : ParentPc
  child : Fin numProcesses → ChildPc
  valueSet : Bool
  removed : Bool

/-- A statement of the parent with the outcome of its call, the end of its `wait` by
one of the children, or a statement of a child. -/
inductive Action (numProcesses : Nat) where
  | parent (succeeds : Bool)
  | reap (p : Fin numProcesses)
  | child (p : Fin numProcesses)
  deriving DecidableEq, Repr

namespace State

variable {n : Nat}

def initial (left : Option Nat) : State n where
  sem := left
  parent := .semget
  child := fun _ => .unborn
  valueSet := false
  removed := false

def setChild (s : State n) (p : Fin n) (pc : ChildPc) : State n :=
  { s with child := Function.update s.child p pc }

/-- The statements of `main` up to its return, other than a `wait` that a child ends. -/
def parentStep (s : State n) (succeeds : Bool) : Option (State n) :=
  match s.parent with
  | .semget =>
      if succeeds then some { s with sem := some (s.sem.getD 0), parent := .setval }
      else some { s with parent := .exited .failure }
  | .setval =>
      if succeeds then some { s with sem := some 1, parent := .fork 0, valueSet := true }
      else some { s with parent := .exited .failure }
  | .fork i =>
      if h : i < n then
        if succeeds then some { s.setChild ⟨i, h⟩ .attempt with parent := .fork (i + 1) }
        else some { s with parent := .exited .failure }
      else some { s with parent := .wait 0 }
  | .wait i =>
      if i < n then
        -- ECHILD, when there is nobody to wait for
        if ∀ p, s.child p = .unborn ∨ (s.child p).isReaped = true then
          some { s with parent := .wait (i + 1) }
        else none
      else some { s with parent := .remove }
  | .remove =>
      if succeeds then some { s with sem := none, parent := .exited .success, removed := true }
      else some { s with parent := .exited .failure }
  | .exited _ => none

def reapStep (s : State n) (p : Fin n) : Option (State n) :=
  match s.parent, s.child p with
  | .wait i, .exited status =>
      if i < n then some { s.setChild p (.reaped status) with parent := .wait (i + 1) } else none
  | _, _ => none

/-- A statement of child `p`. When the set is gone `semop` fails, and
`performSemaphoreOperation` ends the child. -/
def childStep (s : State n) (p : Fin n) : Option (State n) :=
  match s.child p with
  | .attempt => some (s.setChild p .take)
  | .take =>
      match s.sem with
      | none => some (s.setChild p (.exited .failure))
      | some 0 => none
      | some (value + 1) => some { s.setChild p .enter with sem := some value }
  | .enter => some (s.setChild p .sleep)
  | .sleep => some (s.setChild p .give)
  | .give =>
      match s.sem with
      | none => some (s.setChild p (.exited .failure))
      | some value => some { s.setChild p .exit with sem := some (value + 1) }
  | .exit => some (s.setChild p (.exited .success))
  | .unborn | .exited _ | .reaped _ => none

def step (s : State n) : Action n → Option (State n)
  | .parent succeeds => s.parentStep succeeds
  | .reap p => s.reapStep p
  | .child p => s.childStep p

/-- Value and children account for one unit from SETVAL to IPC_RMID, at most one child
is in its critical section, and the removal comes after the last child and makes no
operation fail. -/
structure Lawful (s : State n) : Prop where
  conserved : s.valueSet = true → s.removed = false →
    ∃ value, s.sem = some value ∧ Conserved 1 ChildPc.inCritical value s.child
  alone : ∀ p q, (s.child p).inCritical = true → (s.child q).inCritical = true → p = q
  finished : s.removed = true → ∀ p, (s.child p).finished = true
  succeeds : ∀ p, (s.child p).failed = false

/-- What a position of the parent says about the children. -/
def Accounted (valueSet : Bool) (child : Fin n → ChildPc) : ParentPc → Prop
  | .semget | .setval => valueSet = false
  | .fork i => valueSet = true ∧ (∀ p, child p = .unborn ↔ i ≤ p.val) ∧
      ∀ p, (child p).isReaped = false
  | .wait i => valueSet = true ∧ (∀ p, child p ≠ .unborn) ∧ holders ChildPc.isReaped child = i
  | .remove => valueSet = true ∧ ∀ p, (child p).isReaped = true
  | .exited _ => True

structure Invariant (s : State n) : Prop where
  accounted : Accounted s.valueSet s.child s.parent
  unset : s.valueSet = false → ∀ p, s.child p = .unborn
  conserved : s.valueSet = true → s.removed = false →
    ∃ value, s.sem = some value ∧ Conserved 1 ChildPc.inCritical value s.child
  removed : s.removed = true → (∃ status, s.parent = .exited status) ∧
    ∀ p, (s.child p).isReaped = true
  succeeds : ∀ p, (s.child p).failed = false

end State

namespace ChildPc

/-- The statements that do not touch the semaphore. -/
inductive Moves : ChildPc → ChildPc → Prop where
  | attempt : Moves .attempt .take
  | enter : Moves .enter .sleep
  | sleep : Moves .sleep .give
  | exit : Moves .exit (.exited .success)

/-- The statement at `pc`, with the value of the semaphore before and after. -/
inductive Runs : ChildPc → Option Nat → ChildPc → Option Nat → Prop where
  | moves {pc pc' : ChildPc} {sem : Option Nat} (h : Moves pc pc') : Runs pc sem pc' sem
  | takes (value : Nat) : Runs .take (some (value + 1)) .enter (some value)
  | gives (value : Nat) : Runs .give (some value) .exit (some (value + 1))
  | failsTake : Runs .take none (.exited .failure) none
  | failsGive : Runs .give none (.exited .failure) none

variable {pc pc' : ChildPc} {sem sem' : Option Nat}

theorem Moves.inCritical (h : Moves pc pc') : pc'.inCritical = pc.inCritical := by
  cases h <;> rfl

theorem Runs.not_reaped (h : Runs pc sem pc' sem') :
    pc.isReaped = false ∧ pc'.isReaped = false := by
  cases h with
  | moves h => cases h <;> exact ⟨rfl, rfl⟩
  | takes | gives | failsTake | failsGive => exact ⟨rfl, rfl⟩

theorem Runs.ne_unborn (h : Runs pc sem pc' sem') : pc ≠ .unborn ∧ pc' ≠ .unborn := by
  cases h with
  | moves h => cases h <;> exact ⟨by simp, by simp⟩
  | takes | gives | failsTake | failsGive => exact ⟨by simp, by simp⟩

theorem Runs.succeeds {value : Nat} (h : Runs pc (some value) pc' sem') : pc'.failed = false := by
  cases h with
  | moves h => cases h <;> rfl
  | takes | gives => rfl

theorem inCritical_of_isReaped (h : pc.isReaped = true) : pc.inCritical = false := by
  cases pc <;> first | rfl | cases h

theorem finished_of_isReaped (h : pc.isReaped = true) : pc.finished = true := by
  cases pc <;> first | rfl | cases h

end ChildPc

namespace State

variable {n : Nat} {s t : State n} {p : Fin n}

theorem forall_update (Q : ChildPc → Prop) {child : Fin n → ChildPc} {pc : ChildPc}
    (h : ∀ q, Q (child q)) (hpc : Q pc) (q : Fin n) : Q (Function.update child p pc q) := by
  rcases eq_or_ne q p with rfl | hne
  · simpa using hpc
  · simpa [hne] using h q

theorem childStep_cases (h : s.childStep p = some t) :
    ∃ pc' sem', ChildPc.Runs (s.child p) s.sem pc' sem' ∧
      t = { s.setChild p pc' with sem := sem' } := by
  unfold childStep at h
  cases hpc : s.child p with
  | attempt | enter | sleep | exit =>
      rw [hpc] at h
      cases h
      exact ⟨_, s.sem, .moves (by constructor), rfl⟩
  | take =>
      rw [hpc] at h
      cases hsem : s.sem with
      | none =>
          rw [hsem] at h
          cases h
          refine ⟨_, none, .failsTake, ?_⟩
          rw [← hsem]
          rfl
      | some value =>
          rw [hsem] at h
          cases value with
          | zero => cases h
          | succ value =>
              cases h
              exact ⟨_, _, .takes value, rfl⟩
  | give =>
      rw [hpc] at h
      cases hsem : s.sem with
      | none =>
          rw [hsem] at h
          cases h
          refine ⟨_, none, .failsGive, ?_⟩
          rw [← hsem]
          rfl
      | some value =>
          rw [hsem] at h
          cases h
          exact ⟨_, _, .gives value, rfl⟩
  | unborn | exited _ | reaped _ =>
      rw [hpc] at h
      cases h

theorem reapStep_cases (h : s.reapStep p = some t) :
    ∃ i status, s.parent = .wait i ∧ i < n ∧ s.child p = .exited status ∧
      t = { s.setChild p (.reaped status) with parent := .wait (i + 1) } := by
  unfold reapStep at h
  split at h
  case h_1 i status hparent hchild =>
    split at h
    case isTrue hi =>
      cases h
      exact ⟨i, status, hparent, hi, hchild, rfl⟩
    case isFalse => cases h
  case h_2 => cases h

/-- A statement of a child that is at work changes nothing about the account. -/
theorem Accounted.childStep {valueSet : Bool} {child : Fin n → ChildPc} {parent : ParentPc}
    {pc' : ChildPc} {sem sem' : Option Nat} (h : Accounted valueSet child parent)
    (hruns : ChildPc.Runs (child p) sem pc' sem') :
    Accounted valueSet (Function.update child p pc') parent := by
  obtain ⟨hreaped, hreaped'⟩ := hruns.not_reaped
  obtain ⟨hborn, hborn'⟩ := hruns.ne_unborn
  cases parent with
  | semget | setval => exact h
  | fork i =>
      obtain ⟨hset, hunborn, hnone⟩ := h
      refine ⟨hset, ?_, ?_⟩
      · intro q
        rcases eq_or_ne q p with rfl | hne
        · have hlow := (hunborn q).not.mp hborn
          simpa [hborn'] using hlow
        · simpa [hne] using hunborn q
      · intro q
        rcases eq_or_ne q p with rfl | hne
        · simpa using hreaped'
        · simpa [hne] using hnone q
  | wait i =>
      obtain ⟨hset, hall, hcount⟩ := h
      refine ⟨hset, ?_, ?_⟩
      · intro q
        rcases eq_or_ne q p with rfl | hne
        · simpa using hborn'
        · simpa [hne] using hall q
      · rw [holders_update_same (hreaped'.trans hreaped.symm)]
        exact hcount
  | remove =>
      have hdone := h.2 p
      rw [hreaped] at hdone
      cases hdone
  | exited _ => trivial

theorem Invariant.childStep (h : Invariant s) (hstep : s.childStep p = some t) : Invariant t := by
  obtain ⟨pc', sem', hruns, rfl⟩ := childStep_cases hstep
  obtain ⟨haccounted, hunset, hconserved, hremoved, hsucceeds⟩ := h
  -- a child that runs was forked after SETVAL, and is not waited for before the removal
  have hset : s.valueSet = true := by
    by_contra hnot
    exact hruns.ne_unborn.1 (hunset (by simpa using hnot) p)
  have hkept : s.removed = false := by
    by_contra hnot
    have hdone := (hremoved (by simpa using hnot)).2 p
    rw [hruns.not_reaped.1] at hdone
    cases hdone
  obtain ⟨value, hsem, hlaw⟩ := hconserved hset hkept
  rw [hsem] at hruns
  refine ⟨haccounted.childStep hruns, ?_, ?_, ?_, ?_⟩
  · intro hnot
    exact absurd (hset.symm.trans hnot) (by simp)
  · intro _ _
    generalize hpc : s.child p = pc at hruns
    cases hruns with
    | moves hmoves =>
        exact ⟨value, rfl, hlaw.frame (by rw [hpc]; exact hmoves.inCritical)⟩
    | takes value => exact ⟨value, rfl, hlaw.wait rfl (by rw [hpc]; rfl) rfl⟩
    | gives => exact ⟨value + 1, rfl, hlaw.post (by rw [hpc]; rfl) rfl⟩
  · intro hnot
    exact absurd (hkept.symm.trans hnot) (by simp)
  · exact forall_update (fun pc => pc.failed = false) hsucceeds hruns.succeeds

theorem Invariant.reapStep (h : Invariant s) (hstep : s.reapStep p = some t) : Invariant t := by
  obtain ⟨i, status, hparent, hi, hpc, rfl⟩ := reapStep_cases hstep
  obtain ⟨haccounted, hunset, hconserved, hremoved, hsucceeds⟩ := h
  rw [hparent] at haccounted
  obtain ⟨hset, hborn, hcount⟩ := haccounted
  have hkept : s.removed = false := by
    by_contra hnot
    obtain ⟨_, hexited⟩ := (hremoved (by simpa using hnot)).1
    rw [hparent] at hexited
    cases hexited
  refine ⟨⟨hset, ?_, ?_⟩, ?_, ?_, ?_, ?_⟩
  · exact forall_update (fun pc => pc ≠ .unborn) hborn (by simp)
  · change holders ChildPc.isReaped (Function.update s.child p (.reaped status)) = i + 1
    rw [holders_update_enter (by rw [hpc]; rfl) rfl, hcount]
  · intro hnot
    exact absurd (hset.symm.trans hnot) (by simp)
  · intro _ _
    obtain ⟨value, hsem, hlaw⟩ := hconserved hset hkept
    exact ⟨value, hsem, hlaw.frame (by rw [hpc]; rfl)⟩
  · intro hnot
    exact absurd (hkept.symm.trans hnot) (by simp)
  · refine forall_update (fun pc => pc.failed = false) hsucceeds ?_
    have hchild := hsucceeds p
    rw [hpc] at hchild
    cases status with
    | success => rfl
    | failure => cases hchild

/-- The parent gives up or is done, with the children as they are. -/
theorem Invariant.exit (h : Invariant s) (status : Status) :
    Invariant { s with parent := .exited status } where
  accounted := trivial
  unset := h.unset
  conserved := h.conserved
  removed := fun hremoved => ⟨⟨status, rfl⟩, (h.removed hremoved).2⟩
  succeeds := h.succeeds

theorem Invariant.kept (h : Invariant s) (hparent : ∀ status, s.parent ≠ .exited status) :
    s.removed = false := by
  by_contra hnot
  obtain ⟨status, hexited⟩ := (h.removed (by simpa using hnot)).1
  exact hparent status hexited

/-- The parent goes on to another statement, with the children as they are. -/
theorem Invariant.goto (h : Invariant s) (hparent : ∀ status, s.parent ≠ .exited status)
    {pc : ParentPc} (haccounted : Accounted s.valueSet s.child pc) :
    Invariant { s with parent := pc } where
  accounted := haccounted
  unset := h.unset
  conserved := h.conserved
  removed := fun hremoved => absurd ((h.kept hparent).symm.trans hremoved) (by simp)
  succeeds := h.succeeds

/-- The child that `fork` makes is the next one in the account. -/
theorem Invariant.fork (h : Invariant s) {i : Nat} (hparent : s.parent = .fork i) (hi : i < n) :
    Invariant { s.setChild ⟨i, hi⟩ .attempt with parent := .fork (i + 1) } := by
  have hkept := h.kept (by simp [hparent])
  obtain ⟨haccounted, hunset, hconserved, hremoved, hsucceeds⟩ := h
  rw [hparent] at haccounted
  obtain ⟨hset, hunborn, hnone⟩ := haccounted
  have hnew : s.child ⟨i, hi⟩ = .unborn := (hunborn ⟨i, hi⟩).mpr le_rfl
  refine ⟨⟨hset, ?_, forall_update (fun pc => pc.isReaped = false) hnone rfl⟩, ?_, ?_, ?_,
    forall_update (fun pc => pc.failed = false) hsucceeds rfl⟩
  · intro q
    unfold setChild
    rcases eq_or_ne q ⟨i, hi⟩ with rfl | hne
    · simp
    · have hval : q.val ≠ i := fun heq => hne (Fin.ext heq)
      simp only [Function.update_of_ne hne, hunborn]
      omega
  · intro hnot
    exact absurd (hset.symm.trans hnot) (by simp)
  · intro _ _
    obtain ⟨value, hsem, hlaw⟩ := hconserved hset hkept
    exact ⟨value, hsem, hlaw.frame (by rw [hnew]; rfl)⟩
  · intro hnot
    exact absurd (hkept.symm.trans hnot) (by simp)

theorem Invariant.parentStep (h : Invariant s) {succeeds : Bool}
    (hstep : s.parentStep succeeds = some t) : Invariant t := by
  unfold State.parentStep at hstep
  have haccounted := h.accounted
  cases hparent : s.parent with
  | semget =>
      rw [hparent] at hstep haccounted
      cases succeeds with
      | false =>
          cases hstep
          exact h.exit .failure
      | true =>
          cases hstep
          have hunset : s.valueSet = false := haccounted
          refine ⟨hunset, h.unset, ?_, ?_, h.succeeds⟩
          · intro hset
            exact absurd (hunset.symm.trans hset) (by simp)
          · intro hremoved
            exact absurd ((h.kept (by simp [hparent])).symm.trans hremoved) (by simp)
  | setval =>
      rw [hparent] at hstep haccounted
      cases succeeds with
      | false =>
          cases hstep
          exact h.exit .failure
      | true =>
          cases hstep
          have hunborn := h.unset haccounted
          refine ⟨⟨rfl, ?_, ?_⟩, ?_, ?_, ?_, h.succeeds⟩
          · intro p
            simp [hunborn p]
          · intro p
            change (s.child p).isReaped = false
            rw [hunborn p]
            rfl
          · intro hnot
            cases hnot
          · intro _ _
            refine ⟨1, rfl, ?_⟩
            unfold Conserved holders
            simp [hunborn, ChildPc.inCritical]
          · intro hremoved
            exact absurd ((h.kept (by simp [hparent])).symm.trans hremoved) (by simp)
  | fork i =>
      rw [hparent] at hstep haccounted
      obtain ⟨hset, hunborn, hnone⟩ := haccounted
      by_cases hi : i < n
      · simp only [hi, dif_pos] at hstep
        cases succeeds with
        | false =>
            cases hstep
            exact h.exit .failure
        | true =>
            cases hstep
            exact h.fork hparent hi
      · simp only [hi, dif_neg, not_false_eq_true] at hstep
        cases hstep
        refine h.goto (by simp [hparent]) ⟨hset, ?_, ?_⟩
        · intro p
          have hlow := p.isLt
          rw [ne_eq, hunborn p]
          omega
        · unfold holders
          simp [hnone]
  | wait i =>
      rw [hparent] at hstep haccounted
      obtain ⟨hset, hborn, hcount⟩ := haccounted
      by_cases hi : i < n
      · -- ECHILD would mean that all children are waited for, and they are `i`
        have hnot : ¬ ∀ p, s.child p = .unborn ∨ (s.child p).isReaped = true := by
          intro hall
          have hfull := holders_eq_card_iff.mpr fun p => (hall p).resolve_left (hborn p)
          rw [hcount, Fintype.card_fin] at hfull
          omega
        simp only [hi, if_pos, hnot] at hstep
        cases hstep
      · simp only [hi, if_neg, not_false_eq_true] at hstep
        cases hstep
        refine h.goto (by simp [hparent]) ⟨hset, holders_eq_card_iff.mp ?_⟩
        have hle : holders ChildPc.isReaped s.child ≤ n := by
          unfold holders
          exact (Finset.card_filter_le _ _).trans_eq (Finset.card_fin n)
        rw [Fintype.card_fin]
        omega
  | remove =>
      rw [hparent] at hstep haccounted
      cases succeeds with
      | false =>
          cases hstep
          exact h.exit .failure
      | true =>
          cases hstep
          refine ⟨trivial, h.unset, ?_, ?_, h.succeeds⟩
          · intro _ hnot
            cases hnot
          · exact fun _ => ⟨⟨.success, rfl⟩, haccounted.2⟩
  | exited status =>
      rw [hparent] at hstep
      cases hstep

theorem Invariant.step (h : Invariant s) {a : Action n} (hstep : s.step a = some t) :
    Invariant t := by
  cases a with
  | parent succeeds => exact h.parentStep hstep
  | reap p => exact h.reapStep hstep
  | child p => exact h.childStep hstep

theorem Invariant.initial (left : Option Nat) : Invariant (State.initial (n := n) left) where
  accounted := rfl
  unset := fun _ _ => rfl
  conserved := fun hset => nomatch hset
  removed := fun hremoved => nomatch hremoved
  succeeds := fun _ => rfl

theorem Invariant.lawful (h : Invariant s) : Lawful s where
  conserved := h.conserved
  alone := by
    intro p q hp hq
    have hset : s.valueSet = true := by
      by_contra hnot
      rw [h.unset (by simpa using hnot) p] at hp
      cases hp
    have hkept : s.removed = false := by
      by_contra hnot
      have hdone := (h.removed (by simpa using hnot)).2 p
      rw [ChildPc.inCritical_of_isReaped hdone] at hp
      cases hp
    obtain ⟨value, _, hlaw⟩ := h.conserved hset hkept
    exact hlaw.alone hp hq
  finished := fun hremoved p => ChildPc.finished_of_isReaped ((h.removed hremoved).2 p)
  succeeds := h.succeeds

end State

/-- Any number of children, any semaphore left under `KEY` and any order of the steps,
with any call of the parent failing. -/
theorem finalExam1_lawful (numProcesses : Nat) (left : Option Nat)
    (actions : List (Action numProcesses)) :
    StatesMeet State.step State.Lawful (State.initial left) actions :=
  (StatesMeet.of_invariant (fun _ _ _ h hstep => State.Invariant.step h hstep)
    (State.Invariant.initial left) actions).mono fun _ => State.Invariant.lawful

/-- Two children, the second of which has to wait, and the removal at the end. -/
example :
    (run State.step (State.initial (n := 2) (some 3))
      ([.parent true, .parent true, .parent true, .child 0, .parent true, .child 0, .child 1,
        .parent true, .child 0, .child 0, .child 0, .child 1, .child 0, .reap 0] ++
        (List.replicate 4 (.child 1) ++ [.reap 1, .parent true, .parent true]))).map
          (fun s => (s.parent, s.sem, s.removed)) = some (.exited .success, none, true) := by
  decide

end Unx511.Exam
