import Unx511.Exam.FinalExam1
import Unx511.Machine.Termination

/-!
`FinalExam1.c` comes to an end. Whichever calls of the parent fail and in whatever order
the processes run, each of them terminates: the holder of the unit is never blocked, and
a wait of the parent either finds a child that has exited or fails.
-/

namespace Unx511.Exam

open Machine Posix

/-- The statements up to the `exit`. -/
def ChildPc.rank : ChildPc → Nat
  | .unborn | .attempt => 6
  | .take => 5
  | .enter => 4
  | .sleep => 3
  | .give => 2
  | .exit => 1
  | .exited _ | .reaped _ => 0

theorem ChildPc.Runs.rank_lt {pc pc' : ChildPc} {sem sem' : Option Nat}
    (h : ChildPc.Runs pc sem pc' sem') : pc'.rank < pc.rank := by
  cases h with
  | moves h => cases h <;> decide
  | takes | gives | failsTake | failsGive => decide

/-- The calls up to the return, where `n` children are forked and waited for. -/
def ParentPc.rank (n : Nat) : ParentPc → Nat
  | .semget => n + n + 5
  | .setval => n + n + 4
  | .fork i => (n - i) + n + 3
  | .wait i => (n - i) + 2
  | .remove => 1
  | .exited _ => 0

namespace State

variable {n : Nat} {s t : State n} {p : Fin n}

def rank (s : State n) : Nat := s.parent.rank n + totalRank ChildPc.rank s.child

/-- The parent has exited, and so have the children that were forked. -/
structure Finished (s : State n) : Prop where
  parent : ∃ status, s.parent = .exited status
  children : ∀ p, s.child p = .unborn ∨ (s.child p).finished = true

theorem rank_initial (left : Option Nat) : (initial (n := n) left).rank = 8 * n + 5 := by
  have htotal : totalRank ChildPc.rank (fun _ : Fin n => ChildPc.unborn) = n * 6 := by
    simp [totalRank, ChildPc.rank]
  change n + n + 5 + totalRank ChildPc.rank (fun _ : Fin n => ChildPc.unborn) = _
  omega

theorem childStep_rank (h : s.childStep p = some t) : t.rank < s.rank := by
  obtain ⟨pc', sem', hruns, rfl⟩ := childStep_cases h
  exact Nat.add_lt_add_left (totalRank_update_lt hruns.rank_lt) _

theorem reapStep_rank (h : s.reapStep p = some t) : t.rank < s.rank := by
  obtain ⟨i, status, hparent, hi, hchild, rfl⟩ := reapStep_cases h
  have hsame := totalRank_update ChildPc.rank s.child p (.reaped status)
  have hzero : (s.child p).rank = 0 := by rw [hchild]; rfl
  change (n - (i + 1)) + 2 + totalRank ChildPc.rank (Function.update s.child p (.reaped status)) <
    s.parent.rank n + _
  rw [hparent]
  simp only [ParentPc.rank, ChildPc.rank] at hsame ⊢
  omega

theorem parentStep_rank (hinv : Invariant s) {succeeds : Bool}
    (h : s.parentStep succeeds = some t) : t.rank < s.rank := by
  have haccounted := hinv.accounted
  unfold parentStep at h
  cases hparent : s.parent with
  | semget | setval | remove =>
      rw [hparent] at h
      have hpos : 0 < s.parent.rank n := by
        rw [hparent]
        simp [ParentPc.rank]
      cases succeeds with
      | false =>
          cases h
          exact Nat.add_lt_add_right hpos _
      | true =>
          cases h
          apply Nat.add_lt_add_right
          rw [hparent]
          simp only [ParentPc.rank]
          omega
  | fork i =>
      rw [hparent] at h haccounted
      by_cases hi : i < n
      · simp only [hi, dif_pos] at h
        cases succeeds with
        | false =>
            cases h
            apply Nat.add_lt_add_right
            rw [hparent]
            simp [ParentPc.rank]
        | true =>
            cases h
            -- the child is born with the rank it had before
            have hunborn : s.child ⟨i, hi⟩ = .unborn := (haccounted.2.1 ⟨i, hi⟩).mpr le_rfl
            have hsame := totalRank_update ChildPc.rank s.child ⟨i, hi⟩ .attempt
            rw [hunborn] at hsame
            change (n - (i + 1)) + n + 3 +
              totalRank ChildPc.rank (Function.update s.child ⟨i, hi⟩ .attempt) <
                s.parent.rank n + _
            rw [hparent]
            simp only [ParentPc.rank, ChildPc.rank] at hsame ⊢
            omega
      · simp only [hi, dif_neg, not_false_eq_true] at h
        cases h
        apply Nat.add_lt_add_right
        rw [hparent]
        simp only [ParentPc.rank]
        omega
  | wait i =>
      rw [hparent] at h
      have hnext : ∀ pc, pc.rank n < (ParentPc.wait i).rank n →
          ({ s with parent := pc } : State n).rank < s.rank := by
        intro pc hpc
        rw [← hparent] at hpc
        exact Nat.add_lt_add_right hpc _
      by_cases hi : i < n
      · simp only [hi, if_true] at h
        obtain ⟨_, h⟩ := Option.ite_none_right_eq_some.mp h
        cases h
        apply hnext
        simp only [ParentPc.rank]
        omega
      · simp only [hi, if_false] at h
        cases h
        apply hnext
        simp only [ParentPc.rank]
        omega
  | exited status =>
      rw [hparent] at h
      cases h

theorem step_rank (hinv : Invariant s) {a : Action n} (h : s.step a = some t) :
    t.rank < s.rank := by
  cases a with
  | parent succeeds => exact parentStep_rank hinv h
  | reap p => exact reapStep_rank h
  | child p => exact childStep_rank h

/-- A child that holds the unit can go on. -/
theorem childStep_of_inCritical (h : (s.child p).inCritical = true) :
    ∃ t, s.childStep p = some t := by
  unfold childStep
  cases hpc : s.child p with
  | enter | sleep => exact ⟨_, rfl⟩
  | give => cases s.sem <;> exact ⟨_, rfl⟩
  | unborn | attempt | take | exit | exited _ | reaped _ =>
      rw [hpc] at h
      cases h

/-- Of the children that are at work one can go on. -/
theorem childStep_of_active (hinv : Invariant s)
    (h : ¬ (s.child p = .unborn ∨ (s.child p).finished = true)) :
    ∃ q t, s.childStep q = some t := by
  cases hpc : s.child p with
  | unborn | exited _ | reaped _ => simp [hpc, ChildPc.finished] at h
  | attempt | enter | sleep | exit =>
      exact ⟨p, by simp [childStep, hpc]⟩
  | give =>
      have hcritical : (s.child p).inCritical = true := by rw [hpc]; rfl
      obtain ⟨t, hstep⟩ := childStep_of_inCritical hcritical
      exact ⟨p, t, hstep⟩
  | take =>
      have hset : s.valueSet = true := by
        by_contra hunset
        have hunborn := hinv.unset (by simpa using hunset) p
        cases hpc.symm.trans hunborn
      have hkept : s.removed = false := by
        by_contra hremoved
        have hreaped := (hinv.removed (by simpa using hremoved)).2 p
        rw [hpc] at hreaped
        cases hreaped
      obtain ⟨value, hsem, hlaw⟩ := hinv.conserved hset hkept
      cases value with
      | succ value =>
          exact ⟨p, by simp [childStep, hpc, hsem]⟩
      | zero =>
          -- the unit is taken, so somebody has it
          have hholder : ∃ q, (s.child q).inCritical = true := by
            by_contra hnone
            have hall : ∀ q, (s.child q).inCritical = false := by simpa using hnone
            cases hlaw.value_of_none_inside hall
          obtain ⟨q, hq⟩ := hholder
          obtain ⟨t, hstep⟩ := childStep_of_inCritical hq
          exact ⟨q, t, hstep⟩

/-- The parent can go on when no child is at work. -/
theorem exists_step_of_idle (hparent : ∀ status, s.parent ≠ .exited status)
    (hidle : ∀ p, s.child p = .unborn ∨ (s.child p).finished = true) :
    ∃ a t, s.step a = some t := by
  cases hpc : s.parent with
  | exited status => exact absurd hpc (hparent status)
  | semget | setval | remove =>
      exact ⟨.parent true, by simp [step, parentStep, hpc]⟩
  | fork i =>
      by_cases hi : i < n
      · exact ⟨.parent true, by simp [step, parentStep, hpc, hi]⟩
      · exact ⟨.parent true, by simp [step, parentStep, hpc, hi]⟩
  | wait i =>
      by_cases hi : i < n
      · by_cases hnobody : ∀ p, s.child p = .unborn ∨ (s.child p).isReaped = true
        · exact ⟨.parent true, by simp [step, parentStep, hpc, hi, hnobody]⟩
        · push Not at hnobody
          obtain ⟨p, hborn, hunreaped⟩ := hnobody
          have hfinished := (hidle p).resolve_left hborn
          cases hchild : s.child p with
          | exited status =>
              exact ⟨.reap p, by simp [step, reapStep, hpc, hchild, hi]⟩
          | reaped status => simp [hchild, ChildPc.isReaped] at hunreaped
          | unborn | attempt | take | enter | sleep | give | exit =>
              rw [hchild] at hfinished
              cases hfinished
      · exact ⟨.parent true, by simp [step, parentStep, hpc, hi]⟩

theorem exists_step (hinv : Invariant s) (hgoing : ¬ Finished s) :
    ∃ a t, anyAction s a ∧ s.step a = some t := by
  by_cases hidle : ∀ p, s.child p = .unborn ∨ (s.child p).finished = true
  · have hparent : ∀ status, s.parent ≠ .exited status :=
      fun status h => hgoing ⟨⟨status, h⟩, hidle⟩
    obtain ⟨a, t, hstep⟩ := exists_step_of_idle hparent hidle
    exact ⟨a, t, trivial, hstep⟩
  · obtain ⟨p, hp⟩ := not_forall.mp hidle
    obtain ⟨q, t, hstep⟩ := childStep_of_active hinv hp
    exact ⟨.child q, t, trivial, hstep⟩

end State

/-- In every run, with any of the parent's calls failing, at most 8 steps a child and 5 more
are taken, and no state is stuck before all the processes have exited. -/
theorem finalExam1_ends (numProcesses : Nat) (left : Option Nat) :
    EndsWithin State.step anyAction State.Finished (8 * numProcesses + 5)
      (State.initial left : State numProcesses) := by
  rw [← State.rank_initial left]
  exact .of_rank State.rank (fun _ _ _ h _ hstep => State.Invariant.step h hstep)
    (fun _ _ _ h _ hstep => State.step_rank h hstep)
    (fun _ h hgoing => State.exists_step h hgoing) (State.Invariant.initial left)

end Unx511.Exam
