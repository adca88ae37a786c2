import Unx511.Assignment1.Worker
import Unx511.Machine.Termination

/-!
Assignment 1, Part 2, `test_worker_main.c`: the parent waits for its worker and then looks
at the flags that its handlers have set. The worker signals before it exits, and a signal
that is pending when `waitpid` returns is delivered on the way back; so the flags are set by
then, and the verdict is right. SIGUSR1 and SIGUSR2 end a `waitpid`, which is called again.
-/

namespace Unx511.Assignment1.Part2

open Machine

inductive WaitResult where
  | child
  | eintr
  | error
  deriving DecidableEq, Repr

/-- `loop` calls `waitpid`. When it returns, signals that are pending come first. -/
inductive ParentPc where
  | loop
  | waiting
  | returning (r : WaitResult)
  | reportWarning
  | reportCompletion
  | unlink (code : Nat)
  | returned (code : Nat)
  deriving DecidableEq, Repr

/-- A working process has still to send the signals in `left`. -/
inductive WorkerPc where
  | working (left : List Signal)
  | zombie
  | reaped
  deriving DecidableEq, Repr

/-- `received` are the two flags of the handler, `reports` the lines about the signals, and
`file` says that the dummy file is there. Two histories: the signals sent, and whether the
worker was killed before its `exit`. -/
structure State where
  parent : ParentPc
  worker : WorkerPc
  pending : Signal → Bool
  received : Signal → Bool
  reports : List (Signal × Bool)
  file : Bool
  sent : List Signal
  killed : Bool

/-- After `fork`, with a worker that is going to end like this. -/
def State.initial (ending : Ending) : State where
  parent := .loop
  worker := .working ending.signals
  pending := fun _ => false
  received := fun _ => false
  reports := []
  file := true
  sent := []
  killed := false

/-- `wake` is a signal that ends `waitpid`. -/
inductive Action where
  | parent
  | deliver (sig : Signal)
  | wake
  | waitFails
  | send
  | exit
  | kill
  deriving DecidableEq, Repr

def State.quiet (s : State) : Prop := s.pending .usr1 = false ∧ s.pending .usr2 = false

instance (s : State) : Decidable s.quiet := inferInstanceAs (Decidable (_ ∧ _))

def parentStep (s : State) : Option State :=
  match s.parent with
  | .loop => some { s with parent := .waiting }
  | .waiting =>
      if s.worker = .zombie then some { s with parent := .returning .child, worker := .reaped }
      else none
  | .returning .child => if s.quiet then some { s with parent := .reportWarning } else none
  | .returning .eintr => if s.quiet then some { s with parent := .loop } else none
  | .returning .error => if s.quiet then some { s with parent := .unlink 1 } else none
  | .reportWarning =>
      some { s with
        parent := .reportCompletion, reports := s.reports ++ [(.usr1, s.received .usr1)] }
  | .reportCompletion =>
      some { s with
        parent := .unlink (if s.received .usr2 then 0 else 1)
        reports := s.reports ++ [(.usr2, s.received .usr2)] }
  | .unlink code => some { s with parent := .returned code, file := false }
  | .returned _ => none

/-- The handlers run between two statements of the parent, and before a system call
returns. -/
def ParentPc.handles : ParentPc → Bool
  | .waiting | .returned _ => false
  | _ => true

/-- `test_parent_signal_handler` -/
def deliverStep (sig : Signal) (s : State) : Option State :=
  if s.pending sig = true ∧ s.parent.handles = true then
    some { s with
      pending := Function.update s.pending sig false
      received := Function.update s.received sig true }
  else none

def workerStep (s : State) : Action → Option State
  | .send =>
      match s.worker with
      | .working (sig :: left) =>
          some { s with
            worker := .working left, pending := Function.update s.pending sig true
            sent := s.sent ++ [sig] }
      | _ => none
  | .exit => if s.worker = .working [] then some { s with worker := .zombie } else none
  | .kill =>
      match s.worker with
      | .working _ => some { s with worker := .zombie, killed := true }
      | _ => none
  | _ => none

def step (s : State) : Action → Option State
  | .parent => parentStep s
  | .deliver sig => deliverStep sig s
  | .wake =>
      if s.parent = .waiting ∧ ¬ s.quiet then some { s with parent := .returning .eintr } else none
  | .waitFails =>
      if s.parent = .waiting then some { s with parent := .returning .error } else none
  | a => workerStep s a

/-- `waitpid` fails for no other reason than a signal. -/
def WaitWorks (_ : State) (a : Action) : Prop := a ≠ .waitFails

/-- The program has ended with the right verdict and without its file. -/
structure Verified (ending : Ending) (s : State) : Prop where
  code : s.parent = .returned (if .usr2 ∈ s.sent then 0 else 1)
  reports : s.reports = [(.usr1, decide (.usr1 ∈ s.sent)), (.usr2, decide (.usr2 ∈ s.sent))]
  file : s.file = false
  sent : s.sent <+: ending.signals
  complete : s.killed = false → s.sent = ending.signals

/-- The parent has its child's status, and is back from `waitpid`. -/
def ParentPc.behind : ParentPc → Bool
  | .reportWarning | .reportCompletion | .unlink _ | .returned _ => true
  | _ => false

/-- The lines that the parent has printed where it is. -/
def ParentPc.reported (sent : List Signal) : ParentPc → List (Signal × Bool)
  | .reportCompletion => [(.usr1, decide (.usr1 ∈ sent))]
  | .unlink _ | .returned _ =>
      [(.usr1, decide (.usr1 ∈ sent)), (.usr2, decide (.usr2 ∈ sent))]
  | _ => []

/-- The signals that the worker has still to send, unless it is killed. -/
def WorkerPc.left : WorkerPc → List Signal
  | .working left => left
  | .zombie | .reaped => []

structure Consistent (ending : Ending) (s : State) : Prop where
  /-- What was sent is pending or was received. -/
  arrived : ∀ sig, sig ∈ s.sent ↔ s.pending sig = true ∨ s.received sig = true
  script : s.sent ++ s.worker.left <+: ending.signals
  complete : s.killed = false → s.sent ++ s.worker.left = ending.signals
  reaped : s.parent.behind = true ∨ s.parent = .returning .child ↔ s.worker = .reaped
  settled : s.parent.behind = true → ∀ sig, s.pending sig = false
  reports : s.reports = s.parent.reported s.sent
  code : ∀ code, s.parent = .unlink code ∨ s.parent = .returned code →
    code = if .usr2 ∈ s.sent then 0 else 1
  file : ∀ code, s.parent = .returned code → s.file = false
  noError : s.parent ≠ .returning .error

variable {ending : Ending} {s t : State} {a : Action} {sig : Signal}

theorem quiet_iff : s.quiet ↔ ∀ sig, s.pending sig = false := by
  constructor
  · rintro ⟨h1, h2⟩ sig
    cases sig with
    | usr1 => exact h1
    | usr2 => exact h2
  · exact fun h => ⟨h _, h _⟩

theorem consistent_initial (ending : Ending) : Consistent ending (State.initial ending) where
  arrived := by simp [State.initial]
  script := List.prefix_rfl
  complete := fun _ => rfl
  reaped := by simp [State.initial, ParentPc.behind]
  settled := nofun
  reports := rfl
  code := by rintro code (h | h) <;> cases h
  file := nofun
  noError := nofun

/-- What is to be shown where the parent goes on in front of its verdict. -/
theorem Consistent.goto {pc : ParentPc} {reports : List (Signal × Bool)}
    (h : Consistent ending s) (hunlink : ∀ code, pc ≠ .unlink code)
    (hreturned : ∀ code, pc ≠ .returned code) (herror : pc ≠ .returning .error)
    (hreaped : pc.behind = true ∨ pc = .returning .child ↔ s.worker = .reaped)
    (hsettled : pc.behind = true → ∀ sig, s.pending sig = false)
    (hreports : reports = pc.reported s.sent) :
    Consistent ending { s with parent := pc, reports := reports } where
  arrived := h.arrived
  script := h.script
  complete := h.complete
  reaped := hreaped
  settled := hsettled
  reports := hreports
  code := by
    rintro code (hcode | hcode)
    · exact absurd hcode (hunlink code)
    · exact absurd hcode (hreturned code)
  file := fun code hcode => absurd hcode (hreturned code)
  noError := herror

def ParentPc.rank : ParentPc → Nat
  | .returning .eintr => 7
  | .loop => 6
  | .waiting => 5
  | .returning _ => 4
  | .reportWarning => 3
  | .reportCompletion => 2
  | .unlink _ => 1
  | .returned _ => 0

/-- What a pending signal costs: the handler, and another call of `waitpid` unless one is
returning already. -/
def ParentPc.cost : ParentPc → Nat
  | .returning _ => 1
  | _ => 5

def WorkerPc.rank : WorkerPc → Nat
  | .working left => 6 * left.length + 1
  | .zombie | .reaped => 0

def count (pending : Signal → Bool) : Nat := (pending .usr1).toNat + (pending .usr2).toNat

def State.rank (s : State) : Nat :=
  s.parent.rank + s.parent.cost * count s.pending + s.worker.rank

theorem count_deliver (hpending : s.pending sig = true) :
    count (Function.update s.pending sig false) + 1 = count s.pending := by
  cases sig with
  | usr1 =>
      simp only [count, Function.update_self, ne_eq, reduceCtorEq, not_false_eq_true,
        Function.update_of_ne, hpending, Bool.toNat_true, Bool.toNat_false]
      omega
  | usr2 =>
      simp only [count, Function.update_self, ne_eq, reduceCtorEq, not_false_eq_true,
        Function.update_of_ne, hpending, Bool.toNat_true, Bool.toNat_false]

theorem count_send (pending : Signal → Bool) (sig : Signal) :
    count (Function.update pending sig true) ≤ count pending + 1 := by
  cases sig with
  | usr1 =>
      simp only [count, Function.update_self, ne_eq, reduceCtorEq, not_false_eq_true,
        Function.update_of_ne, Bool.toNat_true]
      omega
  | usr2 =>
      simp only [count, Function.update_self, ne_eq, reduceCtorEq, not_false_eq_true,
        Function.update_of_ne, Bool.toNat_true]
      omega

theorem count_of_quiet (h : s.quiet) : count s.pending = 0 := by
  simp [count, h.1, h.2]

theorem parentStep_rank (hstep : parentStep s = some t) : t.rank < s.rank := by
  unfold parentStep at hstep
  unfold State.rank
  split at hstep
  case h_1 hpc | h_6 hpc | h_7 hpc | h_8 hpc =>
    cases hstep
    rw [hpc]
    simp only [ParentPc.rank, ParentPc.cost]
    omega
  case h_2 hpc =>
    obtain ⟨hzombie, hstep⟩ := Option.ite_none_right_eq_some.mp hstep
    cases hstep
    rw [hpc, hzombie]
    simp only [ParentPc.rank, ParentPc.cost, WorkerPc.rank]
    omega
  case h_3 hpc | h_4 hpc | h_5 hpc =>
    obtain ⟨hquiet, hstep⟩ := Option.ite_none_right_eq_some.mp hstep
    have hcount := count_of_quiet hquiet
    cases hstep
    rw [hpc]
    simp only [ParentPc.rank, ParentPc.cost, hcount]
    omega
  case h_9 => cases hstep

theorem step_rank (hstep : step s a = some t) : t.rank < s.rank := by
  unfold step at hstep
  split at hstep
  case h_1 => exact parentStep_rank hstep
  case h_2 sig =>
    obtain ⟨⟨hpending, _⟩, hstep⟩ := Option.ite_none_right_eq_some.mp hstep
    have hcount := count_deliver hpending
    cases hstep
    have hcost : 0 < s.parent.cost := by
      unfold ParentPc.cost
      split <;> decide
    have hmul := Nat.mul_lt_mul_of_pos_left (Nat.lt_of_succ_le hcount.le) hcost
    simp only [State.rank]
    omega
  case h_3 =>
    obtain ⟨⟨hpc, hnot⟩, hstep⟩ := Option.ite_none_right_eq_some.mp hstep
    cases hstep
    have hpos : 1 ≤ count s.pending := by
      by_contra hzero
      apply hnot
      unfold count at hzero
      constructor
      · cases hpending : s.pending .usr1 <;> simp [hpending] at hzero ⊢
      · cases hpending : s.pending .usr2 <;> simp [hpending] at hzero ⊢
    simp only [State.rank, hpc, ParentPc.rank, ParentPc.cost]
    omega
  case h_4 =>
    obtain ⟨hpc, hstep⟩ := Option.ite_none_right_eq_some.mp hstep
    cases hstep
    simp only [State.rank, hpc, ParentPc.rank, ParentPc.cost]
    omega
  case h_5 =>
    unfold workerStep at hstep
    split at hstep
    case h_1 =>
      split at hstep
      case h_1 sig left hworker =>
        have hcount := count_send s.pending sig
        cases hstep
        have hcost : s.parent.cost ≤ 5 := by
          unfold ParentPc.cost
          split <;> decide
        have hmul := Nat.mul_le_mul_left s.parent.cost hcount
        rw [Nat.mul_add] at hmul
        simp only [State.rank, hworker, WorkerPc.rank, List.length_cons]
        omega
      case h_2 => cases hstep
    case h_2 =>
      obtain ⟨hworker, hstep⟩ := Option.ite_none_right_eq_some.mp hstep
      cases hstep
      simp only [State.rank, hworker, WorkerPc.rank]
      omega
    case h_3 =>
      split at hstep
      case h_1 left hworker =>
        cases hstep
        simp only [State.rank, hworker, WorkerPc.rank]
        omega
      case h_2 => cases hstep
    case h_4 => cases hstep

theorem Consistent.verified (h : Consistent ending s) {code : Nat}
    (hpc : s.parent = .returned code) :
    Verified ending s := by
  have hbehind : s.parent.behind = true := by rw [hpc]; rfl
  have hworker := h.reaped.mp (.inl hbehind)
  have hscript := h.script
  have hcomplete := h.complete
  have hreports := h.reports
  rw [hworker] at hscript hcomplete
  simp only [WorkerPc.left, List.append_nil] at hscript hcomplete
  rw [hpc] at hreports
  refine ⟨?_, hreports, h.file code hpc, hscript, hcomplete⟩
  rw [hpc, h.code code (.inr hpc)]

theorem Consistent.goesOn (h : Consistent ending s) (hnot : ¬ Verified ending s) :
    ∃ a t, WaitWorks s a ∧ step s a = some t := by
  have hgo : ∀ {t}, parentStep s = some t → ∃ a t, WaitWorks s a ∧ step s a = some t :=
    fun {t} hstep => ⟨.parent, t, nofun, hstep⟩
  cases hpc : s.parent with
  | loop | reportWarning | reportCompletion | unlink code =>
      exact hgo (by simp only [parentStep, hpc]; rfl)
  | waiting =>
      cases hworker : s.worker with
      | zombie => exact hgo (by simp only [parentStep, hpc, hworker, if_true]; rfl)
      | reaped =>
          rcases h.reaped.mpr hworker with hbehind | hchild
          · rw [hpc] at hbehind
            cases hbehind
          · cases hpc.symm.trans hchild
      | working left =>
          cases left with
          | nil => exact ⟨.exit, _, nofun, by simp only [step, workerStep, hworker, if_true]; rfl⟩
          | cons sig left => exact ⟨.send, _, nofun, by simp only [step, workerStep, hworker]; rfl⟩
  | returning r =>
      by_cases hquiet : s.quiet
      · cases r with
        | child | eintr => exact hgo (by simp only [parentStep, hpc, if_pos hquiet]; rfl)
        | error => exact absurd hpc h.noError
      · rw [quiet_iff] at hquiet
        push Not at hquiet
        obtain ⟨sig, hpending⟩ := hquiet
        have hpending : s.pending sig = true := by simpa using hpending
        have hhandles : s.parent.handles = true := by rw [hpc]; rfl
        exact ⟨.deliver sig, _, nofun, if_pos ⟨hpending, hhandles⟩⟩
  | returned code => exact absurd (h.verified hpc) hnot

/-! The worker. -/

section Worker

variable {β : Type*}

theorem readLoop_alarm_consistent (readings : Nat → Reading) (chunks : List (List β)) (i : Nat)
    {w : Worker β} (h : w.alarm.Consistent) :
    (Worker.readLoop readings chunks i w).1.alarm.Consistent := by
  have haccumulate : ∀ (chunk : List β) (w : Worker β), (w.accumulate chunk).alarm = w.alarm := by
    intro chunk w
    unfold Worker.accumulate
    split <;> rfl
  induction chunks generalizing i w with
  | nil => exact h
  | cons chunk rest ih =>
      rw [Worker.readLoop]
      split
      · rw [haccumulate]
        exact h
      · exact ih (i + 1) (Alarm.check_spec (readings i) h).1

/-- The signals of an alarm. -/
theorem alarm_signals {alarm : Alarm} (h : alarm.Consistent) :
    alarm.signals.length ≤ 1 ∧ .usr2 ∉ alarm.signals := by
  rw [h.signals_eq]
  split <;> simp

/-- A worker sends each signal once at most, and SIGUSR2 exactly when it succeeds. -/
theorem dhsbWorkerProcess_signals (opened : Bool) (malloc : (n : Nat) → Option (Vector β n))
    (initialReading : Reading) (readings : Nat → Reading) (chunks : List (List β)) :
    (dhsbWorkerProcess opened malloc initialReading readings chunks).signals.length ≤ 2 ∧
      (.usr2 ∈ (dhsbWorkerProcess opened malloc initialReading readings chunks).signals ↔
        (dhsbWorkerProcess opened malloc initialReading readings chunks).status = 0) := by
  obtain ⟨hconsistent, _⟩ := Alarm.observe_spec initialReading Alarm.initial_consistent
  unfold dhsbWorkerProcess
  split
  · simp
  · split
    · simp
    · dsimp only
      split
      · obtain ⟨hlength, hmem⟩ := alarm_signals hconsistent
        exact ⟨hlength.trans (by decide), iff_of_false hmem nofun⟩
      case h_2 memory _ =>
        have hloop := readLoop_alarm_consistent readings chunks 0
          (w := .start (Alarm.initial.observe initialReading) memory) hconsistent
        split
        all_goals
          rename_i w hrun
          rw [hrun] at hloop
          obtain ⟨hlength, hmem⟩ := alarm_signals hloop
        · rw [List.length_append]
          exact ⟨Nat.add_le_add hlength le_rfl, iff_of_true (by simp) rfl⟩
        · exact ⟨hlength.trans (by decide), iff_of_false hmem nofun⟩

end Worker

end Unx511.Assignment1.Part2
