import Unx511.Machine.Run

/-!
Assignment 1, Part 4: `parent_main.c` and its three `worker_process` children.
A worker sends SIGUSR1 when it uses too much memory and SIGUSR2 when it is done;
the parent learns the sender from `si_pid`. A standard signal is not queued: a
second instance sent while one is pending is discarded.

The parent is modelled from the `sigprocmask` in front of the forks. Worker `i`
of the source is number `i - 1` here, its index in `worker_pids`.
-/

namespace Unx511.Assignment1.Part4

open Unx511.Machine

/-- The three loops of `main` around `sigsuspend`. -/
inductive Await where
  | memoryWarning
  | worker1
  | worker2
  deriving DecidableEq, Repr

instance : Fintype Await where
  elems := {.memoryWarning, .worker1, .worker2}
  complete := fun loop => by cases loop <;> decide

/-- At `enter` the flag was not set and `sigsuspend` is next; `wait` is `waitpid` for worker
`i`. -/
inductive ParentPc where
  | block
  | fork (i : Nat)
  | unblock
  | test (loop : Await)
  | enter (loop : Await)
  | suspended (loop : Await)
  | wait (i : Nat)
  | report
  | exited
  deriving DecidableEq, Repr

/-- `starting` covers `execl`, `open` and `malloc`; at `finishing` SIGUSR2 is sent. -/
inductive WorkerPc where
  | unborn
  | starting
  | reading (warned : Bool)
  | finishing
  | exited (completed : Bool)
  deriving DecidableEq, Repr

namespace WorkerPc

def sentUsr2 : WorkerPc → Bool
  | finishing | exited true => true
  | _ => false

def born : WorkerPc → Bool
  | unborn => false
  | _ => true

def terminated : WorkerPc → Bool
  | exited _ => true
  | _ => false

/-- The process has a pid that the kernel cannot give away. -/
def live (pc : WorkerPc) : Bool := pc.born && !pc.terminated

end WorkerPc

/-- `blocked`: both signals are in the mask of the process. `handling`: the handler runs, and
`sa_mask` blocks both. Of a pending signal its `si_pid` is kept. -/
structure State where
  parent : ParentPc
  blocked : Bool
  handling : Bool
  pendingUsr1 : Option Nat
  pendingUsr2 : Option Nat
  workerPids : Fin 3 → Nat
  memoryWarned : Bool
  completed : Fin 3 → Bool
  worker : Fin 3 → WorkerPc
  stdout : List String

def State.initial : State where
  parent := .block
  blocked := false
  handling := false
  pendingUsr1 := none
  pendingUsr2 := none
  workerPids := fun _ => 0
  memoryWarned := false
  completed := fun _ => false
  worker := fun _ => .unborn
  stdout := []

/-- The pending instance after another one is sent. -/
def raise (pending : Option Nat) (pid : Nat) : Option Nat := some (pending.getD pid)

/-- The first entry of `worker_pids` that equals `si_pid`. -/
def senderIndex (workerPids : Fin 3 → Nat) (pid : Nat) : Option (Fin 3) :=
  [0, 1, 2].find? fun i => workerPids i = pid

/-- `dhsb_signal_handler` for SIGUSR1. -/
def handleUsr1 (pid : Nat) (s : State) : State :=
  if senderIndex s.workerPids pid = some 2 ∧ s.memoryWarned = false then
    { s with
      memoryWarned := true
      stdout := s.stdout ++ ["⚠️ Worker exceeded memory limit!\n"] }
  else s

/-- The completion of worker 3 is not printed. -/
def completionLines (i : Fin 3) : List String :=
  if i = 0 then ["✅ Worker 1 completed.\n"]
  else if i = 1 then ["✅ Worker 2 completed.\n"]
  else []

/-- `dhsb_signal_handler` for SIGUSR2. -/
def handleUsr2 (pid : Nat) (s : State) : State :=
  match senderIndex s.workerPids pid with
  | some i =>
      if s.completed i then s
      else
        { s with
          completed := Function.update s.completed i true
          stdout := s.stdout ++ completionLines i }
  | none => s

/-- The flag that a loop of `main` waits for. -/
def State.flag (s : State) : Await → Bool
  | .memoryWarning => s.memoryWarned
  | .worker1 => s.completed 0
  | .worker2 => s.completed 1

/-- The worker whose signal sets that flag. -/
def Await.sender : Await → Fin 3
  | .memoryWarning => 2
  | .worker1 => 0
  | .worker2 => 1

def Await.next : Await → ParentPc
  | .memoryWarning => .test .worker1
  | .worker1 => .test .worker2
  | .worker2 => .wait 0

/-- No child with this pid is left, so `waitpid` for it returns. SIGCHLD is
ignored, so terminated children leave no zombie. -/
def State.reaped (s : State) (pid : Nat) : Bool :=
  decide (∀ j, s.workerPids j = pid → (s.worker j).live = false)

/-- `main` of the parent runs its next statement, or `none` while it sleeps. -/
def parentStep (s : State) : Option State :=
  match s.parent with
  | .block => some { s with blocked := true, parent := .fork 0 }
  | .unblock => some { s with blocked := false, parent := .test .memoryWarning }
  | .test loop =>
      some { s with parent := if s.flag loop then loop.next else .enter loop }
  | .enter loop => some { s with parent := .suspended loop }
  | .wait i =>
      if h : i < 3 then
        if s.reaped (s.workerPids ⟨i, h⟩) then some { s with parent := .wait (i + 1) } else none
      else some { s with parent := .report }
  | .report =>
      some { s with parent := .exited, stdout := s.stdout ++ ["🔁 Parent done waiting.\n"] }
  | .fork _ | .suspended _ | .exited => none

/-- The parent's side of a successful `fork` of worker `i`. SIGUSR1 and SIGUSR2
are blocked between the call and the store into `worker_pids`. -/
def forkStep (pid : Nat) (s : State) : Option State :=
  match s.parent with
  | .fork i =>
      if h : i < 3 then
        -- a new pid is not 0 and not the pid of a live child
        if pid ≠ 0 ∧ ∀ j, (s.worker j).live = true → s.workerPids j ≠ pid then
          some { s with
            workerPids := Function.update s.workerPids ⟨i, h⟩ pid
            worker := Function.update s.worker ⟨i, h⟩ .starting
            parent := if i + 1 < 3 then .fork (i + 1) else .unblock }
        else none
      else none
  | _ => none

/-- Delivery of a signal starts the handler, which runs to the point where the
flag is set; it returns in a later step. -/
def deliverable (s : State) : Bool :=
  !s.blocked && !s.handling && decide (s.parent ≠ .exited)

def deliverUsr1 (s : State) : Option State :=
  if deliverable s then
    s.pendingUsr1.map fun pid => { handleUsr1 pid s with pendingUsr1 := none, handling := true }
  else none

def deliverUsr2 (s : State) : Option State :=
  if deliverable s then
    s.pendingUsr2.map fun pid => { handleUsr2 pid s with pendingUsr2 := none, handling := true }
  else none

/-- The handler returns, and with it a `sigsuspend`. -/
def handlerReturn (s : State) : Option State :=
  if s.handling then
    match s.parent with
    | .suspended loop => some { s with handling := false, parent := .test loop }
    | _ => some { s with handling := false }
  else none

def State.setWorker (s : State) (i : Fin 3) (pc : WorkerPc) : State :=
  { s with worker := Function.update s.worker i pc }

/-- `kill(parent_pid, SIGUSR1)` by worker `i`. -/
def sendUsr1 (i : Fin 3) (s : State) : State :=
  if s.parent = .exited then s
  else { s with pendingUsr1 := raise s.pendingUsr1 (s.workerPids i) }

def sendUsr2 (i : Fin 3) (s : State) : State :=
  if s.parent = .exited then s
  else { s with pendingUsr2 := raise s.pendingUsr2 (s.workerPids i) }

/-- `start` and `fail` end the set-up of worker `i`, `warn` is its first
`mem_usage > 50000`, and `complete` its end of file. -/
inductive Action where
  | parent
  | fork (pid : Nat)
  | forkFails
  | deliverUsr1
  | deliverUsr2
  | handlerReturn
  | start (i : Fin 3)
  | fail (i : Fin 3)
  | warn (i : Fin 3)
  | complete (i : Fin 3)
  | exit (i : Fin 3)
  deriving DecidableEq, Repr

def workerStep (s : State) : Action → Option State
  | .start i => if s.worker i = .starting then some (s.setWorker i (.reading false)) else none
  | .fail i => if s.worker i = .starting then some (s.setWorker i (.exited false)) else none
  | .warn i =>
      if s.worker i = .reading false then some ((sendUsr1 i s).setWorker i (.reading true))
      else none
  | .complete i =>
      match s.worker i with
      | .reading _ => some ((sendUsr2 i s).setWorker i .finishing)
      | _ => none
  | .exit i => if s.worker i = .finishing then some (s.setWorker i (.exited true)) else none
  | _ => none

def step (s : State) : Action → Option State
  | .parent => if s.handling then none else parentStep s
  | .fork pid => if s.handling then none else forkStep pid s
  | .forkFails =>
      match s.parent with
      | .fork _ => some { s with parent := .exited }
      | _ => none
  | .deliverUsr1 => deliverUsr1 s
  | .deliverUsr2 => deliverUsr2 s
  | .handlerReturn => handlerReturn s
  | a => workerStep s a

theorem deliverable_iff {s : State} :
    deliverable s = true ↔ s.blocked = false ∧ s.handling = false ∧ s.parent ≠ .exited := by
  simp [deliverable, and_assoc]

theorem handleUsr1_frame (pid : Nat) (s : State) :
    (handleUsr1 pid s).workerPids = s.workerPids ∧ (handleUsr1 pid s).completed = s.completed ∧
      (handleUsr1 pid s).pendingUsr2 = s.pendingUsr2 ∧ (handleUsr1 pid s).worker = s.worker ∧
      (handleUsr1 pid s).parent = s.parent := by
  unfold handleUsr1
  split
  · exact ⟨rfl, rfl, rfl, rfl, rfl⟩
  · exact ⟨rfl, rfl, rfl, rfl, rfl⟩

theorem sendUsr1_frame (i : Fin 3) (s : State) :
    (sendUsr1 i s).workerPids = s.workerPids ∧ (sendUsr1 i s).completed = s.completed ∧
      (sendUsr1 i s).pendingUsr2 = s.pendingUsr2 ∧ (sendUsr1 i s).worker = s.worker ∧
      (sendUsr1 i s).parent = s.parent := by
  unfold sendUsr1
  split
  · exact ⟨rfl, rfl, rfl, rfl, rfl⟩
  · exact ⟨rfl, rfl, rfl, rfl, rfl⟩

/-- A signal that is sent changes nothing but what is pending. -/
theorem sendUsr1_eq (i : Fin 3) (s : State) :
    ∃ pending, sendUsr1 i s = { s with pendingUsr1 := pending } := by
  unfold sendUsr1
  split
  · exact ⟨s.pendingUsr1, rfl⟩
  · exact ⟨_, rfl⟩

theorem sendUsr2_eq (i : Fin 3) (s : State) :
    ∃ pending, sendUsr2 i s = { s with pendingUsr2 := pending } := by
  unfold sendUsr2
  split
  · exact ⟨s.pendingUsr2, rfl⟩
  · exact ⟨_, rfl⟩

theorem handleUsr2_frame (pid : Nat) (s : State) :
    (handleUsr2 pid s).workerPids = s.workerPids ∧ (handleUsr2 pid s).worker = s.worker ∧
      (handleUsr2 pid s).parent = s.parent := by
  unfold handleUsr2
  split
  · split
    · exact ⟨rfl, rfl, rfl⟩
    · exact ⟨rfl, rfl, rfl⟩
  · exact ⟨rfl, rfl, rfl⟩

/-- The handler sets the flag of the worker it recognises and clears none. -/
theorem handleUsr2_completed {pid : Nat} {s : State} {i : Fin 3}
    (h : s.completed i = true ∨ senderIndex s.workerPids pid = some i) :
    (handleUsr2 pid s).completed i = true := by
  unfold handleUsr2
  cases hsender : Part4.senderIndex s.workerPids pid with
  | none => simp_all
  | some k =>
      rw [hsender] at h
      by_cases hk : i = k
      · subst hk
        cases hdone : s.completed i <;> simp [hdone]
      · have hdone : s.completed i = true := by
          rcases h with hdone | hsome
          · exact hdone
          · exact absurd (Option.some.inj hsome).symm hk
        cases hdone' : s.completed k <;> simp [hk, hdone, hdone']

theorem sendUsr2_frame (i : Fin 3) (s : State) :
    (sendUsr2 i s).workerPids = s.workerPids ∧ (sendUsr2 i s).completed = s.completed ∧
      (sendUsr2 i s).worker = s.worker ∧ (sendUsr2 i s).parent = s.parent := by
  unfold sendUsr2
  split
  · exact ⟨rfl, rfl, rfl, rfl⟩
  · exact ⟨rfl, rfl, rfl, rfl⟩

/-- What one step can do, statement by statement. -/
inductive Move (s : State) : Action → State → Prop
  | block (hpc : s.parent = .block) :
      Move s .parent { s with blocked := true, parent := .fork 0 }
  | unblock (hpc : s.parent = .unblock) :
      Move s .parent { s with blocked := false, parent := .test .memoryWarning }
  | pass {loop : Await} (hpc : s.parent = .test loop) (hflag : s.flag loop = true) :
      Move s .parent { s with parent := loop.next }
  | miss {loop : Await} (hpc : s.parent = .test loop) (hflag : s.flag loop = false) :
      Move s .parent { s with parent := .enter loop }
  | suspend {loop : Await} (hpc : s.parent = .enter loop) :
      Move s .parent { s with parent := .suspended loop }
  | reap {i : Nat} (hi : i < 3) (hpc : s.parent = .wait i)
      (hreaped : s.reaped (s.workerPids ⟨i, hi⟩) = true) :
      Move s .parent { s with parent := .wait (i + 1) }
  | reapedAll {i : Nat} (hi : ¬ i < 3) (hpc : s.parent = .wait i) :
      Move s .parent { s with parent := .report }
  | report (hpc : s.parent = .report) :
      Move s .parent
        { s with parent := .exited, stdout := s.stdout ++ ["🔁 Parent done waiting.\n"] }
  | fork {i pid : Nat} (hi : i < 3) (hpc : s.parent = .fork i) (hpid : pid ≠ 0)
      (hfresh : ∀ j, (s.worker j).live = true → s.workerPids j ≠ pid) :
      Move s (.fork pid) { s with
        workerPids := Function.update s.workerPids ⟨i, hi⟩ pid
        worker := Function.update s.worker ⟨i, hi⟩ .starting
        parent := if i + 1 < 3 then .fork (i + 1) else .unblock }
  | forkFails {i : Nat} (hpc : s.parent = .fork i) :
      Move s .forkFails { s with parent := .exited }
  | deliverUsr1 {pid : Nat} (hdeliverable : deliverable s = true)
      (hpending : s.pendingUsr1 = some pid) :
      Move s .deliverUsr1 { handleUsr1 pid s with pendingUsr1 := none, handling := true }
  | deliverUsr2 {pid : Nat} (hdeliverable : deliverable s = true)
      (hpending : s.pendingUsr2 = some pid) :
      Move s .deliverUsr2 { handleUsr2 pid s with pendingUsr2 := none, handling := true }
  | wake {loop : Await} (hhandling : s.handling = true) (hpc : s.parent = .suspended loop) :
      Move s .handlerReturn { s with handling := false, parent := .test loop }
  | handlerReturn (hhandling : s.handling = true) (hpc : ∀ loop, s.parent ≠ .suspended loop) :
      Move s .handlerReturn { s with handling := false }
  | start {i : Fin 3} (hpc : s.worker i = .starting) :
      Move s (.start i) (s.setWorker i (.reading false))
  | fail {i : Fin 3} (hpc : s.worker i = .starting) :
      Move s (.fail i) (s.setWorker i (.exited false))
  | warn {i : Fin 3} (hpc : s.worker i = .reading false) :
      Move s (.warn i) ((sendUsr1 i s).setWorker i (.reading true))
  | complete {i : Fin 3} {warned : Bool} (hpc : s.worker i = .reading warned) :
      Move s (.complete i) ((sendUsr2 i s).setWorker i .finishing)
  | exit {i : Fin 3} (hpc : s.worker i = .finishing) :
      Move s (.exit i) (s.setWorker i (.exited true))

theorem parentStep_move {s t : State} (h : parentStep s = some t) : Move s .parent t := by
  unfold parentStep at h
  split at h
  case h_1 hpc =>
    cases h
    exact .block hpc
  case h_2 hpc =>
    cases h
    exact .unblock hpc
  case h_3 loop hpc =>
    cases h
    cases hflag : s.flag loop with
    | true => exact .pass hpc hflag
    | false => exact .miss hpc hflag
  case h_4 loop hpc =>
    cases h
    exact .suspend hpc
  case h_5 i hpc =>
    split at h
    case isTrue hi =>
      split at h
      case isTrue hreaped =>
        cases h
        exact .reap hi hpc hreaped
      case isFalse => cases h
    case isFalse hi =>
      cases h
      exact .reapedAll hi hpc
  case h_6 hpc =>
    cases h
    exact .report hpc
  all_goals cases h

theorem forkStep_move {s t : State} {pid : Nat} (h : forkStep pid s = some t) :
    Move s (.fork pid) t := by
  unfold forkStep at h
  split at h
  case h_1 i hpc =>
    split at h
    case isTrue hi =>
      split at h
      case isTrue hpid =>
        cases h
        exact .fork hi hpc hpid.1 hpid.2
      case isFalse => cases h
    case isFalse => cases h
  case h_2 => cases h

theorem workerStep_move {s t : State} {a : Action} (h : workerStep s a = some t) :
    Move s a t := by
  unfold workerStep at h
  split at h
  case h_1 i =>
    split at h
    case isTrue hpc =>
      cases h
      exact .start hpc
    case isFalse => cases h
  case h_2 i =>
    split at h
    case isTrue hpc =>
      cases h
      exact .fail hpc
    case isFalse => cases h
  case h_3 i =>
    split at h
    case isTrue hpc =>
      cases h
      exact .warn hpc
    case isFalse => cases h
  case h_4 i =>
    split at h
    case h_1 warned hpc =>
      cases h
      exact .complete hpc
    case h_2 => cases h
  case h_5 i =>
    split at h
    case isTrue hpc =>
      cases h
      exact .exit hpc
    case isFalse => cases h
  case h_6 => cases h

theorem step_move {s t : State} {a : Action} (h : step s a = some t) : Move s a t := by
  unfold step at h
  split at h
  case h_1 =>
    split at h
    · cases h
    · exact parentStep_move h
  case h_2 pid =>
    split at h
    · cases h
    · exact forkStep_move h
  case h_3 =>
    split at h
    case h_1 i hpc =>
      cases h
      exact .forkFails hpc
    case h_2 => cases h
  case h_4 =>
    unfold Part4.deliverUsr1 at h
    split at h
    case isTrue hdeliverable =>
      obtain ⟨pid, hpending, rfl⟩ := Option.map_eq_some_iff.mp h
      exact .deliverUsr1 hdeliverable hpending
    case isFalse => cases h
  case h_5 =>
    unfold Part4.deliverUsr2 at h
    split at h
    case isTrue hdeliverable =>
      obtain ⟨pid, hpending, rfl⟩ := Option.map_eq_some_iff.mp h
      exact .deliverUsr2 hdeliverable hpending
    case isFalse => cases h
  case h_6 =>
    unfold Part4.handlerReturn at h
    split at h
    case isTrue hhandling =>
      split at h
      case h_1 loop hpc =>
        cases h
        exact .wake hhandling hpc
      case h_2 hpc =>
        cases h
        exact .handlerReturn hhandling hpc
    case isFalse => cases h
  case h_7 => exact workerStep_move h

end Unx511.Assignment1.Part4
