import Unx511.Assignment1.Part4

/-!
Lost wake-ups. Here every signal that is sent is delivered once, none is merged
with another; worker 3 sends its SIGUSR1 and every worker its SIGUSR2. `main`
tests a flag and calls `sigsuspend` with the signals unblocked, so the last
signal of all can be handled between the two, and nothing wakes `main` after it.
SIGCHLD is ignored, so the end of a worker does not either.
-/

namespace Unx511.Assignment1.Part4.Wakeup

open Unx511.Machine

/-- A signal on its way to the parent, with its `si_pid`. -/
inductive Signal where
  | usr1 (pid : Nat)
  | usr2 (pid : Nat)
  deriving DecidableEq, Repr

/-- The pending slots of `core` are empty between two steps: what is sent goes
to the queue. -/
structure State where
  core : Part4.State
  queue : List Signal

def State.initial : State := ⟨Part4.State.initial, []⟩

/-- `deliver n` is the delivery of the `n`th signal in the queue: they come in any order. -/
inductive Action where
  | act (a : Part4.Action)
  | deliver (n : Nat)
  deriving DecidableEq, Repr

/-- The signals that a step has sent. -/
def sent (s : Part4.State) : List Signal :=
  (s.pendingUsr1.map .usr1).toList ++ (s.pendingUsr2.map .usr2).toList

def enqueue (queue : List Signal) (s : Part4.State) : State where
  core := { s with pendingUsr1 := none, pendingUsr2 := none }
  queue := queue ++ sent s

/-- Worker 3 warns before it completes, no worker fails, and a signal is
delivered from the queue. -/
def sends (s : Part4.State) : Part4.Action → Bool
  | .fail _ | .deliverUsr1 | .deliverUsr2 => false
  | .complete i => i ≠ Await.memoryWarning.sender || s.worker i = .reading true
  | _ => true

def deliver (s : Part4.State) : Signal → Option Part4.State
  | .usr1 pid => deliverUsr1 { s with pendingUsr1 := some pid }
  | .usr2 pid => deliverUsr2 { s with pendingUsr2 := some pid }

def step (s : State) : Action → Option State
  | .act a => if sends s.core a then (Part4.step s.core a).map (enqueue s.queue) else none
  | .deliver n =>
      s.queue[n]?.bind fun signal =>
        (deliver s.core signal).map fun t => ⟨t, s.queue.eraseIdx n⟩

def SlotsEmpty (s : State) : Prop :=
  s.core.pendingUsr1 = none ∧ s.core.pendingUsr2 = none

/-- A signal is pending, or some worker has not sent its last one. -/
def SignalLeft (s : State) : Prop :=
  s.queue ≠ [] ∨ ∃ i, (s.core.worker i).sentUsr2 = false

/-- `main` sleeps in a loop whose flag is set, and no signal will wake it. -/
def Asleep (s : State) : Prop :=
  ∃ loop, s.core.parent = .suspended loop ∧ s.core.handling = false ∧
    s.core.flag loop = true ∧ ¬ SignalLeft s

/-- `main` calls `sigsuspend` with its flag unset, or with a signal left. -/
def SuspendsInTime (s : State) : Action → Prop
  | .act .parent =>
      ∀ loop, s.core.parent = .enter loop → s.core.flag loop = false ∨ SignalLeft s
  | _ => True

instance (s : State) : Decidable (SignalLeft s) := by
  unfold SignalLeft
  infer_instance

instance (s : State) (a : Action) : Decidable (SuspendsInTime s a) := by
  unfold SuspendsInTime
  split <;> infer_instance

theorem not_asleep_of_parent {s : State} (h : ∀ loop, s.core.parent ≠ .suspended loop) :
    ¬ Asleep s := by
  rintro ⟨loop, hparent, _⟩
  exact h loop hparent

theorem not_asleep_of_signalLeft {s : State} (h : SignalLeft s) : ¬ Asleep s := by
  rintro ⟨_, _, _, _, hnone⟩
  exact hnone h

theorem handleUsr2_pendingUsr1 (pid : Nat) (s : Part4.State) :
    (handleUsr2 pid s).pendingUsr1 = s.pendingUsr1 := by
  unfold handleUsr2
  split
  · split
    · rfl
    · rfl
  · rfl

theorem deliver_cases {s t : Part4.State} {signal : Signal} (h : deliver s signal = some t) :
    t.handling = true ∧ (s.pendingUsr1 = none → s.pendingUsr2 = none →
      t.pendingUsr1 = none ∧ t.pendingUsr2 = none) := by
  cases signal with
  | usr1 pid =>
      change Part4.deliverUsr1 { s with pendingUsr1 := some pid } = some t at h
      unfold Part4.deliverUsr1 at h
      split at h
      case isTrue =>
        obtain ⟨_, _, rfl⟩ := Option.map_eq_some_iff.mp h
        exact ⟨rfl, fun _ hnone => ⟨rfl, (handleUsr1_frame _ _).2.2.1.trans hnone⟩⟩
      case isFalse => cases h
  | usr2 pid =>
      change Part4.deliverUsr2 { s with pendingUsr2 := some pid } = some t at h
      unfold Part4.deliverUsr2 at h
      split at h
      case isTrue =>
        obtain ⟨_, _, rfl⟩ := Option.map_eq_some_iff.mp h
        exact ⟨rfl, fun hnone _ => ⟨(handleUsr2_pendingUsr1 _ _).trans hnone, rfl⟩⟩
      case isFalse => cases h

/-- A signal sent to a living parent goes to the queue. -/
theorem signalLeft_of_sent {queue : List Signal} {s : Part4.State} (h : sent s ≠ []) :
    SignalLeft (enqueue queue s) := by
  left
  intro hnil
  exact h (List.append_eq_nil_iff.mp hnil).2

theorem sent_sendUsr1 {i : Fin 3} {s : Part4.State} {pc : WorkerPc}
    (h : ((sendUsr1 i s).setWorker i pc).parent ≠ .exited) :
    sent ((sendUsr1 i s).setWorker i pc) ≠ [] := by
  have halive : s.parent ≠ .exited := by
    rwa [← (sendUsr1_frame i s).2.2.2.2]
  simp [sent, sendUsr1, halive, raise, State.setWorker]

theorem sent_sendUsr2 {i : Fin 3} {s : Part4.State} {pc : WorkerPc}
    (h : ((sendUsr2 i s).setWorker i pc).parent ≠ .exited) :
    sent ((sendUsr2 i s).setWorker i pc) ≠ [] := by
  have halive : s.parent ≠ .exited := by
    rwa [← (sendUsr2_frame i s).2.2.2]
  simp [sent, sendUsr2, halive, raise, State.setWorker]

theorem not_asleep_after_send {queue : List Signal} {s : Part4.State}
    (h : s.parent ≠ .exited → sent s ≠ []) : ¬ Asleep (enqueue queue s) := by
  intro hasleep
  obtain ⟨loop, hparent, _⟩ := id hasleep
  have halive : s.parent ≠ .exited := by
    intro hexited
    cases hexited.symm.trans hparent
  exact not_asleep_of_signalLeft (signalLeft_of_sent (h halive)) hasleep

theorem step_act {s t : State} {a : Part4.Action} (h : step s (.act a) = some t) :
    sends s.core a = true ∧ ∃ u, Part4.step s.core a = some u ∧ t = enqueue s.queue u := by
  change (if sends s.core a then (Part4.step s.core a).map (enqueue s.queue)
    else none) = some t at h
  split at h
  case isTrue hsends =>
    obtain ⟨u, hstep, rfl⟩ := Option.map_eq_some_iff.mp h
    exact ⟨hsends, u, hstep, rfl⟩
  case isFalse => cases h

theorem not_handling_of_parent {s t : Part4.State} (h : Part4.step s .parent = some t) :
    s.handling = false := by
  change (if s.handling then none else parentStep s) = some t at h
  split at h
  case isTrue => cases h
  case isFalse hhandling => simpa using hhandling

/-- A worker that exits has sent its signals, and its exit wakes nobody. -/
theorem asleep_of_exit {s : State} {i : Fin 3} (hpc : s.core.worker i = .finishing)
    (h : Asleep (enqueue s.queue (s.core.setWorker i (.exited true)))) : Asleep s := by
  obtain ⟨loop, hparent, hhandling, hflag, hnone⟩ := h
  refine ⟨loop, hparent, hhandling, ?_, ?_⟩
  · cases loop <;> exact hflag
  · rintro (hqueue | ⟨j, hj⟩)
    · exact hnone (.inl fun hnil => hqueue (List.append_eq_nil_iff.mp hnil).1)
    · refine hnone (.inr ⟨j, ?_⟩)
      have hne : j ≠ i := by
        rintro rfl
        rw [hpc] at hj
        cases hj
      simpa [enqueue, State.setWorker, hne] using hj

theorem slotsEmpty_step {s t : State} {a : Action} (hslots : SlotsEmpty s)
    (h : step s a = some t) : SlotsEmpty t := by
  cases a with
  | deliver n =>
      obtain ⟨signal, _, h⟩ := Option.bind_eq_some_iff.mp h
      obtain ⟨u, hdeliver, rfl⟩ := Option.map_eq_some_iff.mp h
      exact (deliver_cases hdeliver).2 hslots.1 hslots.2
  | act a =>
      obtain ⟨_, u, _, rfl⟩ := step_act h
      exact ⟨rfl, rfl⟩

/-- `main` goes to sleep for good when its flag is set and no signal is left. -/
theorem asleep_suspend {s : State} {loop : Await} (hslots : SlotsEmpty s)
    (hhandling : s.core.handling = false) :
    Asleep (enqueue s.queue { s.core with parent := .suspended loop }) ↔
      s.core.flag loop = true ∧ ¬ SignalLeft s := by
  have hleft : SignalLeft (enqueue s.queue { s.core with parent := .suspended loop }) ↔
      SignalLeft s := by
    simp [SignalLeft, enqueue, sent, hslots.1, hslots.2]
  have hflag : (enqueue s.queue { s.core with parent := .suspended loop }).core.flag loop =
      s.core.flag loop := by
    cases loop <;> rfl
  constructor
  · rintro ⟨l, hparent, _, hset, hnone⟩
    obtain rfl : loop = l := ParentPc.suspended.inj hparent
    exact ⟨hflag.symm.trans hset, fun h => hnone (hleft.mpr h)⟩
  · rintro ⟨hset, hnone⟩
    exact ⟨loop, rfl, hhandling, hflag.trans hset, fun h => hnone (hleft.mp h)⟩

/-- One step leaves `main` awake exactly when it is no `sigsuspend` too late. -/
theorem step_exact {s t : State} {a : Action} (hslots : SlotsEmpty s) (hawake : ¬ Asleep s)
    (h : step s a = some t) :
    ¬ Asleep t ↔ SuspendsInTime s a := by
  cases a with
  | deliver n =>
      obtain ⟨signal, _, h⟩ := Option.bind_eq_some_iff.mp h
      obtain ⟨u, hdeliver, rfl⟩ := Option.map_eq_some_iff.mp h
      refine iff_of_true ?_ trivial
      rintro ⟨_, _, hhandling, _⟩
      cases (deliver_cases hdeliver).1.symm.trans hhandling
  | act a =>
      obtain ⟨hsends, u, hstep, rfl⟩ := step_act h
      cases step_move hstep with
      | @suspend loop hpc =>
          rw [asleep_suspend hslots (not_handling_of_parent hstep)]
          constructor
          · intro hnot l henter
            obtain rfl : loop = l := ParentPc.enter.inj (hpc.symm.trans henter)
            cases hflag : s.core.flag loop with
            | false => exact .inl rfl
            | true => exact .inr (by_contra fun hnone => hnot ⟨hflag, hnone⟩)
          · rintro hcond ⟨hflag, hnone⟩
            rcases hcond loop hpc with hunset | hleft
            · cases hunset.symm.trans hflag
            · exact hnone hleft
      | @start i _ =>
          refine iff_of_true (not_asleep_of_signalLeft (.inr ⟨i, ?_⟩)) trivial
          simp [enqueue, State.setWorker, WorkerPc.sentUsr2]
      | fail _ => cases hsends
      | deliverUsr1 _ _ => cases hsends
      | deliverUsr2 _ _ => cases hsends
      | warn _ => exact iff_of_true (not_asleep_after_send sent_sendUsr1) trivial
      | complete _ => exact iff_of_true (not_asleep_after_send sent_sendUsr2) trivial
      | exit hpc => exact iff_of_true (fun hasleep => hawake (asleep_of_exit hpc hasleep)) trivial
      | handlerReturn _ hpc => exact iff_of_true (not_asleep_of_parent hpc) trivial
      | wake _ _ => exact iff_of_true (not_asleep_of_parent nofun) trivial
      | fork _ _ _ _ => 
          refine iff_of_true (not_asleep_of_parent fun loop hpc => ?_) trivial
          change (if _ then _ else _) = ParentPc.suspended loop at hpc
          split at hpc <;> cases hpc
      | forkFails _ => exact iff_of_true (not_asleep_of_parent nofun) trivial
      | @pass loop hpc _ =>
          refine iff_of_true (not_asleep_of_parent ?_) fun l henter => ?_
          · cases loop <;> nofun
          · cases hpc.symm.trans henter
      | block hpc | unblock hpc | miss hpc _ | reap _ hpc _ | reapedAll _ hpc | report hpc =>
          refine iff_of_true (not_asleep_of_parent nofun) fun loop henter => ?_
          cases hpc.symm.trans henter

/-- `main` is never left asleep on a run exactly when it calls no `sigsuspend` too
late on it. -/
theorem never_asleep_iff (acts : List Action) :
    StatesMeet step (fun s => ¬ Asleep s) State.initial acts ↔
      StepsMeet step SuspendsInTime State.initial acts :=
  statesMeet_iff_stepsMeet (I := SlotsEmpty) (fun _ _ _ h hstep => slotsEmpty_step h hstep)
    (fun _ _ _ h hawake hstep => step_exact h hawake hstep) ⟨rfl, rfl⟩
    (not_asleep_of_parent fun _ h => by cases h) acts

/-- All signals but the one of `last` are handled in time; that one comes between
the last test of its flag and `sigsuspend`. -/
def lateSignal (first last third : Fin 3) : List Action :=
  ([.parent, .fork 101, .fork 102, .fork 103, .parent, .start first, .start last, .start third,
    .warn third] : List Part4.Action).map .act ++ [.deliver 0, .act .handlerReturn] ++
  ([first, third].flatMap fun i =>
    [.act (.complete i), .deliver 0, .act .handlerReturn, .act (.exit i)]) ++
  [.act .parent, .act .parent, .act .parent, .act (.complete last), .deliver 0,
    .act .handlerReturn, .act (.exit last), .act .parent]

/-- Worker 2 completes between the test of its flag and `sigsuspend`. -/
theorem asleep_after_late_signal :
    ∃ s, run step State.initial (lateSignal 0 1 2) = some s ∧ Asleep s := by
  refine ⟨_, rfl, .worker2, rfl, rfl, rfl, ?_⟩
  decide

end Unx511.Assignment1.Part4.Wakeup
