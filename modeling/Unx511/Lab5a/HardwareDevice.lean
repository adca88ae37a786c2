import Unx511.Machine.Run

/-!
Lab 5a: the kernel module `hardwareDevice.c`, with the thread `hardwareSim` and
the two flags that control its nested loops. The inner loop tests only `is_halt`,
and `unregister_device` clears `is_halt` after `is_running`, so a thread in the
inner loop never gets to see that it should stop.
-/

namespace Unx511.Lab5a

open Unx511.Machine

def BUF_LEN : Nat := 16

/-- `_IOW(type, nr, int *)`, on a machine with pointers of 8 bytes. -/
def iow (type nr : Char) : Nat := 2 ^ 30 + 8 * 2 ^ 16 + type.toNat * 2 ^ 8 + nr.toNat

def HARDWARE_DEVICE_HALT : Nat := iow 'a' 'b'

def HARDWARE_DEVICE_RESUME : Nat := iow 'b' 'b'

def EINVAL : Int := 22

/-- The statements of `hardwareSim`; `i` is the loop variable of the two `for`
loops, which write the terminating NUL when they are done. -/
inductive SimPc where
  | fill (i : Nat)
  | testRunning
  | testHalt
  | update (i : Nat)
  | sleepInner
  | sleepOuter
  | returned
  deriving DecidableEq, Repr

/-- The thread is in the loop that tests only `is_halt`. -/
def SimPc.inInner : SimPc → Bool
  | .testHalt | .update _ | .sleepInner => true
  | _ => false

/-- A module in use cannot be unloaded, so no `ioctl` comes after
`unregister_device` is called. At `stopping` it has stored `is_running` and not yet
`is_halt`. -/
inductive DriverPc where
  | registered
  | stopping
  | unregistered
  deriving DecidableEq, Repr

/-- `rounds` counts the rounds of the inner loop that have begun. -/
structure State where
  sim : SimPc
  driver : DriverPc
  isRunning : Bool
  isHalt : Bool
  buffer : List UInt8
  rounds : Nat

/-- After `register_device`, which sets the flags before it creates the thread. -/
def State.initial : State where
  sim := .fill 0
  driver := .registered
  isRunning := true
  isHalt := false
  buffer := List.replicate BUF_LEN 0
  rounds := 0

/-- `++buffer[i]`, and back from 'z' to 'a'. -/
def nextLetter (c : UInt8) : UInt8 := if c + 1 > 122 then 97 else c + 1

/-- The thread runs its next statement. -/
def hardwareSim (s : State) : Option State :=
  match s.sim with
  | .fill i =>
      if i < BUF_LEN - 1 then
        some { s with buffer := s.buffer.set i 97, sim := .fill (i + 1) }
      else
        some { s with buffer := s.buffer.set (BUF_LEN - 1) 0, sim := .testRunning }
  | .testRunning => some { s with sim := if s.isRunning then .testHalt else .returned }
  | .testHalt =>
      if s.isHalt then some { s with sim := .sleepOuter }
      else some { s with sim := .update 0, rounds := s.rounds + 1 }
  | .update i =>
      if i < BUF_LEN - 1 then
        some { s with buffer := s.buffer.modify i nextLetter, sim := .update (i + 1) }
      else
        some { s with buffer := s.buffer.set (BUF_LEN - 1) 0, sim := .sleepInner }
  | .sleepInner => some { s with sim := .testHalt }
  | .sleepOuter => some { s with sim := .testRunning }
  | .returned => none

/-- `hardware_device_ioctl`, with its return value. -/
def hardwareDeviceIoctl (cmd : Nat) (s : State) : State × Int :=
  if cmd = HARDWARE_DEVICE_HALT then ({ s with isHalt := true }, 0)
  else if cmd = HARDWARE_DEVICE_RESUME then ({ s with isHalt := false }, 0)
  else (s, -EINVAL)

/-- `stopRunning` and `clearHalt` are the two stores of `unregister_device`. -/
inductive Action where
  | sim
  | ioctl (cmd : Nat)
  | stopRunning
  | clearHalt
  deriving DecidableEq, Repr

def step (s : State) : Action → Option State
  | .sim => hardwareSim s
  | .ioctl cmd => if s.driver = .registered then some (hardwareDeviceIoctl cmd s).1 else none
  | .stopRunning =>
      if s.driver = .registered then some { s with isRunning := false, driver := .stopping }
      else none
  | .clearHalt =>
      if s.driver = .stopping then some { s with isHalt := false, driver := .unregistered }
      else none

/-- Left alone, the thread returns from `hardwareSim` after at most one more round. -/
def Stops (s : State) : Prop :=
  ∃ t, Reaches step (fun _ a => a = .sim) s t ∧ t.sim = .returned ∧ t.rounds ≤ s.rounds + 1

/-- From here the inner loop is left, or is not entered again. -/
def State.leaving (s : State) : Prop := s.sim.inInner = true → s.isHalt = true

/-- `unregister_device` finds the thread outside the inner loop when it clears
`is_halt`, and outside or halted when it clears `is_running`. -/
def StopsInTime (s : State) : Action → Prop
  | .stopRunning => s.leaving
  | .clearHalt => s.sim.inInner = false
  | _ => True

instance (s : State) : Decidable s.leaving := by
  unfold State.leaving
  infer_instance

instance (s : State) (a : Action) : Decidable (StopsInTime s a) := by
  unfold StopsInTime
  split <;> infer_instance

/-- The number of statements until the thread returns, when it is leaving. -/
def SimPc.distance : SimPc → Nat
  | .fill i => (BUF_LEN - 1 - i) + 2
  | .update i => (BUF_LEN - 1 - i) + 5
  | .sleepInner => 4
  | .testHalt => 3
  | .sleepOuter => 2
  | .testRunning => 1
  | .returned => 0

/-- One statement of a leaving thread brings it nearer to its `return`. -/
structure Nearer (s t : State) : Prop where
  distance : t.sim.distance + 1 = s.sim.distance
  leaving : t.leaving
  isRunning : t.isRunning = s.isRunning
  rounds : t.rounds = s.rounds

theorem hardwareSim_nearer {s t : State} (hrunning : s.isRunning = false) (hleaving : s.leaving)
    (h : hardwareSim s = some t) : Nearer s t := by
  unfold hardwareSim at h
  split at h
  case h_1 i hpc =>
    split at h
    case isTrue hi =>
      cases h
      refine ⟨?_, nofun, rfl, rfl⟩
      rw [hpc]
      simp only [SimPc.distance]
      omega
    case isFalse hi =>
      cases h
      refine ⟨?_, nofun, rfl, rfl⟩
      rw [hpc]
      simp only [SimPc.distance]
      omega
  case h_2 hpc =>
    cases h
    refine ⟨?_, ?_, rfl, rfl⟩
    · simp [hpc, hrunning, SimPc.distance]
    · simp [hrunning, State.leaving, SimPc.inInner]
  case h_3 hpc =>
    have hhalt : s.isHalt = true := hleaving (by rw [hpc]; rfl)
    rw [if_pos hhalt] at h
    cases h
    refine ⟨?_, nofun, rfl, rfl⟩
    rw [hpc]
    rfl
  case h_4 i hpc =>
    have hhalt : s.isHalt = true := hleaving (by rw [hpc]; rfl)
    split at h
    case isTrue hi =>
      cases h
      refine ⟨?_, fun _ => hhalt, rfl, rfl⟩
      rw [hpc]
      simp only [SimPc.distance]
      omega
    case isFalse hi =>
      cases h
      refine ⟨?_, fun _ => hhalt, rfl, rfl⟩
      rw [hpc]
      simp only [SimPc.distance]
      omega
  case h_5 hpc =>
    cases h
    refine ⟨?_, fun _ => hleaving (by rw [hpc]; rfl), rfl, rfl⟩
    rw [hpc]
    rfl
  case h_6 hpc =>
    cases h
    refine ⟨?_, nofun, rfl, rfl⟩
    rw [hpc]
    rfl
  case h_7 => cases h

theorem hardwareSim_isSome {s : State} (h : s.sim ≠ .returned) : ∃ t, hardwareSim s = some t := by
  unfold hardwareSim
  split
  case h_7 hpc => exact absurd hpc h
  all_goals first
    | exact ⟨_, rfl⟩
    | (split <;> exact ⟨_, rfl⟩)

theorem SimPc.distance_eq_zero {pc : SimPc} (h : pc.distance = 0) : pc = .returned := by
  cases pc with
  | returned => rfl
  | _ => simp [SimPc.distance] at h

theorem stops_of_leaving {s : State} (hrunning : s.isRunning = false) (hleaving : s.leaving) :
    Stops s := by
  obtain ⟨n, hn⟩ : ∃ n, s.sim.distance = n := ⟨_, rfl⟩
  induction n generalizing s with
  | zero => exact ⟨s, Reaches.refl s, SimPc.distance_eq_zero hn, Nat.le_succ _⟩
  | succ n ih =>
      have hpc : s.sim ≠ .returned := by
        intro hpc
        rw [hpc] at hn
        cases hn
      obtain ⟨t, hstep⟩ := hardwareSim_isSome hpc
      have hnearer := hardwareSim_nearer hrunning hleaving hstep
      have hdistance := hnearer.distance
      obtain ⟨u, hreach, hreturned, hrounds⟩ :=
        ih (hnearer.isRunning.trans hrunning) hnearer.leaving (by omega)
      refine ⟨u, Reaches.head rfl (a := .sim) hstep hreach, hreturned, ?_⟩
      rwa [hnearer.rounds] at hrounds

/-- In the inner loop with `is_halt` clear, the thread stays there. -/
theorem hardwareSim_inInner {s t : State} (hinner : s.sim.inInner = true)
    (hhalt : s.isHalt = false) (h : hardwareSim s = some t) :
    t.sim.inInner = true ∧ t.isHalt = false := by
  unfold hardwareSim at h
  split at h
  case h_3 =>
    rw [if_neg (by rw [hhalt]; nofun)] at h
    cases h
    exact ⟨rfl, hhalt⟩
  case h_4 =>
    split at h
    case isTrue =>
      cases h
      exact ⟨rfl, hhalt⟩
    case isFalse =>
      cases h
      exact ⟨rfl, hhalt⟩
  case h_5 =>
    cases h
    exact ⟨rfl, hhalt⟩
  all_goals
    rename_i hpc
    rw [hpc] at hinner
    cases hinner

/-- From any state in which `is_running` is false, reachable or not. -/
theorem stops_iff {s : State} (hrunning : s.isRunning = false) : Stops s ↔ s.leaving := by
  constructor
  · rintro ⟨t, hreach, hreturned, _⟩ hinner
    by_contra hhalt
    have hhalt : s.isHalt = false := by simpa using hhalt
    have hstays : t.sim.inInner = true ∧ t.isHalt = false :=
      hreach.invariant (I := fun u => u.sim.inInner = true ∧ u.isHalt = false) ⟨hinner, hhalt⟩
        fun u a v hu hcond hstep => by
          subst hcond
          exact hardwareSim_inInner hu.1 hu.2 hstep
    rw [hreturned] at hstays
    cases hstays.1
  · exact stops_of_leaving hrunning

theorem hardwareSim_frame {s t : State} (h : hardwareSim s = some t) :
    t.driver = s.driver ∧ t.isRunning = s.isRunning := by
  unfold hardwareSim at h
  split at h
  case h_7 => cases h
  case h_1 | h_3 | h_4 =>
    split at h
    · cases h
      exact ⟨rfl, rfl⟩
    · cases h
      exact ⟨rfl, rfl⟩
  all_goals
    cases h
    exact ⟨rfl, rfl⟩

theorem hardwareDeviceIoctl_frame (cmd : Nat) (s : State) :
    (hardwareDeviceIoctl cmd s).1.driver = s.driver ∧
      (hardwareDeviceIoctl cmd s).1.isRunning = s.isRunning := by
  unfold hardwareDeviceIoctl
  split
  · exact ⟨rfl, rfl⟩
  · split
    · exact ⟨rfl, rfl⟩
    · exact ⟨rfl, rfl⟩

/-- What one step can do. -/
inductive Move (s : State) : Action → State → Prop
  | sim {t : State} (hsim : hardwareSim s = some t) : Move s .sim t
  | ioctl {cmd : Nat} (hdriver : s.driver = .registered) :
      Move s (.ioctl cmd) (hardwareDeviceIoctl cmd s).1
  | stopRunning (hdriver : s.driver = .registered) :
      Move s .stopRunning { s with isRunning := false, driver := .stopping }
  | clearHalt (hdriver : s.driver = .stopping) :
      Move s .clearHalt { s with isHalt := false, driver := .unregistered }

theorem step_move {s t : State} {a : Action} (h : step s a = some t) : Move s a t := by
  unfold step at h
  split at h
  case h_1 => exact .sim h
  all_goals
    split at h
    case isTrue hdriver =>
      cases h
      first
        | exact .ioctl hdriver
        | exact .stopRunning hdriver
        | exact .clearHalt hdriver
    case isFalse => cases h

/-- `is_running` is set until `unregister_device` is called. -/
def RunningUntilCalled (s : State) : Prop := s.isRunning = true ↔ s.driver = .registered

theorem runningUntilCalled_move {s t : State} {a : Action} (h : RunningUntilCalled s)
    (hmove : Move s a t) : RunningUntilCalled t := by
  unfold RunningUntilCalled at h ⊢
  cases hmove with
  | sim hsim =>
      obtain ⟨hdriver, hrunning⟩ := hardwareSim_frame hsim
      rw [hdriver, hrunning]
      exact h
  | @ioctl cmd _ =>
      obtain ⟨hdriver, hrunning⟩ := hardwareDeviceIoctl_frame cmd s
      rw [hdriver, hrunning]
      exact h
  | stopRunning _ => exact ⟨nofun, nofun⟩
  | clearHalt hdriver =>
      rw [hdriver] at h
      exact ⟨fun hrunning => absurd (h.mp hrunning) nofun, nofun⟩

/-- What is to hold in every state of a run. -/
def Stoppable (s : State) : Prop := s.isRunning = false → Stops s

theorem stoppable_move {s t : State} {a : Action} (h : RunningUntilCalled s) (hs : Stoppable s)
    (hmove : Move s a t) : Stoppable t ↔ StopsInTime s a := by
  cases hmove with
  | sim hsim =>
      refine iff_of_true (fun hrunning => ?_) trivial
      have hrunning : s.isRunning = false := (hardwareSim_frame hsim).2.symm.trans hrunning
      have hleaving : s.leaving := (stops_iff hrunning).mp (hs hrunning)
      have hnearer := hardwareSim_nearer hrunning hleaving hsim
      exact stops_of_leaving (hnearer.isRunning.trans hrunning) hnearer.leaving
  | @ioctl cmd hdriver =>
      refine iff_of_true (fun hrunning => ?_) trivial
      rw [(hardwareDeviceIoctl_frame cmd s).2, h.mpr hdriver] at hrunning
      cases hrunning
  | stopRunning _ =>
      constructor
      · intro hstops
        have hleaving := (stops_iff rfl).mp (hstops rfl)
        exact hleaving
      · exact fun hleaving hrunning => stops_of_leaving hrunning hleaving
  | clearHalt hdriver =>
      have hrunning : s.isRunning = false := by
        cases hrunning : s.isRunning with
        | false => rfl
        | true => cases hdriver.symm.trans (h.mp hrunning)
      constructor
      · intro hstops
        change s.sim.inInner = false
        cases hinner : s.sim.inInner with
        | false => rfl
        | true =>
            have hleaving := (stops_iff (s := { s with isHalt := false, driver := .unregistered })
              hrunning).mp (hstops hrunning)
            cases hleaving hinner
      · intro houter _
        refine stops_of_leaving hrunning fun hinner => ?_
        cases houter.symm.trans hinner

/-- In every state of a run in which `is_running` is false the thread stops, exactly
when `unregister_device` clears the flags in time. -/
theorem stops_in_time_iff (acts : List Action) :
    StatesMeet step Stoppable State.initial acts ↔ StepsMeet step StopsInTime State.initial acts :=
  statesMeet_iff_stepsMeet (fun _ _ _ h hstep => runningUntilCalled_move h (step_move hstep))
    (fun _ _ _ h hs hstep => stoppable_move h hs (step_move hstep)) ⟨fun _ => rfl, fun _ => rfl⟩
    (fun hrunning => by cases hrunning) acts

/-- The thread is in its first round when the module is unloaded. -/
def unloadInFirstRound : List Action :=
  List.replicate 19 .sim ++ [.stopRunning, .clearHalt]

theorem unloaded_and_never_stops :
    ∃ s, run step State.initial unloadInFirstRound = some s ∧ s.driver = .unregistered ∧
      s.isRunning = false ∧ ¬ Stops s := by
  refine ⟨_, rfl, rfl, rfl, ?_⟩
  rw [stops_iff rfl]
  decide

end Unx511.Lab5a
