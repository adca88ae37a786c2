import Unx511.Assignment3.Automobile
import Unx511.Machine.StopFlag

/-!
Assignment 3, `main` of `TravelSimulator.cpp` from the registration of its handler on:
the set-up, the assignment `isRunning=true` and the loop that drives the four cars. The
levels are in exact arithmetic.
-/

namespace Unx511.Assignment3.TravelSimulator

open Machine

/-- The statements between `signal` and `isRunning=true`. -/
inductive Setup where
  | initializeLog
  | setLogLevel
  | create (car : Fin 4)
  | log (message : String)
  deriving DecidableEq, Repr

/-- The statements of the loop. -/
inductive Statement where
  | call (car : Fin 4) (method : Method ℚ)
  | log (message : String)
  | nextTrack
  | sleep

/-- In `setup` and `body` the rest of the calls is still to be made; `main` is at
`isRunning=true` and at the end of the iteration when none is left. -/
inductive Pc where
  | setup (rest : List Setup)
  | start
  | test
  | body (rest : List Statement)
  | report
  | exited

structure State where
  pc : Pc
  isRunning : Bool
  track : Int
  trips : Fin 4 → Trip ℚ

inductive Action where
  | main (tm : Tm)
  | sigint

def setup : List Setup :=
  [.initializeLog, .setLogLevel, .create 0, .create 1, .create 2, .create 3,
    .log "Created the objects"]

def cityDistance (track : Int) : ℚ := track * 100

def highwayDistance (track : Int) : ℚ := 500 - cityDistance track

def cityEfficiency : Fin 4 → ℚ := ![8.2, 7.8, 10.6, 17.29]

def highwayEfficiency : Fin 4 → ℚ := ![6.2, 5.8, 7.5, 12.5]

/-- The same calls for each of the cars in turn. -/
def forEachCar (calls : Fin 4 → List (Method ℚ)) : List Statement :=
  (List.finRange 4).flatMap fun car => (calls car).map (.call car)

/-- One iteration of the loop. -/
def round (track : Int) : List Statement :=
  forEachCar (fun _ => [.emptyFuel]) ++ forEachCar (fun _ => [.addFuel 50]) ++
    .log "Added the fuel" ::
    forEachCar (fun car =>
      [.setFuelEfficiency (cityEfficiency car), .drive (cityDistance track)]) ++
    .log "Set the efficiency" ::
    forEachCar (fun _ => [.addFuel 50]) ++ .log "Added the fuel again" ::
    forEachCar (fun car =>
      [.setFuelEfficiency (highwayEfficiency car), .drive (highwayDistance track)]) ++
    [.log "Drove the cars", .nextTrack, .sleep]

namespace State

/-- The handler is installed, and the global `isRunning` is still zero. -/
def initial (trips : Fin 4 → Trip ℚ) : State where
  pc := .setup TravelSimulator.setup
  isRunning := false
  track := 0
  trips := trips

/-- The constructor of one of the cars, in memory that may hold anything. -/
def create (s : State) (car : Fin 4) : State :=
  let leftover := (s.trips car).car.fuelEfficiency
  { s with
    trips := Function.update s.trips car
      { car := (travelSimulatorCars leftover).get ⟨car.val, car.isLt⟩, logged := [] } }

/-- The logger keeps no state that the loop reads. -/
def runSetup (s : State) : Setup → State
  | .create car => s.create car
  | .initializeLog | .setLogLevel | .log _ => s

def runStatement (tm : Tm) (s : State) : Statement → State
  | .call car method =>
      { s with
        trips := Function.update s.trips car
          (((s.trips car).step (method, tm)).getD (s.trips car)) }
  | .nextTrack => { s with track := (s.track + 1) % 5 + 1 }
  | .log _ | .sleep => s

/-- One statement of `main`. -/
def mainStep (s : State) (tm : Tm) : Option State :=
  match s.pc with
  | .setup [] => some { s with isRunning := true, pc := .start }
  | .setup (statement :: rest) => some { s.runSetup statement with pc := .setup rest }
  | .start => some { s with track := 1, pc := .test }
  | .test => some { s with pc := if s.isRunning then .body (round s.track) else .report }
  | .body [] => some { s with pc := .test }
  | .body (statement :: rest) => some { s.runStatement tm statement with pc := .body rest }
  | .report => some { s with pc := .exited }
  | .exited => none

/-- `shutdownHandler` for SIGINT. -/
def shutdownHandler (s : State) : State := { s with isRunning := false }

def step (s : State) : Action → Option State
  | .main tm => s.mainStep tm
  | .sigint => some s.shutdownHandler

/-- `main` is at `isRunning=true`. -/
def atRaise (s : State) : Bool :=
  match s.pc with
  | .setup [] => true
  | _ => false

def atTest (s : State) : Bool :=
  match s.pc with
  | .test => true
  | _ => false

def atEnd (s : State) : Bool :=
  match s.pc with
  | .body [] => true
  | _ => false

end State

def Action.isMain : Action → Bool
  | .main _ => true
  | .sigint => false

variable {s t : State} {tm : Tm}

theorem State.runSetup_isRunning (s : State) (statement : Setup) :
    (s.runSetup statement).isRunning = s.isRunning := by
  cases statement <;> rfl

theorem State.runStatement_isRunning (s : State) (tm : Tm) (statement : Statement) :
    (s.runStatement tm statement).isRunning = s.isRunning := by
  cases statement <;> rfl

/-- `main` writes the flag in one statement only. -/
theorem State.mainStep_isRunning (h : s.mainStep tm = some t) :
    t.isRunning = (s.atRaise || s.isRunning) := by
  unfold State.mainStep at h
  unfold State.atRaise
  cases hpc : s.pc with
  | setup rest =>
      rw [hpc] at h
      cases rest with
      | nil =>
          cases h
          rfl
      | cons statement rest =>
          cases h
          exact s.runSetup_isRunning statement
  | body rest =>
      rw [hpc] at h
      cases rest with
      | nil =>
          cases h
          rfl
      | cons statement rest =>
          cases h
          exact s.runStatement_isRunning tm statement
  | start | test | report =>
      rw [hpc] at h
      cases h
      rfl
  | exited =>
      rw [hpc] at h
      cases h

/-- The loop of `TravelSimulator.cpp` with the flag that stops it. -/
def stopLoop : StopLoop State Action where
  step := State.step
  running := State.isRunning
  raises s a := s.atRaise && a.isMain
  requests a := !a.isMain
  enters s a := s.atTest && s.isRunning && a.isMain
  completes s a := s.atEnd && a.isMain
  raised := by
    intro s a t hstep hraises
    cases a with
    | main tm =>
        rw [State.mainStep_isRunning hstep]
        simp_all [Action.isMain]
    | sigint => simp [Action.isMain] at hraises
  requested := by
    intro s a t hstep hrequests
    cases a with
    | main tm => cases hrequests
    | sigint =>
        cases hstep
        rfl
  lowered := by
    intro s a t hstep hraises hlow
    cases a with
    | main tm =>
        rw [State.mainStep_isRunning hstep]
        simp_all [Action.isMain]
    | sigint =>
        cases hstep
        rfl
  entered := by
    intro s a henters
    simp only [Bool.and_eq_true] at henters
    exact henters.1.2

end Unx511.Assignment3.TravelSimulator
