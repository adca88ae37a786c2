import Mathlib
import Unx511.Assignment3.FuelModel
import Unx511.Assignment3.TravelSimulator

/-!
Assignment 3, the whole of a run of `TravelSimulator.cpp`: the tracks that its loop goes
through, the level of each tank when a round is over and the texts that each round logs,
whenever ctrl-C comes. The texts are those that `sprintf` formats; that the one about a full
tank overruns `char message[64]` for each of the four cars is left aside here.
-/

namespace Unx511.Assignment3

open Machine

namespace Automobile

variable {car : Automobile ℚ} {method : Method ℚ}

instance (car : Automobile ℚ) : (method : Method ℚ) → Decidable (car.Overruns method)
  | .addFuel liters => inferInstanceAs (Decidable (50 < car.fuelInTank + liters))
  | .drive distance =>
      inferInstanceAs (Decidable (car.fuelInTank - car.fuelConsumed distance < 0))
  | .setFuelEfficiency _ | .emptyFuel => inferInstanceAs (Decidable False)

/-- A call changes the level and the efficiency and nothing else. -/
theorem perform_car (car : Automobile ℚ) (method : Method ℚ) (tm : Tm) :
    (car.perform tm method).1 =
      { car with
        fuelInTank := car.levelAfter method car.fuelInTank
        fuelEfficiency := car.efficiencyAfter method } := by
  rw [← perform_level car method tm, ← perform_efficiency car method tm]
  cases method with
  | setFuelEfficiency _ | emptyFuel => rfl
  | addFuel liters =>
      simp only [perform, addFuel]
      split <;> rfl
  | drive distance =>
      simp only [perform, drive]
      split <;> rfl

theorem perform_message (car : Automobile ℚ) (method : Method ℚ) (tm : Tm) :
    (car.perform tm method).2.toList.map Call.message =
      if car.Overruns method then [car.messageOf method] else [] := by
  obtain ⟨⟨hmessage, hover⟩ | ⟨hnone, hover⟩, _⟩ := car.perform_spec tm method
  · obtain ⟨call, hcall, htext⟩ := Option.map_eq_some_iff.mp hmessage
    rw [hcall, if_pos hover, ← htext]
    rfl
  · rw [hnone, if_neg hover]
    rfl

end Automobile

/-- A car and the texts that it has logged, without their times. -/
structure Summary where
  car : Automobile ℚ
  messages : List (List Char)

def Trip.summary (t : Trip ℚ) : Summary := ⟨t.car, t.logged.map Call.message⟩

/-- One call. -/
def Summary.call (s : Summary) (method : Method ℚ) : Summary where
  car :=
    { s.car with
      fuelInTank := s.car.levelAfter method s.car.fuelInTank
      fuelEfficiency := s.car.efficiencyAfter method }
  messages := s.messages ++ if s.car.Overruns method then [s.car.messageOf method] else []

theorem Trip.summary_step (t : Trip ℚ) (method : Method ℚ) (tm : Tm) :
    ((t.step (method, tm)).getD t).summary = t.summary.call method := by
  simp only [Trip.step, Option.getD_some, Trip.summary, Summary.call, List.map_append,
    Automobile.perform_car, Automobile.perform_message]
  rfl

namespace TravelSimulator

/-- The calls of one round for one car. -/
def roundCalls (cityEfficiency cityDistance highwayEfficiency highwayDistance : ℚ) :
    List (Method ℚ) :=
  [.emptyFuel, .addFuel 50, .setFuelEfficiency cityEfficiency, .drive cityDistance, .addFuel 50,
    .setFuelEfficiency highwayEfficiency, .drive highwayDistance]

/-- The tank is full before each of the two drives. In the city the car runs dry, or it
runs over when it is filled up afterwards. -/
theorem roundCalls_spec (s : Summary) {city highway cityEfficiency highwayEfficiency : ℚ}
    (hne : cityEfficiency / 100 * city ≠ 50)
    (hhighway : highwayEfficiency / 100 * highway ≤ 50) :
    (roundCalls cityEfficiency city highwayEfficiency highway).foldl Summary.call s =
      { car :=
          { s.car with
            fuelInTank := 50 - highwayEfficiency / 100 * highway
            fuelEfficiency := highwayEfficiency }
        messages := s.messages ++ [if 50 < cityEfficiency / 100 * city then s.car.emptyMessage
          else s.car.fullMessage] } := by
  have hlast : ¬ 50 - highwayEfficiency / 100 * highway < 0 := by linarith
  rcases lt_or_gt_of_ne hne with hrest | hdry
  · -- the rest of the 50 liters is on top of those that are filled in next
    have hleft : ¬ 50 - cityEfficiency / 100 * city < 0 := by linarith
    have hover : 50 < 50 - cityEfficiency / 100 * city + 50 := by linarith
    have hcase : ¬ 50 < cityEfficiency / 100 * city := by linarith
    simp [roundCalls, Summary.call, Automobile.levelAfter, Automobile.efficiencyAfter,
      Automobile.Overruns, Automobile.messageOf, Automobile.fuelConsumed, fill, drain, hlast, hleft,
      hover, hcase]
    rfl
  · have hover : 50 - cityEfficiency / 100 * city < 0 := by linarith
    simp [roundCalls, Summary.call, Automobile.levelAfter, Automobile.efficiencyAfter,
      Automobile.Overruns, Automobile.messageOf, Automobile.fuelConsumed, fill, drain, hlast, hover,
      hdry]
    rfl

/-! The statements of the loop. -/

/-- The calls for one car among the statements. -/
def callsOf (car : Fin 4) (statements : List Statement) : List (Method ℚ) :=
  statements.filterMap fun
    | .call other method => if other = car then some method else none
    | _ => none

/-- `track` after the statement. -/
def trackStep (track : Int) : Statement → Int
  | .nextTrack => (track + 1) % 5 + 1
  | _ => track

theorem callsOf_round (car : Fin 4) (track : Int) :
    callsOf car (round track) =
      roundCalls (cityEfficiency car) (cityDistance track) (highwayEfficiency car)
        (highwayDistance track) := by
  fin_cases car <;> rfl

theorem trackStep_round (track : Int) :
    (round track).foldl trackStep track = (track + 1) % 5 + 1 := rfl

theorem runStatement_track (s : State) (tm : Tm) (statement : Statement) :
    (s.runStatement tm statement).track = trackStep s.track statement := by
  cases statement <;> rfl

/-- The calls that are left give the same when one of them has been made. -/
theorem runStatement_summary (s : State) (tm : Tm) (statement : Statement) (rest : List Statement)
    (car : Fin 4) :
    (callsOf car rest).foldl Summary.call ((s.runStatement tm statement).trips car).summary =
      (callsOf car (statement :: rest)).foldl Summary.call (s.trips car).summary := by
  cases statement with
  | log _ | nextTrack | sleep => rfl
  | call other method =>
      unfold callsOf State.runStatement
      rcases eq_or_ne other car with rfl | hne
      · simp [Trip.summary_step]
      · simp [hne, hne.symm]

/-- `track` after `n` rounds. -/
def trackAfter (n : Nat) : Int :=
  match n % 5 with
  | 0 => 1
  | 1 => 3
  | 2 => 5
  | 3 => 2
  | _ => 4

theorem trackAfter_succ (n : Nat) : trackAfter (n + 1) = (trackAfter n + 1) % 5 + 1 := by
  unfold trackAfter
  obtain h | h | h | h | h : n % 5 = 0 ∨ n % 5 = 1 ∨ n % 5 = 2 ∨ n % 5 = 3 ∨ n % 5 = 4 := by omega
  all_goals
    have hnext : (n + 1) % 5 = (n % 5 + 1) % 5 := by omega
    rw [hnext, h]
    rfl

theorem trackAfter_cases (n : Nat) : trackAfter n = 1 ∨ trackAfter n = 2 ∨ trackAfter n = 3 ∨
    trackAfter n = 4 ∨ trackAfter n = 5 := by
  unfold trackAfter
  split <;> simp

/-- No car uses exactly what is in the tank in the city, and the highway never takes more. -/
theorem consumption (car : Fin 4) (n : Nat) :
    cityEfficiency car / 100 * cityDistance (trackAfter n) ≠ 50 ∧
      highwayEfficiency car / 100 * highwayDistance (trackAfter n) ≤ 50 := by
  unfold highwayDistance cityDistance
  fin_cases car
  all_goals
    simp only [cityEfficiency, highwayEfficiency]
    rcases trackAfter_cases n with h | h | h | h | h
    all_goals
      rw [h]
      norm_num

/-! The run. -/

/-- A car as its constructor leaves it. -/
def newCar (car : Fin 4) (leftover : ℚ) : Automobile ℚ :=
  (travelSimulatorCars leftover).get car

/-- The level of the tank after `n` rounds. -/
def tankAfter (car : Fin 4) : Nat → ℚ
  | 0 => 0
  | n + 1 => 50 - highwayEfficiency car / 100 * highwayDistance (trackAfter n)

/-- The Impala runs dry on the longest track through the city, the Escalade on three. -/
def RunsDry (car : Fin 4) (track : Int) : Prop :=
  car.val = 2 ∧ track = 5 ∨ car.val = 3 ∧ 3 ≤ track

instance (car : Fin 4) (track : Int) : Decidable (RunsDry car track) := by
  unfold RunsDry
  infer_instance

/-- The text that a car logs in a round. -/
def roundMessage (car : Fin 4) (track : Int) : List Char :=
  if RunsDry car track then (newCar car 0).emptyMessage else (newCar car 0).fullMessage

theorem runsDry_iff (car : Fin 4) (n : Nat) :
    50 < cityEfficiency car / 100 * cityDistance (trackAfter n) ↔ RunsDry car (trackAfter n) := by
  unfold cityDistance RunsDry
  fin_cases car
  all_goals
    simp only [cityEfficiency]
    rcases trackAfter_cases n with h | h | h | h | h
    all_goals
      rw [h]
      norm_num

/-- A car after `n` rounds. -/
def SummaryAfter (car : Fin 4) (n : Nat) (s : Summary) : Prop :=
  ∃ efficiency : ℚ,
    s = { car :=
            { newCar car 0 with fuelInTank := tankAfter car n, fuelEfficiency := efficiency }
          messages := (List.range n).map fun k => roundMessage car (trackAfter k) }

theorem summaryAfter_zero (car : Fin 4) (leftover : ℚ) :
    SummaryAfter car 0 (Trip.summary ⟨newCar car leftover, []⟩) := by
  refine ⟨leftover, ?_⟩
  fin_cases car <;> rfl

/-- One round more. -/
theorem SummaryAfter.round {car : Fin 4} {n : Nat} {s : Summary} (h : SummaryAfter car n s) :
    SummaryAfter car (n + 1)
      ((callsOf car (round (trackAfter n))).foldl Summary.call s) := by
  obtain ⟨efficiency, rfl⟩ := h
  obtain ⟨hcity, hhighway⟩ := consumption car n
  refine ⟨highwayEfficiency car, ?_⟩
  rw [callsOf_round, roundCalls_spec _ hcity hhighway, List.range_succ, List.map_append]
  simp only [runsDry_iff]
  rfl

/-- What is left of `main` comes to whole rounds. -/
def Rounds (s : State) : Prop :=
  match s.pc with
  | .setup rest => ∀ car, Setup.create car ∉ rest → SummaryAfter car 0 (s.trips car).summary
  | .start => ∀ car, SummaryAfter car 0 (s.trips car).summary
  | .body rest => ∃ n, rest.foldl trackStep s.track = trackAfter (n + 1) ∧
      ∀ car, SummaryAfter car (n + 1) ((callsOf car rest).foldl Summary.call (s.trips car).summary)
  | .test | .report | .exited => ∃ n, s.track = trackAfter n ∧
      ∀ car, SummaryAfter car n (s.trips car).summary

theorem rounds_initial (trips : Fin 4 → Trip ℚ) : Rounds (State.initial trips) := by
  intro car hcreate
  refine absurd ?_ hcreate
  fin_cases car <;> simp [setup]

theorem rounds_runSetup {s : State} {statement : Setup} {rest : List Setup}
    (h : ∀ car, Setup.create car ∉ statement :: rest → SummaryAfter car 0 (s.trips car).summary)
    (car : Fin 4) (hcar : Setup.create car ∉ rest) :
    SummaryAfter car 0 ((s.runSetup statement).trips car).summary := by
  cases statement with
  | create other =>
      unfold State.runSetup State.create
      rcases eq_or_ne car other with rfl | hne
      · simp only [Function.update_self]
        exact summaryAfter_zero car _
      · simp only [Function.update_of_ne hne]
        apply h car
        simp [hne, hcar]
  | initializeLog | setLogLevel | log message =>
      apply h car
      simp [hcar]

theorem rounds_step {s t : State} {a : Action} (h : Rounds s) (hstep : s.step a = some t) :
    Rounds t := by
  cases a with
  | sigint =>
      cases hstep
      exact h
  | main tm =>
      change s.mainStep tm = some t at hstep
      unfold State.mainStep at hstep
      unfold Rounds at h
      cases hpc : s.pc with
      | setup rest =>
          rw [hpc] at h hstep
          cases rest with
          | nil =>
              cases hstep
              exact fun car => h car List.not_mem_nil
          | cons statement rest =>
              cases hstep
              exact rounds_runSetup h
      | start =>
          rw [hpc] at h hstep
          cases hstep
          exact ⟨0, rfl, h⟩
      | test =>
          rw [hpc] at h hstep
          cases hstep
          obtain ⟨n, htrack, hcars⟩ := h
          cases s.isRunning with
          | true =>
              refine ⟨n, ?_, fun car => ?_⟩
              · change (round s.track).foldl trackStep s.track = _
                rw [trackStep_round, htrack, trackAfter_succ]
              · rw [htrack]
                exact (hcars car).round
          | false => exact ⟨n, htrack, hcars⟩
      | body rest =>
          rw [hpc] at h hstep
          obtain ⟨n, htrack, hcars⟩ := h
          cases rest with
          | nil =>
              cases hstep
              exact ⟨n + 1, htrack, hcars⟩
          | cons statement rest =>
              cases hstep
              refine ⟨n, ?_, fun car => ?_⟩
              · change rest.foldl trackStep (s.runStatement tm statement).track = _
                rw [runStatement_track]
                exact htrack
              · change SummaryAfter car (n + 1) ((callsOf car rest).foldl _
                  ((s.runStatement tm statement).trips car).summary)
                rw [runStatement_summary]
                exact hcars car
      | report =>
          rw [hpc] at h hstep
          cases hstep
          exact h
      | exited =>
          rw [hpc] at hstep
          cases hstep

/-- Between two rounds. -/
def State.betweenRounds (s : State) : Bool :=
  match s.pc with
  | .test | .report | .exited => true
  | .setup _ | .start | .body _ => false

/-- Whenever ctrl-C comes: at each test of the loop, and when `main` reports, some number of
rounds is over; `track` and the tanks tell no more than this number modulo 5, and each car
has logged one text in each round, that it has run dry in the city or that it has run over.
The memory that the second text overwrites behind `message` is left aside. -/
theorem rounds_run {trips : Fin 4 → Trip ℚ} {actions : List Action} {t : State}
    (hrun : run State.step (State.initial trips) actions = some t)
    (hbetween : t.betweenRounds = true) :
    ∃ n, t.track = trackAfter n ∧ ∀ car,
      (t.trips car).car.fuelInTank = tankAfter car n ∧
        (t.trips car).logged.map Call.message =
          (List.range n).map fun k => roundMessage car (trackAfter k) := by
  have hrounds : Rounds t := (Reaches.of_any_run actions hrun).invariant (rounds_initial trips)
    fun _ _ _ hs _ hstep => rounds_step hs hstep
  have hsummaries : ∃ n, t.track = trackAfter n ∧
      ∀ car, SummaryAfter car n (t.trips car).summary := by
    unfold Rounds at hrounds
    unfold State.betweenRounds at hbetween
    split at hbetween
    case h_4 => cases hbetween
    case h_5 => cases hbetween
    case h_6 => cases hbetween
    all_goals
      rename_i hpc
      rw [hpc] at hrounds
      exact hrounds
  obtain ⟨n, htrack, hcars⟩ := hsummaries
  refine ⟨n, htrack, fun car => ?_⟩
  obtain ⟨efficiency, hsummary⟩ := hcars car
  constructor
  · exact congrArg (fun s : Summary => s.car.fuelInTank) hsummary
  · exact congrArg Summary.messages hsummary

/-- The memory that the cars are created in. -/
def blankTrips : Fin 4 → Trip ℚ := fun _ => ⟨.new [] [] [] 0 0, []⟩

/-- Ctrl-C comes when the first round has begun. -/
def stopInFirstRound : List Action :=
  let main := Action.main { year := 2019, mon := 3, mday := 12, hour := 9, min := 0, sec := 0 }
  List.replicate 10 main ++ .sigint :: List.replicate 37 main

theorem rounds_run_firstRound :
    ∃ t, run State.step (State.initial blankTrips) stopInFirstRound = some t ∧ t.track = 3 ∧
      ∃ n, t.track = trackAfter n ∧ ∀ car,
        (t.trips car).car.fuelInTank = tankAfter car n ∧
          (t.trips car).logged.map Call.message =
            (List.range n).map fun k => roundMessage car (trackAfter k) := by
  have hrun : run State.step (State.initial blankTrips) stopInFirstRound = some _ := rfl
  exact ⟨_, hrun, rfl, rounds_run hrun rfl⟩

end TravelSimulator

end Unx511.Assignment3
