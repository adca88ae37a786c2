import Unx511.Assignment3.Automobile
import Unx511.Machine.Saturation

/-!
Assignment 3, the tank of an `Automobile` in exact arithmetic: a level between 0 and
the 50 liters that `addFuel` fills and `drive` drains. Two cars that differ in their
level stay in order under the same calls.

The constructor leaves `fuelEfficiency` as it finds it. A call of `drive` is proper when
the value in force is one that has been set, or no less than 0 by chance; below 0, it
fills the tank.
-/

namespace Unx511.Assignment3

open Machine

namespace Automobile

/-- The argument of the call is no less than 0. -/
def Nonneg : Method ℚ → Prop
  | .setFuelEfficiency efficiency => 0 ≤ efficiency
  | .emptyFuel => True
  | .addFuel liters => 0 ≤ liters
  | .drive distance => 0 ≤ distance

/-- A call with such an argument, which finds an efficiency that has been set, or is no
less than 0, when it drives. -/
def Proper (car : Automobile ℚ) (method : Method ℚ) : Prop :=
  Nonneg method ∧ ∀ distance, method = .drive distance → 0 ≤ car.fuelEfficiency

theorem proper_addFuel (car : Automobile ℚ) {liters : ℚ} (hliters : 0 ≤ liters) :
    Proper car (.addFuel liters) :=
  ⟨hliters, by simp⟩

/-- The call as an operation on the level. -/
def levelAfter (car : Automobile ℚ) : Method ℚ → ℚ → ℚ
  | .setFuelEfficiency _ => id
  | .emptyFuel => fun _ => 0
  | .addFuel liters => fill 50 liters
  | .drive distance => drain (car.fuelConsumed distance)

/-- `fuelEfficiency` after the call. -/
def efficiencyAfter (car : Automobile ℚ) : Method ℚ → ℚ
  | .setFuelEfficiency efficiency => efficiency
  | .emptyFuel | .addFuel _ | .drive _ => car.fuelEfficiency

variable {car : Automobile ℚ} {method : Method ℚ} {tm : Tm}

theorem perform_level (car : Automobile ℚ) (method : Method ℚ) (tm : Tm) :
    (car.perform tm method).1.fuelInTank = car.levelAfter method car.fuelInTank := by
  cases method with
  | setFuelEfficiency _ | emptyFuel => rfl
  | addFuel liters =>
      change (car.addFuel liters tm).1.fuelInTank = fill 50 liters car.fuelInTank
      unfold addFuel fill
      split <;> rfl
  | drive distance =>
      change (car.drive distance tm).1.fuelInTank =
        drain (car.fuelConsumed distance) car.fuelInTank
      unfold drive drain
      split <;> rfl

theorem perform_efficiency (car : Automobile ℚ) (method : Method ℚ) (tm : Tm) :
    (car.perform tm method).1.fuelEfficiency = car.efficiencyAfter method := by
  cases method with
  | setFuelEfficiency _ | emptyFuel => rfl
  | addFuel liters =>
      change (car.addFuel liters tm).1.fuelEfficiency = car.fuelEfficiency
      unfold addFuel
      split <;> rfl
  | drive distance =>
      change (car.drive distance tm).1.fuelEfficiency = car.fuelEfficiency
      unfold drive
      split <;> rfl

theorem levelAfter_contracts (car : Automobile ℚ) (method : Method ℚ) :
    Contracts (car.levelAfter method) := by
  cases method with
  | setFuelEfficiency _ => exact contracts_id
  | emptyFuel => exact contracts_const 0
  | addFuel liters => exact contracts_fill 50 liters
  | drive distance => exact contracts_drain (car.fuelConsumed distance)

theorem fuelConsumed_nonneg {distance : ℚ} (hdistance : 0 ≤ distance)
    (hefficiency : 0 ≤ car.fuelEfficiency) : 0 ≤ car.fuelConsumed distance := by
  unfold fuelConsumed
  positivity

theorem levelAfter_mem (hproper : car.Proper method) {level : ℚ} (hlow : 0 ≤ level)
    (hhigh : level ≤ 50) : 0 ≤ car.levelAfter method level ∧ car.levelAfter method level ≤ 50 := by
  cases method with
  | setFuelEfficiency _ => exact ⟨hlow, hhigh⟩
  | emptyFuel => exact ⟨le_rfl, show (0 : ℚ) ≤ 50 by norm_num⟩
  | addFuel liters => exact fill_mem (by norm_num) hproper.1 hlow
  | drive distance =>
      have hefficiency := hproper.2 distance rfl
      exact drain_mem (by norm_num) (fuelConsumed_nonneg hproper.1 hefficiency) hhigh

/-- The call logs that the tank has run dry. -/
def LogsNoGas (car : Automobile ℚ) (call : Method ℚ × Tm) : Prop :=
  (car.perform call.2 call.1).2.map Call.message = some car.emptyMessage

/-- The call logs that the tank is full. -/
def LogsFull (car : Automobile ℚ) (call : Method ℚ × Tm) : Prop :=
  (car.perform call.2 call.1).2.map Call.message = some car.fullMessage

theorem emptyMessage_ne_fullMessage (car : Automobile ℚ) :
    car.emptyMessage ≠ car.fullMessage := by
  intro heq
  have hlength := congrArg List.length heq
  rw [length_emptyMessage, length_fullMessage] at hlength
  omega

/-- A call logs exactly when it overruns the tank, and then its own text. -/
theorem logs_iff {text : List Char} (car : Automobile ℚ) (call : Method ℚ × Tm) :
    (car.perform call.2 call.1).2.map Call.message = some text ↔
      car.Overruns call.1 ∧ car.messageOf call.1 = text := by
  obtain ⟨⟨hlog, hover⟩ | ⟨hnone, hover⟩, _⟩ := car.perform_spec call.2 call.1
  · rw [hlog, Option.some_inj]
    exact (and_iff_right hover).symm
  · rw [hnone]
    exact iff_of_false nofun fun h => hover h.1

theorem logsNoGas_iff (car : Automobile ℚ) (call : Method ℚ × Tm) :
    car.LogsNoGas call ↔ ∃ distance, call.1 = .drive distance ∧
      car.fuelInTank - car.fuelConsumed distance < 0 := by
  obtain ⟨method, tm⟩ := call
  rw [LogsNoGas, logs_iff]
  cases method with
  | drive distance =>
      constructor
      · rintro ⟨hover, _⟩
        exact ⟨distance, rfl, hover⟩
      · rintro ⟨_, heq, hover⟩
        cases heq
        exact ⟨hover, rfl⟩
  | setFuelEfficiency _ | emptyFuel | addFuel _ =>
      refine iff_of_false ?_ ?_
      · rintro ⟨_, htext⟩
        exact car.emptyMessage_ne_fullMessage htext.symm
      · rintro ⟨_, heq, _⟩
        cases heq

theorem logsFull_iff (car : Automobile ℚ) (call : Method ℚ × Tm) :
    car.LogsFull call ↔ ∃ liters, call.1 = .addFuel liters ∧ 50 < car.fuelInTank + liters := by
  obtain ⟨method, tm⟩ := call
  rw [LogsFull, logs_iff]
  cases method with
  | addFuel liters =>
      constructor
      · rintro ⟨hover, _⟩
        exact ⟨liters, rfl, hover⟩
      · rintro ⟨_, heq, hover⟩
        cases heq
        exact ⟨hover, rfl⟩
  | setFuelEfficiency _ | emptyFuel =>
      refine iff_of_false (fun h => h.1) ?_
      rintro ⟨_, heq, _⟩
      cases heq
  | drive distance =>
      refine iff_of_false ?_ ?_
      · rintro ⟨_, htext⟩
        exact car.emptyMessage_ne_fullMessage htext
      · rintro ⟨_, heq, _⟩
        cases heq

end Automobile

/-- Every call is made properly. -/
def Trip.Proper (t : Trip ℚ) (call : Method ℚ × Tm) : Prop := t.car.Proper call.1

/-- A level that some car reaches by proper calls. -/
def ReachableLevel (level : ℚ) : Prop :=
  ∃ (make model colour : List Char) (year : Int) (leftover : ℚ) (t : Trip ℚ),
    Reaches Trip.step Trip.Proper ⟨.new make model colour year leftover, []⟩ t ∧
      t.car.fuelInTank = level

theorem ReachableLevel.mem {level : ℚ} (h : ReachableLevel level) : 0 ≤ level ∧ level ≤ 50 := by
  obtain ⟨make, model, colour, year, leftover, t, hreach, rfl⟩ := h
  refine hreach.invariant (I := fun t => 0 ≤ t.car.fuelInTank ∧ t.car.fuelInTank ≤ 50) ?_ ?_
  · exact ⟨le_rfl, show (0 : ℚ) ≤ 50 by norm_num⟩
  · intro u call v hu hproper hstep
    obtain rfl := Option.some.inj hstep
    change 0 ≤ (u.car.perform call.2 call.1).1.fuelInTank ∧ _
    rw [Automobile.perform_level]
    exact Automobile.levelAfter_mem hproper hu.1 hu.2

/-- Two cars that get the same calls. -/
structure Twins where
  first : Automobile ℚ
  second : Automobile ℚ

namespace Twins

def step (s : Twins) (call : Method ℚ × Tm) : Option Twins :=
  some { first := (s.first.perform call.2 call.1).1, second := (s.second.perform call.2 call.1).1 }

def gap (s : Twins) : ℚ := s.second.fuelInTank - s.first.fuelInTank

def Proper (s : Twins) (call : Method ℚ × Tm) : Prop := s.first.Proper call.1

/-- Both levels are within the tank, the first one no higher than the second. -/
structure Ordered (s : Twins) : Prop where
  low : 0 ≤ s.first.fuelInTank
  order : s.first.fuelInTank ≤ s.second.fuelInTank
  high : s.second.fuelInTank ≤ 50

/-- The call does not drive the levels apart, and where it logs for one car that a
bound was met, it does for the car that is closer to it. -/
structure InStep (s : Twins) (call : Method ℚ × Tm) : Prop where
  gap : ∀ t, s.step call = some t → t.gap ≤ s.gap
  noGas : s.second.LogsNoGas call → s.first.LogsNoGas call
  full : s.first.LogsFull call → s.second.LogsFull call

variable {s t : Twins} {call : Method ℚ × Tm}

/-- The two cars have the same efficiency and ordered levels. -/
structure Invariant (s : Twins) : Prop where
  efficiency : s.first.fuelEfficiency = s.second.fuelEfficiency
  ordered : Ordered s

theorem Invariant.levelAfter (h : Invariant s) (method : Method ℚ) :
    s.second.levelAfter method = s.first.levelAfter method := by
  cases method with
  | drive distance =>
      unfold Automobile.levelAfter Automobile.fuelConsumed
      rw [h.efficiency]
  | _ => rfl

/-- The levels of both cars after a call are the same function of their levels
before. -/
theorem Invariant.step_levels (h : Invariant s) (hstep : s.step call = some t) :
    t.first.fuelInTank = s.first.levelAfter call.1 s.first.fuelInTank ∧
      t.second.fuelInTank = s.first.levelAfter call.1 s.second.fuelInTank := by
  obtain rfl := Option.some.inj hstep
  refine ⟨Automobile.perform_level _ _ _, ?_⟩
  rw [← h.levelAfter]
  exact Automobile.perform_level _ _ _

theorem Invariant.step (h : Invariant s) (hproper : Proper s call)
    (hstep : s.step call = some t) : Invariant t := by
  obtain ⟨hfirst, hsecond⟩ := h.step_levels hstep
  obtain ⟨hlow, horder, hhigh⟩ := h.ordered
  have hcontracts := s.first.levelAfter_contracts call.1
  refine ⟨?_, ?_, ?_, ?_⟩
  · obtain rfl := Option.some.inj hstep
    change (s.first.perform call.2 call.1).1.fuelEfficiency =
      (s.second.perform call.2 call.1).1.fuelEfficiency
    rw [Automobile.perform_efficiency, Automobile.perform_efficiency]
    cases call.1 with
    | setFuelEfficiency _ => rfl
    | emptyFuel | addFuel _ | drive _ => exact h.efficiency
  · rw [hfirst]
    exact (Automobile.levelAfter_mem hproper hlow (horder.trans hhigh)).1
  · rw [hfirst, hsecond]
    exact hcontracts.mono horder
  · rw [hsecond]
    exact (Automobile.levelAfter_mem hproper (hlow.trans horder) hhigh).2

theorem Invariant.inStep (h : Invariant s) (call : Method ℚ × Tm) : InStep s call := by
  have horder := h.ordered.order
  refine ⟨fun t hstep => ?_, ?_, ?_⟩
  · obtain ⟨hfirst, hsecond⟩ := h.step_levels hstep
    unfold gap
    rw [hfirst, hsecond]
    exact (s.first.levelAfter_contracts call.1).gap horder
  · rw [Automobile.logsNoGas_iff, Automobile.logsNoGas_iff]
    rintro ⟨distance, hcall, hempty⟩
    refine ⟨distance, hcall, ?_⟩
    unfold Automobile.fuelConsumed at hempty ⊢
    rw [h.efficiency]
    linarith
  · rw [Automobile.logsFull_iff, Automobile.logsFull_iff]
    rintro ⟨liters, hcall, hfull⟩
    exact ⟨liters, hcall, by linarith⟩

end Twins

/-- Two cars of the same efficiency whose levels are in order, and any proper calls:
the levels stay within the tank and in order, and every call keeps them in step. -/
theorem twins_in_step (first second : Automobile ℚ)
    (hefficiency : first.fuelEfficiency = second.fuelEfficiency)
    (hfirst : ReachableLevel first.fuelInTank) (hsecond : ReachableLevel second.fuelInTank)
    (horder : first.fuelInTank ≤ second.fuelInTank) (calls : List (Method ℚ × Tm))
    (hproper : StepsMeet Twins.step Twins.Proper ⟨first, second⟩ calls) :
    StatesMeet Twins.step Twins.Ordered ⟨first, second⟩ calls ∧
      StepsMeet Twins.step Twins.InStep ⟨first, second⟩ calls := by
  have hinit : Twins.Invariant ⟨first, second⟩ :=
    ⟨hefficiency, hfirst.mem.1, horder, hsecond.mem.2⟩
  have hinv := StatesMeet.of_stepsMeet (fun _ _ _ => Twins.Invariant.step) hinit hproper
  exact ⟨hinv.mono fun _ h => h.ordered, hinv.stepsMeet fun _ call h => h.inStep call⟩

/-- A car with the efficiency that `main` sets for the second one. -/
def civic (fuelInTank : ℚ) : Automobile ℚ :=
  { Automobile.new "Honda".toList "Civic".toList "red".toList 2012 (39 / 5) with
    fuelInTank := fuelInTank }

/-- The emptier car runs dry, and the fuller one runs over. -/
def outing : List (Method ℚ × Tm) :=
  [.drive 100, .addFuel 45].map
    fun method => (method, { year := 2019, mon := 3, mday := 12, hour := 9, min := 0, sec := 0 })

theorem twins_in_step_outing :
    StatesMeet Twins.step Twins.Ordered ⟨civic 0, civic 20⟩ outing ∧
      StepsMeet Twins.step Twins.InStep ⟨civic 0, civic 20⟩ outing := by
  apply twins_in_step
  · rfl
  · exact ⟨[], [], [], 0, 0, _, Reaches.refl _, rfl⟩
  · refine ⟨[], [], [], 0, 0, _,
      Reaches.of_step (a := (.addFuel 20, ⟨0, 0, 0, 0, 0, 0⟩)) ?_ rfl, ?_⟩
    · exact Automobile.proper_addFuel _ (by norm_num)
    · norm_num [Automobile.perform, Automobile.addFuel, Automobile.new, civic]
  · norm_num [civic]
  · intro t _
    refine ⟨⟨show (0 : ℚ) ≤ 100 by norm_num, fun _ _ => ?_⟩, fun u _ => ⟨?_, trivial⟩⟩
    · exact show (0 : ℚ) ≤ 39 / 5 by norm_num
    · exact Automobile.proper_addFuel _ (by norm_num)

/-- A car that was constructed where a negative number stood. -/
def unsetCivic : Automobile ℚ :=
  Automobile.new "Honda".toList "Civic".toList "red".toList 2012 (-10)

/-- It is filled up and driven before anybody sets its efficiency. -/
def firstDrive : List (Method ℚ × Tm) :=
  [.addFuel 50, .drive 100].map
    fun method => (method, { year := 2019, mon := 3, mday := 12, hour := 9, min := 0, sec := 0 })

/-- All arguments are no less than 0, and the tank holds 60 liters in the end. -/
theorem unsetCivic_overfilled :
    ReachableLevel unsetCivic.fuelInTank ∧ (∀ call ∈ firstDrive, Automobile.Nonneg call.1) ∧
      ¬ StatesMeet Twins.step Twins.Ordered ⟨unsetCivic, unsetCivic⟩ firstDrive := by
  refine ⟨⟨[], [], [], 0, 0, _, Reaches.refl _, rfl⟩, ?_, fun h => ?_⟩
  · simp [firstDrive, Automobile.Nonneg]
  · have hhigh := ((h.2 _ rfl).2 _ rfl).high
    norm_num [unsetCivic, Automobile.perform, Automobile.addFuel, Automobile.drive,
      Automobile.fuelConsumed, Automobile.new] at hhigh

end Unx511.Assignment3
