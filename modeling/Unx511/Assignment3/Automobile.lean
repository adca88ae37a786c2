import Unx511.Assignment3.Logger
import Unx511.Machine.Run
import Unx511.Text.CString

/-!
Assignment 3, `Automobile.cpp` and the cars of `TravelSimulator.cpp`. `addFuel` and
`drive` format a text into `char message[64]` when the tank is full or empty.

The arithmetic of `double` is any type with the operations that the code uses, and
nothing is assumed of it.
-/

namespace Unx511.Assignment3

open Machine Text

variable {F : Type*}

structure Automobile (F : Type*) where
  make : List Char
  model : List Char
  colour : List Char
  year : Int
  fuelEfficiency : F
  fuelInTank : F

/-- A call of one of the public methods that change a car. -/
inductive Method (F : Type*) where
  | setFuelEfficiency (efficiency : F)
  | emptyFuel
  | addFuel (liters : F)
  | drive (distance : F)

namespace Automobile

/-- `s.c_str()`, as `%s` prints it. -/
def cStr (s : List Char) : List Char := cString '\x00' s

/-- "The %s %d %s %s" -/
def description (car : Automobile F) : List Char :=
  "The ".toList ++ cStr car.colour ++ ' ' :: (toString car.year).toList ++
    ' ' :: cStr car.make ++ ' ' :: cStr car.model

def fullMessage (car : Automobile F) : List Char :=
  car.description ++ " is full of gas. Discarding the rest...\n".toList

def emptyMessage (car : Automobile F) : List Char :=
  car.description ++ " has no gas left in the tank\n".toList

/-- The number of characters that the four fields take up in a message. -/
def textLength (car : Automobile F) : Nat :=
  (cStr car.colour).length + (toString car.year).toList.length + (cStr car.make).length +
    (cStr car.model).length

theorem length_description (car : Automobile F) : car.description.length = car.textLength + 7 := by
  have hthe : "The ".toList.length = 4 := by decide
  unfold description textLength
  simp only [List.length_append, List.length_cons, hthe]
  omega

theorem length_fullMessage (car : Automobile F) :
    car.fullMessage.length = car.textLength + 47 := by
  have hend : " is full of gas. Discarding the rest...\n".toList.length = 40 := by decide
  rw [fullMessage, List.length_append, length_description, hend]

theorem length_emptyMessage (car : Automobile F) :
    car.emptyMessage.length = car.textLength + 36 := by
  have hend : " has no gas left in the tank\n".toList.length = 29 := by decide
  rw [emptyMessage, List.length_append, length_description, hend]

/-- The text of the call when it overruns. -/
def messageOf (car : Automobile F) : Method F → List Char
  | .drive _ => car.emptyMessage
  | .addFuel _ | .setFuelEfficiency _ | .emptyFuel => car.fullMessage

/-- The longest fields that leave room for the rest of the text and its NUL. -/
def room : Method F → Nat
  | .drive _ => 27
  | .addFuel _ | .setFuelEfficiency _ | .emptyFuel => 16

theorem messageOf_fits_iff (car : Automobile F) (method : Method F) :
    (car.messageOf method).length + 1 ≤ 64 ↔ car.textLength ≤ room method := by
  cases method with
  | drive distance =>
      rw [messageOf, length_emptyMessage, room]
      omega
  | setFuelEfficiency _ | emptyFuel | addFuel _ =>
      rw [messageOf, length_fullMessage, room]
      omega

variable [OfNat F 0]

/-- The constructor, which leaves `fuelEfficiency` as it finds it. -/
def new (make model colour : List Char) (year : Int) (leftover : F) : Automobile F where
  make := make
  model := model
  colour := colour
  year := year
  fuelEfficiency := leftover
  fuelInTank := 0

variable [Add F] [Sub F] [Mul F] [Div F] [LT F] [DecidableLT F] [OfNat F 50] [OfNat F 100]

/-- `Automobile::addFuel`, with the call of `Log` that it makes at the time `tm`. -/
def addFuel (liters : F) (tm : Tm) (car : Automobile F) : Automobile F × Option Call :=
  if 50 < car.fuelInTank + liters then
    ({ car with fuelInTank := 50 },
      some
        { level := .warning
          tm := tm
          file := "Automobile.cpp".toList
          function := "addFuel".toList
          line := 34
          message := car.fullMessage })
  else ({ car with fuelInTank := car.fuelInTank + liters }, none)

/-- `fuelConsumed` -/
def fuelConsumed (car : Automobile F) (distance : F) : F := car.fuelEfficiency / 100 * distance

/-- `Automobile::drive` -/
def drive (distance : F) (tm : Tm) (car : Automobile F) : Automobile F × Option Call :=
  if car.fuelInTank - car.fuelConsumed distance < 0 then
    ({ car with fuelInTank := 0 },
      some
        { level := .error
          tm := tm
          file := "Automobile.cpp".toList
          function := "drive".toList
          line := 48
          message := car.emptyMessage })
  else ({ car with fuelInTank := car.fuelInTank - car.fuelConsumed distance }, none)

def perform (tm : Tm) (car : Automobile F) : Method F → Automobile F × Option Call
  | .setFuelEfficiency efficiency => ({ car with fuelEfficiency := efficiency }, none)
  | .emptyFuel => ({ car with fuelInTank := 0 }, none)
  | .addFuel liters => car.addFuel liters tm
  | .drive distance => car.drive distance tm

/-- The call runs the tank over, or dry. -/
def Overruns (car : Automobile F) : Method F → Prop
  | .addFuel liters => 50 < car.fuelInTank + liters
  | .drive distance => car.fuelInTank - car.fuelConsumed distance < 0
  | .setFuelEfficiency _ | .emptyFuel => False

/-- A call logs its text when it overruns, and nothing otherwise. It keeps the fields
of the text. -/
theorem perform_spec (tm : Tm) (car : Automobile F) (method : Method F) :
    ((car.perform tm method).2.map Call.message = some (car.messageOf method) ∧
        car.Overruns method ∨
      (car.perform tm method).2 = none ∧ ¬ car.Overruns method) ∧
      (car.perform tm method).1.textLength = car.textLength := by
  cases method with
  | setFuelEfficiency efficiency => exact ⟨.inr ⟨rfl, id⟩, rfl⟩
  | emptyFuel => exact ⟨.inr ⟨rfl, id⟩, rfl⟩
  | addFuel liters =>
      by_cases hfull : 50 < car.fuelInTank + liters
      · rw [perform, addFuel, if_pos hfull]
        exact ⟨.inl ⟨rfl, hfull⟩, rfl⟩
      · rw [perform, addFuel, if_neg hfull]
        exact ⟨.inr ⟨rfl, hfull⟩, rfl⟩
  | drive distance =>
      by_cases hempty : car.fuelInTank - car.fuelConsumed distance < 0
      · rw [perform, drive, if_pos hempty]
        exact ⟨.inl ⟨rfl, hempty⟩, rfl⟩
      · rw [perform, drive, if_neg hempty]
        exact ⟨.inr ⟨rfl, hempty⟩, rfl⟩

end Automobile

variable [OfNat F 0]

/-- The cars of `TravelSimulator.cpp`. -/
def travelSimulatorCars (leftover : F) : List (Automobile F) :=
  [.new "Toyota".toList "Corolla".toList "grey".toList 2013 leftover,
    .new "Honda".toList "Civic".toList "red".toList 2012 leftover,
    .new "Chevrolet".toList "Impala".toList "blue".toList 2008 leftover,
    .new "Cadillac".toList "Escalade".toList "black".toList 2016 leftover]

theorem travelSimulatorCars_textLength {leftover : F} {car : Automobile F}
    (h : car ∈ travelSimulatorCars leftover) : 16 < car.textLength ∧ car.textLength ≤ 27 := by
  simp only [travelSimulatorCars, List.mem_cons, List.not_mem_nil, or_false] at h
  rcases h with rfl | rfl | rfl | rfl
  all_goals
    simp only [Automobile.textLength, Automobile.new]
    decide

variable [Add F] [Sub F] [Mul F] [Div F] [LT F] [DecidableLT F] [OfNat F 50] [OfNat F 100]

/-- A car and what its methods have logged. -/
structure Trip (F : Type*) where
  car : Automobile F
  logged : List Call

namespace Trip

/-- One call of a method, at some time. -/
def step (t : Trip F) (call : Method F × Tm) : Option (Trip F) :=
  let result := t.car.perform call.2 call.1
  some { car := result.1, logged := t.logged ++ result.2.toList }

/-- Every text fitted into `char message[64]`, its NUL included. -/
def MessagesFit (t : Trip F) : Prop := ∀ call ∈ t.logged, call.message.length + 1 ≤ 64

/-- The fields are short enough when the call overruns the tank. -/
def Room (t : Trip F) (call : Method F × Tm) : Prop :=
  t.car.Overruns call.1 → t.car.textLength ≤ Automobile.room call.1

/-- One call keeps within the buffer exactly when there is room for its text. -/
theorem messagesFit_step_iff {t u : Trip F} {call : Method F × Tm} (hfit : t.MessagesFit)
    (hstep : t.step call = some u) : u.MessagesFit ↔ t.Room call := by
  obtain rfl := Option.some.inj hstep
  obtain ⟨hlog, _⟩ := t.car.perform_spec call.2 call.1
  rcases hlog with ⟨hmessage, hover⟩ | ⟨hnone, hover⟩
  · obtain ⟨logged, hlogged, htext⟩ := Option.map_eq_some_iff.mp hmessage
    rw [Room, ← Automobile.messageOf_fits_iff, ← htext]
    simp only [MessagesFit, hlogged, Option.toList_some, List.forall_mem_append,
      List.forall_mem_singleton]
    exact ⟨fun h _ => h.2, fun h => ⟨hfit, h hover⟩⟩
  · simp only [MessagesFit, hnone, Option.toList_none, List.append_nil]
    exact iff_of_true hfit fun h => absurd h hover

end Trip

/-- For every car and all calls, the texts fit as long as there is room for each of
them. -/
theorem messagesFit_iff (make model colour : List Char) (year : Int) (leftover : F)
    (calls : List (Method F × Tm)) :
    StatesMeet Trip.step Trip.MessagesFit ⟨.new make model colour year leftover, []⟩ calls ↔
      StepsMeet Trip.step Trip.Room ⟨.new make model colour year leftover, []⟩ calls :=
  statesMeet_iff_stepsMeet (I := fun _ => True) (fun _ _ _ _ _ => trivial)
    (fun _ _ _ _ hfit hstep => Trip.messagesFit_step_iff hfit hstep) trivial
    (fun _ h => absurd h List.not_mem_nil) calls

/-- The call does not fill the tank beyond its 50 liters. -/
def Trip.NotFull (t : Trip F) (call : Method F × Tm) : Prop :=
  match call.1 with
  | .addFuel liters => ¬ 50 < t.car.fuelInTank + liters
  | _ => True

/-- The texts of the four cars fit as long as no tank runs over: none of them has room
for the text about a full tank, and all have room for the other one. -/
theorem travelSimulatorCars_messagesFit_iff {leftover : F} {car : Automobile F}
    (h : car ∈ travelSimulatorCars leftover) (calls : List (Method F × Tm)) :
    StatesMeet Trip.step Trip.MessagesFit ⟨car, []⟩ calls ↔
      StepsMeet Trip.step Trip.NotFull ⟨car, []⟩ calls := by
  obtain ⟨hlow, hhigh⟩ := travelSimulatorCars_textLength h
  have hkeep : ∀ (s : Trip F) call t, s.car.textLength = car.textLength → s.step call = some t →
      t.car.textLength = car.textLength := by
    intro s call t hs hstep
    obtain rfl := Option.some.inj hstep
    exact (s.car.perform_spec call.2 call.1).2.trans hs
  refine statesMeet_iff_stepsMeet (I := fun t => t.car.textLength = car.textLength) hkeep ?_ rfl
    (fun _ h => absurd h List.not_mem_nil) calls
  intro s call t hs hfit hstep
  rw [Trip.messagesFit_step_iff hfit hstep, Trip.Room, hs]
  obtain ⟨method, tm⟩ := call
  cases method with
  | setFuelEfficiency _ | emptyFuel => exact iff_of_true (fun h => absurd h id) trivial
  | drive distance => exact iff_of_true (fun _ => hhigh) trivial
  | addFuel liters =>
      constructor
      · intro hroom hfull
        exact absurd (hroom hfull) (by simp only [Automobile.room]; omega)
      · exact fun hnot hfull => absurd hfull hnot

/-- The start of the first round of `main` for the second car: the tank is filled and,
after 100 km in the city, filled again. -/
def civicRound : List (Method ℚ × Tm) :=
  [.emptyFuel, .addFuel 50, .setFuelEfficiency (39 / 5), .drive 100, .addFuel 50].map
    fun method => (method, { year := 2019, mon := 3, mday := 12, hour := 9, min := 0, sec := 0 })

/-- The text "The red 2012 Honda Civic is full of gas. .." needs 65 bytes. -/
theorem civicRound_overflow :
    ¬ StatesMeet Trip.step Trip.MessagesFit
      ⟨.new "Honda".toList "Civic".toList "red".toList 2012 0, []⟩ civicRound := by
  have hcar : Automobile.new "Honda".toList "Civic".toList "red".toList 2012 (0 : ℚ) ∈
      travelSimulatorCars 0 := List.mem_cons_of_mem _ List.mem_cons_self
  rw [travelSimulatorCars_messagesFit_iff hcar]
  intro h
  obtain ⟨_, h⟩ := h _ rfl
  obtain ⟨_, h⟩ := h _ rfl
  obtain ⟨_, h⟩ := h _ rfl
  obtain ⟨_, h⟩ := h _ rfl
  obtain ⟨hfull, _⟩ := h _ rfl
  -- 7.8 liters are gone, and 50 more do not fit
  apply hfull
  norm_num [Automobile.perform, Automobile.addFuel, Automobile.drive, Automobile.fuelConsumed,
    Automobile.new]

end Unx511.Assignment3
