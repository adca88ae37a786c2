import Unx511.Assignment3.TravelSimulator
import Unx511.Lab8.Phantom

/-!
SIGINT while a program starts up. A Lab 8 client, like the travel simulator of
Assignment 3, installs the handler that makes its running flag false before the
statement that makes it true. Between the two, the client gets its key and its queue.
Here a client runs in any environment, which chooses the outcomes of its calls.
-/

namespace Unx511.Lab8

open Unx511.Machine

def ClientAction.isMain : ClientAction → Bool
  | .main _ => true
  | .recv _ | .sigint => false

def ClientAction.isSigint : ClientAction → Bool
  | .sigint => true
  | .main _ | .recv _ => false

variable {pid : Nat} {no : ClientNo} {c c' : Client}

theorem mainStep_raises {ok : Bool} (h : mainStep pid no c ok = some c')
    (hstart : c.main = .start) : c'.isRunning = true := by
  cases mainStep_effect h <;> simp_all

theorem mainStep_lowered {ok : Bool} (h : mainStep pid no c ok = some c')
    (hstart : c.main ≠ .start) (hlow : c.isRunning = false) : c'.isRunning = false := by
  cases mainStep_effect h <;> simp_all

theorem recvStep_lowered {result : Msgrcv} (h : recvStep c result = some c')
    (hlow : c.isRunning = false) : c'.isRunning = false := by
  cases recvStep_effect h <;> simp_all

/-- The sending loop of a client with the flag that stops it. -/
def stopLoop (pid : Nat) (no : ClientNo) : StopLoop Client ClientAction where
  step := clientStep pid no
  running := Client.isRunning
  raises c a := c.main == .start && a.isMain
  requests a := a.isSigint
  enters c a := c.main == .test && c.isRunning && a.isMain
  completes c a := c.main == .sleep && a.isMain
  raised := by
    intro c a c' hstep hraises
    cases a with
    | main ok =>
        apply mainStep_raises hstep
        simpa [ClientAction.isMain] using hraises
    | recv _ | sigint => simp [ClientAction.isMain] at hraises
  requested := by
    intro c a c' hstep hrequests
    cases a with
    | main _ | recv _ => cases hrequests
    | sigint =>
        cases hstep
        rfl
  lowered := by
    intro c a c' hstep hraises hlow
    cases a with
    | main ok =>
        refine mainStep_lowered hstep ?_ hlow
        simpa [ClientAction.isMain] using hraises
    | recv result =>
        obtain ⟨_, hrecv⟩ := Option.ite_none_right_eq_some.mp hstep
        exact recvStep_lowered hrecv hlow
    | sigint =>
        cases hstep
        rfl
  entered := by
    intro c a henters
    simp only [Bool.and_eq_true] at henters
    exact henters.1.2

open Assignment3 in
/-- In every run of the travel simulator and of each client, SIGINT is obeyed exactly
when none comes before the running flag is made true. -/
theorem sigint_obeyed_iff (trips : Fin 4 → Trip ℚ) (simulation : List TravelSimulator.Action)
    (pid : Nat) (no : ClientNo) (session : List ClientAction) :
    (StatesMeet TravelSimulator.stopLoop.watchedStep TravelSimulator.stopLoop.Obeyed
          (StopLoop.watch (.initial trips)) simulation ↔
        StepsMeet TravelSimulator.stopLoop.watchedStep TravelSimulator.stopLoop.RaisesInTime
          (StopLoop.watch (.initial trips)) simulation) ∧
      (StatesMeet (stopLoop pid no).watchedStep (stopLoop pid no).Obeyed
          (StopLoop.watch Client.initial) session ↔
        StepsMeet (stopLoop pid no).watchedStep (stopLoop pid no).RaisesInTime
          (StopLoop.watch Client.initial) session) :=
  ⟨StopLoop.obeyed_iff_raisesInTime _ (TravelSimulator.State.initial trips) simulation,
    StopLoop.obeyed_iff_raisesInTime _ Client.initial session⟩

/-- SIGINT comes right after the registration of the handler, and the program goes on
by itself. -/
def earlySigint {α : Type*} (sigint main : α) (n : Nat) : List α :=
  sigint :: List.replicate n main

open Assignment3 in
/-- Both programs run a whole iteration that begins after the SIGINT. -/
theorem earlySigint_forgotten :
    (∀ (trips : Fin 4 → Trip ℚ) (tm : Tm),
      (run TravelSimulator.stopLoop.watchedStep (StopLoop.watch (.initial trips))
        (earlySigint .sigint (.main tm) 47)).map Watched.completed = some true) ∧
    ∀ (pid : Nat) (no : ClientNo),
      (run (stopLoop pid no).watchedStep (StopLoop.watch Client.initial)
        (earlySigint .sigint (.main true) 6)).map Watched.completed = some true :=
  ⟨fun _ _ => rfl, fun _ _ => rfl⟩

end Unx511.Lab8
