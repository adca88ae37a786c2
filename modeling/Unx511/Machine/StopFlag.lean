import Unx511.Machine.Run

/-!
A loop that runs while a flag is true, and a request that makes the flag false. A
watched run also remembers whether the request was made and whether an iteration began
after it. The loop obeys the request in every state exactly as long as the flag is not
raised after it.
-/

namespace Unx511.Machine

/-- A program with a loop `while (running)`, and what is assumed of its steps. -/
structure StopLoop (σ α : Type*) where
  step : σ → α → Option σ
  running : σ → Bool
  /-- The step makes the flag true. -/
  raises : σ → α → Bool
  /-- The step is a request. -/
  requests : α → Bool
  /-- The test of the loop finds the flag true. -/
  enters : σ → α → Bool
  /-- The step ends an iteration. -/
  completes : σ → α → Bool
  raised : ∀ s a t, step s a = some t → raises s a = true → running t = true
  requested : ∀ s a t, step s a = some t → requests a = true → running t = false
  lowered : ∀ s a t, step s a = some t → raises s a = false → running s = false →
    running t = false
  entered : ∀ s a, enters s a = true → running s = true

/-- A state with the history of the requests and of the iterations: whether one has begun
after a request, and whether one of these is complete. -/
structure Watched (σ : Type*) where
  state : σ
  requested : Bool
  begun : Bool
  completed : Bool

namespace StopLoop

variable {σ α : Type*} (p : StopLoop σ α)

def watch (s : σ) : Watched σ where
  state := s
  requested := false
  begun := false
  completed := false

def watchedStep (w : Watched σ) (a : α) : Option (Watched σ) :=
  (p.step w.state a).map fun t =>
    { state := t
      requested := w.requested || p.requests a
      begun := w.begun || w.requested && p.enters w.state a
      completed := w.completed || w.begun && p.completes w.state a }

/-- A request stands, and no iteration begins after it, let alone is completed. -/
structure Obeyed (w : Watched σ) : Prop where
  stands : w.requested = true → p.running w.state = false
  noneBegun : w.begun = false
  noneCompleted : w.completed = false

/-- The flag is raised before there is any request. -/
def RaisesInTime (w : Watched σ) (a : α) : Prop :=
  p.raises w.state a = true → w.requested = false

variable {p} {w v : Watched σ} {a : α}

theorem Obeyed.not_entered (h : p.Obeyed w) : (w.requested && p.enters w.state a) = false := by
  rw [Bool.and_eq_false_iff]
  cases hrequested : w.requested with
  | false => exact .inl rfl
  | true =>
      right
      by_contra henters
      have hrunning := p.entered w.state a (by simpa using henters)
      rw [h.stands hrequested] at hrunning
      cases hrunning

theorem Obeyed.iff_raisesInTime (h : p.Obeyed w) (hstep : p.watchedStep w a = some v) :
    p.Obeyed v ↔ p.RaisesInTime w a := by
  obtain ⟨t, ht, rfl⟩ := Option.map_eq_some_iff.mp hstep
  constructor
  · intro hobeyed hraises
    by_contra hrequested
    have hlow : p.running t = false := by
      apply hobeyed.stands
      simpa using Or.inl hrequested
    rw [p.raised _ _ _ ht hraises] at hlow
    cases hlow
  · intro hintime
    refine ⟨?_, ?_, ?_⟩
    · intro hrequested
      cases hnow : p.requests a with
      | true => exact p.requested _ _ _ ht hnow
      | false =>
          have hbefore : w.requested = true := by simpa [hnow] using hrequested
          have hraises : p.raises w.state a = false := by
            by_contra hnot
            exact absurd (hbefore.symm.trans (hintime (by simpa using hnot))) (by simp)
          exact p.lowered _ _ _ ht hraises (h.stands hbefore)
    · change (w.begun || _) = false
      rw [h.noneBegun, h.not_entered]
      rfl
    · change (w.completed || _) = false
      rw [h.noneCompleted, h.noneBegun]
      rfl

/-- In a whole run the requests are obeyed exactly when the flag is never raised after
one. -/
theorem obeyed_iff_raisesInTime (p : StopLoop σ α) (s : σ) (actions : List α) :
    StatesMeet p.watchedStep p.Obeyed (watch s) actions ↔
      StepsMeet p.watchedStep p.RaisesInTime (watch s) actions := by
  apply statesMeet_iff_stepsMeet (I := fun _ => True)
  · exact fun _ _ _ _ _ => trivial
  · exact fun _ _ _ _ h hstep => h.iff_raisesInTime hstep
  · trivial
  · exact ⟨(fun h => nomatch h), rfl, rfl⟩

end StopLoop

end Unx511.Machine
