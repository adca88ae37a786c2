import Unx511.Assignment1.Part3.SignalCount
import Unx511.Machine.Termination

/-!
The end of Part 3. Each of the two signals wakes the parent once, so it is at its test only so
often; when both handlers are over it has either left the loop or sleeps in `pause()` with
nothing left to wake it.
-/

namespace Unx511.Assignment1.Part3

open Machine

/-- The steps that a signal has left, with the test and the `pause()` to which it can take
the parent back. -/
def phaseRank : Phase → Nat
  | .unsent => 7
  | .pending => 6
  | .entered => 3
  | .loaded _ => 2
  | .stored => 1
  | .finished => 0

def parentRank : ParentPc → Nat
  | .test => 2
  | .pause => 1
  | .paused | .waiting => 0

def rank (s : State) : Nat :=
  parentRank s.parent + (phaseRank (s.phase .usr1) + phaseRank (s.phase .usr2))

/-- Both handlers are over, and the parent has left its loop or sleeps. -/
def Ended (s : State) : Prop := s.Finished ∧ (s.parent = .waiting ∨ s.parent = .paused)

theorem phaseRank_setPhase (s : State) (sig : Signal) (p : Phase) :
    phaseRank ((s.setPhase sig p).phase .usr1) + phaseRank ((s.setPhase sig p).phase .usr2) +
        phaseRank (s.phase sig) =
      phaseRank (s.phase .usr1) + phaseRank (s.phase .usr2) + phaseRank p := by
  cases sig with
  | usr1 =>
      rw [setPhase_self, setPhase_of_ne s (show Signal.usr2 ≠ .usr1 by decide)]
      omega
  | usr2 =>
      rw [setPhase_self, setPhase_of_ne s (show Signal.usr1 ≠ .usr2 by decide)]
      omega

theorem rank_move {s t : State} {a : Action} (hmove : Move s a t) : rank t < rank s := by
  unfold rank
  cases hmove with
  | test hpc =>
      rw [hpc]
      apply Nat.add_lt_add_right
      change parentRank (if s.received < 2 then .pause else .waiting) < 2
      split <;> decide
  | pause _ hpc =>
      rw [hpc]
      exact Nat.add_lt_add_right (Nat.zero_lt_one) _
  | send sig hphase =>
      have hset := phaseRank_setPhase s sig .pending
      rw [hphase] at hset
      change _ + 7 = _ + 6 at hset
      change parentRank s.parent + _ < _
      omega
  | deliver sig hphase =>
      have hset := phaseRank_setPhase s sig .entered
      rw [hphase] at hset
      change _ + 6 = _ + 3 at hset
      -- a parent that slept is back at its test, two steps further up
      have hback : parentRank (if s.parent = .paused then .test else s.parent) ≤
          parentRank s.parent + 2 := by
        split
        · exact Nat.le_add_left 2 _
        · exact Nat.le_add_right _ 2
      change parentRank (if s.parent = .paused then .test else s.parent) +
        (phaseRank ((s.setPhase sig .entered).phase .usr1) +
          phaseRank ((s.setPhase sig .entered).phase .usr2)) < _
      omega
  | load sig _ _ hphase =>
      have hset := phaseRank_setPhase s sig (.loaded s.received)
      rw [hphase] at hset
      change _ + 3 = _ + 2 at hset
      change parentRank s.parent + _ < _
      omega
  | store sig _ n _ hphase =>
      have hset := phaseRank_setPhase s sig .stored
      rw [hphase] at hset
      change _ + 2 = _ + 1 at hset
      change parentRank s.parent + (phaseRank ((s.setPhase sig .stored).phase .usr1) +
        phaseRank ((s.setPhase sig .stored).phase .usr2)) < _
      omega
  | leave sig _ _ hphase =>
      have hset := phaseRank_setPhase s sig .finished
      rw [hphase] at hset
      change _ + 1 = _ + 0 at hset
      change parentRank s.parent + (phaseRank ((s.setPhase sig .finished).phase .usr1) +
        phaseRank ((s.setPhase sig .finished).phase .usr2)) < _
      omega

/-- The handler has been entered and has not returned. -/
def Phase.running : Phase → Bool
  | .entered | .loaded _ | .stored => true
  | _ => false

/-- The stack holds the handlers that run, each once. -/
structure Stacked (s : State) : Prop where
  nodup : s.stack.Nodup
  running : ∀ sig, sig ∈ s.stack ↔ (s.phase sig).running = true

theorem stacked_initial : Stacked State.initial := ⟨List.nodup_nil, fun _ => ⟨nofun, nofun⟩⟩

theorem Stacked.setPhase {s : State} {sig : Signal} {p : Phase} (h : Stacked s)
    (hp : p.running = (s.phase sig).running) : Stacked (s.setPhase sig p) where
  nodup := h.nodup
  running := by
    intro sig'
    change sig' ∈ s.stack ↔ _
    rw [h.running sig']
    rcases eq_or_ne sig' sig with rfl | hne
    · rw [setPhase_self, hp]
    · rw [setPhase_of_ne s hne]

theorem Stacked.move {s t : State} {a : Action} (h : Stacked s) (hmove : Move s a t) :
    Stacked t := by
  cases hmove with
  | test _ | pause _ _ => exact ⟨h.nodup, h.running⟩
  | send sig hphase => exact h.setPhase (by rw [hphase]; rfl)
  | load sig _ _ hphase => exact h.setPhase (by rw [hphase]; rfl)
  | store sig _ n _ hphase =>
      have hset : Stacked (s.setPhase sig .stored) := h.setPhase (by rw [hphase]; rfl)
      exact ⟨hset.nodup, hset.running⟩
  | deliver sig hphase =>
      have hnew : sig ∉ s.stack := by
        rw [h.running sig, hphase]
        nofun
      refine ⟨List.nodup_cons.mpr ⟨hnew, h.nodup⟩, fun sig' => ?_⟩
      change sig' ∈ sig :: s.stack ↔ ((s.setPhase sig .entered).phase sig').running = true
      rw [List.mem_cons]
      rcases eq_or_ne sig' sig with rfl | hne
      · rw [setPhase_self]
        exact iff_of_true (.inl rfl) rfl
      · rw [setPhase_of_ne s hne, h.running sig']
        exact ⟨fun hmem => hmem.resolve_left hne, .inr⟩
  | leave sig rest hstack hphase =>
      have hnodup := h.nodup
      rw [hstack] at hnodup
      obtain ⟨hnew, hrest⟩ := List.nodup_cons.mp hnodup
      refine ⟨hrest, fun sig' => ?_⟩
      change sig' ∈ rest ↔ ((s.setPhase sig .finished).phase sig').running = true
      rcases eq_or_ne sig' sig with rfl | hne
      · rw [setPhase_self]
        exact iff_of_false hnew nofun
      · have hold := h.running sig'
        rw [hstack, List.mem_cons] at hold
        rw [setPhase_of_ne s hne, ← hold]
        exact ⟨.inr, fun hmem => hmem.resolve_left hne⟩

/-- Where no handler runs, a signal that has not been dealt with goes on. -/
theorem signal_goesOn {s : State} (h : Stacked s) (hstack : s.stack = []) (sig : Signal)
    (hphase : s.phase sig ≠ .finished) (hsent : sig = .usr2 → s.phase .usr1 ≠ .unsent) :
    ∃ a t, step s a = some t := by
  cases hpc : s.phase sig with
  | unsent => exact ⟨.send sig, _, if_pos ⟨hpc, hsent⟩⟩
  | pending => exact ⟨.deliver sig, _, if_pos hpc⟩
  | finished => exact absurd hpc hphase
  | entered | loaded _ | stored =>
      have hmem : sig ∈ s.stack := by
        rw [h.running sig, hpc]
        rfl
      rw [hstack] at hmem
      cases hmem

theorem goesOn {s : State} (h : Stacked s) (hnot : ¬ Ended s) : ∃ a t, step s a = some t := by
  cases hstack : s.stack with
  | cons sig rest =>
      have hrunning := (h.running sig).mp (by rw [hstack]; exact List.mem_cons_self)
      suffices hsome : (step s .handler).isSome = true from
        ⟨.handler, Option.isSome_iff_exists.mp hsome⟩
      simp only [step, handlerStep, hstack]
      cases hpc : s.phase sig with
      | entered | loaded _ | stored => rfl
      | unsent | pending | finished =>
          rw [hpc] at hrunning
          cases hrunning
  | nil =>
      by_cases husr1 : s.phase .usr1 = .finished
      · by_cases husr2 : s.phase .usr2 = .finished
        · -- no signal is left, so the parent is not at its end
          suffices hsome : (step s .parent).isSome = true from
            ⟨.parent, Option.isSome_iff_exists.mp hsome⟩
          simp only [step, hstack, if_true, parentStep]
          cases hpc : s.parent with
          | test | pause => rfl
          | paused => exact absurd ⟨⟨husr1, husr2⟩, .inr hpc⟩ hnot
          | waiting => exact absurd ⟨⟨husr1, husr2⟩, .inl hpc⟩ hnot
        · exact signal_goesOn h hstack .usr2 husr2 fun _ => by simp [husr1]
      · exact signal_goesOn h hstack .usr1 husr1 (by simp)

/-- No handler reads or writes more than has been counted, and the parent is behind its loop
only with both signals counted. -/
structure Bounded (s : State) : Prop where
  received : s.received ≤ s.counted
  loaded : ∀ sig n, s.phase sig = .loaded n → n ≤ s.counted
  waiting : s.parent = .waiting → s.received = 2

theorem bounded_initial : Bounded State.initial := ⟨le_rfl, nofun, nofun⟩

theorem counted_le (s : State) : s.counted ≤ 2 := by
  have h1 := Bool.toNat_le (s.phase .usr1).counted
  have h2 := Bool.toNat_le (s.phase .usr2).counted
  unfold State.counted
  omega

theorem Bounded.not_waiting {s : State} {sig : Signal} (h : Bounded s)
    (hphase : (s.phase sig).counted = false) : s.parent ≠ .waiting := by
  intro hwaiting
  have hset := counted_setPhase s sig .stored
  have hle := counted_le (s.setPhase sig .stored)
  have hreceived := h.received
  rw [h.waiting hwaiting] at hreceived
  rw [hphase] at hset
  change _ + 0 = _ + 1 at hset
  omega

/-- A signal that stays uncounted, or counted. -/
theorem Bounded.setPhase {s t : State} {sig : Signal} {p : Phase} (h : Bounded s)
    (hp : p.counted = (s.phase sig).counted) (hload : ∀ n, p = .loaded n → n ≤ s.counted)
    (hphase : t.phase = (s.setPhase sig p).phase) (hreceived : t.received = s.received)
    (hwaiting : t.parent = .waiting → s.parent = .waiting) : Bounded t := by
  have hcounted : t.counted = s.counted := by
    have hset := counted_setPhase s sig p
    rw [hp] at hset
    have hsame : t.counted = (s.setPhase sig p).counted := by
      unfold State.counted
      rw [hphase]
    omega
  refine ⟨?_, fun sig' n hn => ?_, fun hpc => hreceived.trans (h.waiting (hwaiting hpc))⟩
  · rw [hcounted, hreceived]
    exact h.received
  · rw [hcounted]
    rw [hphase] at hn
    rcases loaded_setPhase hn with hnew | hold
    · exact hload n hnew
    · exact h.loaded sig' n hold

theorem Bounded.move {s t : State} {a : Action} (h : Bounded s) (hmove : Move s a t) :
    Bounded t := by
  cases hmove with
  | test _ =>
      refine ⟨h.received, h.loaded, fun hwaiting => ?_⟩
      change (if s.received < 2 then ParentPc.pause else .waiting) = .waiting at hwaiting
      have hreceived := h.received
      have hle := counted_le s
      change s.received = 2
      split at hwaiting
      · cases hwaiting
      · omega
  | pause _ _ => exact ⟨h.received, h.loaded, nofun⟩
  | send sig hphase => exact h.setPhase (by rw [hphase]; rfl) (by nofun) rfl rfl id
  | deliver sig hphase =>
      refine h.setPhase (by rw [hphase]; rfl) (by nofun) rfl rfl fun hwaiting => ?_
      change (if s.parent = .paused then ParentPc.test else s.parent) = .waiting at hwaiting
      split at hwaiting
      · cases hwaiting
      · exact hwaiting
  | load sig _ _ hphase =>
      refine h.setPhase (by rw [hphase]; rfl) ?_ rfl rfl id
      rintro _ ⟨⟩
      exact h.received
  | store sig _ n _ hphase =>
      have hset := counted_setPhase s sig .stored
      rw [hphase] at hset
      change _ + 0 = _ + 1 at hset
      have hn := h.loaded sig n hphase
      refine ⟨?_, fun sig' m hm => ?_, fun hwaiting => ?_⟩
      · change n + 1 ≤ (s.setPhase sig .stored).counted
        omega
      · change m ≤ (s.setPhase sig .stored).counted
        rcases loaded_setPhase hm with hnew | hold
        · cases hnew
        · have hm := h.loaded sig' m hold
          omega
      · exact absurd hwaiting (h.not_waiting (by rw [hphase]; rfl))
  | leave sig _ _ hphase => exact h.setPhase (by rw [hphase]; rfl) (by nofun) rfl rfl id

/-- Every run has at most 16 steps and goes on until both handlers are over and the parent
waits for its child or sleeps for good; it comes to wait in exactly the undisturbed runs. -/
theorem main_ends :
    EndsWithin step anyAction Ended 16 State.initial ∧
      ∀ acts s, run step State.initial acts = some s → Ended s →
        (s.parent = .waiting ↔ StepsMeet step Undisturbed State.initial acts) := by
  constructor
  · have hrank : rank State.initial = 16 := rfl
    rw [← hrank]
    refine .of_rank rank (fun _ _ _ h _ hstep => h.move (step_move hstep))
      (fun _ _ _ _ _ hstep => rank_move (step_move hstep)) (fun s h hnot => ?_) stacked_initial
    obtain ⟨a, t, hstep⟩ := goesOn h hnot
    exact ⟨a, t, trivial, hstep⟩
  · rintro acts s hrun ⟨hfinished, hend⟩
    have hkeep : ∀ u a v, Counting u → Undisturbed u a → step u a = some v → Counting v :=
      fun u a v hc hund hstep => hc.step hund (step_move hstep)
    have hbounded : Bounded s := (Reaches.of_any_run acts hrun).invariant bounded_initial
      fun _ _ _ h _ hstep => h.move (step_move hstep)
    constructor
    · intro hwaiting
      rcases stepsMeet_or hkeep
          (fun u a v hc hund hstep => hc.spoiled hund (step_move hstep))
          (fun u a v hsp hstep => hsp.step (step_move hstep)) initial_counting hrun with
        hmeet | hspoiled
      · exact hmeet
      · refine absurd ⟨hbounded.waiting hwaiting, ?_⟩ hspoiled.not_counted
        rw [hwaiting]
        nofun
    · intro hmeet
      have hcounting : Counting s :=
        (StatesMeet.of_stepsMeet hkeep initial_counting hmeet).last hrun
      exact hend.resolve_right fun hpaused => hcounting.answered hpaused hfinished

end Unx511.Assignment1.Part3
