import Unx511.Lab9.Server
import Unx511.Machine.Termination

/-!
Lab 9: `server.cpp` told to stop. Whatever the clients send and however long the queue is,
`main` returns, and every receive thread has ended by then, unless SIGPIPE ends the process
at a "Quit" for a connection that a client has reset. `queue_mutex` is only ever held by a
thread that can go on, and a thread that reads is woken by its timeout.
-/

namespace Unx511.Lab9.Server

open Unx511.Machine

/-- Between `pthread_mutex_lock` and `pthread_mutex_unlock`. -/
def MainPc.holds : MainPc → Bool
  | .drain | .unlock => true
  | _ => false

def ThreadPc.holds : ThreadPc → Bool
  | .push _ | .unlock => true
  | _ => false

/-- The threads that `main` has waited for, when there are `n`. -/
def MainPc.joined (n : Nat) : MainPc → Nat
  | .join i => i
  | .returned => n
  | _ => 0

/-- The statements to the end once `is_running` is false, and one more for the string
that `main` has to print. -/
def ThreadPc.rank : ThreadPc → Nat
  | .read => 6
  | .lock _ => 5
  | .push _ => 4
  | .unlock => 2
  | .test => 1
  | .ended => 0

/-- The statements of `main` to its return, the printing aside. A client that is
accepted costs its thread's statement and two of `main`. -/
def MainPc.rank (n : Nat) : MainPc → Nat
  | .accept => n + n + 12
  | .lock => n + n + 8
  | .drain => n + n + 7
  | .unlock => n + n + 6
  | .sleep => n + n + 5
  | .test => n + n + 4
  | .quit i => (n - i) + n + 3
  | .join i => (n - i) + 2
  | .returned | .killed => 0

def State.rank (s : State) : Nat :=
  s.main.rank s.threads.length + (s.threads.map ThreadPc.rank).sum + s.queue.length

/-- What a statement of a thread does. -/
inductive ThreadMove (s : State) : State → Prop
  | goes {i : Nat} {pc pc' : ThreadPc} (hpc : s.threads[i]? = some pc)
      (hdown : s.isRunning = false → pc'.rank < pc.rank) (hout : pc.holds = false)
      (hnot : pc ≠ .ended) : ThreadMove s (s.goto i pc')
  | locks {i : Nat} {text : List UInt8} (hpc : s.threads[i]? = some (.lock text)) :
      ThreadMove s ({ s with locked := true }.goto i (.push text))
  | pushes {i : Nat} {text : List UInt8} (hpc : s.threads[i]? = some (.push text)) :
      ThreadMove s ((s.pushMessage ⟨i, text⟩).goto i .unlock)
  | unlocks {i : Nat} (hpc : s.threads[i]? = some .unlock) :
      ThreadMove s ({ s with locked := false }.goto i .test)

/-- The mutex is held by somebody, and `main` waits for the threads in turn. -/
structure Orderly (s : State) : Prop where
  holder : s.locked = true →
    s.main.holds = true ∨
      ∃ (i : Nat) (pc : ThreadPc), s.threads[i]? = some pc ∧ pc.holds = true
  joined : ∀ i < s.main.joined s.threads.length, s.threads[i]? = some .ended

/-- `main` has returned, and the threads have ended. -/
structure Stopped (s : State) : Prop where
  main : s.main = .returned
  threads : ∀ pc ∈ s.threads, pc = .ended

/-- The server has come to its end, by itself or by SIGPIPE. -/
def Ended (s : State) : Prop := Stopped s ∨ s.main = .killed

/-- A step that is no signal. -/
def Undisturbed (_ : State) (a : Action) : Prop := a ≠ .sigint ∧ a ≠ .sigpipe

variable {s t : State} {a : Action}

theorem threadStep_move (h : threadStep s a = some t) : ThreadMove s t := by
  unfold threadStep at h
  split at h
  case h_1 =>
    obtain ⟨hpc, h⟩ := Option.ite_none_right_eq_some.mp h
    cases h
    refine .goes hpc (fun hstopped => ?_) rfl nofun
    rw [hstopped]
    decide
  case h_2 =>
    obtain ⟨⟨hpc, _⟩, h⟩ := Option.ite_none_right_eq_some.mp h
    cases h
    exact .goes hpc (fun _ => by simp [ThreadPc.rank]) rfl nofun
  case h_3 | h_4 =>
    obtain ⟨hpc, h⟩ := Option.ite_none_right_eq_some.mp h
    cases h
    exact .goes hpc (fun _ => by decide) rfl nofun
  case h_5 =>
    split at h
    case h_1 hpc =>
      split at h
      · cases h
      · cases h
        exact .locks hpc
    case h_2 => cases h
  case h_6 =>
    split at h
    case h_1 hpc =>
      cases h
      exact .pushes hpc
    case h_2 => cases h
  case h_7 =>
    obtain ⟨hpc, h⟩ := Option.ite_none_right_eq_some.mp h
    cases h
    exact .unlocks hpc
  case h_8 => cases h

theorem goto_rank {i : Nat} {pc : ThreadPc} (hpc : s.threads[i]? = some pc) (pc' : ThreadPc) :
    (s.goto i pc').rank + pc.rank = s.rank + pc'.rank := by
  have hsum := sum_map_set ThreadPc.rank hpc pc'
  unfold State.rank State.goto
  simp only [List.length_set]
  omega

theorem ThreadMove.rank_lt (h : ThreadMove s t) (hstopped : s.isRunning = false) :
    t.rank < s.rank ∧ t.isRunning = false := by
  refine ⟨?_, ?_⟩
  · cases h with
    | @goes i pc pc' hpc hdown _ _ =>
        have hgoto := goto_rank hpc pc'
        have hdown := hdown hstopped
        omega
    | @locks i text hpc =>
        have hgoto := goto_rank (s := { s with locked := true }) hpc (.push text)
        have hsame : ({ s with locked := true } : State).rank = s.rank := rfl
        simp only [ThreadPc.rank] at hgoto
        omega
    | @pushes i text hpc =>
        have hgoto := goto_rank (s := s.pushMessage ⟨i, text⟩) hpc .unlock
        have hmore : (s.pushMessage ⟨i, text⟩).rank = s.rank + 1 := by
          unfold State.rank State.pushMessage
          simp only [List.length_append, List.length_singleton]
          omega
        simp only [ThreadPc.rank] at hgoto
        omega
    | @unlocks i hpc =>
        have hgoto := goto_rank (s := { s with locked := false }) hpc .test
        have hsame : ({ s with locked := false } : State).rank = s.rank := rfl
        simp only [ThreadPc.rank] at hgoto
        omega
  · cases h <;> exact hstopped

theorem ThreadMove.orderly (h : ThreadMove s t) (hs : Orderly s) : Orderly t := by
  have hjoined : ∀ {i : Nat} {pc : ThreadPc} (pc' : ThreadPc), s.threads[i]? = some pc →
      pc ≠ .ended → ∀ j < s.main.joined (s.threads.set i pc').length,
        (s.threads.set i pc')[j]? = some .ended := by
    intro i pc pc' hpc hnot j hj
    rw [List.length_set] at hj
    have hended := hs.joined j hj
    rw [List.getElem?_set_ne, hended]
    rintro rfl
    exact hnot (Option.some.inj (hpc.symm.trans hended))
  have hself : ∀ {i : Nat} {pc : ThreadPc} (pc' : ThreadPc), s.threads[i]? = some pc →
      (s.threads.set i pc')[i]? = some pc' := by
    intro i pc pc' hpc
    obtain ⟨hi, _⟩ := List.getElem?_eq_some_iff.mp hpc
    exact List.getElem?_set_self hi
  cases h with
  | @goes i pc pc' hpc _ hout hnot =>
      refine ⟨fun hlocked => ?_, hjoined pc' hpc hnot⟩
      rcases hs.holder hlocked with hmain | ⟨j, pcj, hj, hholds⟩
      · exact .inl hmain
      · right
        refine ⟨j, pcj, ?_, hholds⟩
        change (s.threads.set i pc')[j]? = some pcj
        rw [List.getElem?_set_ne, hj]
        rintro rfl
        obtain rfl : pc = pcj := Option.some.inj (hpc.symm.trans hj)
        cases hout.symm.trans hholds
  | @locks i text hpc =>
      exact ⟨fun _ => .inr ⟨i, .push text, hself _ hpc, rfl⟩, hjoined _ hpc nofun⟩
  | @pushes i text hpc =>
      exact ⟨fun _ => .inr ⟨i, .unlock, hself _ hpc, rfl⟩, hjoined _ hpc nofun⟩
  | @unlocks i hpc => exact ⟨nofun, hjoined _ hpc nofun⟩

theorem mainStep_orderly (hs : Orderly s) (h : mainStep s = some t) : Orderly t := by
  have hkept : s.main.holds = false → s.locked = true →
      ∃ (i : Nat) (pc : ThreadPc), s.threads[i]? = some pc ∧ pc.holds = true := by
    intro hmain hlocked
    rcases hs.holder hlocked with hholds | hthread
    · cases hmain.symm.trans hholds
    · exact hthread
  unfold mainStep at h
  split at h
  case h_1 hmain =>
    cases h
    refine ⟨fun hlocked => .inr (hkept (by rw [hmain]; rfl) hlocked), fun i hi => ?_⟩
    change i < MainPc.joined _ (if s.isRunning = true then .accept else .quit 0) at hi
    split at hi <;> cases hi
  case h_2 hmain | h_6 hmain =>
    cases h
    exact ⟨fun hlocked => .inr (hkept (by rw [hmain]; rfl) hlocked), nofun⟩
  case h_3 hmain =>
    split at h
    case isTrue => cases h
    case isFalse =>
      cases h
      exact ⟨fun _ => .inl rfl, nofun⟩
  case h_4 hmain =>
    split at h
    case h_1 =>
      cases h
      exact ⟨fun _ => .inl rfl, nofun⟩
    case h_2 =>
      cases h
      refine ⟨fun _ => .inl ?_, fun i hi => ?_⟩
      · change s.main.holds = true
        rw [hmain]
        rfl
      · change i < s.main.joined s.threads.length at hi
        rw [hmain] at hi
        cases hi
  case h_5 =>
    cases h
    exact ⟨nofun, nofun⟩
  case h_7 i hmain =>
    cases h
    refine ⟨fun hlocked => .inr (hkept (by rw [hmain]; rfl) hlocked), fun j hj => ?_⟩
    change j < MainPc.joined _ (if i < s.threads.length then .quit (i + 1) else .join 0) at hj
    split at hj <;> cases hj
  case h_8 i hmain =>
    have hjoined := hs.joined
    rw [hmain] at hjoined
    split at h
    case isTrue hi =>
      obtain ⟨hended, h⟩ := Option.ite_none_right_eq_some.mp h
      cases h
      refine ⟨fun hlocked => .inr (hkept (by rw [hmain]; rfl) hlocked), fun j hj => ?_⟩
      rcases Nat.lt_succ_iff_lt_or_eq.mp hj with hlt | rfl
      · exact hjoined j hlt
      · exact hended
    case isFalse hi =>
      cases h
      refine ⟨fun hlocked => .inr (hkept (by rw [hmain]; rfl) hlocked), fun j hj => ?_⟩
      change j < s.threads.length at hj
      exact hjoined j (by change j < i; omega)
  case h_9 | h_10 => cases h

theorem mainStep_rank (hstopped : s.isRunning = false) (h : mainStep s = some t) :
    t.rank < s.rank ∧ t.isRunning = false := by
  have hnext : ∀ pc, pc.rank s.threads.length < s.main.rank s.threads.length →
      ({ s with main := pc } : State).rank < s.rank := by
    intro pc hpc
    unfold State.rank
    exact Nat.add_lt_add_right (Nat.add_lt_add_right hpc _) _
  unfold mainStep at h
  split at h
  case h_1 hmain =>
    cases h
    refine ⟨hnext _ ?_, hstopped⟩
    rw [hmain, hstopped]
    simp [MainPc.rank]
  case h_2 hmain | h_6 hmain =>
    cases h
    refine ⟨hnext _ ?_, hstopped⟩
    rw [hmain]
    simp [MainPc.rank]
  case h_3 hmain =>
    split at h
    case isTrue => cases h
    case isFalse =>
      cases h
      refine ⟨hnext .drain ?_, hstopped⟩
      rw [hmain]
      simp [MainPc.rank]
  case h_4 hmain =>
    split at h
    case h_1 =>
      cases h
      refine ⟨hnext _ ?_, hstopped⟩
      rw [hmain]
      simp [MainPc.rank]
    case h_2 m rest hqueue =>
      cases h
      refine ⟨?_, hstopped⟩
      unfold State.rank
      rw [hqueue, List.length_cons]
      exact Nat.lt_succ_self _
  case h_5 hmain =>
    cases h
    refine ⟨hnext .sleep ?_, hstopped⟩
    rw [hmain]
    simp [MainPc.rank]
  case h_7 i hmain =>
    cases h
    refine ⟨hnext _ ?_, hstopped⟩
    rw [hmain]
    split
    · simp only [MainPc.rank]
      omega
    · simp only [MainPc.rank]
      omega
  case h_8 i hmain =>
    split at h
    case isTrue hi =>
      obtain ⟨_, h⟩ := Option.ite_none_right_eq_some.mp h
      cases h
      refine ⟨hnext _ ?_, hstopped⟩
      rw [hmain]
      simp only [MainPc.rank]
      omega
    case isFalse =>
      cases h
      refine ⟨hnext _ ?_, hstopped⟩
      rw [hmain]
      simp [MainPc.rank]
  case h_9 | h_10 => cases h

theorem step_orderly (hs : Orderly s) (h : step s a = some t) : Orderly t := by
  unfold step at h
  split at h
  case isTrue => cases h
  case isFalse =>
    split at h
    case h_1 => exact mainStep_orderly hs h
    case h_2 =>
      obtain ⟨hmain, h⟩ := Option.ite_none_right_eq_some.mp h
      cases h
      refine ⟨fun hlocked => ?_, nofun⟩
      rcases hs.holder hlocked with hholds | ⟨i, pc, hi, hholds⟩
      · rw [hmain] at hholds
        cases hholds
      · obtain ⟨hlt, _⟩ := List.getElem?_eq_some_iff.mp hi
        exact .inr ⟨i, pc, (List.getElem?_append_left hlt).trans hi, hholds⟩
    case h_3 =>
      cases h
      exact ⟨hs.holder, hs.joined⟩
    case h_4 =>
      obtain ⟨i, hmain, rfl⟩ := sigpipe_cases h
      refine ⟨fun hlocked => ?_, nofun⟩
      rcases hs.holder hlocked with hholds | hthread
      · rw [hmain] at hholds
        cases hholds
      · exact .inr hthread
    case h_5 => exact (threadStep_move h).orderly hs

theorem step_rank (hstopped : s.isRunning = false) (ha : a ≠ .sigint) (h : step s a = some t) :
    t.rank < s.rank ∧ t.isRunning = false := by
  unfold step at h
  split at h
  case isTrue => cases h
  case isFalse =>
    split at h
    case h_1 => exact mainStep_rank hstopped h
    case h_2 =>
      obtain ⟨hmain, h⟩ := Option.ite_none_right_eq_some.mp h
      cases h
      refine ⟨?_, hstopped⟩
      unfold State.rank
      rw [hmain]
      simp only [MainPc.rank, ThreadPc.rank, List.length_append, List.map_append, List.sum_append,
        List.length_singleton, List.map_singleton, List.sum_singleton]
      omega
    case h_3 => exact absurd rfl ha
    case h_4 =>
      obtain ⟨i, hmain, rfl⟩ := sigpipe_cases h
      refine ⟨?_, hstopped⟩
      unfold State.rank
      rw [hmain]
      simp only [MainPc.rank]
      omega
    case h_5 => exact (threadStep_move h).rank_lt hstopped

/-- A thread that has not ended goes on, unless it waits for the mutex. -/
theorem thread_goesOn {i : Nat} {pc : ThreadPc} (hmain : s.main.isOver = false)
    (hpc : s.threads[i]? = some pc) (hnot : pc ≠ .ended)
    (hfree : s.locked = false ∨ pc.holds = true) : ∃ a t, Undisturbed s a ∧ step s a = some t := by
  cases pc with
  | test => exact ⟨.test i, _, ⟨nofun, nofun⟩, by simp [step, threadStep, hmain, hpc]; rfl⟩
  | read =>
      -- the timeout of the socket
      exact ⟨.readFails i, _, ⟨nofun, nofun⟩, by simp [step, threadStep, hmain, hpc]; rfl⟩
  | lock text =>
      have hfree : s.locked = false := hfree.resolve_right nofun
      exact ⟨.lock i, _, ⟨nofun, nofun⟩, by simp [step, threadStep, hmain, hpc, hfree]; rfl⟩
  | push text => exact ⟨.push i, _, ⟨nofun, nofun⟩, by simp [step, threadStep, hmain, hpc]; rfl⟩
  | unlock => exact ⟨.unlock i, _, ⟨nofun, nofun⟩, by simp [step, threadStep, hmain, hpc]; rfl⟩
  | ended => exact absurd rfl hnot

/-- Who holds the mutex gives it back, or is `main`. -/
theorem Orderly.goesOn_locked (hs : Orderly s) (hmain : s.main.isOver = false)
    (hout : s.main.holds = false) (hlocked : s.locked = true) :
    ∃ a t, Undisturbed s a ∧ step s a = some t := by
  rcases hs.holder hlocked with hholds | ⟨i, pc, hpc, hholds⟩
  · cases hout.symm.trans hholds
  · refine thread_goesOn hmain hpc ?_ (.inr hholds)
    rintro rfl
    cases hholds

theorem Orderly.goesOn (hs : Orderly s) (hmain : s.main.isOver = false) :
    ∃ a t, Undisturbed s a ∧ step s a = some t := by
  have hgo : ∀ {t : State}, mainStep s = some t → ∃ a t, Undisturbed s a ∧ step s a = some t :=
    fun {t} h => ⟨.main, t, ⟨nofun, nofun⟩, by simp [step, hmain, h]⟩
  cases hpc : s.main with
  | test | accept | unlock | sleep | quit i => exact hgo (by simp only [mainStep, hpc]; rfl)
  | lock =>
      cases hlocked : s.locked with
      | false => exact hgo (by simp [mainStep, hpc, hlocked]; rfl)
      | true => exact hs.goesOn_locked hmain (by rw [hpc]; rfl) hlocked
  | drain =>
      cases hqueue : s.queue with
      | nil => exact hgo (by simp only [mainStep, hpc, hqueue]; rfl)
      | cons m rest => exact hgo (by simp only [mainStep, hpc, hqueue]; rfl)
  | join i =>
      rcases Nat.lt_or_ge i s.threads.length with hi | hi
      · have hthread := List.getElem?_eq_getElem hi
        by_cases hended : s.threads[i] = .ended
        · exact hgo (by simp [mainStep, hpc, hi, hended]; rfl)
        · cases hlocked : s.locked with
          | false => exact thread_goesOn hmain hthread hended (.inl hlocked)
          | true => exact hs.goesOn_locked hmain (by rw [hpc]; rfl) hlocked
      · exact hgo (by simp [mainStep, hpc, Nat.not_lt.mpr hi]; rfl)
  | returned | killed =>
      rw [hpc] at hmain
      cases hmain

theorem Orderly.stopped (hs : Orderly s) (hmain : s.main = .returned) : Stopped s := by
  refine ⟨hmain, fun pc hpc => ?_⟩
  obtain ⟨i, hi, rfl⟩ := List.mem_iff_getElem.mp hpc
  have hended := hs.joined i (by rw [hmain]; exact hi)
  rw [List.getElem?_eq_getElem hi] at hended
  exact Option.some.inj hended

theorem rank_le (s : State) : s.rank ≤ 8 * s.threads.length + s.queue.length + 12 := by
  have hmain : s.main.rank s.threads.length ≤ 2 * s.threads.length + 12 := by
    cases s.main <;> simp only [MainPc.rank] <;> omega
  have hthreads : (s.threads.map ThreadPc.rank).sum ≤ s.threads.length * 6 := by
    have hsum := List.sum_le_card_nsmul (s.threads.map ThreadPc.rank) 6 fun r hr => by
      obtain ⟨pc, _, rfl⟩ := List.mem_map.mp hr
      cases pc <;> simp [ThreadPc.rank]
    simpa using hsum
  unfold State.rank
  omega

theorem mainStep_unkilled (h : mainStep s = some t) : t.main ≠ .killed := by
  unfold mainStep at h
  split at h
  case h_1 =>
    cases h
    change (if s.isRunning = true then MainPc.accept else .quit 0) ≠ .killed
    split <;> simp
  case h_2 | h_5 | h_6 =>
    cases h
    simp
  case h_3 =>
    obtain ⟨_, h⟩ := Option.ite_none_left_eq_some.mp h
    cases h
    simp
  case h_4 hmain =>
    split at h
    · cases h
      simp
    · cases h
      simp [hmain]
  case h_7 i _ =>
    cases h
    change (if i < s.threads.length then MainPc.quit (i + 1) else .join 0) ≠ .killed
    split <;> simp
  case h_8 =>
    split at h
    · obtain ⟨_, h⟩ := Option.ite_none_right_eq_some.mp h
      cases h
      simp
    · cases h
      simp
  case h_9 | h_10 => cases h

/-- Only SIGPIPE kills the server. -/
theorem step_unkilled (hmain : s.main ≠ .killed) (ha : a ≠ .sigpipe) (h : step s a = some t) :
    t.main ≠ .killed := by
  unfold step at h
  obtain ⟨_, h⟩ := Option.ite_none_left_eq_some.mp h
  split at h
  case h_1 => exact mainStep_unkilled h
  case h_2 =>
    obtain ⟨_, h⟩ := Option.ite_none_right_eq_some.mp h
    cases h
    simp
  case h_3 =>
    cases h
    exact hmain
  case h_4 => exact absurd rfl ha
  case h_5 => cases threadStep_move h <;> exact hmain

/-- Once `is_running` is false the server stops, whatever it was doing and whatever its
clients still send. SIGPIPE at a "Quit" can end it early; in the runs without that `main`
returns after all receive threads have ended. -/
theorem shutdown_ends {acts : List Action} (hrun : run step State.initial acts = some s)
    (hstopped : s.isRunning = false) :
    EndsWithin step (fun _ a => a ≠ .sigint) Ended
        (8 * s.threads.length + s.queue.length + 12) s ∧
      (s.main ≠ .killed → EndsWithin step Undisturbed Stopped
        (8 * s.threads.length + s.queue.length + 12) s) := by
  have horderly : Orderly s := (Reaches.of_any_run acts hrun).invariant
    ⟨nofun, nofun⟩ fun _ _ _ hs _ hstep => step_orderly hs hstep
  have hover (t : State) (hmain : t.main ≠ .killed) (ht : Orderly t) (hnot : ¬ Stopped t) :
      ∃ a u, Undisturbed t a ∧ step t a = some u := by
    refine ht.goesOn ?_
    cases hpc : t.main with
    | returned => exact absurd (ht.stopped hpc) hnot
    | killed => exact absurd hpc hmain
    | _ => rfl
  refine ⟨?_, fun hunkilled => ?_⟩
  · refine EndsWithin.mono (EndsWithin.of_rank State.rank
      (I := fun t => Orderly t ∧ t.isRunning = false) ?_ ?_ ?_ ⟨horderly, hstopped⟩) (rank_le s)
    · exact fun t a u ht ha hstep => ⟨step_orderly ht.1 hstep, (step_rank ht.2 ha hstep).2⟩
    · exact fun t a u ht ha hstep => (step_rank ht.2 ha hstep).1
    · intro t ht hnot
      have hmain : t.main ≠ .killed := fun hmain => hnot (.inr hmain)
      obtain ⟨a, u, ha, hstep⟩ := hover t hmain ht.1 fun hstopped => hnot (.inl hstopped)
      exact ⟨a, u, ha.1, hstep⟩
  · refine EndsWithin.mono (EndsWithin.of_rank State.rank
      (I := fun t => Orderly t ∧ t.isRunning = false ∧ t.main ≠ .killed) ?_ ?_ ?_
      ⟨horderly, hstopped, hunkilled⟩) (rank_le s)
    · rintro t a u ⟨ht, hrunning, hmain⟩ ha hstep
      exact ⟨step_orderly ht hstep, (step_rank hrunning ha.1 hstep).2,
        step_unkilled hmain ha.2 hstep⟩
    · exact fun t a u ht ha hstep => (step_rank ht.2.1 ha.1 hstep).1
    · exact fun t ht hnot => hover t ht.2.2 ht.1 hnot

/-- A client's string is on its way into the queue. -/
def oneReceived : List Action := [.main, .accepted, .main, .test 0, .read 0 [97] [], .sigint]

theorem shutdown_ends_one_received :
    ∃ s, run step State.initial oneReceived = some s ∧ s.isRunning = false ∧
      EndsWithin step Undisturbed Stopped
        (8 * s.threads.length + s.queue.length + 12) s := by
  have hrun : run step State.initial oneReceived = some _ := rfl
  exact ⟨_, hrun, rfl, (shutdown_ends hrun rfl).2 (by decide)⟩

end Unx511.Lab9.Server
