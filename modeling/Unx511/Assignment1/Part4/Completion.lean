import Unx511.Assignment1.Part4

/-!
Completions that get lost. SIGUSR2 is not queued, so of two workers that finish
while one instance is pending (SIGUSR2 is blocked during the forks and while a
handler runs) the parent learns only about the first. No completion is lost on a
run where this does not happen and every worker has a pid of its own.
-/

namespace Unx511.Assignment1.Part4

open Unx511.Machine

/-- What one step can do to the completions. -/
inductive Effect (s : State) : Action → State → Prop
  | frame {a : Action} {t : State}
      (hpids : t.workerPids = s.workerPids)
      (hcompleted : t.completed = s.completed)
      (hpending : t.pendingUsr2 = s.pendingUsr2)
      (hborn : ∀ i, (t.worker i).born = (s.worker i).born)
      (hsent : ∀ i, (t.worker i).sentUsr2 = (s.worker i).sentUsr2)
      (hparent : s.parent = .exited → t.parent = .exited) : Effect s a t
  | fork {i : Fin 3} {pid : Nat} {pc : ParentPc} (hpid : pid ≠ 0) (hparent : s.parent ≠ .exited) :
      Effect s (.fork pid) { s with
        workerPids := Function.update s.workerPids i pid
        worker := Function.update s.worker i .starting
        parent := pc }
  | deliver {pid : Nat} (hpending : s.pendingUsr2 = some pid) (hparent : s.parent ≠ .exited) :
      Effect s .deliverUsr2 { handleUsr2 pid s with pendingUsr2 := none, handling := true }
  | complete {i : Fin 3} {warned : Bool} (hworker : s.worker i = .reading warned) :
      Effect s (.complete i) ((sendUsr2 i s).setWorker i .finishing)

theorem Effect.of_parent {s t : State} {a : Action}
    (hpids : t.workerPids = s.workerPids) (hcompleted : t.completed = s.completed)
    (hpending : t.pendingUsr2 = s.pendingUsr2) (hworker : t.worker = s.worker)
    (hparent : s.parent = .exited → t.parent = .exited) : Effect s a t :=
  .frame hpids hcompleted hpending (fun _ => by rw [hworker]) (fun _ => by rw [hworker]) hparent

theorem Effect.of_worker {s t : State} {a : Action} {i : Fin 3} {pc : WorkerPc}
    (hpids : t.workerPids = s.workerPids) (hcompleted : t.completed = s.completed)
    (hpending : t.pendingUsr2 = s.pendingUsr2)
    (hworker : t.worker = Function.update s.worker i pc)
    (hborn : pc.born = (s.worker i).born) (hsent : pc.sentUsr2 = (s.worker i).sentUsr2)
    (hparent : t.parent = s.parent) : Effect s a t := by
  have hsame : ∀ (f : WorkerPc → Bool), f pc = f (s.worker i) →
      ∀ j, f (t.worker j) = f (s.worker j) := by
    intro f hf j
    rw [hworker]
    rcases eq_or_ne j i with rfl | hne
    · rw [Function.update_self, hf]
    · rw [Function.update_of_ne hne]
  exact .frame hpids hcompleted hpending (hsame WorkerPc.born hborn)
    (hsame WorkerPc.sentUsr2 hsent) fun h => hparent.trans h

theorem Move.effect {s t : State} {a : Action} (h : Move s a t) : Effect s a t := by
  cases h with
  | fork _ hpc hpid _ => exact .fork hpid (by rw [hpc]; nofun)
  | deliverUsr2 hdeliverable hpending =>
      exact .deliver hpending (deliverable_iff.mp hdeliverable).2.2
  | complete hpc => exact .complete hpc
  | @deliverUsr1 pid _ _ =>
      obtain ⟨hpids, hcompleted, hpending, hworker, hparent⟩ := handleUsr1_frame pid s
      exact .of_parent hpids hcompleted hpending hworker fun hexited => hparent.trans hexited
  | @warn i hpc =>
      obtain ⟨hpids, hcompleted, hpending, hworker, hparent⟩ := sendUsr1_frame i s
      have hreading : Function.update (sendUsr1 i s).worker i (.reading true) =
          Function.update s.worker i (.reading true) := by
        rw [hworker]
      refine .of_worker hpids hcompleted hpending hreading ?_ ?_ hparent
      · rw [hpc]
        rfl
      · rw [hpc]
        rfl
  | start hpc | fail hpc | exit hpc =>
      exact .of_worker rfl rfl rfl rfl (by rw [hpc]; rfl) (by rw [hpc]; rfl) rfl
  | block hpc | unblock hpc | pass hpc _ | miss hpc _ | suspend hpc | reap _ hpc _
  | reapedAll _ hpc | wake _ hpc =>
      exact .of_parent rfl rfl rfl rfl (by rw [hpc]; nofun)
  | report _ | forkFails _ => exact .of_parent rfl rfl rfl rfl fun _ => rfl
  | handlerReturn _ _ => exact .of_parent rfl rfl rfl rfl id

theorem step_effect {s t : State} {a : Action} (h : step s a = some t) : Effect s a t :=
  (step_move h).effect

/-- Every worker that has sent its SIGUSR2 is known to be completed, once no
SIGUSR2 is pending. When the parent has exited there is nobody left to know. -/
def NoneLost (s : State) : Prop :=
  s.parent ≠ .exited → s.pendingUsr2 = none →
    ∀ i, (s.worker i).sentUsr2 = true → s.completed i = true

/-- A worker finishes when no SIGUSR2 is pending, and each fork returns a pid
that no earlier worker had. -/
def SendsApart (s : State) : Action → Prop
  | .complete _ => s.pendingUsr2 = none
  | .fork pid => ∀ i, (s.worker i).born = true → s.workerPids i ≠ pid
  | _ => True

instance (s : State) (a : Action) : Decidable (SendsApart s a) := by
  unfold SendsApart
  split <;> infer_instance

/-- Every worker born so far has a pid of its own; the other entries of
`worker_pids` are still 0. -/
structure OwnPids (workerPids : Fin 3 → Nat) (worker : Fin 3 → WorkerPc) : Prop where
  zero : ∀ i, (worker i).born = false → workerPids i = 0
  ne_zero : ∀ i, (worker i).born = true → workerPids i ≠ 0
  apart : ∀ i j, (worker i).born = true → (worker j).born = true →
    workerPids i = workerPids j → i = j

/-- What carries `NoneLost` along a run: a completion that is not flagged is the
pending one. -/
structure Carried (s : State) : Prop where
  own : OwnPids s.workerPids s.worker
  carried : s.parent ≠ .exited → ∀ i, (s.worker i).sentUsr2 = true →
    s.completed i = true ∨ s.pendingUsr2 = some (s.workerPids i)

theorem Carried.noneLost {s : State} (h : Carried s) : NoneLost s := by
  intro hparent hnone i hsent
  rcases h.carried hparent i hsent with hdone | hpending
  · exact hdone
  · rw [hnone] at hpending
    cases hpending

theorem WorkerPc.born_of_sentUsr2 {pc : WorkerPc} (h : pc.sentUsr2 = true) : pc.born = true := by
  cases pc with
  | unborn => cases h
  | _ => rfl

theorem senderIndex_eq {workerPids : Fin 3 → Nat} {i : Fin 3}
    (h : ∀ j, workerPids j = workerPids i → j = i) :
    senderIndex workerPids (workerPids i) = some i := by
  unfold senderIndex
  have hmem : i ∈ ([0, 1, 2] : List (Fin 3)) := by
    fin_cases i <;> simp
  obtain ⟨j, hj⟩ := Option.isSome_iff_exists.mp
    (List.find?_isSome (p := fun k => workerPids k = workerPids i).mpr ⟨i, hmem, by simp⟩)
  have hsame := List.find?_some hj
  rw [hj, h j (by simpa using hsame)]

namespace OwnPids

variable {workerPids : Fin 3 → Nat} {worker worker' : Fin 3 → WorkerPc}

/-- The handler recognises a worker that has a pid of its own. -/
theorem senderIndex (h : OwnPids workerPids worker) {i : Fin 3} (hi : (worker i).born = true) :
    senderIndex workerPids (workerPids i) = some i := by
  apply senderIndex_eq
  intro j hj
  cases hborn : (worker j).born with
  | true => exact h.apart j i hborn hi hj
  | false =>
      rw [h.zero j hborn] at hj
      exact absurd hj.symm (h.ne_zero i hi)

theorem congr (h : OwnPids workerPids worker)
    (hborn : ∀ i, (worker' i).born = (worker i).born) : OwnPids workerPids worker' := by
  refine ⟨?_, ?_, ?_⟩
  · simpa only [hborn] using h.zero
  · simpa only [hborn] using h.ne_zero
  · simpa only [hborn] using h.apart

theorem fork (h : OwnPids workerPids worker) (i : Fin 3) {pid : Nat} (hpid : pid ≠ 0)
    (hfresh : ∀ j, (worker j).born = true → workerPids j ≠ pid) :
    OwnPids (Function.update workerPids i pid) (Function.update worker i .starting) := by
  refine ⟨?_, ?_, ?_⟩
  · intro j hj
    rcases eq_or_ne j i with rfl | hne
    · simp [WorkerPc.born] at hj
    · simp only [Function.update_of_ne hne] at hj ⊢
      exact h.zero j hj
  · intro j hj
    rcases eq_or_ne j i with rfl | hne
    · simpa using hpid
    · simp only [Function.update_of_ne hne] at hj ⊢
      exact h.ne_zero j hj
  · intro j k hj hk hjk
    rcases eq_or_ne j i with rfl | hji
    · rcases eq_or_ne k j with rfl | hkj
      · rfl
      · simp only [Function.update_of_ne hkj, Function.update_self] at hk hjk
        exact absurd hjk.symm (hfresh k hk)
    · rcases eq_or_ne k i with rfl | hki
      · simp only [Function.update_of_ne hji, Function.update_self] at hj hjk
        exact absurd hjk (hfresh j hj)
      · simp only [Function.update_of_ne hji, Function.update_of_ne hki] at hj hk hjk
        exact h.apart j k hj hk hjk

end OwnPids

theorem sendUsr2_pending {i : Fin 3} {s : State} (hparent : s.parent ≠ .exited)
    (hnone : s.pendingUsr2 = none) :
    (sendUsr2 i s).pendingUsr2 = some (s.workerPids i) := by
  unfold sendUsr2 raise
  rw [if_neg hparent, hnone]
  rfl

theorem carried_initial : Carried State.initial where
  own := ⟨fun _ _ => rfl, nofun, nofun⟩
  carried := nofun

theorem carried_effect {s t : State} {a : Action} (h : Carried s) (hcond : SendsApart s a)
    (heffect : Effect s a t) : Carried t := by
  cases heffect with
  | frame hpids hcompleted hpending hborn hsent hparent =>
      refine ⟨?_, fun halive => ?_⟩
      · rw [hpids]
        exact h.own.congr hborn
      · simpa only [hpids, hsent, hcompleted, hpending] using
          h.carried fun hexited => halive (hparent hexited)
  | @fork i pid pc hpid hparent =>
      refine ⟨h.own.fork i hpid hcond, ?_⟩
      intro _ j hj
      rcases eq_or_ne j i with rfl | hne
      · simp [WorkerPc.sentUsr2] at hj
      · simp only [Function.update_of_ne hne] at hj ⊢
        exact h.carried hparent j hj
  | @deliver pid hpending hparent =>
      obtain ⟨hpids, hworker, _⟩ := handleUsr2_frame pid s
      refine ⟨?_, ?_⟩
      · simpa only [hpids, hworker] using h.own
      · intro _ i hi
        have hsent : (s.worker i).sentUsr2 = true := by simpa only [hworker] using hi
        left
        apply handleUsr2_completed
        rcases h.carried hparent i hsent with hdone | hpid
        · exact .inl hdone
        · right
          have heq : pid = s.workerPids i := Option.some.inj (hpending.symm.trans hpid)
          rw [heq]
          exact h.own.senderIndex (WorkerPc.born_of_sentUsr2 hsent)
  | @complete i warned hworker =>
      have hnone : s.pendingUsr2 = none := hcond
      obtain ⟨hpids, hcompleted, hworkers, hparent⟩ := sendUsr2_frame i s
      refine ⟨?_, ?_⟩
      · change OwnPids (sendUsr2 i s).workerPids
          (Function.update (sendUsr2 i s).worker i .finishing)
        rw [hpids, hworkers]
        apply h.own.congr
        intro j
        rcases eq_or_ne j i with rfl | hne
        · simp [hworker, WorkerPc.born]
        · simp [hne]
      · intro halive j hj
        have halive' : s.parent ≠ .exited := fun hexited => halive (hparent.trans hexited)
        change (sendUsr2 i s).completed j = true ∨
          (sendUsr2 i s).pendingUsr2 = some ((sendUsr2 i s).workerPids j)
        rw [hpids, hcompleted, sendUsr2_pending halive' hnone]
        rcases eq_or_ne j i with rfl | hne
        · exact .inr rfl
        · -- with nothing pending before, the others are flagged
          have hj' : (s.worker j).sentUsr2 = true := by
            simpa [State.setWorker, hworkers, hne] using hj
          exact .inl (h.noneLost halive' hnone j hj')

/-- On every run on which no two completions are pending at once, no completion
is lost. -/
theorem no_completion_lost {s : State} (h : Reaches step SendsApart State.initial s) :
    NoneLost s := by
  have hcarried : Carried s := h.invariant carried_initial fun _ _ _ hu hcond hstep =>
    carried_effect hu hcond (step_effect hstep)
  exact hcarried.noneLost

/-- The parent forks its workers and unblocks the signals. -/
def launch : List Action := [.parent, .fork 101, .fork 102, .fork 103]

/-- Worker `i` is done before the signals are unblocked, worker `j` after the parent
has handled that. -/
def oneByOne (i j : Fin 3) : List Action :=
  launch ++ [.start i, .complete i, .parent, .deliverUsr2, .handlerReturn,
    .start j, .complete j, .deliverUsr2, .handlerReturn]

theorem no_completion_lost_one_by_one :
    ∃ s, run step State.initial (oneByOne 0 1) = some s ∧ NoneLost s ∧
      (s.worker 1).sentUsr2 = true ∧ s.completed 1 = true := by
  have hapart : StepsMeet step SendsApart State.initial (oneByOne 0 1) := by decide
  exact ⟨_, rfl, no_completion_lost (Reaches.of_run (oneByOne 0 1) rfl hapart), rfl, rfl⟩

/-- Both are done while the parent is still forking. -/
def bothBlocked (i j : Fin 3) : List Action :=
  launch ++ [.start i, .start j, .complete i, .complete j, .parent, .deliverUsr2, .handlerReturn]

/-- The parent never learns about worker 2. -/
theorem second_completion_lost :
    ∃ s, run step State.initial (bothBlocked 0 1) = some s ∧ s.parent ≠ .exited ∧
      s.pendingUsr2 = none ∧ (s.worker 1).sentUsr2 = true ∧ s.completed 1 = false :=
  ⟨_, rfl, by decide, rfl, rfl, rfl⟩

end Unx511.Assignment1.Part4
