import Unx511.Assignment1.Part4.Completion
import Unx511.Assignment1.Part4.Output
import Unx511.Assignment1.Part4.Wakeup
import Unx511.Machine.Termination

/-!
The end of a run. No run is longer than the signals allow, since `main` leaves a
`sigsuspend` only when one is handled; and when every worker has a pid of its own, the only
place where a run can stop before its end is the `sigsuspend` that `main` calls too late.
-/

namespace Unx511.Assignment1.Part4.Wakeup

open Unx511.Machine

/-! No run goes on for ever. -/

/-- A handler run and what comes after it. -/
def signalRank : Nat := 4

/-- The steps that a worker has left, each signal with its rank. -/
def workerRank : WorkerPc → Nat
  | .unborn => 13
  | .starting => 12
  | .reading false => 11
  | .reading true => 6
  | .finishing => 1
  | .exited _ => 0

def loopRank : Await → Nat
  | .memoryWarning => 12
  | .worker1 => 9
  | .worker2 => 6

def parentRank : ParentPc → Nat
  | .block => 17
  | .fork _ => 16
  | .unblock => 15
  | .test loop => loopRank loop + 2
  | .enter loop => loopRank loop + 1
  | .suspended loop => loopRank loop
  | .wait i => 3 - i + 2
  | .report => 1
  | .exited => 0

def coreRank (s : Part4.State) : Nat :=
  parentRank s.parent + totalRank workerRank s.worker + if s.handling then 3 else 0

def rank (s : State) : Nat := coreRank s.core + signalRank * s.queue.length

theorem coreRank_setWorker (s : Part4.State) (i : Fin 3) (pc : WorkerPc) :
    coreRank (s.setWorker i pc) + workerRank (s.worker i) = coreRank s + workerRank pc := by
  have hupdate := totalRank_update workerRank s.worker i pc
  unfold coreRank State.setWorker
  simp only
  omega

theorem coreRank_congr {s t : Part4.State} (hparent : t.parent = s.parent)
    (hworker : t.worker = s.worker) (hhandling : t.handling = s.handling) :
    coreRank t = coreRank s := by
  unfold coreRank
  rw [hparent, hworker, hhandling]

theorem sendUsr1_cases {s : Part4.State} (i : Fin 3) (hnone : s.pendingUsr1 = none) :
    coreRank (sendUsr1 i s) = coreRank s ∧ (sendUsr1 i s).worker = s.worker ∧
      (sent (sendUsr1 i s)).length ≤ (sent s).length + 1 := by
  unfold sendUsr1
  split
  · exact ⟨rfl, rfl, Nat.le_succ _⟩
  · refine ⟨coreRank_congr rfl rfl rfl, rfl, ?_⟩
    simp [sent, raise, hnone, Nat.add_comm]

theorem sendUsr2_cases {s : Part4.State} (i : Fin 3) (hnone : s.pendingUsr2 = none) :
    coreRank (sendUsr2 i s) = coreRank s ∧ (sendUsr2 i s).worker = s.worker ∧
      (sent (sendUsr2 i s)).length ≤ (sent s).length + 1 := by
  unfold sendUsr2
  split
  · exact ⟨rfl, rfl, Nat.le_succ _⟩
  · refine ⟨coreRank_congr rfl rfl rfl, rfl, ?_⟩
    simp [sent, raise, hnone]

/-- What a step sends is paid for by the worker that sends it. -/
theorem move_rank {s t : Part4.State} {a : Part4.Action} (hprinted : Printed s)
    (hslots : SlotsEmpty ⟨s, []⟩) (hsends : sends s a = true) (hmove : Move s a t) :
    coreRank t + signalRank * (sent t).length < coreRank s := by
  obtain ⟨husr1, husr2⟩ : s.pendingUsr1 = none ∧ s.pendingUsr2 = none := hslots
  have hsent : sent s = [] := by
    simp [sent, husr1, husr2]
  -- `main` goes on and sends nothing
  have hmain : ∀ (pc : ParentPc) {u : Part4.State}, u.parent = pc → u.worker = s.worker →
      u.handling = s.handling → sent u = sent s → parentRank pc < parentRank s.parent →
      coreRank u + signalRank * (sent u).length < coreRank s := by
    intro pc u hparent hworker hhandling hsame hlt
    rw [hsame, hsent]
    unfold coreRank
    rw [hparent, hworker, hhandling, List.length_nil]
    omega
  -- a worker goes on and sends nothing
  have hworker : ∀ {i : Fin 3} (pc : WorkerPc), workerRank pc < workerRank (s.worker i) →
      coreRank (s.setWorker i pc) + signalRank * (sent (s.setWorker i pc)).length < coreRank s := by
    intro i pc hlt
    have hset := coreRank_setWorker s i pc
    have hsame : sent (s.setWorker i pc) = [] := hsent
    rw [hsame, List.length_nil]
    omega
  cases hmove with
  | block hpc => exact hmain (.fork 0) rfl rfl rfl rfl (by rw [hpc]; decide)
  | unblock hpc => exact hmain (.test .memoryWarning) rfl rfl rfl rfl (by rw [hpc]; decide)
  | @pass loop hpc _ =>
      refine hmain loop.next rfl rfl rfl rfl ?_
      rw [hpc]
      cases loop <;> decide
  | @miss loop hpc _ =>
      refine hmain (.enter loop) rfl rfl rfl rfl ?_
      rw [hpc]
      exact Nat.lt_succ_self _
  | @suspend loop hpc =>
      refine hmain (.suspended loop) rfl rfl rfl rfl ?_
      rw [hpc]
      exact Nat.lt_succ_self _
  | @reap i hi hpc _ =>
      refine hmain (.wait (i + 1)) rfl rfl rfl rfl ?_
      rw [hpc]
      simp only [parentRank]
      omega
  | @reapedAll i hi hpc =>
      refine hmain .report rfl rfl rfl rfl ?_
      rw [hpc]
      simp only [parentRank]
      omega
  | report hpc => exact hmain .exited rfl rfl rfl rfl (by rw [hpc]; decide)
  | @forkFails i hpc =>
      refine hmain .exited rfl rfl rfl rfl ?_
      rw [hpc]
      exact Nat.succ_pos _
  | @fork i pid hi hpc _ _ =>
      -- the worker was not born before
      have hunborn : s.worker ⟨i, hi⟩ = .unborn := by
        have hborn := hprinted.born (by simp [hpc]) ⟨i, hi⟩
        rw [hpc] at hborn
        cases hpc' : s.worker ⟨i, hi⟩ with
        | unborn => rfl
        | _ =>
            rw [hpc'] at hborn
            exact absurd (hborn.mp rfl) (Nat.lt_irrefl i)
      have hset := totalRank_update workerRank s.worker ⟨i, hi⟩ .starting
      have hnext : parentRank (if i + 1 < 3 then .fork (i + 1) else .unblock) ≤ 16 := by
        split
        · exact le_rfl
        · decide
      have hsame : sent { s with
          workerPids := Function.update s.workerPids ⟨i, hi⟩ pid
          worker := Function.update s.worker ⟨i, hi⟩ .starting
          parent := if i + 1 < 3 then .fork (i + 1) else .unblock } = [] := hsent
      rw [hsame, List.length_nil]
      rw [hunborn] at hset
      change _ + 13 = _ + 12 at hset
      have hfork : parentRank s.parent = 16 := by rw [hpc]; rfl
      unfold coreRank
      rw [hfork]
      simp only
      omega
  | deliverUsr1 _ _ | deliverUsr2 _ _ => cases hsends
  | @wake loop hhandling hpc =>
      have hsame : sent { s with handling := false, parent := .test loop } = [] := hsent
      rw [hsame, List.length_nil]
      unfold coreRank
      rw [hpc, hhandling]
      simp only [parentRank, if_true, Bool.false_eq_true, if_false]
      omega
  | handlerReturn hhandling _ =>
      have hsame : sent { s with handling := false } = [] := hsent
      rw [hsame, List.length_nil]
      unfold coreRank
      rw [hhandling]
      simp only [if_true, Bool.false_eq_true, if_false]
      omega
  | start hpc => exact hworker (.reading false) (by rw [hpc]; decide)
  | fail _ => cases hsends
  | @warn i hpc =>
      obtain ⟨hrank, hsame, hlength⟩ := sendUsr1_cases i husr1
      have hset := coreRank_setWorker (sendUsr1 i s) i (.reading true)
      have hsent' : (sent ((sendUsr1 i s).setWorker i (.reading true))).length ≤ 1 := by
        rw [hsent] at hlength
        exact hlength
      rw [hrank, hsame, hpc] at hset
      simp only [workerRank] at hset
      unfold signalRank
      omega
  | @complete i warned hpc =>
      obtain ⟨hrank, hsame, hlength⟩ := sendUsr2_cases i husr2
      have hset := coreRank_setWorker (sendUsr2 i s) i .finishing
      have hsent' : (sent ((sendUsr2 i s).setWorker i .finishing)).length ≤ 1 := by
        rw [hsent] at hlength
        exact hlength
      have hreading : 6 ≤ workerRank (.reading warned) := by
        cases warned <;> decide
      rw [hrank, hsame, hpc] at hset
      change _ + workerRank (.reading warned) = _ + 1 at hset
      unfold signalRank
      omega
  | exit hpc => exact hworker (.exited true) (by rw [hpc]; decide)

/-! What is known of the signals. -/

/-- The state in which a signal of the queue is in its slot. -/
def slot (s : Part4.State) : Signal → Part4.State
  | .usr1 pid => { s with pendingUsr1 := some pid }
  | .usr2 pid => { s with pendingUsr2 := some pid }

def delivery : Signal → Part4.Action
  | .usr1 _ => .deliverUsr1
  | .usr2 _ => .deliverUsr2

theorem deliver_move {s t : Part4.State} {signal : Signal} (h : deliver s signal = some t) :
    Move (slot s signal) (delivery signal) t := by
  cases signal with
  | usr1 pid =>
      change Part4.deliverUsr1 (slot s (.usr1 pid)) = some t at h
      unfold Part4.deliverUsr1 at h
      obtain ⟨hdeliverable, h⟩ := Option.ite_none_right_eq_some.mp h
      obtain ⟨_, hpending, rfl⟩ := Option.map_eq_some_iff.mp h
      exact .deliverUsr1 hdeliverable hpending
  | usr2 pid =>
      change Part4.deliverUsr2 (slot s (.usr2 pid)) = some t at h
      unfold Part4.deliverUsr2 at h
      obtain ⟨hdeliverable, h⟩ := Option.ite_none_right_eq_some.mp h
      obtain ⟨_, hpending, rfl⟩ := Option.map_eq_some_iff.mp h
      exact .deliverUsr2 hdeliverable hpending

/-- The slots are all that differs. -/
theorem Printed.of_slots {s t : Part4.State} (h : Printed s) (hparent : t.parent = s.parent)
    (hworker : t.worker = s.worker) (hsilent : Silent s t) : Printed t := by
  refine h.stay hsilent hparent ?_ ?_ ?_
  all_goals
    intro i
    rw [hworker]
  · exact id
  · exact id

theorem printed_slot {s : Part4.State} (h : Printed s) (signal : Signal) :
    Printed (slot s signal) := by
  cases signal with
  | usr1 pid | usr2 pid => exact Printed.of_slots h rfl rfl (.of_fields rfl rfl rfl)

theorem printed_step {s t : State} {a : Action} (h : Printed s.core) (hstep : step s a = some t) :
    Printed t.core := by
  cases a with
  | act a =>
      obtain ⟨_, u, hcore, rfl⟩ := step_act hstep
      exact Printed.of_slots (h.move (step_move hcore)) rfl rfl (.of_fields rfl rfl rfl)
  | deliver n =>
      obtain ⟨signal, _, hstep⟩ := Option.bind_eq_some_iff.mp hstep
      obtain ⟨u, hdeliver, rfl⟩ := Option.map_eq_some_iff.mp hstep
      exact (printed_slot h signal).move (deliver_move hdeliver)

/-- The handler runs, in the state of the delivery. -/
theorem deliver_frame {s t : Part4.State} {signal : Signal} (h : deliver s signal = some t) :
    deliverable s = true ∧ t.parent = s.parent ∧ t.worker = s.worker ∧
      t.workerPids = s.workerPids ∧ t.handling = true := by
  cases signal with
  | usr1 pid =>
      cases deliver_move h with
      | deliverUsr1 hdeliverable hpending =>
          obtain ⟨hpids, _, _, hworker, hparent⟩ := handleUsr1_frame _ (slot s (.usr1 pid))
          exact ⟨hdeliverable, hparent, hworker, hpids, rfl⟩
  | usr2 pid =>
      cases deliver_move h with
      | deliverUsr2 hdeliverable hpending =>
          obtain ⟨hpids, hworker, hparent⟩ := handleUsr2_frame _ (slot s (.usr2 pid))
          exact ⟨hdeliverable, hparent, hworker, hpids, rfl⟩

theorem rank_step {s t : State} {a : Action} (hprinted : Printed s.core) (hslots : SlotsEmpty s)
    (hstep : step s a = some t) : rank t < rank s := by
  unfold rank
  cases a with
  | act a =>
      obtain ⟨hsends, u, hcore, rfl⟩ := step_act hstep
      have hlt := move_rank hprinted hslots hsends (step_move hcore)
      have hsame : coreRank (enqueue s.queue u).core = coreRank u := coreRank_congr rfl rfl rfl
      have hlength : (enqueue s.queue u).queue.length = s.queue.length + (sent u).length :=
        List.length_append
      rw [hsame, hlength, Nat.mul_add]
      omega
  | deliver n =>
      obtain ⟨signal, hsignal, hstep⟩ := Option.bind_eq_some_iff.mp hstep
      obtain ⟨u, hdeliver, rfl⟩ := Option.map_eq_some_iff.mp hstep
      obtain ⟨hdeliverable, hparent, hworker, _, hhandling⟩ := deliver_frame hdeliver
      have hn : n < s.queue.length := (List.getElem?_eq_some_iff.mp hsignal).1
      have hidle := (deliverable_iff.mp hdeliverable).2.1
      have hlength : (s.queue.eraseIdx n).length + 1 = s.queue.length := by
        rw [List.length_eraseIdx_of_lt hn]
        omega
      unfold coreRank signalRank
      rw [hparent, hworker, hhandling, hidle]
      simp only [if_true, Bool.false_eq_true, if_false]
      omega

/-- The worker has sent its SIGUSR1, or goes on without it. -/
def pastWarning : WorkerPc → Bool
  | .reading true | .finishing | .exited true => true
  | _ => false

/-- `main` waits for signals, or is behind its loops. -/
def listening : ParentPc → Bool
  | .block | .fork _ | .unblock | .exited => false
  | _ => true

/-- A signal that was sent is in the queue, or has set its flag. -/
structure Told (s : State) : Prop where
  own : OwnPids s.core.workerPids s.core.worker
  noFail : ∀ i, s.core.worker i ≠ .exited false
  unblocked : listening s.core.parent = true → s.core.blocked = false
  completed : s.core.parent ≠ .exited → ∀ i, (s.core.worker i).sentUsr2 = true →
    s.core.completed i = true ∨ .usr2 (s.core.workerPids i) ∈ s.queue
  warned : s.core.parent ≠ .exited → pastWarning (s.core.worker 2) = true →
    s.core.memoryWarned = true ∨ .usr1 (s.core.workerPids 2) ∈ s.queue

/-- Each fork returns a pid that no earlier worker had. -/
def FreshPids (s : State) : Action → Prop
  | .act (.fork pid) => ∀ i, (s.core.worker i).born = true → s.core.workerPids i ≠ pid
  | _ => True

theorem told_initial : Told State.initial where
  own := ⟨fun _ _ => rfl, nofun, nofun⟩
  noFail := nofun
  unblocked := nofun
  completed := nofun
  warned := nofun

theorem noFail_update {worker : Fin 3 → WorkerPc} {i : Fin 3} {pc : WorkerPc}
    (h : ∀ j, worker j ≠ .exited false) (hpc : pc ≠ .exited false) (j : Fin 3) :
    Function.update worker i pc j ≠ .exited false := by
  rcases eq_or_ne j i with rfl | hne
  · rw [Function.update_self]
    exact hpc
  · rw [Function.update_of_ne hne]
    exact h j

theorem move_noFail {s t : Part4.State} {a : Part4.Action} (h : ∀ i, s.worker i ≠ .exited false)
    (hsends : sends s a = true) (hmove : Move s a t) (i : Fin 3) : t.worker i ≠ .exited false := by
  cases hmove with
  | fork _ _ _ _ | start _ | exit _ => exact noFail_update h (by nofun) i
  | fail _ | deliverUsr1 _ _ | deliverUsr2 _ _ => cases hsends
  | @warn j _ =>
      change Function.update (sendUsr1 j s).worker j _ i ≠ _
      rw [(sendUsr1_frame j s).2.2.2.1]
      exact noFail_update h (by nofun) i
  | @complete j _ _ =>
      change Function.update (sendUsr2 j s).worker j _ i ≠ _
      rw [(sendUsr2_frame j s).2.2.1]
      exact noFail_update h (by nofun) i
  | _ => exact h i

theorem move_unblocked {s t : Part4.State} {a : Part4.Action}
    (h : listening s.parent = true → s.blocked = false) (hsends : sends s a = true)
    (hmove : Move s a t) (hlistening : listening t.parent = true) : t.blocked = false := by
  cases hmove with
  | block _ | report _ | forkFails _ => cases hlistening
  | unblock _ => rfl
  | fork hi _ _ _ =>
      change listening (if _ then _ else _) = true at hlistening
      split at hlistening <;> cases hlistening
  | deliverUsr1 _ _ | deliverUsr2 _ _ => cases hsends
  | pass hpc _ | miss hpc _ | suspend hpc | wake _ hpc | reap _ hpc _ | reapedAll _ hpc =>
      exact h (by rw [hpc]; rfl)
  | @warn j _ =>
      change (sendUsr1 j s).blocked = false
      obtain ⟨pending, hsend⟩ := sendUsr1_eq j s
      rw [hsend]
      apply h
      rw [← (sendUsr1_frame j s).2.2.2.2]
      exact hlistening
  | @complete j _ _ =>
      change (sendUsr2 j s).blocked = false
      obtain ⟨pending, hsend⟩ := sendUsr2_eq j s
      rw [hsend]
      apply h
      rw [← (sendUsr2_frame j s).2.2.2]
      exact hlistening
  | handlerReturn _ _ | start _ | fail _ | exit _ => exact h hlistening

/-- A worker is past its warning when it was before, or has just sent it. -/
theorem move_warned {s t : Part4.State} {a : Part4.Action} (hslots : SlotsEmpty ⟨s, []⟩)
    (hsends : sends s a = true) (hmove : Move s a t) (halive : t.parent ≠ .exited)
    (hpast : pastWarning (t.worker 2) = true) :
    (pastWarning (s.worker 2) = true ∧ t.memoryWarned = s.memoryWarned ∧
        t.workerPids 2 = s.workerPids 2) ∨ .usr1 (t.workerPids 2) ∈ sent t := by
  cases hmove with
  | @fork i pid hi _ _ _ =>
      change pastWarning (Function.update s.worker ⟨i, hi⟩ .starting 2) = true at hpast
      rcases eq_or_ne (2 : Fin 3) ⟨i, hi⟩ with heq | hne
      · rw [← heq, Function.update_self] at hpast
        cases hpast
      · rw [Function.update_of_ne hne] at hpast
        exact .inl ⟨hpast, rfl, Function.update_of_ne hne ..⟩
  | deliverUsr1 _ _ | deliverUsr2 _ _ => cases hsends
  | @start i _ =>
      change pastWarning (Function.update s.worker i (.reading false) 2) = true at hpast
      rcases eq_or_ne (2 : Fin 3) i with heq | hne
      · rw [← heq, Function.update_self] at hpast
        cases hpast
      · rw [Function.update_of_ne hne] at hpast
        exact .inl ⟨hpast, rfl, rfl⟩
  | fail _ => cases hsends
  | @warn i hpc =>
      obtain ⟨hpids, _, _, hworker, hparent⟩ := sendUsr1_frame i s
      rcases eq_or_ne (2 : Fin 3) i with heq | hne
      · right
        have halive' : s.parent ≠ .exited := fun hexited => halive (hparent.trans hexited)
        have husr1 : s.pendingUsr1 = none := hslots.1
        subst heq
        simp [sent, sendUsr1, halive', raise, husr1, State.setWorker]
      · left
        have hsame : ((sendUsr1 i s).setWorker i (.reading true)).worker 2 = s.worker 2 :=
          (Function.update_of_ne hne ..).trans (congrFun hworker 2)
        rw [hsame] at hpast
        refine ⟨hpast, ?_, congrFun hpids 2⟩
        change (sendUsr1 i s).memoryWarned = s.memoryWarned
        obtain ⟨pending, hsend⟩ := sendUsr1_eq i s
        rw [hsend]
  | @complete i warned hpc =>
      left
      obtain ⟨hpids, _, hworker, _⟩ := sendUsr2_frame i s
      have hwarned : (sendUsr2 i s).memoryWarned = s.memoryWarned := by
        obtain ⟨pending, hsend⟩ := sendUsr2_eq i s
        rw [hsend]
      refine ⟨?_, hwarned, congrFun hpids 2⟩
      rcases eq_or_ne (2 : Fin 3) i with heq | hne
      · -- worker 3 warns before it completes
        have hreading : s.worker i = .reading true := by
          simpa [sends, ← heq, Await.sender] using hsends
        rw [heq, hreading]
        rfl
      · change pastWarning (Function.update (sendUsr2 i s).worker i .finishing 2) = true at hpast
        rw [Function.update_of_ne hne, hworker] at hpast
        exact hpast
  | @exit i hpc =>
      refine .inl ⟨?_, rfl, rfl⟩
      rcases eq_or_ne (2 : Fin 3) i with heq | hne
      · rw [heq, hpc]
        rfl
      · change pastWarning (Function.update s.worker i (.exited true) 2) = true at hpast
        rw [Function.update_of_ne hne] at hpast
        exact hpast
  | _ => exact .inl ⟨hpast, rfl, rfl⟩

/-- A completion that was sent is known as before, or has just been sent. -/
theorem move_completed {s t : Part4.State} {a : Part4.Action} (hslots : SlotsEmpty ⟨s, []⟩)
    (hsends : sends s a = true) (hmove : Move s a t) (halive : t.parent ≠ .exited) {i : Fin 3}
    (hsent : (t.worker i).sentUsr2 = true) :
    ((s.worker i).sentUsr2 = true ∧ t.completed i = s.completed i ∧
        t.workerPids i = s.workerPids i) ∨ .usr2 (t.workerPids i) ∈ sent t := by
  cases hmove.effect with
  | frame hpids hcompleted _ _ hsame _ =>
      left
      rw [hsame] at hsent
      exact ⟨hsent, congrFun hcompleted i, congrFun hpids i⟩
  | @fork j pid pc _ _ =>
      change (Function.update s.worker j .starting i).sentUsr2 = true at hsent
      rcases eq_or_ne i j with rfl | hne
      · rw [Function.update_self] at hsent
        cases hsent
      · rw [Function.update_of_ne hne] at hsent
        exact .inl ⟨hsent, rfl, Function.update_of_ne hne ..⟩
  | deliver _ _ => cases hsends
  | @complete j warned hworker =>
      obtain ⟨hpids, hcompleted, hworkers, hparent⟩ := sendUsr2_frame j s
      rcases eq_or_ne i j with rfl | hne
      · right
        have halive' : s.parent ≠ .exited := fun hexited => halive (hparent.trans hexited)
        have husr2 : s.pendingUsr2 = none := hslots.2
        simp [sent, sendUsr2, halive', raise, husr2, State.setWorker]
      · left
        change (Function.update (sendUsr2 j s).worker j .finishing i).sentUsr2 = true at hsent
        rw [Function.update_of_ne hne, hworkers] at hsent
        exact ⟨hsent, congrFun hcompleted i, congrFun hpids i⟩

theorem move_own {s t : Part4.State} {a : Part4.Action} (h : OwnPids s.workerPids s.worker)
    (hfresh : FreshPids ⟨s, []⟩ (.act a)) (hmove : Move s a t) :
    OwnPids t.workerPids t.worker := by
  cases hmove.effect with
  | frame hpids _ _ hborn _ _ =>
      rw [hpids]
      exact h.congr hborn
  | @fork i pid pc hpid _ => exact h.fork i hpid hfresh
  | @deliver pid _ _ =>
      obtain ⟨hpids, hworker, _⟩ := handleUsr2_frame pid s
      change OwnPids (handleUsr2 pid s).workerPids (handleUsr2 pid s).worker
      rw [hpids, hworker]
      exact h
  | @complete i warned hworker =>
      obtain ⟨hpids, _, hworkers, _⟩ := sendUsr2_frame i s
      change OwnPids (sendUsr2 i s).workerPids (Function.update (sendUsr2 i s).worker i .finishing)
      rw [hpids, hworkers]
      apply h.congr
      intro j
      rcases eq_or_ne j i with rfl | hne
      · rw [Function.update_self, hworker]
        rfl
      · rw [Function.update_of_ne hne]

/-- A parent that is alive was so before. -/
theorem move_alive {s t : Part4.State} {a : Part4.Action} (hmove : Move s a t)
    (halive : t.parent ≠ .exited) : s.parent ≠ .exited := by
  cases hmove.effect with
  | frame _ _ _ _ _ hparent => exact fun hexited => halive (hparent hexited)
  | fork _ hparent | deliver _ hparent => exact hparent
  | @complete i _ _ => exact fun hexited => halive ((sendUsr2_frame i s).2.2.2.trans hexited)

theorem Told.act {s : State} {u : Part4.State} {a : Part4.Action} (h : Told s)
    (hslots : SlotsEmpty s) (hfresh : FreshPids s (.act a)) (hsends : sends s.core a = true)
    (hmove : Move s.core a u) : Told (enqueue s.queue u) where
  own := move_own (t := u) h.own hfresh hmove
  noFail := move_noFail (t := u) h.noFail hsends hmove
  unblocked := move_unblocked (t := u) h.unblocked hsends hmove
  completed halive i hsent := by
    rcases move_completed hslots hsends hmove halive hsent with ⟨hbefore, hsame, hpids⟩ | hnew
    · change u.completed i = true ∨ .usr2 (u.workerPids i) ∈ s.queue ++ sent u
      rw [hsame, hpids, List.mem_append, ← or_assoc]
      exact .inl (h.completed (move_alive hmove halive) i hbefore)
    · exact .inr (List.mem_append.mpr (.inr hnew))
  warned halive hpast := by
    rcases move_warned hslots hsends hmove halive hpast with ⟨hbefore, hsame, hpids⟩ | hnew
    · change u.memoryWarned = true ∨ .usr1 (u.workerPids 2) ∈ s.queue ++ sent u
      rw [hsame, hpids, List.mem_append, ← or_assoc]
      exact .inl (h.warned (move_alive hmove halive) hbefore)
    · exact .inr (List.mem_append.mpr (.inr hnew))

theorem mem_eraseIdx_or {queue : List Signal} {n : Nat} {signal other : Signal}
    (hn : queue[n]? = some signal) (hmem : other ∈ queue) :
    other = signal ∨ other ∈ queue.eraseIdx n := by
  obtain ⟨k, hk⟩ := List.mem_iff_getElem?.mp hmem
  rcases eq_or_ne k n with rfl | hne
  · exact .inl (Option.some.inj (hk.symm.trans hn))
  · exact .inr (List.mem_eraseIdx_iff_getElem?.mpr ⟨k, hne, hk⟩)

theorem handleUsr1_flags (pid : Nat) (s : Part4.State) :
    (handleUsr1 pid s).blocked = s.blocked ∧
      (s.memoryWarned = true ∨ senderIndex s.workerPids pid = some 2 →
        (handleUsr1 pid s).memoryWarned = true) := by
  unfold handleUsr1
  split
  · exact ⟨rfl, fun _ => rfl⟩
  · next hnot =>
      refine ⟨rfl, fun h => ?_⟩
      by_contra hunset
      rcases h with hset | hsender
      · exact hunset hset
      · exact hnot ⟨hsender, by simpa using hunset⟩

theorem handleUsr2_flags (pid : Nat) (s : Part4.State) :
    (handleUsr2 pid s).blocked = s.blocked ∧ (handleUsr2 pid s).memoryWarned = s.memoryWarned := by
  unfold handleUsr2
  split
  · split
    · exact ⟨rfl, rfl⟩
    · exact ⟨rfl, rfl⟩
  · exact ⟨rfl, rfl⟩

/-- What the handler of a delivered signal leaves, and what it stores. -/
theorem deliver_flags {s t : Part4.State} {signal : Signal} (h : deliver s signal = some t)
    (hown : OwnPids s.workerPids s.worker) :
    t.blocked = s.blocked ∧
      (∀ i, (s.worker i).born = true → s.completed i = true ∨ signal = .usr2 (s.workerPids i) →
        t.completed i = true) ∧
      ((s.worker 2).born = true → s.memoryWarned = true ∨ signal = .usr1 (s.workerPids 2) →
        t.memoryWarned = true) := by
  cases signal with
  | usr1 pid =>
      cases deliver_move h with
      | @deliverUsr1 pid' _ hpending =>
          obtain rfl : pid = pid' := Option.some.inj hpending
          obtain ⟨hblocked, hwarned⟩ := handleUsr1_flags pid (slot s (.usr1 pid))
          obtain ⟨_, hcompleted, _, _, _⟩ := handleUsr1_frame pid (slot s (.usr1 pid))
          refine ⟨hblocked, fun i _ hi => ?_, fun hborn hi => hwarned ?_⟩
          · rcases hi with hset | hsignal
            · exact (congrFun hcompleted i).trans hset
            · cases hsignal
          · rcases hi with hset | hsignal
            · exact .inl hset
            · cases hsignal
              exact .inr (hown.senderIndex hborn)
  | usr2 pid =>
      cases deliver_move h with
      | @deliverUsr2 pid' _ hpending =>
          obtain rfl : pid = pid' := Option.some.inj hpending
          obtain ⟨hblocked, hwarned⟩ := handleUsr2_flags pid (slot s (.usr2 pid))
          refine ⟨hblocked, fun i hborn hi => ?_, fun _ hi => ?_⟩
          · apply handleUsr2_completed
            rcases hi with hset | hsignal
            · exact .inl hset
            · cases hsignal
              exact .inr (hown.senderIndex hborn)
          · rcases hi with hset | hsignal
            · exact hwarned.trans hset
            · cases hsignal

theorem born_of_pastWarning {pc : WorkerPc} (h : pastWarning pc = true) : pc.born = true := by
  cases pc with
  | unborn => cases h
  | _ => rfl

theorem Told.deliver {s : State} {u : Part4.State} {n : Nat} {signal : Signal} (h : Told s)
    (hsignal : s.queue[n]? = some signal) (hdeliver : deliver s.core signal = some u) :
    Told ⟨u, s.queue.eraseIdx n⟩ := by
  obtain ⟨_, hparent, hworker, hpids, _⟩ := deliver_frame hdeliver
  obtain ⟨hblocked, hcompleted, hwarned⟩ := deliver_flags hdeliver h.own
  refine ⟨?_, ?_, ?_, ?_, ?_⟩
  · change OwnPids u.workerPids u.worker
    rw [hpids, hworker]
    exact h.own
  · change ∀ i, u.worker i ≠ .exited false
    rw [hworker]
    exact h.noFail
  · change listening u.parent = true → u.blocked = false
    rw [hparent, hblocked]
    exact h.unblocked
  · change u.parent ≠ .exited → ∀ i, (u.worker i).sentUsr2 = true →
      u.completed i = true ∨ .usr2 (u.workerPids i) ∈ s.queue.eraseIdx n
    rw [hparent, hworker, hpids]
    intro halive i hsent
    have hborn := WorkerPc.born_of_sentUsr2 hsent
    rcases h.completed halive i hsent with hset | hqueued
    · exact .inl (hcompleted i hborn (.inl hset))
    · rcases mem_eraseIdx_or hsignal hqueued with heq | hrest
      · exact .inl (hcompleted i hborn (.inr heq.symm))
      · exact .inr hrest
  · change u.parent ≠ .exited → pastWarning (u.worker 2) = true →
      u.memoryWarned = true ∨ .usr1 (u.workerPids 2) ∈ s.queue.eraseIdx n
    rw [hparent, hworker, hpids]
    intro halive hpast
    have hborn := born_of_pastWarning hpast
    rcases h.warned halive hpast with hset | hqueued
    · exact .inl (hwarned hborn (.inl hset))
    · rcases mem_eraseIdx_or hsignal hqueued with heq | hrest
      · exact .inl (hwarned hborn (.inr heq.symm))
      · exact .inr hrest

/-! Where a run stops. -/

/-- The parent has exited and no worker is left. -/
def Finished (s : State) : Prop :=
  s.core.parent = .exited ∧ ∀ i, (s.core.worker i).live = false

structure Invariant (s : State) : Prop where
  printed : Printed s.core
  slots : SlotsEmpty s
  told : Told s

theorem Invariant.step {s t : State} {a : Action} (h : Invariant s) (hfresh : FreshPids s a)
    (hstep : step s a = some t) : Invariant t where
  printed := printed_step h.printed hstep
  slots := slotsEmpty_step h.slots hstep
  told := by
    cases a with
    | act a =>
        obtain ⟨hsends, u, hcore, rfl⟩ := step_act hstep
        exact h.told.act h.slots hfresh hsends (step_move hcore)
    | deliver n =>
        obtain ⟨signal, hsignal, hstep⟩ := Option.bind_eq_some_iff.mp hstep
        obtain ⟨u, hdeliver, rfl⟩ := Option.map_eq_some_iff.mp hstep
        exact h.told.deliver hsignal hdeliver

/-- A worker that is alive goes on. -/
theorem worker_goesOn {s : State} {i : Fin 3} (hlive : (s.core.worker i).live = true) :
    ∃ a, FreshPids s a ∧ (step s a).isSome = true := by
  cases hpc : s.core.worker i with
  | unborn | exited _ =>
      rw [hpc] at hlive
      cases hlive
  | starting => exact ⟨.act (.start i), trivial, by simp [step, sends, Part4.step, workerStep, hpc]⟩
  | reading warned =>
      cases warned with
      | false => exact ⟨.act (.warn i), trivial, by simp [step, sends, Part4.step, workerStep, hpc]⟩
      | true =>
          exact ⟨.act (.complete i), trivial, by simp [step, sends, Part4.step, workerStep, hpc]⟩
  | finishing => exact ⟨.act (.exit i), trivial, by simp [step, sends, Part4.step, workerStep, hpc]⟩

/-- When all workers are gone and nothing is in the queue, every flag is set. -/
theorem flag_of_gone {s : State} (h : Invariant s) {loop : Await}
    (hparent : s.core.parent = .suspended loop) (hgone : ∀ i, (s.core.worker i).live = false)
    (hqueue : s.queue = []) (l : Await) :
    s.core.flag l = true ∧ ∀ i, (s.core.worker i).sentUsr2 = true := by
  have halive : s.core.parent ≠ .exited := by rw [hparent]; nofun
  have hexited : ∀ i, s.core.worker i = .exited true := by
    intro i
    have hborn : (s.core.worker i).born = true := by
      rw [h.printed.born halive, hparent]
      exact i.isLt
    have hterminated := WorkerPc.terminated_of_not_live hborn (hgone i)
    have hnoFail := h.told.noFail i
    cases hpc : s.core.worker i with
    | exited completed =>
        cases completed with
        | true => rfl
        | false => exact absurd hpc hnoFail
    | unborn | starting | reading _ | finishing =>
        rw [hpc] at hterminated
        cases hterminated
  have hsent : ∀ i, (s.core.worker i).sentUsr2 = true := by
    intro i
    rw [hexited i]
    rfl
  have hcompleted : ∀ i, s.core.completed i = true := by
    intro i
    rcases h.told.completed halive i (hsent i) with hset | hqueued
    · exact hset
    · rw [hqueue] at hqueued
      cases hqueued
  refine ⟨?_, hsent⟩
  cases l with
  | memoryWarning =>
      rcases h.told.warned halive (by rw [hexited 2]; rfl) with hset | hqueued
      · exact hset
      · rw [hqueue] at hqueued
        cases hqueued
  | worker1 | worker2 => exact hcompleted _

theorem deliver_isSome {s : Part4.State} (hblocked : s.blocked = false)
    (hhandling : s.handling = false) (halive : s.parent ≠ .exited) (signal : Signal) :
    (deliver s signal).isSome = true := by
  cases signal with
  | usr1 pid | usr2 pid =>
      simp [deliver, deliverUsr1, deliverUsr2, deliverable, hblocked, hhandling, halive]

theorem goesOn {s : State} (h : Invariant s) (hnot : ¬ (Finished s ∨ Asleep s)) :
    ∃ a t, FreshPids s a ∧ step s a = some t := by
  suffices hsome : ∃ a, FreshPids s a ∧ (step s a).isSome = true by
    obtain ⟨a, hfresh, hstep⟩ := hsome
    obtain ⟨t, ht⟩ := Option.isSome_iff_exists.mp hstep
    exact ⟨a, t, hfresh, ht⟩
  by_cases hlive : ∃ i, (s.core.worker i).live = true
  · obtain ⟨i, hi⟩ := hlive
    exact worker_goesOn hi
  have hgone : ∀ i, (s.core.worker i).live = false := by simpa using hlive
  cases hhandling : s.core.handling with
  | true =>
      refine ⟨.act .handlerReturn, trivial, ?_⟩
      simp only [step, sends, if_true, Part4.step, handlerReturn, hhandling, Option.isSome_map]
      split <;> rfl
  | false =>
      cases hparent : s.core.parent with
      | block | unblock | test _ | enter _ | report =>
          refine ⟨.act .parent, trivial, ?_⟩
          simp [step, sends, Part4.step, parentStep, hhandling, hparent]
      | fork i => exact ⟨.act .forkFails, trivial, by simp [step, sends, Part4.step, hparent]⟩
      | wait i =>
          refine ⟨.act .parent, trivial, ?_⟩
          have hreaped : ∀ pid, s.core.reaped pid = true := fun pid =>
            decide_eq_true fun j _ => hgone j
          simp only [step, sends, if_true, Part4.step, parentStep, hhandling, hparent, hreaped,
            Option.isSome_map, Bool.false_eq_true, if_false]
          split <;> rfl
      | exited => exact absurd (.inl ⟨hparent, hgone⟩) hnot
      | suspended loop =>
          cases hqueue : s.queue with
          | nil =>
              -- every signal was handled, so `main` has come too late
              obtain ⟨hflag, hsent⟩ := flag_of_gone h hparent hgone hqueue loop
              refine absurd (.inr ⟨loop, hparent, hhandling, hflag, ?_⟩) hnot
              rintro (hleft | ⟨i, hi⟩)
              · exact hleft hqueue
              · rw [hsent i] at hi
                cases hi
          | cons signal rest =>
              have hblocked := h.told.unblocked (by rw [hparent]; rfl)
              have hdeliver := deliver_isSome hblocked hhandling (by rw [hparent]; nofun) signal
              refine ⟨.deliver 0, trivial, ?_⟩
              simpa [step, hqueue] using hdeliver

/-- With no signal merged and every worker under a pid of its own, each run has at most 56
steps, and it goes on until the parent and all workers are gone or `main` sleeps for good
in a loop whose flag is set. -/
theorem ends_or_asleep :
    EndsWithin step FreshPids (fun s => Finished s ∨ Asleep s) 56 State.initial := by
  have hinitial : Invariant State.initial := ⟨printed_initial, ⟨rfl, rfl⟩, told_initial⟩
  have hrank : rank State.initial = 56 := by decide
  rw [← hrank]
  exact .of_rank rank (fun _ _ _ h hfresh hstep => h.step hfresh hstep)
    (fun _ _ _ h _ hstep => rank_step h.printed h.slots hstep) (fun _ h hnot => goesOn h hnot)
    hinitial

end Unx511.Assignment1.Part4.Wakeup
