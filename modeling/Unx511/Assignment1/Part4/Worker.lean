import Unx511.Assignment1.Part4
import Unx511.Assignment1.Worker

/-!
Assignment 1, Part 4, `worker_process.c`: the worker sends its warning from
inside the loop that reads the file, the first time that VmRSS is large.
-/

namespace Unx511.Assignment1.Part4

open Machine

/-- The results of `read` on a file: the sizes of the chunks, and whether the last
call failed instead of finding the end of the file. -/
structure Reads (fileLength : Nat) where
  sizes : List Nat
  failed : Bool
  size_le : ∀ n ∈ sizes, 0 < n ∧ n ≤ 4096
  within : sizes.sum ≤ fileLength
  whole : failed = false → sizes.sum = fileLength

/-- `alloc_size_mb` -/
def allocSizeMb (workerId : Int) : Nat :=
  if workerId = 1 then 5
  else if workerId = 2 then 40
  else if workerId = 3 then 120
  else 0

/-- The loop over the chunks, with what it writes to stderr. Iteration `i` finds
`readings i`, and goes on when the file cannot be opened. -/
def readLoop (readings : Nat → Reading) : List Nat → Nat → Alarm → Alarm × List String
  | [], _, a => (a, [])
  | _ :: rest, i, a =>
      let result := readLoop readings rest (i + 1) (a.observe (readings i))
      (result.1,
        if readings i = .unreadable then
          "Worker: Failed to open /proc/self/status" :: result.2
        else result.2)

/-- `dhsb_worker_process` of Part 4. -/
def dhsbWorkerProcess {fileLength : Nat} (opened : Bool) (malloc : Nat → Bool) (workerId : Int)
    (readings : Nat → Reading) (reads : Reads fileLength) : Ending :=
  if opened = false then
    { signals := [], stderr := ["Worker: Failed to open file"], status := 1 }
  else if malloc (allocSizeMb workerId * 1024 * 1024) = false then
    { signals := [], stderr := ["Worker: Memory allocation failed"], status := 1 }
  else
    let result := readLoop readings reads.sizes 0 .initial
    { signals := result.1.signals ++ [.usr2], stderr := result.2, status := 0 }

theorem readLoop_alarm (readings : Nat → Reading) (sizes : List Nat) (i : Nat) (a : Alarm) :
    (readLoop readings sizes i a).1 =
      ((List.range' i sizes.length).map readings).foldl (fun a r => a.observe r) a := by
  induction sizes generalizing i a with
  | nil => rfl
  | cons n rest ih =>
      rw [List.length_cons, List.range'_succ, List.map_cons, List.foldl_cons]
      exact ih (i + 1) _

section Ending

variable {fileLength : Nat} {malloc : Nat → Bool} {workerId : Int} (readings : Nat → Reading)
  (reads : Reads fileLength)

/-- Whatever the readings are, the worker warns at most once, and before it reports
its completion. -/
theorem dhsbWorkerProcess_signals (hmalloc : malloc (allocSizeMb workerId * 1024 * 1024) = true) :
    (dhsbWorkerProcess true malloc workerId readings reads).status = 0 ∧
      (dhsbWorkerProcess true malloc workerId readings reads).signals =
        if (List.range reads.sizes.length).any fun i => (readings i).exceeds then [.usr1, .usr2]
        else [.usr2] := by
  obtain ⟨hcons, hwarned⟩ := Alarm.foldl_observe
    ((List.range' 0 reads.sizes.length).map readings) Alarm.initial_consistent
  rw [← readLoop_alarm] at hcons hwarned
  rw [← List.range_eq_range', List.any_map] at hwarned
  change _ = (false || (List.range reads.sizes.length).any fun i => (readings i).exceeds) at hwarned
  unfold dhsbWorkerProcess
  rw [if_neg (by simp), if_neg (by simp [hmalloc])]
  refine ⟨rfl, ?_⟩
  change (readLoop readings reads.sizes 0 .initial).1.signals ++ [.usr2] = _
  rw [hcons.signals_eq, hwarned, Bool.false_or]
  split <;> rfl

theorem dhsbWorkerProcess_not_started {opened : Bool}
    (h : ¬ (opened = true ∧ malloc (allocSizeMb workerId * 1024 * 1024) = true)) :
    (dhsbWorkerProcess opened malloc workerId readings reads).signals = [] ∧
      (dhsbWorkerProcess opened malloc workerId readings reads).status = 1 := by
  unfold dhsbWorkerProcess
  split
  · exact ⟨rfl, rfl⟩
  · rename_i hopened
    rw [if_pos (by simpa [hopened] using h)]
    exact ⟨rfl, rfl⟩

end Ending

/-- A worker whose memory is large at every check warns and completes exactly when
its loop runs at all. -/
theorem dhsbWorkerProcess_warns_iff {fileLength : Nat} (opened : Bool) (malloc : Nat → Bool)
    (workerId : Int) (readings : Nat → Reading)
    (hreadings : ∀ i, ∃ kb, 50000 < kb ∧ readings i = .vmRss kb) (reads : Reads fileLength) :
    ((dhsbWorkerProcess opened malloc workerId readings reads).signals = [.usr1, .usr2] ∧
        (dhsbWorkerProcess opened malloc workerId readings reads).status = 0) ↔
      opened = true ∧ malloc (allocSizeMb workerId * 1024 * 1024) = true ∧ reads.sizes ≠ [] := by
  by_cases hstart : opened = true ∧ malloc (allocSizeMb workerId * 1024 * 1024) = true
  · obtain ⟨rfl, hmalloc⟩ := hstart
    obtain ⟨hstatus, hsignals⟩ :=
      dhsbWorkerProcess_signals readings reads hmalloc
    have hexceeds : ∀ i, (readings i).exceeds = true := by
      intro i
      obtain ⟨kb, hkb, hi⟩ := hreadings i
      rw [hi]
      exact decide_eq_true hkb
    rw [hsignals, hstatus]
    cases hsizes : reads.sizes with
    | nil => simp
    | cons n rest =>
        have hany : ((List.range (n :: rest).length).any fun i => (readings i).exceeds) = true :=
          List.any_eq_true.mpr ⟨0, by simp, hexceeds 0⟩
        rw [if_pos hany]
        simp [hmalloc]
  · obtain ⟨hsignals, _⟩ :=
      dhsbWorkerProcess_not_started readings reads hstart
    rw [hsignals]
    constructor
    · rintro ⟨h, _⟩
      exact absurd h (by simp)
    · rintro ⟨hopened, hmalloc, _⟩
      exact absurd ⟨hopened, hmalloc⟩ hstart

/-- Worker 3 on a file of two chunks. -/
theorem dhsbWorkerProcess_warns_two :
    (∀ _ : Nat, ∃ kb, 50000 < kb ∧ Reading.vmRss 124000 = .vmRss kb) ∧
      (((dhsbWorkerProcess true (fun _ => true) 3 (fun _ => .vmRss 124000)
              ⟨[4096, 4], false, by decide, le_rfl, fun _ => rfl⟩).signals = [.usr1, .usr2] ∧
          (dhsbWorkerProcess true (fun _ => true) 3 (fun _ => .vmRss 124000)
              ⟨[4096, 4], false, by decide, le_rfl, fun _ => rfl⟩).status = 0) ↔
        true = true ∧ true = true ∧ [4096, 4] ≠ []) :=
  ⟨fun _ => ⟨124000, by decide, rfl⟩,
    dhsbWorkerProcess_warns_iff true (fun _ => true) 3 (fun _ => .vmRss 124000)
      (fun _ => ⟨124000, by decide, rfl⟩) ⟨[4096, 4], false, by decide, le_rfl, fun _ => rfl⟩⟩

/-- The empty file, which the prompt for worker 3 can ask for: the loop body with the
check never runs, and the parent's wait for the warning is not answered. -/
theorem dhsbWorkerProcess_empty_file :
    (dhsbWorkerProcess true (fun _ => true) 3 (fun _ => .vmRss 124000)
        (⟨[], false, by simp, le_rfl, fun _ => rfl⟩ : Reads 0)).signals = [.usr2] :=
  rfl

/-- The step of the worker in the model of the three processes. -/
def signalAction (i : Fin 3) : Signal → Action
  | .usr1 => .warn i
  | .usr2 => .complete i

def endingActions (i : Fin 3) (e : Ending) : List Action :=
  if e.status = 0 then .start i :: (e.signals.map (signalAction i) ++ [.exit i]) else [.fail i]

theorem setWorker_self (s : State) (i : Fin 3) (pc : WorkerPc) :
    (s.setWorker i pc).worker i = pc := by
  simp [State.setWorker]

/-- A worker in its loop can come to its end. -/
theorem run_complete {s : State} {i : Fin 3} {warned : Bool}
    (hreading : s.worker i = .reading warned) :
    ∃ t, run step s [.complete i, .exit i] = some t ∧ (t.worker i).terminated = true := by
  have hcomplete : step s (.complete i) = some ((sendUsr2 i s).setWorker i .finishing) := by
    simp [step, workerStep, hreading]
  have hexit : ∀ u : State, u.worker i = .finishing →
      step u (.exit i) = some (u.setWorker i (.exited true)) := fun u hu => if_pos hu
  refine ⟨((sendUsr2 i s).setWorker i .finishing).setWorker i (.exited true), ?_, ?_⟩
  · rw [run_cons, hcomplete, Option.bind_some, run_cons, hexit _ (setWorker_self _ _ _)]
    rfl
  · rw [setWorker_self]
    rfl

/-- Every call of the worker is a run of worker `i` in that model. -/
theorem dhsbWorkerProcess_run {fileLength : Nat} (opened : Bool) (malloc : Nat → Bool)
    (workerId : Int) (readings : Nat → Reading) (reads : Reads fileLength) {s : State} {i : Fin 3}
    (hstarting : s.worker i = .starting) :
    ∃ t, run step s (endingActions i (dhsbWorkerProcess opened malloc workerId readings reads)) =
        some t ∧ (t.worker i).terminated = true := by
  have hstart : step s (.start i) = some (s.setWorker i (.reading false)) := if_pos hstarting
  have hwarn : ∀ u : State, u.worker i = .reading false →
      step u (.warn i) = some ((sendUsr1 i u).setWorker i (.reading true)) := fun u hu => if_pos hu
  by_cases h : opened = true ∧ malloc (allocSizeMb workerId * 1024 * 1024) = true
  · obtain ⟨rfl, hmalloc⟩ := h
    obtain ⟨hstatus, hsignals⟩ :=
      dhsbWorkerProcess_signals readings reads hmalloc
    rw [endingActions, if_pos hstatus, hsignals, run_cons, hstart, Option.bind_some]
    split
    · change ∃ t, run step _ [.warn i, .complete i, .exit i] = some t ∧ _
      rw [run_cons, hwarn _ (setWorker_self _ _ _), Option.bind_some]
      exact run_complete (setWorker_self _ _ _)
    · exact run_complete (setWorker_self _ _ _)
  · obtain ⟨_, hstatus⟩ :=
      dhsbWorkerProcess_not_started readings reads h
    have hfail : step s (.fail i) = some (s.setWorker i (.exited false)) := if_pos hstarting
    rw [endingActions, if_neg (by simp [hstatus]), run_cons, hfail]
    refine ⟨_, rfl, ?_⟩
    rw [setWorker_self]
    rfl

end Unx511.Assignment1.Part4
