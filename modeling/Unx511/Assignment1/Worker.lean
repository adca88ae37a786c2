import Unx511.Machine.Packing

/-!
Assignment 1, `dhsb_worker_process` of Parts 2 and 3, which differ in one line of
output. The worker reads its file into an accumulation buffer and watches its
memory; what it prints to stdout is left out.
-/

namespace Unx511.Assignment1

open Machine

/-- The signals that a worker sends to its parent. -/
inductive Signal where
  | usr1
  | usr2
  deriving DecidableEq, Repr

/-- What a worker finds in `/proc/self/status`: it cannot be opened, it has no VmRSS line with
a number, or that number. -/
inductive Reading where
  | unreadable
  | noRss
  | vmRss (kb : Int)
  deriving DecidableEq, Repr

namespace Reading

/-- `mem_usage` after the file has been searched. -/
def update (memUsage : Int) : Reading → Int
  | vmRss kb => kb
  | unreadable | noRss => memUsage

def exceeds : Reading → Bool
  | vmRss kb => 50000 < kb
  | unreadable | noRss => false

end Reading

/-- The variables behind the memory warning, and the signals sent so far. `warned` is
`sigusr1_already_sent` in Parts 2 and 3. -/
structure Alarm where
  memUsage : Int
  warned : Bool
  signals : List Signal
  deriving DecidableEq, Repr

namespace Alarm

def initial : Alarm := { memUsage := 0, warned := false, signals := [] }

/-- The search for VmRSS and the test behind it. -/
def check (r : Reading) (a : Alarm) : Alarm :=
  let memUsage := r.update a.memUsage
  if 50000 < memUsage ∧ a.warned = false then
    { memUsage := memUsage, warned := true, signals := a.signals ++ [.usr1] }
  else { a with memUsage := memUsage }

/-- A check that is skipped when the file cannot be opened. -/
def observe (r : Reading) (a : Alarm) : Alarm :=
  if r = .unreadable then a else a.check r

/-- An alarm that was not raised has seen no large reading. -/
structure Consistent (a : Alarm) : Prop where
  quiet : a.warned = false → a.memUsage ≤ 50000 ∧ a.signals = []
  raised : a.warned = true → a.signals = [.usr1]

theorem initial_consistent : initial.Consistent where
  quiet := fun _ => ⟨by decide, rfl⟩
  raised := fun h => absurd h Bool.false_ne_true

theorem check_spec (r : Reading) {a : Alarm} (h : a.Consistent) :
    (a.check r).Consistent ∧ (a.check r).warned = (a.warned || r.exceeds) := by
  cases hw : a.warned with
  | true =>
      have hsame : a.check r = { a with memUsage := r.update a.memUsage } := by
        simp [check, hw]
      rw [hsame]
      exact ⟨⟨fun hq => absurd (hw.symm.trans hq) (by simp), fun _ => h.raised hw⟩, by simp [hw]⟩
  | false =>
      obtain ⟨hlow, hnone⟩ := h.quiet hw
      have hexceeds : 50000 < r.update a.memUsage ↔ r.exceeds = true := by
        cases r with
        | unreadable | noRss =>
            simp only [Reading.update, Reading.exceeds, Bool.false_eq_true, iff_false]
            omega
        | vmRss kb => simp [Reading.update, Reading.exceeds]
      cases hr : r.exceeds with
      | true =>
          have hraise : a.check r =
              { memUsage := r.update a.memUsage, warned := true, signals := [.usr1] } := by
            simp [check, hw, hexceeds.mpr hr, hnone]
          rw [hraise]
          exact ⟨⟨fun hq => absurd hq (by simp), fun _ => rfl⟩, rfl⟩
      | false =>
          have hlow' : r.update a.memUsage ≤ 50000 := by
            have : ¬ 50000 < r.update a.memUsage := by simp [hexceeds, hr]
            omega
          have hsame : a.check r = { a with memUsage := r.update a.memUsage } := by
            simp only [check]
            exact if_neg fun hc => absurd hc.1 (by omega)
          rw [hsame]
          exact ⟨⟨fun _ => ⟨hlow', hnone⟩, fun hq => absurd (hw.symm.trans hq) (by simp)⟩, hw⟩

theorem observe_spec (r : Reading) {a : Alarm} (h : a.Consistent) :
    (a.observe r).Consistent ∧ (a.observe r).warned = (a.warned || r.exceeds) := by
  unfold observe
  split
  · rename_i hr
    exact ⟨h, by simp [hr, Reading.exceeds]⟩
  · exact check_spec r h

/-- Whatever the readings are, one SIGUSR1 is sent when one of them is large, and none
otherwise. -/
theorem foldl_observe (rs : List Reading) {a : Alarm} (h : a.Consistent) :
    (rs.foldl (fun a r => a.observe r) a).Consistent ∧
      (rs.foldl (fun a r => a.observe r) a).warned = (a.warned || rs.any Reading.exceeds) := by
  induction rs generalizing a with
  | nil => simp [h]
  | cons r rs ih =>
      obtain ⟨hc, hw⟩ := observe_spec r h
      obtain ⟨hc', hw'⟩ := ih hc
      refine ⟨hc', ?_⟩
      rw [List.foldl_cons, hw', hw, List.any_cons, Bool.or_assoc]

theorem Consistent.signals_eq {a : Alarm} (h : a.Consistent) :
    a.signals = if a.warned then [.usr1] else [] := by
  cases hw : a.warned with
  | true => exact h.raised hw
  | false => exact (h.quiet hw).2

end Alarm

/-- How a worker ends: what it has sent, what it has reported, its exit status. -/
structure Ending where
  signals : List Signal
  stderr : List String
  status : Nat
  deriving DecidableEq, Repr

/-- `file_data_capacity` -/
def fileDataCapacity : Nat := 60 * 1024 * 1024

/-- `initial_mem_alloc_bytes` -/
def initialMemAllocBytes : Nat := 55 * 1024 * 1024

/-- The worker at the head of its loop, with the history of what `read` has put into
`buffer`. -/
structure Worker (β : Type*) where
  alarm : Alarm
  accumulatedData : List β
  offset : Nat
  chunksRead : List (List β)
  deriving DecidableEq, Repr

section Worker

variable {β : Type*}

/-- The memory after `memcpy(memory + offset, chunk, ..)`. -/
def memcpy (memory : List β) (offset : Nat) (chunk : List β) : List β :=
  memory.take offset ++ chunk ++ memory.drop (offset + chunk.length)

namespace Worker

/-- The worker in front of its loop; `memory` is what `malloc` has returned. -/
def start (alarm : Alarm) (memory : Vector β fileDataCapacity) : Worker β where
  alarm := alarm
  accumulatedData := memory.toList
  offset := 0
  chunksRead := []

/-- `accumulated_data[0..offset)` -/
def stored (w : Worker β) : List β := w.accumulatedData.take w.offset

/-- A chunk that does not fit is left out. -/
def accumulate (chunk : List β) (w : Worker β) : Worker β :=
  if w.offset + chunk.length ≤ fileDataCapacity then
    { w with
      accumulatedData := memcpy w.accumulatedData w.offset chunk
      offset := w.offset + chunk.length
      chunksRead := w.chunksRead ++ [chunk] }
  else { w with chunksRead := w.chunksRead ++ [chunk] }

/-- The loop over the chunks that `read` returns, and whether it came to the end of
the file. Iteration `i` finds `readings i`. -/
def readLoop (readings : Nat → Reading) : List (List β) → Nat → Worker β → Worker β × Bool
  | [], _, w => (w, true)
  | chunk :: rest, i, w =>
      if readings i = .unreadable then (w.accumulate chunk, false)
      else
        readLoop readings rest (i + 1)
          { w.accumulate chunk with alarm := w.alarm.check (readings i) }

theorem readLoop_alarm {readings : Nat → Reading} (hopen : ∀ i, readings i ≠ .unreadable)
    (chunks : List (List β)) (i : Nat) (w : Worker β) :
    (readLoop readings chunks i w).2 = true ∧
      (readLoop readings chunks i w).1.alarm =
        ((List.range' i chunks.length).map readings).foldl (fun a r => a.observe r) w.alarm := by
  induction chunks generalizing i w with
  | nil => exact ⟨rfl, rfl⟩
  | cons chunk rest ih =>
      rw [readLoop, if_neg (hopen i), List.length_cons, List.range'_succ, List.map_cons,
        List.foldl_cons, Alarm.observe, if_neg (hopen i)]
      exact ih (i + 1) _

end Worker

/-- `dhsb_worker_process` of Parts 2 and 3. -/
def dhsbWorkerProcess (opened : Bool) (malloc : (n : Nat) → Option (Vector β n))
    (initialReading : Reading) (readings : Nat → Reading) (chunks : List (List β)) : Ending :=
  if opened = false then
    { signals := [], stderr := ["Worker: Failed to open file"], status := 1 }
  else if malloc initialMemAllocBytes = none then
    { signals := [], stderr := ["Worker: Initial memory allocation failed"], status := 1 }
  else
    let alarm := Alarm.initial.observe initialReading
    let stderr :=
      if initialReading = .unreadable then
        ["Worker: Failed to open /proc/self/status for initial check"]
      else []
    match malloc fileDataCapacity with
    | none =>
        { signals := alarm.signals
          stderr := stderr ++ ["Worker: File data memory allocation failed"]
          status := 1 }
    | some memory =>
        match Worker.readLoop readings chunks 0 (.start alarm memory) with
        | (w, true) =>
            { signals := w.alarm.signals ++ [.usr2], stderr := stderr, status := 0 }
        | (w, false) =>
            { signals := w.alarm.signals
              stderr := stderr ++ ["Worker: Failed to open /proc/self/status in loop"]
              status := 1 }

/-- The check in front of the loop warns the parent of any file, the empty one
included. -/
theorem dhsbWorkerProcess_warns {malloc : (n : Nat) → Option (Vector β n)}
    (hmalloc : ∀ n, malloc n ≠ none) {initialReading : Reading}
    (hinitial : initialReading.exceeds = true) {readings : Nat → Reading}
    (hreadings : ∀ i, (readings i).exceeds = true) (chunks : List (List β)) :
    dhsbWorkerProcess true malloc initialReading readings chunks =
      { signals := [.usr1, .usr2], stderr := [], status := 0 } := by
  have hreadable : ∀ {r : Reading}, r.exceeds = true → r ≠ .unreadable := by
    rintro r hr rfl
    exact Bool.false_ne_true hr
  obtain ⟨memory, hmemory⟩ := Option.ne_none_iff_exists'.mp (hmalloc fileDataCapacity)
  obtain ⟨hcons, hwarned⟩ := Alarm.observe_spec initialReading Alarm.initial_consistent
  obtain ⟨hend, halarm⟩ := Worker.readLoop_alarm (fun i => hreadable (hreadings i)) chunks 0
    (.start (Alarm.initial.observe initialReading) memory)
  obtain ⟨hcons', hwarned'⟩ :=
    Alarm.foldl_observe ((List.range' 0 chunks.length).map readings) hcons
  have hsignals := hcons'.signals_eq
  rw [hwarned', hwarned, hinitial, Bool.or_true, Bool.true_or, if_pos rfl] at hsignals
  unfold dhsbWorkerProcess
  rw [if_neg (by simp), if_neg (hmalloc _), hmemory]
  generalize hrun : Worker.readLoop readings chunks 0 _ = result at hend halarm
  obtain ⟨w, ended⟩ := result
  cases hend
  have hsent : w.alarm.signals = [.usr1] := (congrArg Alarm.signals halarm).trans hsignals
  simp only [hrun, hsent, if_neg (hreadable hinitial), List.cons_append, List.nil_append]

end Worker

end Unx511.Assignment1
