import Mathlib
import Unx511.Lab5b.StartStop
import Unx511.Lab5b.Statistics
import Unx511.Text.Lines

/-!
Lab 5b, `Network.log` while the children run. All of them write to the one file, which each
has opened with `O_APPEND`, so a `write` puts a whole line behind what is there. The
processes go on as in the model of their start and stop; the statistics that a child
gathers come from files that the kernel changes all the time.
-/

namespace Unx511.Lab5b.NetworkLog

open Text Machine

variable {num : Nat}

/-- What a child finds in sysfs in one iteration. It opens four different files, each of
them once, so this also stands for contents that change between the reads. -/
abbrev Sysfs := List Char → Option (List Char)

/-- The processes with `Network.log`, and the history of the lines in it: who wrote, and the
counters. -/
structure System (num : Nat) where
  processes : State num
  log : List Char
  written : List (Fin num × Statistics Nat)

inductive Event (num : Nat) where
  | quiet (a : Action num)
  | write (i : Fin num) (sysfs : Sysfs) (counters : Statistics Nat)

/-- The parent has forked its children; the file is there from earlier runs, or empty. -/
def System.initial (before : List Char) : System num where
  processes := .initial
  log := before
  written := []

/-- The action is the iteration of a child, which writes. -/
def writes (s : State num) : Action num → Bool
  | .child i .main => (s.child i).pc = .body
  | _ => false

/-- `intf` are the names that the children are given. -/
def step (intf : Fin num → List Char) (s : System num) : Event num → Option (System num)
  | .quiet a =>
      if writes s.processes a then none
      else (s.processes.step a).map fun processes => { s with processes }
  | .write i sysfs counters =>
      if (s.processes.child i).pc = .body then
        (s.processes.step (.child i .main)).map fun processes =>
          { processes
            log := s.log ++ logLine sysfs (intf i)
            written := s.written ++ [(i, counters)] }
      else none

/-- The file holds the counter, or it cannot be opened and the counter counts as 0. -/
def Shows (sysfs : Sysfs) (path : List Char) (n : Nat) : Prop :=
  sysfs path = some (decimal n ++ ['\n']) ∨ sysfs path = none ∧ n = 0

/-- What a child finds are the counters. -/
def Counts (intf : Fin num → List Char) (_ : System num) : Event num → Prop
  | .quiet _ => True
  | .write i sysfs counters =>
      Shows sysfs (statPath (intf i) "tx_bytes".toList) counters.txBytes ∧
        Shows sysfs (statPath (intf i) "rx_bytes".toList) counters.rxBytes ∧
        Shows sysfs (statPath (intf i) "tx_packets".toList) counters.txPackets ∧
        Shows sysfs (statPath (intf i) "rx_packets".toList) counters.rxPackets

/-- The file, line by line. -/
def readLog (log : List Char) : List (Option (List Char × Statistics Nat)) :=
  (getlines log).map fun line => readBack (line ++ ['\n'])

/-- The line says that it is about the interface. -/
def About (interface : List Char) (read : Option (List Char × Statistics Nat)) : Bool :=
  read.elim false fun entry => entry.1 = interface

/-! The text of a line. -/

/-- A line without its newline. -/
def lineText (interface : List Char) (counters : Statistics Nat) : List Char :=
  interface ++ txBytesLabel ++ decimal counters.txBytes ++ rxBytesLabel ++
    decimal counters.rxBytes ++ txPacketsLabel ++ decimal counters.txPackets ++
    rxPacketsLabel ++ decimal counters.rxPackets

theorem dataLine_natCast (interface : List Char) (counters : Statistics Nat) :
    dataLine interface (counters.map Nat.cast) = lineText interface counters ++ ['\n'] := rfl

theorem newline_notMem_decimal (n : Nat) : '\n' ∉ decimal n := by
  intro h
  have hdigit := isDigit_of_mem_decimal h
  revert hdigit
  decide

theorem newline_notMem_lineText {interface : List Char} (hname : '\n' ∉ interface)
    (counters : Statistics Nat) : '\n' ∉ lineText interface counters := by
  have hlabels : '\n' ∉ txBytesLabel ∧ '\n' ∉ rxBytesLabel ∧ '\n' ∉ txPacketsLabel ∧
      '\n' ∉ rxPacketsLabel := by decide
  unfold lineText
  simp only [List.mem_append, newline_notMem_decimal, hname, hlabels, or_self, not_false_eq_true]

theorem readStat_shows {sysfs : Sysfs} {path : List Char} {n : Nat} (h : Shows sysfs path n)
    (infile : Istream) : (readStat sysfs path infile).1 = (min n 2147483647 : Nat) := by
  rcases h with hfile | ⟨hnone, rfl⟩
  · exact readStat_decimal hfile infile
  · unfold readStat
    rw [hnone]
    rfl

theorem logLine_counts {intf : Fin num → List Char} {s : System num} {i : Fin num} {sysfs : Sysfs}
    {counters : Statistics Nat} (h : Counts intf s (.write i sysfs counters)) :
    logLine sysfs (intf i) = lineText (intf i) counters.saturated ++ ['\n'] := by
  obtain ⟨htx, hrx, htxp, hrxp⟩ := h
  rw [← dataLine_natCast]
  unfold logLine gather
  simp only [readStat_shows htx, readStat_shows hrx, readStat_shows htxp, readStat_shows hrxp]
  rfl

/-- The file ends with a newline, or is empty. -/
def Whole (log : List Char) : Prop := log = [] ∨ ∃ front, log = front ++ ['\n']

theorem getlines_whole_append {log : List Char} (h : Whole log) (rest : List Char) :
    getlines (log ++ rest) = getlines log ++ getlines rest := by
  rcases h with rfl | ⟨front, rfl⟩
  · rfl
  · rw [List.append_assoc, List.singleton_append, getlines_append, getlines_append,
      List.append_assoc]
    rfl

theorem readLog_append_line {log interface : List Char} (hlog : Whole log)
    (hname : '\n' ∉ interface) (counters : Statistics Nat) :
    readLog (log ++ (lineText interface counters ++ ['\n'])) =
      readLog log ++ [some (interface, counters)] := by
  have hline : getlines (lineText interface counters ++ ['\n']) =
      [lineText interface counters] := by
    rw [getlines_append, List.splitOn_eq_singleton (newline_notMem_lineText hname counters)]
    rfl
  unfold readLog
  rw [getlines_whole_append hlog, hline, List.map_append, List.map_singleton, ← dataLine_natCast,
    readBack_dataLine]

/-! The processes and the file together. -/

section Invariant

variable {intf : Fin num → List Char} {s t : System num} {before : List Char}

theorem step_quiet {a : Action num} (h : step intf s (.quiet a) = some t) :
    writes s.processes a = false ∧
      ∃ processes, s.processes.step a = some processes ∧ t = { s with processes } := by
  change (if writes s.processes a = true then none else _) = some t at h
  obtain ⟨hquiet, h⟩ := Option.ite_none_left_eq_some.mp h
  obtain ⟨processes, hstep, rfl⟩ := Option.map_eq_some_iff.mp h
  exact ⟨by simpa using hquiet, processes, hstep, rfl⟩

theorem step_write {i : Fin num} {sysfs : Sysfs} {counters : Statistics Nat}
    (h : step intf s (.write i sysfs counters) = some t) :
    (s.processes.child i).pc = .body ∧
      ∃ processes, s.processes.step (.child i .main) = some processes ∧
        t = { processes
              log := s.log ++ logLine sysfs (intf i)
              written := s.written ++ [(i, counters)] } := by
  obtain ⟨hpc, h⟩ := Option.ite_none_right_eq_some.mp h
  obtain ⟨processes, hstep, rfl⟩ := Option.map_eq_some_iff.mp h
  exact ⟨hpc, processes, hstep, rfl⟩

/-- Every event is an action of the processes. -/
theorem step_processes {e : Event num} (h : step intf s e = some t) :
    ∃ a, s.processes.step a = some t.processes := by
  cases e with
  | quiet a =>
      obtain ⟨_, processes, hstep, rfl⟩ := step_quiet h
      exact ⟨a, hstep⟩
  | write i sysfs counters =>
      obtain ⟨_, processes, hstep, rfl⟩ := step_write h
      exact ⟨.child i .main, hstep⟩

/-- What the file holds. -/
structure Records (intf : Fin num → List Char) (before : List Char) (s : System num) : Prop where
  whole : Whole s.log
  lines : readLog s.log = readLog before ++
    s.written.map fun entry => some (intf entry.1, entry.2.saturated)

theorem Records.initial (h : Whole before) :
    Records intf before (System.initial before : System num) where
  whole := h
  lines := (List.append_nil _).symm

theorem Records.step (hnames : ∀ i, '\n' ∉ intf i) (h : Records intf before s) {e : Event num}
    (hcounts : Counts intf s e) (hstep : step intf s e = some t) : Records intf before t := by
  cases e with
  | quiet a =>
      obtain ⟨_, processes, _, rfl⟩ := step_quiet hstep
      exact ⟨h.whole, h.lines⟩
  | write i sysfs counters =>
      obtain ⟨_, processes, _, rfl⟩ := step_write hstep
      rw [logLine_counts hcounts]
      constructor
      · right
        exact ⟨s.log ++ lineText (intf i) counters.saturated, (List.append_assoc ..).symm⟩
      · change readLog (s.log ++ _) = _
        rw [readLog_append_line h.whole (hnames i), h.lines, List.map_append, List.append_assoc]
        rfl

/-- What an action of the processes can do to child `i`. -/
theorem step_child {p q : State num} {a : Action num} (h : p.step a = some q) (i : Fin num) :
    q.child i = p.child i ∨ (∃ sig, q.child i = (p.child i).kill sig) ∨
      ((p.child i).pc = .exited ∧ q.child i = { p.child i with pc := .reaped }) ∨
      ∃ b, (p.child i).step b = some (q.child i) := by
  have hkill : ∀ (j : Fin num) (sig : Signal), (p.kill j sig).child i = p.child i ∨
      ∃ other, (p.kill j sig).child i = (p.child i).kill other := by
    intro j sig
    unfold State.kill State.setChild
    rcases eq_or_ne i j with rfl | hne
    · exact .inr ⟨sig, Function.update_self ..⟩
    · exact .inl (Function.update_of_ne hne ..)
  cases a with
  | parent =>
      rw [← or_assoc]
      left
      change p.parentStep = some q at h
      unfold State.parentStep at h
      cases hparent : p.parent with
      | start j | stop j =>
          rw [hparent] at h
          by_cases hj : j < num
          · simp only [hj, dif_pos] at h
            cases h
            exact hkill ⟨j, hj⟩ _
          · simp only [hj, dif_neg, not_false_eq_true] at h
            cases h
            exact .inl rfl
      | pause =>
          rw [hparent] at h
          cases h
          exact .inl rfl
      | wait =>
          rw [hparent] at h
          obtain ⟨_, heq⟩ := Option.ite_none_right_eq_some.mp h
          cases heq
          exact .inl rfl
      | finished =>
          rw [hparent] at h
          cases h
  | reap j =>
      obtain ⟨⟨_, hpc⟩, heq⟩ := Option.ite_none_right_eq_some.mp h
      cases heq
      unfold State.setChild
      rcases eq_or_ne i j with rfl | hne
      · exact .inr (.inr (.inl ⟨hpc, Function.update_self ..⟩))
      · exact .inl (Function.update_of_ne hne ..)
  | ctrlC j | ctrlZ j =>
      cases h
      rw [← or_assoc]
      exact .inl (hkill j _)
  | child j b =>
      obtain ⟨c, hchild, rfl⟩ := Option.map_eq_some_iff.mp h
      unfold State.setChild
      rcases eq_or_ne i j with rfl | hne
      · refine .inr (.inr (.inr ⟨b, ?_⟩))
        simpa using hchild
      · exact .inl (Function.update_of_ne hne ..)

theorem child_step_handled {c d : Child} {b : ChildAction} (h : c.step b = some d) {sig : Signal}
    (hsig : c.handled sig = true) : d.handled sig = true := by
  cases b with
  | deliver other =>
      obtain ⟨_, _, _, rfl⟩ := Child.step_deliver h
      exact hsig
  | handle =>
      obtain ⟨other, outer, _, rfl⟩ := Child.step_handle h
      change Function.update c.handled other true sig = true
      rcases eq_or_ne sig other with rfl | hne
      · exact Function.update_self ..
      · rw [Function.update_of_ne hne, hsig]
  | main =>
      obtain ⟨_, pc, _, rfl⟩ := Child.step_main h
      exact hsig

/-- A handler that has run has run for good. -/
theorem step_handled {p q : State num} {a : Action num} (h : p.step a = some q) (i : Fin num)
    {sig : Signal} (hsig : (p.child i).handled sig = true) : (q.child i).handled sig = true := by
  rcases step_child h i with heq | ⟨other, heq⟩ | ⟨_, heq⟩ | ⟨b, hstep⟩
  · rw [heq]
    exact hsig
  · rw [heq]
    exact hsig
  · rw [heq]
    exact hsig
  · exact child_step_handled hstep hsig

/-- A child that has written was told to start before. -/
structure Started (s : System num) : Prop where
  processes : s.processes.Invariant
  started : ∀ entry ∈ s.written, (s.processes.child entry.1).handled .usr1 = true

theorem Started.initial : Started (System.initial before : System num) where
  processes := State.Invariant.initial
  started := fun _ h => nomatch h

theorem handled_of_body {sent : Signal → Bool} {c : Child} (h : c.Invariant sent)
    (hpc : c.pc = .body) : c.handled .usr1 = true := by
  by_contra hnot
  have hwaiting := (h.unstarted (by simpa using hnot)).2
  rw [hpc] at hwaiting
  cases hwaiting

theorem Started.step (h : Started s) {e : Event num} (hstep : step intf s e = some t) :
    Started t := by
  obtain ⟨a, hprocesses⟩ := step_processes hstep
  refine ⟨h.processes.step hprocesses, ?_⟩
  cases e with
  | quiet b =>
      obtain ⟨_, processes, _, rfl⟩ := step_quiet hstep
      intro entry hentry
      exact step_handled hprocesses entry.1 (h.started entry hentry)
  | write i sysfs counters =>
      obtain ⟨hpc, processes, _, rfl⟩ := step_write hstep
      intro entry hentry
      apply step_handled hprocesses entry.1
      rcases List.mem_append.mp hentry with hold | hnew
      · exact h.started entry hold
      · rw [List.mem_singleton.mp hnew]
        exact handled_of_body (h.processes i) hpc

/-! A child that was told to stop. -/

/-- Both signals are handled, and the store of the one to stop was the last, wherever the
child is. -/
def ToldToStop (c : Child) : Prop := c.bothHandled = true ∧ c.isRunning = false

/-- The lines that a child that was told to stop still writes. -/
def linesLeft (c : Child) : Nat := if c.pc = .body then 1 else 0

/-- The lines that child `i` has written. -/
def lines (i : Fin num) (s : System num) : Nat := s.written.countP fun entry => entry.1 = i

/-- Once both signals are handled no handler stores another value. -/
theorem isRunning_of_bothHandled {sent : Signal → Bool} {c d : Child} (h : c.Invariant sent)
    (hboth : c.bothHandled = true) {b : ChildAction} (hstep : c.step b = some d) :
    d.isRunning = c.isRunning := by
  obtain ⟨hstart, hstop⟩ := h.quiet hboth
  cases b with
  | deliver sig =>
      obtain ⟨_, _, _, rfl⟩ := Child.step_deliver hstep
      rfl
  | handle =>
      obtain ⟨sig, outer, hframes, rfl⟩ := Child.step_handle hstep
      rw [hframes] at hstart hstop
      cases sig with
      | usr1 => exact absurd List.mem_cons_self hstart
      | usr2 => exact absurd List.mem_cons_self hstop
      | int | tstp => rfl
  | main =>
      obtain ⟨_, pc, _, rfl⟩ := Child.step_main hstep
      rfl

theorem ToldToStop.step {p q : State num} {a : Action num} {i : Fin num} (hp : p.Invariant)
    (h : ToldToStop (p.child i)) (hstep : p.step a = some q) : ToldToStop (q.child i) := by
  obtain ⟨hboth, hstopped⟩ := h
  have hboth' : (q.child i).bothHandled = true := by
    obtain ⟨hstart, hstop⟩ := Bool.and_eq_true_iff.mp hboth
    exact Bool.and_eq_true_iff.mpr
      ⟨step_handled hstep i hstart, step_handled hstep i hstop⟩
  refine ⟨hboth', ?_⟩
  rcases step_child hstep i with heq | ⟨sig, heq⟩ | ⟨_, heq⟩ | ⟨b, hchild⟩
  · rw [heq]
    exact hstopped
  · rw [heq]
    exact hstopped
  · rw [heq]
    exact hstopped
  · exact (isRunning_of_bothHandled (hp i) hboth hchild).trans hstopped

theorem moves_ne_body {pc pc' : Pc} (h : Child.Moves false pc pc') : pc' ≠ .body := by
  cases h <;> exact nofun

/-- It does not go into another iteration. -/
theorem linesLeft_step {p q : State num} {a : Action num} {i : Fin num}
    (h : ToldToStop (p.child i)) (hstep : p.step a = some q) :
    linesLeft (q.child i) ≤ linesLeft (p.child i) := by
  rcases step_child hstep i with heq | ⟨sig, heq⟩ | ⟨_, heq⟩ | ⟨b, hchild⟩
  · rw [heq]
  · rw [heq]
    exact le_rfl
  · rw [heq]
    exact Nat.zero_le _
  · cases b with
    | deliver sig =>
        obtain ⟨_, _, _, heq⟩ := Child.step_deliver hchild
        rw [heq]
        exact le_rfl
    | handle =>
        obtain ⟨sig, outer, _, heq⟩ := Child.step_handle hchild
        rw [heq]
        exact le_rfl
    | main =>
        obtain ⟨_, pc, hmoves, heq⟩ := Child.step_main hchild
        rw [h.2] at hmoves
        have hbody : pc ≠ .body := moves_ne_body hmoves
        have hnone : linesLeft (q.child i) = 0 := by
          rw [heq]
          exact if_neg hbody
        rw [hnone]
        exact Nat.zero_le _

theorem lines_append (i : Fin num) (s : System num) (entry : Fin num × Statistics Nat)
    (processes : State num) (log : List Char) :
    lines i ⟨processes, log, s.written ++ [entry]⟩ = lines i s + if entry.1 = i then 1 else 0 := by
  unfold lines
  rw [List.countP_append, List.countP_singleton]
  simp only [decide_eq_true_eq]

/-- What is written and what is left does not grow. -/
theorem lines_step (i : Fin num) (hstop : ToldToStop (s.processes.child i)) {e : Event num}
    (hstep : step intf s e = some t) :
    lines i t + linesLeft (t.processes.child i) ≤ lines i s + linesLeft (s.processes.child i) := by
  cases e with
  | quiet a =>
      obtain ⟨_, processes, hprocesses, rfl⟩ := step_quiet hstep
      exact Nat.add_le_add_left (linesLeft_step hstop hprocesses) _
  | write j sysfs counters =>
      obtain ⟨hpc, processes, hprocesses, rfl⟩ := step_write hstep
      rw [lines_append]
      have hle := linesLeft_step hstop hprocesses
      rcases eq_or_ne j i with rfl | hne
      · -- the iteration that was left is the one that is written
        obtain ⟨c, hchild, rfl⟩ := Option.map_eq_some_iff.mp hprocesses
        obtain ⟨_, pc, hmoves, rfl⟩ := Child.step_main hchild
        rw [hstop.2] at hmoves
        have hbefore : linesLeft (s.processes.child j) = 1 := if_pos hpc
        have hafter : linesLeft ((s.processes.setChild j
            { s.processes.child j with pc := pc }).child j) = 0 := by
          change linesLeft (Function.update s.processes.child j _ j) = 0
          rw [Function.update_self]
          exact if_neg (moves_ne_body hmoves)
        rw [hbefore, hafter, if_pos rfl]
      · rw [if_neg hne]
        exact Nat.add_le_add_left hle _

theorem moves_ne_reaped {isRunning : Bool} {pc pc' : Pc} (h : Child.Moves isRunning pc pc') :
    pc ≠ .reaped := by
  cases h <;> exact nofun

theorem reaped_step {p q : State num} {a : Action num} {i : Fin num} (h : (p.child i).pc = .reaped)
    (hstep : p.step a = some q) : (q.child i).pc = .reaped := by
  rcases step_child hstep i with heq | ⟨sig, heq⟩ | ⟨_, heq⟩ | ⟨b, hchild⟩
  · rw [heq, h]
  · rw [heq]
    exact h
  · rw [heq]
  · cases b with
    | deliver sig =>
        obtain ⟨_, _, _, heq⟩ := Child.step_deliver hchild
        rw [heq]
        exact h
    | handle =>
        obtain ⟨sig, outer, _, heq⟩ := Child.step_handle hchild
        rw [heq]
        exact h
    | main =>
        obtain ⟨_, pc, hmoves, _⟩ := Child.step_main hchild
        exact absurd h (moves_ne_reaped hmoves)

/-- The parent is through when every child is. -/
theorem finished_step {p q : State num} {a : Action num} (hstep : p.step a = some q)
    (hq : q.parent = .finished) : p.parent = .finished ∨ ∀ i, (p.child i).pc = .reaped := by
  cases a with
  | parent =>
      right
      change p.parentStep = some q at hstep
      unfold State.parentStep at hstep
      cases hparent : p.parent with
      | start j | stop j =>
          rw [hparent] at hstep
          simp only at hstep
          split at hstep
          all_goals
            cases hstep
            cases hq
      | pause =>
          rw [hparent] at hstep
          cases hstep
          cases hq
      | wait =>
          rw [hparent] at hstep
          exact (Option.ite_none_right_eq_some.mp hstep).1
      | finished =>
          rw [hparent] at hstep
          cases hstep
  | reap j =>
      obtain ⟨_, heq⟩ := Option.ite_none_right_eq_some.mp hstep
      cases heq
      exact .inl hq
  | ctrlC j | ctrlZ j =>
      cases hstep
      exact .inl hq
  | child j b =>
      obtain ⟨c, _, rfl⟩ := Option.map_eq_some_iff.mp hstep
      exact .inl hq

theorem step_finished
    (h : s.processes.parent = .finished → ∀ i, (s.processes.child i).pc = .reaped) {e : Event num}
    (hstep : step intf s e = some t) (ht : t.processes.parent = .finished) (i : Fin num) :
    (t.processes.child i).pc = .reaped := by
  obtain ⟨a, hprocesses⟩ := step_processes hstep
  apply reaped_step _ hprocesses
  rcases finished_step hprocesses ht with hbefore | hall
  · exact h hbefore i
  · exact hall i

theorem log_eq_of_reaped (h : ∀ i, (s.processes.child i).pc = .reaped) {e : Event num}
    (hstep : step intf s e = some t) :
    (∀ i, (t.processes.child i).pc = .reaped) ∧ t.log = s.log := by
  obtain ⟨a, hprocesses⟩ := step_processes hstep
  refine ⟨fun i => reaped_step (h i) hprocesses, ?_⟩
  cases e with
  | quiet b =>
      obtain ⟨_, processes, _, rfl⟩ := step_quiet hstep
      rfl
  | write i sysfs counters =>
      obtain ⟨hpc, _⟩ := step_write hstep
      rw [h i] at hpc
      cases hpc

end Invariant

/-- In every run the file reads back, line by line, as what was in it before and what the
children have gathered, each counter kept within an `int`; the lines that name a child's
interface are its own, in its order, and it wrote none before it was told to start. The file
was empty or ended in a newline, the interfaces have different names, and every `open` and
`write` succeeds. -/
theorem network_log {intf : Fin num → List Char}
    (hnames : ∀ i, (intf i).length ≤ 15 ∧ '\n' ∉ intf i) (hdistinct : intf.Injective)
    {before : List Char} (hbefore : Whole before) {events : List (Event num)} {t : System num}
    (hrun : run (step intf) (System.initial before) events = some t)
    (hcounts : StepsMeet (step intf) (Counts intf) (System.initial before) events) :
    readLog t.log = readLog before ++
        (t.written.map fun entry => some (intf entry.1, entry.2.saturated)) ∧
      (∀ i, (readLog t.log).filter (About (intf i)) = (readLog before).filter (About (intf i)) ++
        (t.written.filter fun entry => entry.1 = i).map fun entry =>
          some (intf i, entry.2.saturated)) ∧
      ∀ entry ∈ t.written, Fits (dataLine (intf entry.1) (entry.2.saturated.map Nat.cast)) ∧
        (t.processes.child entry.1).handled .usr1 = true := by
  have hrecords : Records intf before t :=
    (StatesMeet.of_stepsMeet
      (fun _ _ _ hs hcond hstep => hs.step (fun i => (hnames i).2) hcond hstep)
      (Records.initial hbefore) hcounts).last hrun
  have hstarted : Started t :=
    (Reaches.of_any_run events hrun).invariant Started.initial fun _ _ _ hs _ hstep => hs.step hstep
  refine ⟨hrecords.lines, fun i => ?_, fun entry hentry => ⟨?_, hstarted.started entry hentry⟩⟩
  · rw [hrecords.lines, List.filter_append, List.filter_map]
    congr 1
    have hsame : About (intf i) ∘ (fun entry : Fin num × Statistics Nat =>
        some (intf entry.1, entry.2.saturated)) = fun entry => decide (entry.1 = i) := by
      funext entry
      simp only [About, Function.comp_apply, Option.elim_some, hdistinct.eq_iff]
    rw [hsame]
    apply List.map_congr_left
    intro entry hentry
    have hi : entry.1 = i := by simpa using (List.mem_filter.mp hentry).2
    rw [hi]
  · exact fits_dataLine (hnames entry.1).1 entry.2

/-- `intf` of `sysmonExec.cpp` -/
def sysmonIntf (i : Fin 2) : List Char := if i.val = 0 then "lo".toList else "ens33".toList

def lo : Fin 2 := ⟨0, Nat.zero_lt_two⟩

/-- The child for `lo` is started and comes to its first iteration. -/
def toBody : List (Event 2) :=
  [.quiet .parent, .quiet (.child lo (.deliver .usr1)), .quiet (.child lo .handle),
    .quiet (.child lo .main), .quiet (.child lo .main)]

def firstWrite : Event 2 :=
  .write lo (loFiles ⟨3000000000, 81044, 912, 912⟩) ⟨3000000000, 81044, 912, 912⟩

theorem network_log_firstLine :
    ∃ t, run (step sysmonIntf) (System.initial []) (toBody ++ [firstWrite]) = some t ∧
      readLog t.log = [some ("lo".toList, ⟨2147483647, 81044, 912, 912⟩)] := by
  have hrun : run (step sysmonIntf) (System.initial []) (toBody ++ [firstWrite]) = some _ := rfl
  refine ⟨_, hrun, (network_log (by decide) (by decide) (.inl rfl) hrun ?_).1⟩
  exact fun _ _ => ⟨trivial, fun _ _ => ⟨trivial, fun _ _ => ⟨trivial, fun _ _ => ⟨trivial,
    fun _ _ => ⟨trivial, fun _ _ => ⟨⟨.inl (by decide), .inl (by decide), .inl (by decide),
      .inl (by decide)⟩, trivial⟩⟩⟩⟩⟩⟩

/-- A child whose last signal was the one to stop writes at most the line that it is
about to write, and once the parent is through the file stays as it is. -/
theorem lines_after_stop {intf : Fin num → List Char} {before : List Char}
    {events more : List (Event num)} {s t : System num}
    (hrun : run (step intf) (System.initial before) events = some s)
    (hmore : run (step intf) s more = some t) :
    (∀ i, ToldToStop (s.processes.child i) →
        lines i t + linesLeft (t.processes.child i) ≤
          lines i s + linesLeft (s.processes.child i)) ∧
      (s.processes.parent = .finished → t.log = s.log) := by
  have hprocesses : s.processes.Invariant ∧
      (s.processes.parent = .finished → ∀ i, (s.processes.child i).pc = .reaped) := by
    refine (Reaches.of_any_run events hrun).invariant
      (I := fun u => u.processes.Invariant ∧
        (u.processes.parent = .finished → ∀ i, (u.processes.child i).pc = .reaped))
      ⟨State.Invariant.initial, nofun⟩ ?_
    rintro u e v ⟨hu, hfinished⟩ _ hstep
    obtain ⟨a, hprocesses⟩ := step_processes hstep
    exact ⟨hu.step hprocesses, step_finished hfinished hstep⟩
  have hreach := Reaches.of_any_run more hmore
  constructor
  · intro i hstop
    have hkept : t.processes.Invariant ∧ ToldToStop (t.processes.child i) ∧
        lines i t + linesLeft (t.processes.child i) ≤
          lines i s + linesLeft (s.processes.child i) := by
      refine hreach.invariant
        (I := fun u => u.processes.Invariant ∧ ToldToStop (u.processes.child i) ∧
          lines i u + linesLeft (u.processes.child i) ≤
            lines i s + linesLeft (s.processes.child i))
        ⟨hprocesses.1, hstop, le_rfl⟩ ?_
      rintro u e v ⟨hu, hustop, hle⟩ _ hstep
      obtain ⟨a, hprocesses⟩ := step_processes hstep
      exact ⟨hu.step hprocesses, hustop.step hu hprocesses, (lines_step i hustop hstep).trans hle⟩
    exact hkept.2.2
  · intro hfinished
    have hkept : (∀ i, (t.processes.child i).pc = .reaped) ∧ t.log = s.log := by
      refine hreach.invariant
        (I := fun u => (∀ i, (u.processes.child i).pc = .reaped) ∧ u.log = s.log)
        ⟨hprocesses.2 hfinished, rfl⟩ ?_
      rintro u e v ⟨hu, hlog⟩ _ hstep
      obtain ⟨hv, heq⟩ := log_eq_of_reaped hu hstep
      exact ⟨hv, heq.trans hlog⟩
    exact hkept.2

/-- It is stopped in the middle of its first iteration. -/
def stopInBody : List (Event 2) :=
  toBody ++ [.quiet .parent, .quiet .parent, .quiet .parent, .quiet .parent,
    .quiet (.child lo (.deliver .usr2)), .quiet (.child lo .handle)]

theorem lines_after_stop_inBody :
    ∃ s t, run (step sysmonIntf) (System.initial []) stopInBody = some s ∧
      run (step sysmonIntf) s [firstWrite] = some t ∧ lines lo s = 0 ∧ lines lo t = 1 ∧
      lines lo t + linesLeft (t.processes.child lo) ≤
        0 + linesLeft (s.processes.child lo) := by
  have hrun : run (step sysmonIntf) (System.initial []) stopInBody = some _ := rfl
  have hlines := fun t (hmore : run (step sysmonIntf) _ [firstWrite] = some t) =>
    (lines_after_stop hrun hmore).1 lo ⟨rfl, rfl⟩
  exact ⟨_, _, hrun, rfl, rfl, rfl, hlines _ rfl⟩

end Unx511.Lab5b.NetworkLog
