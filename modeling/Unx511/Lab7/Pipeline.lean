import Unx511.Machine.Termination
import Unx511.Posix.Descriptors

/-!
Lab 7: the pipe of `Lab7.cpp`. After `fork` the child makes the write end its standard
output and the parent makes the read end its standard input, in any order, while the first
command may already be writing. Everything comes through when the program was started with
an open standard input: else the pipe's read end is descriptor 0, and closing the "other"
descriptor of it closes the standard input.
-/

namespace Unx511.Lab7.Pipeline

open Unx511.Machine Unx511.Posix

inductive File where
  | inherited (n : Nat)
  | readEnd
  | writeEnd
  deriving DecidableEq, Repr

/-- The statements behind `fork`, and the command. `closeOther` closes the end that the process
does not use and `closeDup` the one that was duplicated. A command has `failed` when `execvp`
returns or it cannot use its descriptor, is `killed` by SIGPIPE, and has `quit` when it does
not wait for the end of its input. -/
inductive Pc where
  | closeOther
  | dup2
  | closeDup
  | execvp
  | running
  | ended
  | failed
  | killed
  | quit
  deriving DecidableEq, Repr

structure Process where
  pc : Pc
  files : Descriptors File
  deriving DecidableEq, Repr

/-- The end of a process closes its files. -/
def Process.exit (pc : Pc) : Process := ⟨pc, ⟨[]⟩⟩

/-- The first command has still to write `output`, and the second one has read `received`. -/
structure State where
  pipefd : Nat × Nat
  child : Process
  parent : Process
  pipe : List UInt8
  output : List UInt8
  received : List UInt8
  deriving DecidableEq, Repr

/-- After `pipe` and `fork`, in a program that was started with these files. -/
def State.initial (files : Descriptors Nat) (output : List UInt8) : State :=
  let files := files.map File.inherited
  let piped := (files.put .readEnd).put .writeEnd
  { pipefd := (files.lowest, (files.put .readEnd).lowest)
    child := ⟨.closeOther, piped⟩
    parent := ⟨.closeOther, piped⟩
    pipe := []
    output := output
    received := [] }

/-- `close(other); dup2(end, std); close(end); execvp(..)` -/
def prepare (other own std : Nat) (p : Process) : Option Process :=
  match p.pc with
  | .closeOther => some ⟨.dup2, p.files.close other⟩
  | .dup2 => some ⟨.closeDup, p.files.dup2 own std⟩
  | .closeDup => some ⟨.execvp, p.files.close own⟩
  | .execvp => some ⟨.running, p.files⟩
  | _ => none

def State.readable (s : State) : Bool :=
  s.child.files.holds .readEnd || s.parent.files.holds .readEnd

def State.writable (s : State) : Bool :=
  s.child.files.holds .writeEnd || s.parent.files.holds .writeEnd

/-- `child` and `parent` run the next statement, up to the start of the command. Then the first
command writes to its standard output and the second one reads its standard input. -/
inductive Action where
  | child
  | parent
  | childFails
  | parentFails
  | write (n : Nat)
  | read (n : Nat)
  | childEnds
  | parentQuits
  deriving DecidableEq, Repr

/-- A `write` of the first command: with nobody to read it is the end of the command. -/
def writeStep (capacity n : Nat) (s : State) : Option State :=
  if s.child.files.entry 1 = some .writeEnd then
    if s.readable then
      if 0 < n ∧ n ≤ s.output.length ∧ s.pipe.length + n ≤ capacity then
        some { s with pipe := s.pipe ++ s.output.take n, output := s.output.drop n }
      else none
    else some { s with child := .exit .killed }
  else some { s with child := .exit .failed }

/-- A `read` of the second command, which ends at the end of its input. -/
def readStep (n : Nat) (s : State) : Option State :=
  if s.parent.files.entry 0 = some .readEnd then
    if n = 0 then
      if s.pipe = [] ∧ s.writable = false then some { s with parent := .exit .ended } else none
    else if n ≤ s.pipe.length then
      some { s with pipe := s.pipe.drop n, received := s.received ++ s.pipe.take n }
    else none
  else some { s with parent := .exit .failed }

def step (capacity : Nat) (s : State) : Action → Option State
  | .child => (prepare s.pipefd.1 s.pipefd.2 1 s.child).map fun p => { s with child := p }
  | .parent => (prepare s.pipefd.2 s.pipefd.1 0 s.parent).map fun p => { s with parent := p }
  | .childFails =>
      if s.child.pc = .execvp then some { s with child := .exit .failed } else none
  | .parentFails =>
      if s.parent.pc = .execvp then some { s with parent := .exit .failed } else none
  | .write n => if s.child.pc = .running ∧ s.output ≠ [] then writeStep capacity n s else none
  | .read n => if s.parent.pc = .running then readStep n s else none
  | .childEnds =>
      if s.child.pc = .running ∧ s.output = [] then some { s with child := .exit .ended }
      else none
  | .parentQuits =>
      if s.parent.pc = .running then some { s with parent := .exit .quit } else none

/-- Both commands are found, and the second one reads to the end. -/
def Undisturbed (_ : State) (a : Action) : Prop :=
  a ≠ .childFails ∧ a ≠ .parentFails ∧ a ≠ .parentQuits

/-- Both commands have ended, and the second one has received all that the first one had
to write. -/
structure Delivered (output : List UInt8) (s : State) : Prop where
  child : s.child.pc = .ended
  parent : s.parent.pc = .ended
  received : s.received = output

namespace Pc

def rank : Pc → Nat
  | .closeOther => 5
  | .dup2 => 4
  | .closeDup => 3
  | .execvp => 2
  | .running => 1
  | _ => 0

/-- The process has ended. -/
def gone : Pc → Bool
  | .ended | .failed | .killed | .quit => true
  | _ => false

end Pc

/-- Where a process has the ends of the pipe: its own one under `own` and then `std`, the
other one under `other` only, and only until it has closed it. -/
def Plumbing (other own std : Nat) (mine theirs : File) (p : Process) : Prop :=
  match p.pc with
  | .closeOther => p.files.entry own = some mine ∧ ∀ n, p.files.entry n = some theirs → n = other
  | .dup2 => p.files.entry own = some mine ∧ ∀ n, p.files.entry n ≠ some theirs
  | .closeDup => p.files.entry std = some mine ∧ ∀ n, p.files.entry n ≠ some theirs
  | .execvp | .running => p.files.entry std = some mine ∧ ∀ n, p.files.entry n ≠ some theirs
  | _ => p.files = ⟨[]⟩

section Plumbing

variable {other own std : Nat} {mine theirs : File} {p q : Process}

theorem Plumbing.exit {pc : Pc} (hgone : pc.gone = true) :
    Plumbing other own std mine theirs (.exit pc) := by
  cases pc <;> first | rfl | cases hgone

theorem Plumbing.prepare (h : Plumbing other own std mine theirs p) (hown : own ≠ std)
    (hends : other ≠ own) (hfiles : mine ≠ theirs) (hstep : prepare other own std p = some q) :
    Plumbing other own std mine theirs q := by
  obtain ⟨pc, files⟩ := p
  cases pc with
  | closeOther =>
      cases hstep
      obtain ⟨hmine, htheirs⟩ := h
      refine ⟨?_, fun n hn => ?_⟩
      · rw [Descriptors.entry_close, if_neg hends.symm]
        exact hmine
      · rw [Descriptors.entry_close] at hn
        split at hn
        case isTrue => cases hn
        case isFalse hne => exact hne (htheirs n hn)
  | dup2 =>
      cases hstep
      obtain ⟨hmine, htheirs⟩ := h
      refine ⟨?_, fun n hn => ?_⟩
      · rw [Descriptors.entry_dup2 hmine, if_pos rfl]
      · rw [Descriptors.entry_dup2 hmine] at hn
        split at hn
        case isTrue => exact hfiles (Option.some.inj hn)
        case isFalse => exact htheirs n hn
  | closeDup =>
      cases hstep
      obtain ⟨hmine, htheirs⟩ := h
      refine ⟨?_, fun n hn => ?_⟩
      · rw [Descriptors.entry_close, if_neg hown.symm]
        exact hmine
      · rw [Descriptors.entry_close] at hn
        split at hn
        case isTrue => cases hn
        case isFalse => exact htheirs n hn
  | execvp =>
      cases hstep
      exact h
  | _ => cases hstep

theorem Plumbing.holds_mine (h : Plumbing other own std mine theirs p) (hgone : p.pc.gone = false) :
    p.files.holds mine = true := by
  rw [Descriptors.holds_iff]
  obtain ⟨pc, files⟩ := p
  cases pc with
  | closeOther | dup2 | closeDup | execvp | running => exact ⟨_, h.1⟩
  | _ => cases hgone

theorem Plumbing.not_holds (h : Plumbing other own std mine theirs p)
    (hpc : p.pc ≠ .closeOther) : p.files.holds theirs = false := by
  rw [← Bool.not_eq_true, Descriptors.holds_iff]
  rintro ⟨n, hn⟩
  obtain ⟨pc, files⟩ := p
  cases pc with
  | closeOther => exact hpc rfl
  | dup2 | closeDup | execvp | running => exact h.2 n hn
  | _ =>
      cases h
      cases hn

theorem Plumbing.files_of_gone (h : Plumbing other own std mine theirs p)
    (hgone : p.pc.gone = true) : p.files = ⟨[]⟩ := by
  obtain ⟨pc, files⟩ := p
  cases pc <;> first | exact h | cases hgone

theorem Plumbing.at_std (h : Plumbing other own std mine theirs p) (hpc : p.pc = .running) :
    p.files.entry std = some mine := by
  obtain ⟨pc, files⟩ := p
  cases hpc
  exact h.1

theorem prepare_rank (hstep : prepare other own std p = some q) :
    q.pc.rank + 1 = p.pc.rank ∧ q.pc.gone = false := by
  obtain ⟨pc, files⟩ := p
  cases pc <;> cases hstep <;> exact ⟨rfl, rfl⟩

theorem prepare_isSome (hgone : p.pc.gone = false) (hrunning : p.pc ≠ .running) :
    ∃ q, prepare other own std p = some q := by
  obtain ⟨pc, files⟩ := p
  cases pc with
  | closeOther | dup2 | closeDup | execvp => exact ⟨_, rfl⟩
  | running => exact absurd rfl hrunning
  | _ => cases hgone

end Plumbing

/-- What holds on every run of a program that had its standard input open. -/
structure Piped (output : List UInt8) (s : State) : Prop where
  readNe : s.pipefd.1 ≠ 0
  ends : s.pipefd.1 < s.pipefd.2
  child : Plumbing s.pipefd.1 s.pipefd.2 1 .writeEnd .readEnd s.child
  parent : Plumbing s.pipefd.2 s.pipefd.1 0 .readEnd .writeEnd s.parent
  bytes : s.received ++ s.pipe ++ s.output = output
  childEnded : s.child.pc = .ended → s.output = []
  parentEnded : s.parent.pc = .ended → s.pipe = [] ∧ s.child.pc.gone = true

/-- And when both commands are found and the second one reads to the end. -/
structure Smooth (output : List UInt8) (s : State) : Prop extends Piped output s where
  childFine : s.child.pc.gone = true → s.child.pc = .ended
  parentFine : s.parent.pc.gone = true → s.parent.pc = .ended

variable {capacity n : Nat} {output : List UInt8} {s t : State} {a : Action}

theorem initial_files (files : Descriptors Nat) (output : List UInt8) (n : Nat) :
    (State.initial files output).child.files.entry n =
      if n = (State.initial files output).pipefd.2 then some .writeEnd
      else if n = (State.initial files output).pipefd.1 then some .readEnd
      else (files.entry n).map .inherited := by
  change (Descriptors.put _ _).entry n = _
  rw [Descriptors.entry_put, Descriptors.entry_put, Descriptors.entry_map]
  rfl

theorem initial_ends (files : Descriptors Nat) (output : List UInt8) :
    (State.initial files output).pipefd.1 < (State.initial files output).pipefd.2 :=
  Descriptors.lowest_lt_lowest_put _ _

theorem initial_readEnd_eq_zero_iff (files : Descriptors Nat) (output : List UInt8) :
    (State.initial files output).pipefd.1 = 0 ↔ files.entry 0 = none := by
  change (files.map File.inherited).lowest = 0 ↔ _
  rw [Descriptors.lowest_eq_zero_iff, Descriptors.entry_map, Option.map_eq_none_iff]

theorem initial_writeEnd (files : Descriptors Nat) (output : List UInt8) :
    (State.initial files output).child.files.entry (State.initial files output).pipefd.2 =
        some .writeEnd ∧
      ∀ n, (State.initial files output).child.files.entry n = some .writeEnd →
        n = (State.initial files output).pipefd.2 := by
  refine ⟨?_, fun n hn => ?_⟩
  · rw [initial_files, if_pos rfl]
  · rw [initial_files] at hn
    split at hn
    · assumption
    · split at hn
      · cases hn
      · cases hfile : files.entry n <;> rw [hfile] at hn <;> cases hn

theorem initial_readEnd (files : Descriptors Nat) (output : List UInt8) :
    (State.initial files output).child.files.entry (State.initial files output).pipefd.1 =
        some .readEnd ∧
      ∀ n, (State.initial files output).child.files.entry n = some .readEnd →
        n = (State.initial files output).pipefd.1 := by
  have hne := (initial_ends files output).ne
  refine ⟨?_, fun n hn => ?_⟩
  · rw [initial_files, if_neg hne, if_pos rfl]
  · rw [initial_files] at hn
    split at hn
    · cases hn
    · split at hn
      · assumption
      · cases hfile : files.entry n <;> rw [hfile] at hn <;> cases hn

theorem smooth_initial {files : Descriptors Nat} (h : files.entry 0 ≠ none)
    (output : List UInt8) : Smooth output (State.initial files output) where
  readNe := mt (initial_readEnd_eq_zero_iff files output).mp h
  ends := initial_ends files output
  child := ⟨(initial_writeEnd files output).1, (initial_readEnd files output).2⟩
  parent := ⟨(initial_readEnd files output).1, (initial_writeEnd files output).2⟩
  bytes := rfl
  childEnded := nofun
  parentEnded := nofun
  childFine := nofun
  parentFine := nofun

theorem writeStep_bytes (hstep : writeStep capacity n s = some t) :
    t.received ++ t.pipe ++ t.output = s.received ++ s.pipe ++ s.output := by
  unfold writeStep at hstep
  split at hstep
  · split at hstep
    · obtain ⟨_, hstep⟩ := Option.ite_none_right_eq_some.mp hstep
      cases hstep
      change s.received ++ (s.pipe ++ s.output.take n) ++ s.output.drop n = _
      rw [List.append_assoc, List.append_assoc, List.append_assoc, List.take_append_drop]
    · cases hstep
      rfl
  · cases hstep
    rfl

theorem readStep_bytes (hstep : readStep n s = some t) :
    t.received ++ t.pipe ++ t.output = s.received ++ s.pipe ++ s.output := by
  unfold readStep at hstep
  split at hstep
  · split at hstep
    · obtain ⟨_, hstep⟩ := Option.ite_none_right_eq_some.mp hstep
      cases hstep
      rfl
    · obtain ⟨_, hstep⟩ := Option.ite_none_right_eq_some.mp hstep
      cases hstep
      change s.received ++ s.pipe.take n ++ s.pipe.drop n ++ s.output = _
      rw [List.append_assoc s.received, List.take_append_drop]
  · cases hstep
    rfl

/-- No step loses a byte or changes their order. -/
theorem step_bytes (hstep : step capacity s a = some t) :
    t.received ++ t.pipe ++ t.output = s.received ++ s.pipe ++ s.output := by
  cases a with
  | child | parent =>
      obtain ⟨p, _, rfl⟩ := Option.map_eq_some_iff.mp hstep
      rfl
  | childFails | childEnds | parentFails | parentQuits =>
      obtain ⟨_, hstep⟩ := Option.ite_none_right_eq_some.mp hstep
      cases hstep
      rfl
  | write n => exact writeStep_bytes (Option.ite_none_right_eq_some.mp hstep).2
  | read n => exact readStep_bytes (Option.ite_none_right_eq_some.mp hstep).2

namespace Piped

/-- The first command writes to the pipe, and the second one reads from it. -/
theorem child_entry (h : Piped output s) (hpc : s.child.pc = .running) :
    s.child.files.entry 1 = some .writeEnd := h.child.at_std hpc

theorem parent_entry (h : Piped output s) (hpc : s.parent.pc = .running) :
    s.parent.files.entry 0 = some .readEnd := h.parent.at_std hpc

/-- There is an end of the input exactly when the first command has ended. -/
theorem writable_eq (h : Piped output s) (hpc : s.parent.pc = .running) :
    s.writable = !s.child.pc.gone := by
  unfold State.writable
  rw [h.parent.not_holds (by rw [hpc]; nofun), Bool.or_false]
  cases hgone : s.child.pc.gone with
  | false => exact h.child.holds_mine hgone
  | true =>
      rw [h.child.files_of_gone hgone]
      rfl

theorem readable_eq (h : Piped output s) (hpc : s.child.pc = .running) :
    s.readable = !s.parent.pc.gone := by
  unfold State.readable
  rw [h.child.not_holds (by rw [hpc]; nofun), Bool.false_or]
  cases hgone : s.parent.pc.gone with
  | false => exact h.parent.holds_mine hgone
  | true =>
      rw [h.parent.files_of_gone hgone]
      rfl

/-- A process goes on, or ends, without touching the bytes. -/
theorem with_child (h : Piped output s) {p : Process}
    (hp : Plumbing s.pipefd.1 s.pipefd.2 1 .writeEnd .readEnd p)
    (hended : p.pc = .ended → s.output = []) (hlive : s.child.pc.gone = false) :
    Piped output { s with child := p } where
  readNe := h.readNe
  ends := h.ends
  child := hp
  parent := h.parent
  bytes := h.bytes
  childEnded := hended
  parentEnded hpc := by
    have hgone := (h.parentEnded hpc).2
    cases hlive.symm.trans hgone

theorem with_parent (h : Piped output s) {p : Process}
    (hp : Plumbing s.pipefd.2 s.pipefd.1 0 .readEnd .writeEnd p)
    (hended : p.pc = .ended → s.pipe = [] ∧ s.child.pc.gone = true) :
    Piped output { s with parent := p } where
  readNe := h.readNe
  ends := h.ends
  child := h.child
  parent := hp
  bytes := h.bytes
  childEnded := h.childEnded
  parentEnded := hended

end Piped

theorem writeStep_piped (h : Piped output s) (hpc : s.child.pc = .running)
    (hstep : writeStep capacity n s = some t) :
    Piped output t ∧ t.parent = s.parent ∧
      (t.child.pc = .running ∨ t.child = .exit .killed ∧ s.parent.pc.gone = true) := by
  have hlive : s.child.pc.gone = false := by rw [hpc]; rfl
  have hbytes := (writeStep_bytes hstep).trans h.bytes
  unfold writeStep at hstep
  rw [if_pos (h.child_entry hpc), h.readable_eq hpc] at hstep
  split at hstep
  case isTrue hreader =>
    obtain ⟨_, hstep⟩ := Option.ite_none_right_eq_some.mp hstep
    cases hstep
    refine ⟨⟨h.readNe, h.ends, h.child, h.parent, hbytes, ?_, ?_⟩, rfl, .inl hpc⟩
    · intro hended
      cases hpc.symm.trans hended
    · intro hended
      cases hlive.symm.trans (h.parentEnded hended).2
  case isFalse hreader =>
    cases hstep
    have hgone : s.parent.pc.gone = true := by simpa using hreader
    exact ⟨h.with_child (.exit rfl) nofun hlive, rfl, .inr ⟨rfl, hgone⟩⟩

theorem readStep_piped (h : Piped output s) (hpc : s.parent.pc = .running)
    (hstep : readStep n s = some t) :
    Piped output t ∧ t.child = s.child ∧ (t.parent.pc = .running ∨ t.parent = .exit .ended) := by
  have hbytes := (readStep_bytes hstep).trans h.bytes
  unfold readStep at hstep
  rw [if_pos (h.parent_entry hpc), h.writable_eq hpc] at hstep
  split at hstep
  case isTrue =>
    obtain ⟨⟨hempty, hgone⟩, hstep⟩ := Option.ite_none_right_eq_some.mp hstep
    cases hstep
    have hgone : s.child.pc.gone = true := by simpa using hgone
    exact ⟨h.with_parent (.exit rfl) fun _ => ⟨hempty, hgone⟩, rfl, .inr rfl⟩
  case isFalse =>
    obtain ⟨_, hstep⟩ := Option.ite_none_right_eq_some.mp hstep
    cases hstep
    refine ⟨⟨h.readNe, h.ends, h.child, h.parent, hbytes, h.childEnded, ?_⟩, rfl, .inl hpc⟩
    intro hended
    cases hpc.symm.trans hended

/-- The bytes stay in order, and the input of the second command does not end too early. -/
theorem Piped.step (h : Piped output s) (hstep : step capacity s a = some t) :
    Piped output t := by
  cases a with
  | child =>
      obtain ⟨p, hp, rfl⟩ := Option.map_eq_some_iff.mp hstep
      have hends := h.ends
      have hread := h.readNe
      have hplumbing := h.child.prepare (by omega) (by omega) nofun hp
      have hrank := (prepare_rank hp).1
      refine h.with_child hplumbing ?_ ?_
      · intro hended
        have hgone := (prepare_rank hp).2
        rw [hended] at hgone
        cases hgone
      · cases hpc : s.child.pc <;> rw [hpc] at hrank <;> first | rfl | cases hrank
  | parent =>
      obtain ⟨p, hp, rfl⟩ := Option.map_eq_some_iff.mp hstep
      have hends := h.ends
      have hplumbing := h.parent.prepare h.readNe (by omega) nofun hp
      refine h.with_parent hplumbing ?_
      intro hended
      have hgone := (prepare_rank hp).2
      rw [hended] at hgone
      cases hgone
  | childFails =>
      obtain ⟨hpc, hstep⟩ := Option.ite_none_right_eq_some.mp hstep
      cases hstep
      exact h.with_child (.exit rfl) nofun (by rw [hpc]; rfl)
  | parentFails | parentQuits =>
      obtain ⟨hpc, hstep⟩ := Option.ite_none_right_eq_some.mp hstep
      cases hstep
      exact h.with_parent (.exit rfl) nofun
  | write n =>
      obtain ⟨⟨hpc, _⟩, hstep⟩ := Option.ite_none_right_eq_some.mp hstep
      exact (writeStep_piped h hpc hstep).1
  | read n =>
      obtain ⟨hpc, hstep⟩ := Option.ite_none_right_eq_some.mp hstep
      exact (readStep_piped h hpc hstep).1
  | childEnds =>
      obtain ⟨⟨hpc, hempty⟩, hstep⟩ := Option.ite_none_right_eq_some.mp hstep
      cases hstep
      exact h.with_child (.exit rfl) (fun _ => hempty) (by rw [hpc]; rfl)

namespace Smooth

/-- The second command is there as long as the first one writes. -/
theorem parent_there (h : Smooth output s) (hpc : s.child.pc.gone = false) :
    s.parent.pc.gone = false := by
  rw [← Bool.not_eq_true]
  intro hgone
  have hgone := (h.parentEnded (h.parentFine hgone)).2
  cases hpc.symm.trans hgone

theorem step (h : Smooth output s) (ha : Undisturbed s a) (hstep : step capacity s a = some t) :
    Smooth output t := by
  refine ⟨h.toPiped.step hstep, ?_, ?_⟩
  · cases a with
    | child =>
        obtain ⟨p, hp, rfl⟩ := Option.map_eq_some_iff.mp hstep
        intro hgone
        cases (prepare_rank hp).2.symm.trans hgone
    | parent =>
        obtain ⟨p, hp, rfl⟩ := Option.map_eq_some_iff.mp hstep
        exact h.childFine
    | childFails => exact absurd rfl ha.1
    | parentFails => exact absurd rfl ha.2.1
    | parentQuits => exact absurd rfl ha.2.2
    | write n =>
        obtain ⟨⟨hpc, _⟩, hstep⟩ := Option.ite_none_right_eq_some.mp hstep
        obtain ⟨_, _, hrunning | ⟨_, hgone⟩⟩ := writeStep_piped h.toPiped hpc hstep
        · rw [hrunning]
          exact nofun
        · have hthere := h.parent_there (by rw [hpc]; rfl)
          cases hthere.symm.trans hgone
    | read n =>
        obtain ⟨hpc, hstep⟩ := Option.ite_none_right_eq_some.mp hstep
        rw [(readStep_piped h.toPiped hpc hstep).2.1]
        exact h.childFine
    | childEnds =>
        obtain ⟨_, hstep⟩ := Option.ite_none_right_eq_some.mp hstep
        cases hstep
        exact fun _ => rfl
  · cases a with
    | child =>
        obtain ⟨p, hp, rfl⟩ := Option.map_eq_some_iff.mp hstep
        exact h.parentFine
    | parent =>
        obtain ⟨p, hp, rfl⟩ := Option.map_eq_some_iff.mp hstep
        intro hgone
        cases (prepare_rank hp).2.symm.trans hgone
    | childFails => exact absurd rfl ha.1
    | parentFails => exact absurd rfl ha.2.1
    | parentQuits => exact absurd rfl ha.2.2
    | write n =>
        obtain ⟨⟨hpc, _⟩, hstep⟩ := Option.ite_none_right_eq_some.mp hstep
        rw [(writeStep_piped h.toPiped hpc hstep).2.1]
        exact h.parentFine
    | read n =>
        obtain ⟨hpc, hstep⟩ := Option.ite_none_right_eq_some.mp hstep
        obtain ⟨_, _, hrunning | hended⟩ := readStep_piped h.toPiped hpc hstep
        · rw [hrunning]
          exact nofun
        · rw [hended]
          exact fun _ => rfl
    | childEnds =>
        obtain ⟨_, hstep⟩ := Option.ite_none_right_eq_some.mp hstep
        cases hstep
        exact h.parentFine

end Smooth

/-- The statements to come. A byte is written and read. -/
def State.rank (s : State) : Nat :=
  s.child.pc.rank + s.parent.pc.rank + 2 * s.output.length + s.pipe.length

theorem rank_of_child {p : Process} (h : p.pc.rank < s.child.pc.rank) :
    ({ s with child := p } : State).rank < s.rank := by
  simp only [State.rank]
  omega

theorem rank_of_parent {p : Process} (h : p.pc.rank < s.parent.pc.rank) :
    ({ s with parent := p } : State).rank < s.rank := by
  simp only [State.rank]
  omega

theorem step_rank (hstep : step capacity s a = some t) : t.rank < s.rank := by
  cases a with
  | child =>
      obtain ⟨p, hp, rfl⟩ := Option.map_eq_some_iff.mp hstep
      have hrank := (prepare_rank hp).1
      exact rank_of_child (by omega)
  | parent =>
      obtain ⟨p, hp, rfl⟩ := Option.map_eq_some_iff.mp hstep
      have hrank := (prepare_rank hp).1
      exact rank_of_parent (by omega)
  | childFails =>
      obtain ⟨hpc, hstep⟩ := Option.ite_none_right_eq_some.mp hstep
      cases hstep
      exact rank_of_child (by rw [hpc]; decide)
  | childEnds =>
      obtain ⟨⟨hpc, _⟩, hstep⟩ := Option.ite_none_right_eq_some.mp hstep
      cases hstep
      exact rank_of_child (by rw [hpc]; decide)
  | parentFails | parentQuits =>
      obtain ⟨hpc, hstep⟩ := Option.ite_none_right_eq_some.mp hstep
      cases hstep
      exact rank_of_parent (by rw [hpc]; decide)
  | write n =>
      obtain ⟨⟨hpc, _⟩, hstep⟩ := Option.ite_none_right_eq_some.mp hstep
      unfold writeStep at hstep
      split at hstep
      · split at hstep
        · obtain ⟨⟨hn, hle, _⟩, hstep⟩ := Option.ite_none_right_eq_some.mp hstep
          cases hstep
          simp only [State.rank, List.length_append, List.length_take, List.length_drop]
          omega
        · cases hstep
          exact rank_of_child (by rw [hpc]; decide)
      · cases hstep
        exact rank_of_child (by rw [hpc]; decide)
  | read n =>
      obtain ⟨hpc, hstep⟩ := Option.ite_none_right_eq_some.mp hstep
      unfold readStep at hstep
      split at hstep
      · split at hstep
        · obtain ⟨_, hstep⟩ := Option.ite_none_right_eq_some.mp hstep
          cases hstep
          exact rank_of_parent (by rw [hpc]; decide)
        case isFalse hn =>
          obtain ⟨hle, hstep⟩ := Option.ite_none_right_eq_some.mp hstep
          cases hstep
          simp only [State.rank, List.length_drop]
          omega
      · cases hstep
        exact rank_of_parent (by rw [hpc]; decide)

/-- Neither command waits for ever: a full pipe has its reader, and an empty one is filled
or has come to its end. -/
theorem Smooth.goesOn (h : Smooth output s) (hcapacity : 0 < capacity)
    (hnot : ¬ Delivered output s) :
    ∃ a t, Undisturbed s a ∧ Pipeline.step capacity s a = some t := by
  by_cases hchild : s.child.pc.gone = false ∧ s.child.pc ≠ .running
  · obtain ⟨p, hp⟩ : ∃ p, prepare s.pipefd.1 s.pipefd.2 1 s.child = some p :=
      prepare_isSome hchild.1 hchild.2
    exact ⟨.child, _, ⟨nofun, nofun, nofun⟩, by
      simp only [Pipeline.step, hp, Option.map_some]; rfl⟩
  by_cases hparent : s.parent.pc.gone = false ∧ s.parent.pc ≠ .running
  · obtain ⟨p, hp⟩ : ∃ p, prepare s.pipefd.2 s.pipefd.1 0 s.parent = some p :=
      prepare_isSome hparent.1 hparent.2
    exact ⟨.parent, _, ⟨nofun, nofun, nofun⟩, by
      simp only [Pipeline.step, hp, Option.map_some]; rfl⟩
  have hread : s.parent.pc = .running → s.pipe ≠ [] →
      ∃ a t, Undisturbed s a ∧ Pipeline.step capacity s a = some t := by
    intro hpc hpipe
    have hpos := List.length_pos_iff.mpr hpipe
    refine ⟨.read 1, { s with pipe := s.pipe.drop 1, received := s.received ++ s.pipe.take 1 },
      ⟨nofun, nofun, nofun⟩, ?_⟩
    simp only [Pipeline.step, readStep, if_pos hpc, if_pos (h.parent_entry hpc), one_ne_zero,
      if_false, if_pos (Nat.succ_le_of_lt hpos)]
  have hreader : s.parent.pc = .running ∨ s.parent.pc.gone = true := by
    cases hgone : s.parent.pc.gone with
    | true => exact .inr rfl
    | false => exact .inl (not_not.mp fun hne => hparent ⟨hgone, hne⟩)
  cases hgone : s.child.pc.gone with
  | false =>
      have hpc : s.child.pc = .running := not_not.mp fun hne => hchild ⟨hgone, hne⟩
      have hreader : s.parent.pc = .running :=
        hreader.resolve_right (by rw [h.parent_there hgone]; nofun)
      by_cases hempty : s.output = []
      · exact ⟨.childEnds, _, ⟨nofun, nofun, nofun⟩, by
          simp only [Pipeline.step, hpc, hempty, and_self, if_true]; rfl⟩
      · rcases Nat.lt_or_ge s.pipe.length capacity with hroom | hfull
        · have hpos := List.length_pos_iff.mpr hempty
          refine ⟨.write 1, { s with pipe := s.pipe ++ s.output.take 1, output := s.output.drop 1 },
            ⟨nofun, nofun, nofun⟩, ?_⟩
          simp only [Pipeline.step, writeStep, if_pos (And.intro hpc hempty),
            if_pos (h.child_entry hpc), h.readable_eq hpc, h.parent_there hgone, Bool.not_false,
            if_true, if_pos (And.intro Nat.one_pos
              (And.intro (Nat.succ_le_of_lt hpos) (Nat.succ_le_of_lt hroom)))]
        · exact hread hreader (List.length_pos_iff.mp (hcapacity.trans_le hfull))
  | true =>
      have hended : s.child.pc = .ended := h.childFine hgone
      rcases hreader with hpc | hgone'
      · by_cases hempty : s.pipe = []
        · refine ⟨.read 0, { s with parent := .exit .ended }, ⟨nofun, nofun, nofun⟩, ?_⟩
          simp only [Pipeline.step, readStep, if_pos hpc, if_pos (h.parent_entry hpc), if_true,
            h.writable_eq hpc, hgone, Bool.not_true, hempty, and_self]
        · exact hread hpc hempty
      · have hended' : s.parent.pc = .ended := h.parentFine hgone'
        have hbytes := h.bytes
        rw [h.childEnded hended, (h.parentEnded hended').1, List.append_nil,
          List.append_nil] at hbytes
        exact absurd ⟨hended, hended', hbytes⟩ hnot

/-- Without an open standard input the second command does not get the pipe. -/
structure Unplugged (s : State) : Prop where
  readEnd : s.pipefd.1 = 0
  stdin : s.parent.pc = .execvp ∨ s.parent.pc = .running → s.parent.files.entry 0 = none
  notEnded : s.parent.pc ≠ .ended

namespace Unplugged

theorem frame (h : Unplugged s) (hpipefd : t.pipefd = s.pipefd) (hparent : t.parent = s.parent) :
    Unplugged t :=
  ⟨by rw [hpipefd, h.readEnd], by rw [hparent]; exact h.stdin, by rw [hparent]; exact h.notEnded⟩

theorem exit (h : Unplugged s) {pc : Pc} (hne : pc ≠ .ended) :
    Unplugged { s with parent := .exit pc } where
  readEnd := h.readEnd
  stdin _ := rfl
  notEnded := hne

theorem prepare (h : Unplugged s) {p : Process}
    (hp : prepare s.pipefd.2 s.pipefd.1 0 s.parent = some p) :
    Unplugged { s with parent := p } := by
  have hstdin := h.stdin
  rw [h.readEnd] at hp
  generalize s.parent = old at hp hstdin
  obtain ⟨pc, files⟩ := old
  cases pc with
  | closeOther | dup2 =>
      cases hp
      refine ⟨h.readEnd, ?_, nofun⟩
      rintro (hpc | hpc) <;> cases hpc
  | closeDup =>
      cases hp
      refine ⟨h.readEnd, fun _ => ?_, nofun⟩
      change (files.close 0).entry 0 = none
      rw [Descriptors.entry_close, if_pos rfl]
  | execvp =>
      cases hp
      exact ⟨h.readEnd, fun _ => hstdin (.inl rfl), nofun⟩
  | _ => cases hp

theorem step (h : Unplugged s) (hstep : step capacity s a = some t) : Unplugged t := by
  cases a with
  | child =>
      obtain ⟨p, _, rfl⟩ := Option.map_eq_some_iff.mp hstep
      exact h.frame rfl rfl
  | parent =>
      obtain ⟨p, hp, rfl⟩ := Option.map_eq_some_iff.mp hstep
      exact h.prepare hp
  | childFails | childEnds =>
      obtain ⟨_, hstep⟩ := Option.ite_none_right_eq_some.mp hstep
      cases hstep
      exact h.frame rfl rfl
  | parentFails | parentQuits =>
      obtain ⟨_, hstep⟩ := Option.ite_none_right_eq_some.mp hstep
      cases hstep
      exact h.exit nofun
  | write n =>
      obtain ⟨_, hstep⟩ := Option.ite_none_right_eq_some.mp hstep
      unfold writeStep at hstep
      split at hstep
      · split at hstep
        · obtain ⟨_, hstep⟩ := Option.ite_none_right_eq_some.mp hstep
          cases hstep
          exact h.frame rfl rfl
        · cases hstep
          exact h.frame rfl rfl
      · cases hstep
        exact h.frame rfl rfl
  | read n =>
      obtain ⟨hpc, hstep⟩ := Option.ite_none_right_eq_some.mp hstep
      unfold readStep at hstep
      rw [h.stdin (.inr hpc), if_neg nofun] at hstep
      cases hstep
      exact h.exit nofun

end Unplugged

theorem unplugged_initial {files : Descriptors Nat} (h : files.entry 0 = none)
    (output : List UInt8) : Unplugged (State.initial files output) where
  readEnd := (initial_readEnd_eq_zero_iff files output).mpr h
  stdin := by rintro (hpc | hpc) <;> cases hpc
  notEnded := nofun

/-- However the two processes are scheduled and their reads and writes are cut, when both
commands are found and the second one reads to the end (`Undisturbed`) all of the output is
received and both end, exactly if descriptor 0 was open. -/
theorem pipeline_delivers_iff {capacity : Nat} (hcapacity : 0 < capacity)
    (files : Descriptors Nat) (output : List UInt8) :
    EndsWithin (step capacity) Undisturbed (Delivered output) (2 * output.length + 10)
        (State.initial files output) ↔
      files.entry 0 ≠ none := by
  constructor
  · rintro h hclosed
    obtain ⟨t, hreach, hdelivered⟩ := h.reaches
    have hunplugged : Unplugged t := hreach.invariant (unplugged_initial hclosed output)
      fun _ _ _ hs _ hstep => hs.step hstep
    exact hunplugged.notEnded hdelivered.parent
  · intro hopen
    have hrank : (State.initial files output).rank = 2 * output.length + 10 := by
      change 5 + 5 + 2 * output.length + 0 = _
      omega
    rw [← hrank]
    refine .of_rank State.rank (I := Smooth output) ?_ ?_ ?_ (smooth_initial hopen output)
    · exact fun s a t hs ha hstep => hs.step ha hstep
    · exact fun s a t _ _ hstep => step_rank hstep
    · exact fun s hs hnot => hs.goesOn hcapacity hnot

theorem pipeline_delivers_terminal :
    EndsWithin (step 65536) Undisturbed (Delivered [104, 105]) 14
      (State.initial ⟨[some 0, some 1, some 2]⟩ [104, 105]) :=
  (pipeline_delivers_iff (by decide) ⟨[some 0, some 1, some 2]⟩ [104, 105]).mpr (by decide)

/-- Whatever fails or is given up, the second command receives a beginning of the output,
and it sees the end of its input only when it has all that was written. -/
theorem pipeline_received {capacity : Nat} {files : Descriptors Nat} {output : List UInt8}
    {acts : List Action} (hrun : run (step capacity) (State.initial files output) acts = some s) :
    s.received ++ s.pipe ++ s.output = output ∧
      (s.parent.pc = .ended → s.pipe = [] ∧ s.child.pc.gone = true) := by
  have hreach := Reaches.of_any_run acts hrun
  by_cases hopen : files.entry 0 = none
  · have hbytes : s.received ++ s.pipe ++ s.output = output :=
      hreach.invariant (I := fun u => u.received ++ u.pipe ++ u.output = output) rfl
        fun _ _ _ hu _ hstep => (step_bytes hstep).trans hu
    have hunplugged : Unplugged s := hreach.invariant (unplugged_initial hopen output)
      fun _ _ _ hs _ hstep => hs.step hstep
    exact ⟨hbytes, fun hended => absurd hended hunplugged.notEnded⟩
  · have hpiped : Piped output s := hreach.invariant (smooth_initial hopen output).toPiped
      fun _ _ _ hs _ hstep => hs.step hstep
    exact ⟨hpiped.bytes, hpiped.parentEnded⟩

/-- The second command takes one byte and ends, and the first one is killed. -/
def oneByte : List Action :=
  List.replicate 4 .child ++ List.replicate 4 .parent ++ [.write 1, .read 1, .parentQuits, .write 1]

theorem pipeline_received_oneByte :
    ∃ s, run (step 65536) (State.initial ⟨[some 0, some 1, some 2]⟩ [104, 105]) oneByte = some s ∧
      s.child.pc = .killed ∧ s.received ++ s.pipe ++ s.output = [104, 105] ∧
        (s.parent.pc = .ended → s.pipe = [] ∧ s.child.pc.gone = true) := by
  have hrun : run (step 65536) (State.initial ⟨[some 0, some 1, some 2]⟩ [104, 105]) oneByte =
      some _ := rfl
  exact ⟨_, hrun, rfl, pipeline_received hrun⟩

end Unx511.Lab7.Pipeline
