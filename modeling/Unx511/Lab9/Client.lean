import Unx511.Machine.Run

/-!
Lab 9: `client.cpp`, told to quit. The server's last words are the four bytes
"Quit" and the end of the stream. The receive thread compares a buffer that
`read` does not terminate, so it understands them only when the bytes that the
buffer held before happen to complete the string; and it may be gone before
`main` has set `is_running`.
-/

namespace Unx511.Lab9.Client

open Unx511.Machine

def BUF_LEN : Nat := 4096

/-- The bytes that the server sends, without a NUL. -/
def quit : List UInt8 := [81, 117, 105, 116]

/-- `strcmp(buf, "Quit") == 0`. -/
def isQuit (buf : List UInt8) : Bool := (quit ++ [0]).isPrefixOf buf

/-- What `read` leaves in the buffer when it returns these bytes. -/
def overwrite (piece buf : List UInt8) : List UInt8 := piece ++ buf.drop piece.length

/-- At `assign` the thread is created and `is_running` is not set yet; `loop` tests it, sleeps
and writes. -/
inductive MainPc where
  | assign
  | loop
  | returned
  deriving DecidableEq, Repr

/-- The statements of `recv_func`. At `quit` the strings were equal, and `is_running = false`
is next. -/
inductive RecvPc where
  | test
  | read
  | compare
  | quit
  | ended
  deriving DecidableEq, Repr

/-- `unread` is what `read` has not returned of the stream yet, and `endRead` says that it has
returned 0. -/
structure State where
  main : MainPc
  recv : RecvPc
  isRunning : Bool
  buf : List UInt8
  unread : List UInt8
  endRead : Bool
  deriving DecidableEq

/-- After `pthread_create`; the new thread's buffer, of `BUF_LEN` bytes, holds anything. -/
def State.initial (buf : List UInt8) : State where
  main := .assign
  recv := .test
  isRunning := false
  buf := buf
  unread := quit
  endRead := false

/-- `read n` returns `n` bytes. -/
inductive Action where
  | main
  | test
  | read (n : Nat)
  | readEnd
  | readFails
  | compare
  | quit
  deriving DecidableEq, Repr

def mainStep (s : State) : Option State :=
  match s.main with
  | .assign => some { s with isRunning := true, main := .loop }
  | .loop => some { s with main := if s.isRunning then .loop else .returned }
  | .returned => none

/-- One statement of `recv_func`, with the outcome of `read`. -/
def recvStep (s : State) : Action → Option State
  | .test =>
      if s.recv = .test then some { s with recv := if s.isRunning then .read else .ended }
      else none
  | .read n =>
      if s.recv = .read ∧ 0 < n ∧ n ≤ s.unread.length then
        some { s with
          buf := overwrite (s.unread.take n) s.buf
          unread := s.unread.drop n
          recv := .compare }
      else none
  | .readEnd =>
      -- a length of 0 is compared like any other
      if s.recv = .read ∧ s.unread = [] then some { s with endRead := true, recv := .compare }
      else none
  | .readFails => if s.recv = .read then some { s with recv := .test } else none
  | .compare =>
      if s.recv = .compare then some { s with recv := if isQuit s.buf then .quit else .test }
      else none
  | .quit =>
      if s.recv = .quit then some { s with isRunning := false, recv := .test } else none
  | .main => none

/-- The return of `main` ends the thread too. -/
def step (s : State) (a : Action) : Option State :=
  if s.main = .returned then none
  else if a = .main then mainStep s
  else recvStep s a

/-- `is_running` is true and remains so. -/
def StaysRunning (s : State) : Prop :=
  ∀ t, Reaches step anyAction s t → t.isRunning = true

/-- The stream is over, or nobody reads it any more, and `main` goes on. -/
def Deaf (s : State) : Prop :=
  (s.endRead = true ∨ s.recv = .ended) ∧ StaysRunning s

/-- The thread looks at `is_running` when `main` has set it, and the bytes behind
the first piece that is read complete the string. -/
def QuitSeen (s : State) : Action → Prop
  | .test => s.main ≠ .assign
  | .read n => s.unread = quit → (quit.drop n ++ [0]) <+: s.buf.drop n
  | _ => True

instance (s : State) (a : Action) : Decidable (QuitSeen s a) := by
  unfold QuitSeen
  split <;> infer_instance

/-- What one step can do. -/
inductive Move (s : State) : Action → State → Prop
  | assign (hmain : s.main = .assign) : Move s .main { s with isRunning := true, main := .loop }
  | loop (hmain : s.main = .loop) :
      Move s .main { s with main := if s.isRunning then .loop else .returned }
  | test (hpc : s.recv = .test) :
      Move s .test { s with recv := if s.isRunning then .read else .ended }
  | read {n : Nat} (hpc : s.recv = .read) (hpos : 0 < n) (hle : n ≤ s.unread.length) :
      Move s (.read n) { s with
        buf := overwrite (s.unread.take n) s.buf
        unread := s.unread.drop n
        recv := .compare }
  | readEnd (hpc : s.recv = .read) (hunread : s.unread = []) :
      Move s .readEnd { s with endRead := true, recv := .compare }
  | readFails (hpc : s.recv = .read) : Move s .readFails { s with recv := .test }
  | compare (hpc : s.recv = .compare) :
      Move s .compare { s with recv := if isQuit s.buf then .quit else .test }
  | quit (hpc : s.recv = .quit) : Move s .quit { s with isRunning := false, recv := .test }

theorem recvStep_move {s t : State} {a : Action} (h : recvStep s a = some t) : Move s a t := by
  unfold recvStep at h
  split at h
  case h_7 => cases h
  all_goals
    split at h
    case isFalse => cases h
    case isTrue hpc =>
      cases h
      first
        | exact .test hpc
        | exact .read hpc.1 hpc.2.1 hpc.2.2
        | exact .readEnd hpc.1 hpc.2
        | exact .readFails hpc
        | exact .compare hpc
        | exact .quit hpc

theorem step_move {s t : State} {a : Action} (h : step s a = some t) : Move s a t := by
  unfold step at h
  split at h
  case isTrue => cases h
  case isFalse =>
    split at h
    case isTrue ha =>
      subst ha
      unfold mainStep at h
      split at h
      case h_1 hmain =>
        cases h
        exact .assign hmain
      case h_2 hmain =>
        cases h
        exact .loop hmain
      case h_3 => cases h
    case isFalse => exact recvStep_move h

/-! What a piece of the stream does to the comparison. -/

theorem isQuit_iff {buf : List UInt8} : isQuit buf = true ↔ (quit ++ [0]) <+: buf :=
  List.isPrefixOf_iff_prefix

theorem isQuit_first {n : Nat} (hn : n ≤ quit.length) (buf : List UInt8) :
    isQuit (overwrite (quit.take n) buf) = true ↔ (quit.drop n ++ [0]) <+: buf.drop n := by
  have hsplit : quit ++ [0] = quit.take n ++ (quit.drop n ++ [0]) := by
    rw [← List.append_assoc, List.take_append_drop]
  rw [isQuit_iff, hsplit, overwrite, List.length_take_of_le hn, List.prefix_append_right_inj]

/-- A later piece does not begin with 'Q'. -/
theorem not_isQuit_later {unread : List UInt8} {n : Nat} (hunread : unread <:+ quit.tail)
    (hpos : 0 < n) (hle : n ≤ unread.length) (buf : List UInt8) :
    isQuit (overwrite (unread.take n) buf) = false := by
  cases unread with
  | nil =>
      simp only [List.length_nil] at hle
      omega
  | cons c rest =>
      have hc : c ∈ quit.tail := hunread.subset List.mem_cons_self
      have hne : c ≠ 81 := by
        rintro rfl
        revert hc
        decide
      obtain ⟨m, rfl⟩ : ∃ m, n = m + 1 := ⟨n - 1, by omega⟩
      rw [← Bool.not_eq_true, isQuit_iff]
      intro hprefix
      simp only [quit, overwrite, List.take_succ_cons, List.cons_append,
        List.cons_prefix_cons] at hprefix
      exact hne hprefix.1.symm

/-! A run on which the thread understands. -/

inductive Obedient (s : State) : Prop
  | starting (hmain : s.main = .assign) (hpc : s.recv = .test) (hrunning : s.isRunning = false)
      (hunread : s.unread = quit) (hend : s.endRead = false)
  | waiting (hmain : s.main ≠ .assign) (hpc : s.recv = .test ∨ s.recv = .read)
      (hrunning : s.isRunning = true) (hunread : s.unread = quit) (hend : s.endRead = false)
  | told (hmain : s.main ≠ .assign) (hpc : s.recv = .compare ∨ s.recv = .quit)
      (hrunning : s.isRunning = true) (hquit : isQuit s.buf = true) (hend : s.endRead = false)
  | stopped (hmain : s.main ≠ .assign) (hpc : s.recv = .test ∨ s.recv = .ended)
      (hrunning : s.isRunning = false) (hend : s.endRead = false)

theorem obedient_initial (buf : List UInt8) : Obedient (State.initial buf) :=
  .starting rfl rfl rfl rfl rfl

theorem Obedient.not_deaf {s : State} (h : Obedient s) : ¬ Deaf s := by
  rintro ⟨hover, hstays⟩
  cases h with
  | starting _ _ hrunning _ _ | stopped _ _ hrunning _ =>
      cases hrunning.symm.trans (hstays s (Reaches.refl s))
  | waiting _ hpc _ _ hend | told _ hpc _ _ hend =>
      rw [hend] at hover
      simp only [Bool.false_eq_true, false_or] at hover
      rw [hover] at hpc
      rcases hpc with hpc | hpc <;> cases hpc

theorem Obedient.move {s t : State} {a : Action} (h : Obedient s) (hcond : QuitSeen s a)
    (hmove : Move s a t) : Obedient t := by
  cases h with
  | starting hmain hpc hrunning hunread hend =>
      cases hmove with
      | assign _ => exact .waiting nofun (.inl hpc) rfl hunread hend
      | test _ => exact absurd hmain hcond
      | loop hmain' => cases hmain.symm.trans hmain'
      | read hpc' _ _ | readEnd hpc' _ | readFails hpc' | compare hpc' | quit hpc' =>
          cases hpc.symm.trans hpc'
  | waiting hmain hpc hrunning hunread hend =>
      cases hmove with
      | assign hmain' => exact absurd hmain' hmain
      | loop _ =>
          rw [hrunning, if_pos rfl]
          exact .waiting nofun hpc rfl hunread hend
      | test _ =>
          rw [hrunning, if_pos rfl]
          exact .waiting hmain (.inr rfl) rfl hunread hend
      | @read n _ hpos hle =>
          refine .told hmain (.inl rfl) hrunning ?_ hend
          rw [hunread] at hle ⊢
          exact (isQuit_first hle s.buf).mpr (hcond hunread)
      | readEnd _ hnil => cases hunread.symm.trans hnil
      | readFails _ => exact .waiting hmain (.inl rfl) hrunning hunread hend
      | compare hpc' | quit hpc' =>
          rw [hpc'] at hpc
          rcases hpc with hpc | hpc <;> cases hpc
  | told hmain hpc hrunning hquit hend =>
      cases hmove with
      | assign hmain' => exact absurd hmain' hmain
      | loop _ =>
          rw [hrunning, if_pos rfl]
          exact .told nofun hpc rfl hquit hend
      | compare _ =>
          rw [hquit, if_pos rfl]
          exact .told hmain (.inr rfl) hrunning hquit hend
      | quit _ => exact .stopped hmain (.inl rfl) rfl hend
      | test hpc' | read hpc' _ _ | readEnd hpc' _ | readFails hpc' =>
          rw [hpc'] at hpc
          rcases hpc with hpc | hpc <;> cases hpc
  | stopped hmain hpc hrunning hend =>
      cases hmove with
      | assign hmain' => exact absurd hmain' hmain
      | loop _ =>
          rw [if_neg (by rw [hrunning]; nofun)]
          exact .stopped nofun hpc hrunning hend
      | test _ =>
          rw [if_neg (by rw [hrunning]; nofun)]
          exact .stopped hmain (.inr rfl) hrunning hend
      | read hpc' _ _ | readEnd hpc' _ | readFails hpc' | compare hpc' | quit hpc' =>
          rw [hpc'] at hpc
          rcases hpc with hpc | hpc <;> cases hpc

/-! A run on which it does not. -/

theorem main_assigned {s t : State} {a : Action} (h : s.main ≠ .assign) (hmove : Move s a t) :
    t.main ≠ .assign := by
  cases hmove with
  | assign _ => nofun
  | loop _ =>
      change (if s.isRunning then MainPc.loop else .returned) ≠ .assign
      split <;> nofun
  | test _ | read _ _ _ | readEnd _ _ | readFails _ | compare _ | quit _ => exact h

inductive Doomed (s : State) : Prop
  | gone (hpc : s.recv = .ended) (hrunning : s.main ≠ .assign → s.isRunning = true)
  | misread (hmain : s.main ≠ .assign) (hrunning : s.isRunning = true)
      (hpc : s.recv ≠ .quit) (hquit : isQuit s.buf = false) (hunread : s.unread <:+ quit.tail)

theorem Doomed.move {s t : State} {a : Action} (h : Doomed s) (hmove : Move s a t) :
    Doomed t := by
  cases h with
  | gone hpc hrunning =>
      cases hmove with
      | assign _ => exact .gone hpc fun _ => rfl
      | loop hmain =>
          have hrunning : s.isRunning = true := hrunning (by rw [hmain]; nofun)
          rw [hrunning, if_pos rfl]
          exact .gone hpc fun _ => rfl
      | test hpc' | read hpc' _ _ | readEnd hpc' _ | readFails hpc' | compare hpc' | quit hpc' =>
          cases hpc.symm.trans hpc'
  | misread hmain hrunning hpc hquit hunread =>
      cases hmove with
      | assign hmain' => exact absurd hmain' hmain
      | loop _ =>
          rw [hrunning, if_pos rfl]
          exact .misread nofun rfl hpc hquit hunread
      | test _ =>
          rw [hrunning, if_pos rfl]
          exact .misread hmain rfl nofun hquit hunread
      | @read n _ hpos hle =>
          exact .misread hmain hrunning nofun (not_isQuit_later hunread hpos hle s.buf)
            ((List.drop_suffix n s.unread).trans hunread)
      | readEnd _ _ => exact .misread hmain hrunning nofun hquit hunread
      | readFails _ => exact .misread hmain hrunning nofun hquit hunread
      | compare _ =>
          rw [if_neg (by rw [hquit]; nofun)]
          exact .misread hmain hrunning nofun hquit hunread
      | quit hpc' => exact absurd hpc' hpc

theorem Obedient.doomed {s t : State} {a : Action} (h : Obedient s) (hcond : ¬ QuitSeen s a)
    (hmove : Move s a t) : Doomed t := by
  cases hmove with
  | test hpc =>
      have hmain : s.main = .assign := by_contra hcond
      cases h with
      | starting _ _ hrunning _ _ =>
          rw [if_neg (by rw [hrunning]; nofun)]
          exact .gone rfl fun hne => absurd hmain hne
      | waiting hmain' _ _ _ _ | told hmain' _ _ _ _ | stopped hmain' _ _ _ =>
          exact absurd hmain hmain'
  | @read n hpc hpos hle =>
      have hbad : s.unread = quit ∧ ¬ (quit.drop n ++ [0]) <+: s.buf.drop n := by
        simpa [QuitSeen] using hcond
      cases h with
      | starting _ hpc' _ _ _ => cases hpc.symm.trans hpc'
      | told _ hpc' _ _ _ | stopped _ hpc' _ _ =>
          rw [hpc] at hpc'
          rcases hpc' with hpc' | hpc' <;> cases hpc'
      | waiting hmain _ hrunning hunread _ =>
          rw [hunread] at hle
          refine .misread hmain hrunning nofun ?_ ?_
          · change isQuit (overwrite (s.unread.take n) s.buf) = false
            rw [hunread, ← Bool.not_eq_true, isQuit_first hle]
            exact hbad.2
          · change s.unread.drop n <:+ quit.tail
            obtain ⟨m, rfl⟩ : ∃ m, n = m + 1 := ⟨n - 1, by omega⟩
            rw [hunread, ← List.drop_tail]
            exact List.drop_suffix m quit.tail
  | assign _ | loop _ | readEnd _ _ | readFails _ | compare _ | quit _ => exact absurd trivial hcond

/-- Once `main` is in its loop it never leaves it. -/
theorem Doomed.staysRunning {s : State} (h : Doomed s) (hmain : s.main ≠ .assign) :
    StaysRunning s := by
  intro t hreach
  have hkept : Doomed t ∧ t.main ≠ .assign :=
    hreach.invariant (I := fun u => Doomed u ∧ u.main ≠ .assign) ⟨h, hmain⟩
      fun u a v hu _ hstep => ⟨hu.1.move (step_move hstep), main_assigned hu.2 (step_move hstep)⟩
  cases hkept.1 with
  | gone _ hrunning => exact hrunning hkept.2
  | misread _ hrunning _ _ _ => exact hrunning

/-- No run on which `QuitSeen` holds reaches a state in which the client is deaf, and
every other run in which `main` is in its loop, and the stream or the thread has
ended, is at one. -/
theorem obeys_quit (buf : List UInt8) (acts : List Action) :
    (StepsMeet step QuitSeen (State.initial buf) acts →
      StatesMeet step (fun s => ¬ Deaf s) (State.initial buf) acts) ∧
    (¬ StepsMeet step QuitSeen (State.initial buf) acts →
      ∀ s, run step (State.initial buf) acts = some s → s.main ≠ .assign →
        s.endRead = true ∨ s.recv = .ended → Deaf s) := by
  constructor
  · intro hmeet
    have hobedient : StatesMeet step Obedient (State.initial buf) acts :=
      .of_stepsMeet (fun _ _ _ h hcond hstep => h.move hcond (step_move hstep))
        (obedient_initial buf) hmeet
    exact hobedient.mono fun _ h => h.not_deaf
  · intro hbreak s hrun hmain hover
    have hdoomed : Doomed s := by
      rcases stepsMeet_or (D := Doomed)
          (fun _ _ _ h hcond hstep => h.move hcond (step_move hstep))
          (fun _ _ _ h hcond hstep => h.doomed hcond (step_move hstep))
          (fun _ _ _ h hstep => h.move (step_move hstep)) (obedient_initial buf) hrun with
        hmeet | hdoomed
      · exact absurd hmeet hbreak
      · exact hdoomed
    exact ⟨hover, hdoomed.staysRunning hmain⟩

/-- The thread tests `is_running` first. -/
def earlyTest : List Action := [.test, .main]

/-- `main` is first, and one `read` returns all four bytes. -/
def wholeQuit : List Action := [.main, .test, .read 4, .compare, .test, .readEnd]

theorem quit_not_obeyed :
    (∃ s, run step (State.initial (List.replicate BUF_LEN 0)) earlyTest = some s ∧
      s.recv = .ended ∧ Deaf s) ∧
    ∃ s, run step (State.initial (List.replicate BUF_LEN 1)) wholeQuit = some s ∧
      s.endRead = true ∧ Deaf s := by
  constructor
  · refine ⟨_, rfl, rfl, .inr rfl, Doomed.staysRunning ?_ nofun⟩
    exact .gone rfl fun _ => rfl
  · refine ⟨_, rfl, rfl, .inl rfl, Doomed.staysRunning ?_ nofun⟩
    exact .misread nofun rfl nofun rfl List.nil_suffix

end Unx511.Lab9.Client
