import Unx511.Machine.Run

/-!
Lab 9: `server.cpp`. A thread per client pushes what it receives on
`message_queue`; `main` accepts clients and prints the queue, once a second.
After its loop `main` prints nothing any more, so a string that is in the queue
then, or is pushed while `main` waits for the threads, is lost. The server handles
no signal but SIGINT, so SIGPIPE ends it when a client has reset the connection
that `main` writes "Quit" to.
-/

namespace Unx511.Lab9.Server

open Unx511.Machine

def bufferSize : Nat := 4096

/-- `string(buffer)` after `memset` and a `read` of these bytes. A read that fills
the buffer leaves no NUL in it; the string then goes on with the memory behind. -/
def stringOf (bytes behind : List UInt8) : List UInt8 :=
  if bytes.length < bufferSize then bytes.takeWhile (· ≠ 0)
  else (bytes ++ behind).takeWhile (· ≠ 0)

/-- The statement `main` is at; `quit i` writes "Quit" to client `i` and closes its
descriptor. -/
inductive MainPc where
  | test
  | accept
  | lock
  | drain
  | unlock
  | sleep
  | quit (i : Nat)
  | join (i : Nat)
  | returned
  | killed
  deriving DecidableEq, Repr

/-- `main` still prints the queue from time to time. -/
def MainPc.inLoop : MainPc → Bool
  | .quit _ | .join _ | .returned | .killed => false
  | _ => true

/-- The process has come to its end. -/
def MainPc.isOver : MainPc → Bool
  | .returned | .killed => true
  | _ => false

inductive ThreadPc where
  | test
  | read
  | lock (text : List UInt8)
  | push (text : List UInt8)
  | unlock
  | ended
  deriving DecidableEq, Repr

/-- A string of the queue, with the number of the client whose thread pushed it. -/
structure Message where
  client : Nat
  text : List UInt8
  deriving DecidableEq, Repr

/-- The threads are in the order in which their clients were accepted, `locked` is
`queue_mutex`, and `pushed` keeps everything that was ever pushed, in order. -/
structure State where
  main : MainPc
  threads : List ThreadPc
  isRunning : Bool
  locked : Bool
  queue : List Message
  pushed : List Message
  printed : List Message

def State.initial : State where
  main := .test
  threads := []
  isRunning := true
  locked := false
  queue := []
  pushed := []
  printed := []

/-- A `read` that fails may also have timed out. -/
inductive Action where
  | main
  | accepted
  | sigint
  | sigpipe
  | test (i : Nat)
  | read (i : Nat) (bytes behind : List UInt8)
  | readEnd (i : Nat)
  | readFails (i : Nat)
  | lock (i : Nat)
  | push (i : Nat)
  | unlock (i : Nat)
  deriving DecidableEq, Repr

def mainStep (s : State) : Option State :=
  match s.main with
  | .test => some { s with main := if s.isRunning then .accept else .quit 0 }
  | .accept =>
      -- no client is waiting
      some { s with main := .lock }
  | .lock => if s.locked then none else some { s with locked := true, main := .drain }
  | .drain =>
      match s.queue with
      | [] => some { s with main := .unlock }
      | m :: rest => some { s with queue := rest, printed := s.printed ++ [m] }
  | .unlock => some { s with locked := false, main := .sleep }
  | .sleep => some { s with main := .test }
  | .quit i => some { s with main := if i < s.threads.length then .quit (i + 1) else .join 0 }
  | .join i =>
      if i < s.threads.length then
        if s.threads[i]? = some .ended then some { s with main := .join (i + 1) } else none
      else some { s with main := .returned }
  | .returned | .killed => none

def State.goto (s : State) (i : Nat) (pc : ThreadPc) : State :=
  { s with threads := s.threads.set i pc }

def State.pushMessage (s : State) (m : Message) : State :=
  { s with queue := s.queue ++ [m], pushed := s.pushed ++ [m] }

/-- One statement of `receive_thread` for client `i`. -/
def threadStep (s : State) : Action → Option State
  | .test i =>
      if s.threads[i]? = some .test then some (s.goto i (if s.isRunning then .read else .ended))
      else none
  | .read i bytes behind =>
      if s.threads[i]? = some .read ∧ 0 < bytes.length ∧ bytes.length ≤ bufferSize then
        some (s.goto i (.lock (stringOf bytes behind)))
      else none
  | .readEnd i => if s.threads[i]? = some .read then some (s.goto i .ended) else none
  | .readFails i => if s.threads[i]? = some .read then some (s.goto i .test) else none
  | .lock i =>
      match s.threads[i]? with
      | some (.lock text) =>
          if s.locked then none else some ({ s with locked := true }.goto i (.push text))
      | _ => none
  | .push i =>
      match s.threads[i]? with
      | some (.push text) =>
          some ((s.pushMessage ⟨i, text⟩).goto i .unlock)
      | _ => none
  | .unlock i =>
      if s.threads[i]? = some .unlock then some ({ s with locked := false }.goto i .test)
      else none
  | _ => none

/-- The "Quit" for client `i` meets a connection that was reset. -/
def sigpipe (s : State) : Option State :=
  match s.main with
  | .quit i => if i < s.threads.length then some { s with main := .killed } else none
  | _ => none

/-- The return of `main` or SIGPIPE ends the process. -/
def step (s : State) (a : Action) : Option State :=
  if s.main.isOver then none
  else
    match a with
    | .main => mainStep s
    | .accepted =>
        if s.main = .accept then some { s with threads := s.threads ++ [.test], main := .lock }
        else none
    | .sigint => some { s with isRunning := false }
    | .sigpipe => sigpipe s
    | a => threadStep s a

/-- Of every client, what its thread pushed has been printed, once and in order. -/
def AllPrinted (s : State) : Prop :=
  ∀ client, s.printed.filter (·.client = client) = s.pushed.filter (·.client = client)

/-- `main` leaves its loop with the queue empty, and nothing is pushed afterwards. -/
def PushedInTime (s : State) : Action → Prop
  | .main => s.main = .test → s.isRunning = false → s.queue = []
  | .push _ => s.main.inLoop = true
  | _ => True

instance (s : State) (a : Action) : Decidable (PushedInTime s a) := by
  unfold PushedInTime
  split <;> infer_instance

/-- What one step does to the queue. -/
inductive Effect (s : State) : Action → State → Prop
  | frame {a : Action} {t : State} (hqueue : t.queue = s.queue) (hpushed : t.pushed = s.pushed)
      (hprinted : t.printed = s.printed) (hloop : t.main.inLoop = s.main.inLoop)
      (hcond : PushedInTime s a) : Effect s a t
  | leave (hmain : s.main = .test) (hrunning : s.isRunning = false) :
      Effect s .main { s with main := .quit 0 }
  | print {m : Message} {rest : List Message} (hmain : s.main = .drain)
      (hqueue : s.queue = m :: rest) :
      Effect s .main { s with queue := rest, printed := s.printed ++ [m] }
  | push {i : Nat} {text : List UInt8} (hthread : s.threads[i]? = some (.push text)) :
      Effect s (.push i) ((s.pushMessage ⟨i, text⟩).goto i .unlock)

theorem Effect.of_main {s t : State} (hmain : s.main ≠ .test) (hqueue : t.queue = s.queue)
    (hpushed : t.pushed = s.pushed) (hprinted : t.printed = s.printed)
    (hloop : t.main.inLoop = s.main.inLoop) : Effect s .main t :=
  .frame hqueue hpushed hprinted hloop fun htest => absurd htest hmain

theorem mainStep_effect {s t : State} (h : mainStep s = some t) : Effect s .main t := by
  unfold mainStep at h
  split at h
  case h_1 hmain =>
    cases hrunning : s.isRunning with
    | true =>
        rw [if_pos hrunning] at h
        cases h
        refine .frame rfl rfl rfl (by rw [hmain]; rfl) fun _ hstopped => ?_
        cases hrunning.symm.trans hstopped
    | false =>
        rw [if_neg (by rw [hrunning]; nofun)] at h
        cases h
        exact .leave hmain hrunning
  case h_2 hmain | h_5 hmain | h_6 hmain =>
    cases h
    exact .of_main (by rw [hmain]; nofun) rfl rfl rfl (by rw [hmain]; rfl)
  case h_3 hmain =>
    split at h
    case isTrue => cases h
    case isFalse =>
      cases h
      exact .of_main (by rw [hmain]; nofun) rfl rfl rfl (by rw [hmain]; rfl)
  case h_4 hmain =>
    split at h
    case h_1 =>
      cases h
      exact .of_main (by rw [hmain]; nofun) rfl rfl rfl (by rw [hmain]; rfl)
    case h_2 hqueue =>
      cases h
      exact .print hmain hqueue
  case h_7 i hmain =>
    cases h
    refine .of_main (by rw [hmain]; nofun) rfl rfl rfl ?_
    rw [hmain]
    change (if i < s.threads.length then MainPc.quit (i + 1) else .join 0).inLoop = false
    split <;> rfl
  case h_8 i hmain =>
    split at h
    case isTrue =>
      split at h
      case isTrue =>
        cases h
        exact .of_main (by rw [hmain]; nofun) rfl rfl rfl (by rw [hmain]; rfl)
      case isFalse => cases h
    case isFalse =>
      cases h
      exact .of_main (by rw [hmain]; nofun) rfl rfl rfl (by rw [hmain]; rfl)
  case h_9 | h_10 => cases h

theorem threadStep_effect {s t : State} {a : Action} (h : threadStep s a = some t) :
    Effect s a t := by
  unfold threadStep at h
  split at h
  case h_1 | h_2 | h_3 | h_4 | h_7 =>
    split at h
    case isTrue =>
      cases h
      exact .frame rfl rfl rfl rfl trivial
    case isFalse => cases h
  case h_5 =>
    split at h
    case h_1 =>
      split at h
      case isTrue => cases h
      case isFalse =>
        cases h
        exact .frame rfl rfl rfl rfl trivial
    case h_2 => cases h
  case h_6 =>
    split at h
    case h_1 hthread =>
      cases h
      exact .push hthread
    case h_2 => cases h
  case h_8 => cases h

theorem sigpipe_cases {s t : State} (h : sigpipe s = some t) :
    ∃ i, s.main = .quit i ∧ t = { s with main := .killed } := by
  unfold sigpipe at h
  split at h
  case h_1 i hmain =>
    obtain ⟨_, h⟩ := Option.ite_none_right_eq_some.mp h
    cases h
    exact ⟨i, hmain, rfl⟩
  case h_2 => cases h

theorem step_effect {s t : State} {a : Action} (h : step s a = some t) : Effect s a t := by
  unfold step at h
  split at h
  case isTrue => cases h
  case isFalse =>
    split at h
    case h_1 => exact mainStep_effect h
    case h_2 =>
      split at h
      case isTrue hmain =>
        cases h
        exact .frame rfl rfl rfl (by rw [hmain]; rfl) trivial
      case isFalse => cases h
    case h_3 =>
      cases h
      exact .frame rfl rfl rfl rfl trivial
    case h_4 =>
      obtain ⟨i, hmain, rfl⟩ := sigpipe_cases h
      exact .frame rfl rfl rfl (by rw [hmain]; rfl) trivial
    case h_5 => exact threadStep_effect h

/-- What is pushed is in the queue until it is printed. -/
def Conserved (s : State) : Prop := s.pushed = s.printed ++ s.queue

theorem conserved_effect {s t : State} {a : Action} (h : Conserved s) (heffect : Effect s a t) :
    Conserved t := by
  unfold Conserved at h ⊢
  cases heffect with
  | frame hqueue hpushed hprinted _ _ => rw [hqueue, hpushed, hprinted, h]
  | leave _ _ => exact h
  | @print m rest _ hqueue => rw [h, hqueue, List.append_assoc, List.singleton_append]
  | @push i text _ =>
      change s.pushed ++ [_] = s.printed ++ (s.queue ++ [_])
      rw [h, List.append_assoc]

theorem Conserved.allPrinted_iff {s : State} (h : Conserved s) : AllPrinted s ↔ s.queue = [] := by
  unfold AllPrinted
  rw [h]
  constructor
  · intro hall
    cases hqueue : s.queue with
    | nil => rfl
    | cons m rest =>
        have hlength := congrArg List.length (hall m.client)
        simp [hqueue] at hlength
  · intro hqueue client
    rw [hqueue, List.append_nil]

/-- `main` has not left its loop, or left nothing behind. -/
def NothingLeft (s : State) : Prop := s.main.inLoop = false → s.queue = []

/-- Nobody will print the queue. -/
def Abandoned (s : State) : Prop := s.main.inLoop = false ∧ s.queue ≠ []

theorem nothingLeft_effect {s t : State} {a : Action} (h : NothingLeft s)
    (hcond : PushedInTime s a) (heffect : Effect s a t) : NothingLeft t := by
  intro hout
  cases heffect with
  | frame hqueue _ _ hloop _ =>
      rw [hqueue]
      exact h (hloop.symm.trans hout)
  | leave hmain hrunning => exact hcond hmain hrunning
  | print hmain _ =>
      change s.main.inLoop = false at hout
      rw [hmain] at hout
      cases hout
  | push _ => cases hcond.symm.trans hout

theorem abandoned_effect {s t : State} {a : Action} (h : Abandoned s) (heffect : Effect s a t) :
    Abandoned t := by
  cases heffect with
  | frame hqueue _ _ hloop _ =>
      unfold Abandoned
      rw [hqueue, hloop]
      exact h
  | leave _ _ => exact ⟨rfl, h.2⟩
  | print hmain _ =>
      have hout := h.1
      rw [hmain] at hout
      cases hout
  | push _ => exact ⟨h.1, List.append_ne_nil_of_right_ne_nil _ (List.cons_ne_nil _ _)⟩

theorem abandoned_of_late {s t : State} {a : Action} (hcond : ¬ PushedInTime s a)
    (heffect : Effect s a t) : Abandoned t := by
  cases heffect with
  | frame _ _ _ _ hmeets => exact absurd hmeets hcond
  | leave hmain hrunning =>
      refine ⟨rfl, fun hqueue => hcond ?_⟩
      exact fun _ _ => hqueue
  | print hmain _ =>
      refine absurd (fun htest => ?_) hcond
      cases hmain.symm.trans htest
  | push _ =>
      refine ⟨?_, List.append_ne_nil_of_right_ne_nil _ (List.cons_ne_nil _ _)⟩
      have hout : ¬ s.main.inLoop = true := hcond
      exact Bool.eq_false_iff.mpr hout

/-- When `main` returns, all strings have been printed exactly when none was left in
the queue at the end of its loop or pushed after it. -/
theorem all_printed_iff {s : State} {acts : List Action}
    (hrun : run step State.initial acts = some s) (hreturned : s.main = .returned) :
    AllPrinted s ↔ StepsMeet step PushedInTime State.initial acts := by
  have hconserved : Conserved s := (Reaches.of_any_run acts hrun).invariant rfl
    fun _ _ _ h _ hstep => conserved_effect h (step_effect hstep)
  rw [hconserved.allPrinted_iff]
  have hout : s.main.inLoop = false := by
    rw [hreturned]
    rfl
  constructor
  · intro hqueue
    rcases stepsMeet_or (D := Abandoned)
        (fun _ _ _ h hcond hstep => nothingLeft_effect h hcond (step_effect hstep))
        (fun _ _ _ _ hcond hstep => abandoned_of_late hcond (step_effect hstep))
        (fun _ _ _ h hstep => abandoned_effect h (step_effect hstep))
        (fun hout => by cases hout) hrun with
      hmeet | habandoned
    · exact hmeet
    · exact absurd hqueue habandoned.2
  · intro hmeet
    have hleft : NothingLeft s := (Reaches.of_run acts hrun hmeet).invariant
      (fun hout => by cases hout) fun _ _ _ h hcond hstep =>
        nothingLeft_effect h hcond (step_effect hstep)
    exact hleft hout

/-- A client is accepted, and its thread pushes one string while `main` sleeps. -/
def oneMessage : List Action :=
  [.main, .accepted, .main, .main, .main, .test 0, .read 0 [97] [], .lock 0, .push 0, .unlock 0]

/-- `main` goes once around its loop. -/
def round : List Action := List.replicate 7 .main

/-- SIGINT comes while `main` sleeps. -/
def shutdown : List Action := [.sigint, .main, .main, .main, .main, .test 0, .main, .main]

theorem all_printed_after_round :
    ∃ s, run step State.initial (oneMessage ++ round ++ shutdown) = some s ∧
      s.main = .returned ∧ s.pushed = [⟨0, [97]⟩] ∧ AllPrinted s := by
  have hmeet : StepsMeet step PushedInTime State.initial (oneMessage ++ round ++ shutdown) := by
    decide
  exact ⟨_, rfl, rfl, rfl, (all_printed_iff rfl rfl).mpr hmeet⟩

/-- SIGINT comes before `main` is around again. -/
theorem message_left_in_queue :
    ∃ s, run step State.initial (oneMessage ++ shutdown) = some s ∧ s.main = .returned ∧
      s.pushed = [⟨0, [97]⟩] ∧ s.printed = [] ∧ ¬ AllPrinted s := by
  refine ⟨_, rfl, rfl, rfl, rfl, fun hall => ?_⟩
  cases hall 0

end Unx511.Lab9.Server
