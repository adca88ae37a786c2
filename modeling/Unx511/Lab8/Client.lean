import Unx511.ClientNo

/-!
The client programs of Lab 8 (`client1.cpp`, `client2.cpp`, `client3.cpp`) and
the message type of `client.h`. A client has two threads: `main` sends to the
server and prints what the receive thread put on the local queue. Every step
below is one statement of one thread. The critical sections of `lock_x` are one
step each, and a system call takes its outcome as an argument, so that the
system model decides it and a statement about one client can quantify over all
outcomes.
-/

namespace Unx511.Lab8

/-- `MesgBuffer` of `client.h`. The text is the C string in `buf`, up to its
terminating NUL. -/
structure MesgBuffer where
  source : Nat
  dest : Nat
  buf : List Char
  deriving DecidableEq, Repr

structure Message where
  mtype : Nat
  msgBuf : MesgBuffer
  deriving DecidableEq, Repr

/-- `strncmp(msg.msgBuf.buf, "Quit", 4) == 0` -/
def Message.isQuit (m : Message) : Bool :=
  ['Q', 'u', 'i', 't'].isPrefixOf m.msgBuf.buf

/-- `if(dest==last) dest=first; else dest=last;` with the two destinations of
one client. -/
def alternate (last first dest : Nat) : Nat :=
  if dest = last then first else last

def nextDest : ClientNo → Nat → Nat
  | .one => alternate 2 3
  | .two => alternate 3 1
  | .three => alternate 1 2

/-- The text that `sprintf` writes for a client with process id `pid`. -/
def messageText (pid : Nat) (no : ClientNo) : List Char :=
  Nat.toDigits 10 pid ++ ": Message from client ".toList ++ Nat.toDigits 10 no.val ++ ['\n']

/-- `sendMsg` of `main`: type 4 is for the server to dispatch. -/
def sendMsg (pid : Nat) (no : ClientNo) (dest : Nat) : Message where
  mtype := 4
  msgBuf := { source := no.val, dest := dest, buf := messageText pid no }

/-- What a `msgrcv` call did: it delivered a message into the buffer, or it
returned -1 and the buffer still holds what was there before. -/
inductive Msgrcv where
  | delivered (m : Message)
  | failed (stale : Message)
  deriving DecidableEq, Repr

/-- The content of `msg` after the call, all that `recv_func` looks at. -/
def Msgrcv.buffer : Msgrcv → Message
  | .delivered m => m
  | .failed stale => stale

/-- The statements of `main`, from `is_running=true` on. `drain` tests `message.size()>0`,
`send` is `msgsnd`, and `remove` is `msgctl(IPC_RMID)`. -/
inductive MainPc where
  | start
  | create
  | test
  | drain
  | print (recvMsg : Message)
  | send (sendMsg : Message)
  | sleep
  | join
  | remove
  | exited
  deriving DecidableEq, Repr

/-- The receive thread is `absent` until it is created. `check` compares what `msgrcv` left in
the buffer with "Quit", and then pushes it or stops. -/
inductive RecvPc where
  | absent
  | test
  | receive
  | check (result : Msgrcv)
  | exited
  deriving DecidableEq, Repr

/-- The last six fields are histories that no step reads: what `msgsnd` has accepted and
`msgrcv` returned, what was compared with "Quit", put on the local queue and printed, and
whether the SIGINT handler has run. -/
structure Client where
  isRunning : Bool
  dest : Nat
  main : MainPc
  recv : RecvPc
  message : List Message
  sent : List MesgBuffer
  delivered : List Message
  tested : List Msgrcv
  pushed : List Message
  printed : List Message
  signalled : Bool
  deriving DecidableEq, Repr

/-- The client after its handler is installed and `msgget` has returned. The
global `is_running` is still zero. -/
def Client.initial : Client where
  isRunning := false
  dest := 0
  main := .start
  recv := .absent
  message := []
  sent := []
  delivered := []
  tested := []
  pushed := []
  printed := []
  signalled := false

/-- One statement of `main`. `ok` is the outcome of the `pthread_create` or
`msgsnd` call it makes, if it makes one. -/
def mainStep (pid : Nat) (no : ClientNo) (c : Client) (ok : Bool) : Option Client :=
  match c.main with
  | .start => some { c with isRunning := true, main := .create }
  | .create =>
      if ok then some { c with recv := .test, main := .test }
      else some { c with isRunning := false, main := .exited }
  | .test => some { c with main := if c.isRunning then .drain else .join }
  | .drain =>
      match c.message with
      | recvMsg :: rest => some { c with message := rest, main := .print recvMsg }
      | [] =>
          let dest := nextDest no c.dest
          some { c with dest := dest, main := .send (sendMsg pid no dest) }
  | .print recvMsg => some { c with printed := c.printed ++ [recvMsg], main := .drain }
  | .send m =>
      some { c with sent := if ok then c.sent ++ [m.msgBuf] else c.sent, main := .sleep }
  | .sleep => some { c with main := .test }
  | .join => if c.recv = .exited then some { c with main := .remove } else none
  | .remove => some { c with main := .exited }
  | .exited => none

/-- One statement of `recv_func`. `result` is the outcome of the `msgrcv` call,
and the code never looks at whether it failed. -/
def recvStep (c : Client) (result : Msgrcv) : Option Client :=
  match c.recv with
  | .absent => none
  | .test => some { c with recv := if c.isRunning then .receive else .exited }
  | .receive =>
      match result with
      | .delivered m =>
          some { c with delivered := c.delivered ++ [m], recv := .check (.delivered m) }
      | .failed stale => some { c with recv := .check (.failed stale) }
  | .check result =>
      if result.buffer.isQuit then
        some { c with isRunning := false, tested := c.tested ++ [result], recv := .test }
      else
        some { c with
          message := c.message ++ [result.buffer]
          pushed := c.pushed ++ [result.buffer]
          tested := c.tested ++ [result]
          recv := .test }
  | .exited => none

/-- `shutdownHandler` for SIGINT, on either thread. -/
def shutdownHandler (c : Client) : Client :=
  { c with isRunning := false, signalled := true }

/-- Everything one statement of `main` can do. -/
inductive MainEffect (pid : Nat) (no : ClientNo) (c : Client) : Bool → Client → Prop
  | start (ok : Bool) (hpc : c.main = .start) :
      MainEffect pid no c ok { c with isRunning := true, main := .create }
  | create (hpc : c.main = .create) :
      MainEffect pid no c true { c with recv := .test, main := .test }
  | createFails (hpc : c.main = .create) :
      MainEffect pid no c false { c with isRunning := false, main := .exited }
  | test (ok : Bool) (hpc : c.main = .test) :
      MainEffect pid no c ok { c with main := if c.isRunning then .drain else .join }
  | pop (ok : Bool) (recvMsg : Message) (rest : List Message) (hpc : c.main = .drain)
      (hmessage : c.message = recvMsg :: rest) :
      MainEffect pid no c ok { c with message := rest, main := .print recvMsg }
  | prepare (ok : Bool) (hpc : c.main = .drain) (hmessage : c.message = []) :
      MainEffect pid no c ok
        { c with
          dest := nextDest no c.dest
          main := .send (sendMsg pid no (nextDest no c.dest)) }
  | print (ok : Bool) (recvMsg : Message) (hpc : c.main = .print recvMsg) :
      MainEffect pid no c ok { c with printed := c.printed ++ [recvMsg], main := .drain }
  | send (ok : Bool) (m : Message) (hpc : c.main = .send m) :
      MainEffect pid no c ok
        { c with sent := if ok then c.sent ++ [m.msgBuf] else c.sent, main := .sleep }
  | wake (ok : Bool) (hpc : c.main = .sleep) :
      MainEffect pid no c ok { c with main := .test }
  | join (ok : Bool) (hpc : c.main = .join) (hrecv : c.recv = .exited) :
      MainEffect pid no c ok { c with main := .remove }
  | remove (ok : Bool) (hpc : c.main = .remove) :
      MainEffect pid no c ok { c with main := .exited }

/-- Everything one statement of `recv_func` can do. -/
inductive RecvEffect (c : Client) : Msgrcv → Client → Prop
  | test (result : Msgrcv) (hpc : c.recv = .test) :
      RecvEffect c result { c with recv := if c.isRunning then .receive else .exited }
  | deliver (m : Message) (hpc : c.recv = .receive) :
      RecvEffect c (.delivered m)
        { c with delivered := c.delivered ++ [m], recv := .check (.delivered m) }
  | fail (stale : Message) (hpc : c.recv = .receive) :
      RecvEffect c (.failed stale) { c with recv := .check (.failed stale) }
  | quit (result held : Msgrcv) (hpc : c.recv = .check held)
      (hquit : held.buffer.isQuit = true) :
      RecvEffect c result
        { c with isRunning := false, tested := c.tested ++ [held], recv := .test }
  | push (result held : Msgrcv) (hpc : c.recv = .check held)
      (hquit : held.buffer.isQuit = false) :
      RecvEffect c result
        { c with
          message := c.message ++ [held.buffer]
          pushed := c.pushed ++ [held.buffer]
          tested := c.tested ++ [held]
          recv := .test }

theorem mainStep_effect {pid : Nat} {no : ClientNo} {c c' : Client} {ok : Bool}
    (h : mainStep pid no c ok = some c') : MainEffect pid no c ok c' := by
  unfold mainStep at h
  cases hpc : c.main with
  | start =>
      simp only [hpc, Option.some.injEq] at h
      exact h ▸ .start ok hpc
  | create =>
      simp only [hpc] at h
      cases ok with
      | true => cases h; exact .create hpc
      | false => cases h; exact .createFails hpc
  | test =>
      simp only [hpc, Option.some.injEq] at h
      exact h ▸ .test ok hpc
  | drain =>
      simp only [hpc] at h
      split at h
      · next recvMsg rest hmessage => cases h; exact .pop ok recvMsg rest hpc hmessage
      · next hmessage => cases h; exact .prepare ok hpc hmessage
  | print recvMsg =>
      simp only [hpc, Option.some.injEq] at h
      exact h ▸ .print ok recvMsg hpc
  | send m =>
      simp only [hpc, Option.some.injEq] at h
      exact h ▸ .send ok m hpc
  | sleep =>
      simp only [hpc, Option.some.injEq] at h
      exact h ▸ .wake ok hpc
  | join =>
      simp only [hpc, Option.ite_none_right_eq_some, Option.some.injEq] at h
      exact h.2 ▸ .join ok hpc h.1
  | remove =>
      simp only [hpc, Option.some.injEq] at h
      exact h ▸ .remove ok hpc
  | exited => simp only [hpc, reduceCtorEq] at h

theorem recvStep_effect {c c' : Client} {result : Msgrcv}
    (h : recvStep c result = some c') : RecvEffect c result c' := by
  unfold recvStep at h
  cases hpc : c.recv with
  | absent => simp only [hpc, reduceCtorEq] at h
  | test =>
      simp only [hpc, Option.some.injEq] at h
      exact h ▸ .test result hpc
  | receive =>
      simp only [hpc] at h
      cases result with
      | delivered m => cases h; exact .deliver m hpc
      | failed stale => cases h; exact .fail stale hpc
  | check held =>
      simp only [hpc] at h
      split at h
      · next hquit => cases h; exact .quit result held hpc hquit
      · next hquit => cases h; exact .push result held hpc (by simpa using hquit)
  | exited => simp only [hpc, reduceCtorEq] at h

theorem nextDest_bounds (no : ClientNo) (dest : Nat) :
    1 ≤ nextDest no dest ∧ nextDest no dest ≤ 3 := by
  cases no <;> simp only [nextDest, alternate] <;> split <;> decide

/-- A client never addresses itself. -/
theorem nextDest_ne_self (no : ClientNo) (dest : Nat) : nextDest no dest ≠ no.val := by
  cases no <;> simp only [nextDest, alternate] <;> split <;> decide

/-- The text of a client starts with a digit of its process id, so it is never
taken for the in-band "Quit". -/
theorem sendMsg_not_quit (pid : Nat) (no : ClientNo) (dest : Nat) :
    (sendMsg pid no dest).isQuit = false := by
  cases hdigits : Nat.toDigits 10 pid with
  | nil => exact absurd hdigits Nat.toDigits_ne_nil
  | cons digit rest =>
      have hdigit : digit.isDigit = true :=
        Nat.isDigit_of_mem_toDigits (b := 10) (n := pid) (by decide) (by decide)
          (by simp [hdigits])
      have hne : 'Q' ≠ digit := by
        rintro rfl
        exact absurd hdigit (by decide)
      simp [Message.isQuit, sendMsg, messageText, hdigits, List.isPrefixOf, hne]

end Unx511.Lab8
