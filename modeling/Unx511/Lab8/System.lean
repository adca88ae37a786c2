import Unx511.Lab8.Client
import Unx511.Machine.Run
import Unx511.Sysv.Queue

/-!
The Lab 8 system: `server.cpp`, the three clients and the message queue they
share. Requests to the server (type 4) and deliveries to the clients (types 1
to 3) use the same bounded queue. All messages have `sizeof(Message)` bytes, so
the byte limit of the kernel is a limit `cap` on their number.

The programs are modelled from the point where `msgget` has returned the common
queue. `msgsnd` and `msgrcv` with flag 0 block, a blocked call is interrupted by
SIGINT (System V calls are never restarted), and both fail once the queue has
been removed.
-/

namespace Unx511.Lab8

open Unx511.Machine

/-- `receive` is `msgrcv` with IPC_NOWAIT, `forward` the `msgsnd` to the destination, `quit i`
the loop that tells the clients, and `remove` is `msgctl(IPC_RMID)`. -/
inductive ServerPc where
  | test
  | receive
  | forward
  | quit (i : Nat)
  | remove
  | exited
  deriving DecidableEq, Repr

/-- `quitSent` is a history: the types that a "Quit" was sent under. -/
structure Server where
  isRunning : Bool
  pc : ServerPc
  msg : Message
  quitSent : List Nat
  deriving DecidableEq, Repr

structure State where
  queue : List Message
  removed : Bool
  server : Server
  client : ClientNo → Client

/-- The local `msg` of the server is not initialised. -/
def State.initial (msg : Message) : State where
  queue := []
  removed := false
  server := { isRunning := true, pc := .test, msg := msg, quitSent := [] }
  client := fun _ => Client.initial

def State.setClient (s : State) (no : ClientNo) (c : Client) : State :=
  { s with client := Function.update s.client no c }

/-- `msgsnd` with flag 0: whether it succeeded and the state after it, or `none`
while it blocks. -/
def msgsnd (cap : Nat) (m : Message) (s : State) : Option (Bool × State) :=
  if s.removed then some (false, s)
  else if s.queue.length < cap then some (true, { s with queue := s.queue ++ [m] })
  else none

/-- `msgctl(IPC_RMID)` discards the queue with everything in it. -/
def msgctlRmid (s : State) : State :=
  { s with queue := [], removed := true }

/-- The message that the shutdown loop of the server sends to client `i`. It
reuses `msg`, so it keeps the source and destination of the last message. -/
def quitMsg (i : Nat) (msg : Message) : Message where
  mtype := i
  msgBuf := { msg.msgBuf with buf := ['Q', 'u', 'i', 't'] }

def serverStep (cap : Nat) (s : State) : Option State :=
  match s.server.pc with
  | .test =>
      some { s with server.pc := if s.server.isRunning then .receive else .quit 1 }
  | .receive =>
      if s.removed then some { s with server.pc := .test }
      else
        match Sysv.receive Message.mtype 4 s.queue with
        | none => some { s with server.pc := .test }
        | some (msg, rest) =>
            some { s with
              queue := rest
              server.msg := { msg with mtype := msg.msgBuf.dest }
              server.pc := .forward }
  | .forward =>
      -- a failing `msgsnd` is reported by `perror` and the message is dropped
      (msgsnd cap s.server.msg s).map fun r => { r.2 with server.pc := .test }
  | .quit i =>
      if i ≤ 3 then
        (msgsnd cap (quitMsg i s.server.msg) s).map fun r =>
          { r.2 with
            server.msg := quitMsg i s.server.msg
            server.pc := .quit (i + 1)
            server.quitSent := if r.1 then s.server.quitSent ++ [i] else s.server.quitSent }
      else some { s with server.pc := .remove }
  | .remove => some { msgctlRmid s with server.pc := .exited }
  | .exited => none

/-- `main` of client `no` runs its next statement. -/
def clientMain (cap : Nat) (pid : ClientNo → Nat) (no : ClientNo) (s : State) :
    Option State :=
  match (s.client no).main with
  | .send m =>
      (msgsnd cap m s).bind fun r =>
        (mainStep (pid no) no (s.client no) r.1).map (r.2.setClient no)
  | .remove =>
      (mainStep (pid no) no (s.client no) true).map ((msgctlRmid s).setClient no)
  | _ => (mainStep (pid no) no (s.client no) true).map (s.setClient no)

/-- The outcome of `msgrcv` for client `no`, which removes the oldest message of
its type, or `none` while it blocks. -/
def msgrcv (no : ClientNo) (stale : Message) (s : State) : Option (Msgrcv × State) :=
  if s.removed then some (.failed stale, s)
  else
    (Sysv.receive Message.mtype no.val s.queue).map fun r =>
      (.delivered r.1, { s with queue := r.2 })

/-- `recv_func` of client `no` runs its next statement. -/
def clientRecv (no : ClientNo) (stale : Message) (s : State) : Option State :=
  match (s.client no).recv with
  | .receive =>
      (msgrcv no stale s).bind fun r =>
        (recvStep (s.client no) r.1).map (r.2.setClient no)
  | _ => (recvStep (s.client no) (.failed stale)).map (s.setClient no)

/-- One atomic step of the system. `stale` is the content of a client's message
buffer where `msgrcv` leaves it unwritten. In an `interrupt` the handler runs and the
blocked `msgsnd` or `msgrcv` fails. -/
inductive Action where
  | server
  | main (no : ClientNo)
  | createFails (no : ClientNo)
  | recv (no : ClientNo) (stale : Message)
  | sigintServer
  | interruptServer
  | sigint (no : ClientNo)
  | interruptMain (no : ClientNo)
  | interruptRecv (no : ClientNo) (stale : Message)
  deriving DecidableEq, Repr

def Action.isSigint : Action → Bool
  | .server | .main _ | .createFails _ | .recv _ _ => false
  | _ => true

/-- A call that blocks in the given state: `msgsnd` on a full queue. -/
def full (cap : Nat) (s : State) : Bool := !s.removed && decide (cap ≤ s.queue.length)

/-- SIGINT ends a blocked `msgsnd` of the server: in the forward loop the
message is dropped, in the shutdown loop that "Quit" is not sent. -/
def interruptServer (cap : Nat) (s : State) : Option State :=
  if full cap s then
    match s.server.pc with
    | .forward => some { s with server.isRunning := false, server.pc := .test }
    | .quit i =>
        if i ≤ 3 then
          some { s with
            server.isRunning := false
            server.msg := quitMsg i s.server.msg
            server.pc := .quit (i + 1) }
        else none
    | _ => none
  else none

def interruptMain (cap : Nat) (pid : ClientNo → Nat) (no : ClientNo) (s : State) :
    Option State :=
  match (s.client no).main with
  | .send _ =>
      if full cap s then
        (mainStep (pid no) no (shutdownHandler (s.client no)) false).map (s.setClient no)
      else none
  | _ => none

def interruptRecv (no : ClientNo) (stale : Message) (s : State) : Option State :=
  match (s.client no).recv with
  | .receive =>
      if msgrcv no stale s = none then
        (recvStep (shutdownHandler (s.client no)) (.failed stale)).map (s.setClient no)
      else none
  | _ => none

def step (cap : Nat) (pid : ClientNo → Nat) (s : State) : Action → Option State
  | .server => serverStep cap s
  | .main no => clientMain cap pid no s
  | .createFails no =>
      if (s.client no).main = .create then
        (mainStep (pid no) no (s.client no) false).map (s.setClient no)
      else none
  | .recv no stale => clientRecv no stale s
  | .sigintServer =>
      if s.server.pc = .exited then none else some { s with server.isRunning := false }
  | .interruptServer => interruptServer cap s
  | .sigint no =>
      if (s.client no).main = .exited then none
      else some (s.setClient no (shutdownHandler (s.client no)))
  | .interruptMain no => interruptMain cap pid no s
  | .interruptRecv no stale => interruptRecv no stale s

@[simp] theorem setClient_queue (s : State) (no : ClientNo) (c : Client) :
    (s.setClient no c).queue = s.queue := rfl

@[simp] theorem setClient_removed (s : State) (no : ClientNo) (c : Client) :
    (s.setClient no c).removed = s.removed := rfl

@[simp] theorem setClient_server (s : State) (no : ClientNo) (c : Client) :
    (s.setClient no c).server = s.server := rfl

@[simp] theorem setClient_client_self (s : State) (no : ClientNo) (c : Client) :
    (s.setClient no c).client no = c := by
  simp [State.setClient]

theorem setClient_client_other (s : State) {no other : ClientNo} (c : Client)
    (hne : other ≠ no) : (s.setClient no c).client other = s.client other := by
  simp [State.setClient, hne]

/-- A property of every client is kept when the changed client has it. -/
theorem forall_setClient {P : ClientNo → Client → Prop} {s : State} {no : ClientNo}
    {c : Client} (hall : ∀ other, P other (s.client other)) (hnew : P no c) :
    ∀ other, P other ((s.setClient no c).client other) := by
  intro other
  by_cases h : other = no
  · subst h
    simpa using hnew
  · rw [setClient_client_other s c h]
    exact hall other

/-- The statements of `main` that do not touch the queue. -/
def MainPc.isLocal : MainPc → Bool
  | .send _ | .remove => false
  | _ => true

/-- Everything one step can do, with the conditions it is done under. The
invariants below are proved by cases on it and never unfold `step`. -/
inductive Effect (cap : Nat) (pid : ClientNo → Nat) (s : State) : Action → State → Prop
  | serverTest (hpc : s.server.pc = .test) :
      Effect cap pid s .server
        { s with server.pc := if s.server.isRunning then .receive else .quit 1 }
  | serverIdle (hpc : s.server.pc = .receive) :
      Effect cap pid s .server { s with server.pc := .test }
  | serverReceive (msg : Message) (rest : List Message) (hpc : s.server.pc = .receive)
      (hlive : s.removed = false)
      (hreceive : Sysv.receive Message.mtype 4 s.queue = some (msg, rest)) :
      Effect cap pid s .server
        { s with
          queue := rest
          server.msg := { msg with mtype := msg.msgBuf.dest }
          server.pc := .forward }
  | forward (hpc : s.server.pc = .forward) (hlive : s.removed = false)
      (hroom : s.queue.length < cap) :
      Effect cap pid s .server
        { s with queue := s.queue ++ [s.server.msg], server.pc := .test }
  | forwardFailed (hpc : s.server.pc = .forward) (hgone : s.removed = true) :
      Effect cap pid s .server { s with server.pc := .test }
  | quit (i : Nat) (hpc : s.server.pc = .quit i) (hi : i ≤ 3) (hlive : s.removed = false)
      (hroom : s.queue.length < cap) :
      Effect cap pid s .server
        { s with
          queue := s.queue ++ [quitMsg i s.server.msg]
          server.msg := quitMsg i s.server.msg
          server.pc := .quit (i + 1)
          server.quitSent := s.server.quitSent ++ [i] }
  | quitFailed (i : Nat) (hpc : s.server.pc = .quit i) (hi : i ≤ 3)
      (hgone : s.removed = true) :
      Effect cap pid s .server
        { s with server.msg := quitMsg i s.server.msg, server.pc := .quit (i + 1) }
  | quitEnd (i : Nat) (hpc : s.server.pc = .quit i) (hi : 3 < i) :
      Effect cap pid s .server { s with server.pc := .remove }
  | serverRemove (hpc : s.server.pc = .remove) :
      Effect cap pid s .server { msgctlRmid s with server.pc := .exited }
  | serverSigint :
      Effect cap pid s .sigintServer { s with server.isRunning := false }
  | forwardInterrupted (hpc : s.server.pc = .forward) :
      Effect cap pid s .interruptServer
        { s with server.isRunning := false, server.pc := .test }
  | quitInterrupted (i : Nat) (hpc : s.server.pc = .quit i) (hi : i ≤ 3) :
      Effect cap pid s .interruptServer
        { s with
          server.isRunning := false
          server.msg := quitMsg i s.server.msg
          server.pc := .quit (i + 1) }
  | mainLocal (no : ClientNo) (c : Client) (hpc : (s.client no).main.isLocal)
      (hstep : mainStep (pid no) no (s.client no) true = some c) :
      Effect cap pid s (.main no) (s.setClient no c)
  | send (no : ClientNo) (m : Message) (hpc : (s.client no).main = .send m)
      (hlive : s.removed = false) (hroom : s.queue.length < cap) :
      Effect cap pid s (.main no)
        (State.setClient { s with queue := s.queue ++ [m] } no
          { s.client no with sent := (s.client no).sent ++ [m.msgBuf], main := .sleep })
  | sendFailed (no : ClientNo) (m : Message) (hpc : (s.client no).main = .send m)
      (hgone : s.removed = true) :
      Effect cap pid s (.main no) (s.setClient no { s.client no with main := .sleep })
  | clientRemove (no : ClientNo) (hpc : (s.client no).main = .remove) :
      Effect cap pid s (.main no)
        ((msgctlRmid s).setClient no { s.client no with main := .exited })
  | createFails (no : ClientNo) (hpc : (s.client no).main = .create) :
      Effect cap pid s (.createFails no)
        (s.setClient no { s.client no with isRunning := false, main := .exited })
  | recvLocal (no : ClientNo) (stale : Message) (c : Client)
      (hpc : (s.client no).recv ≠ .receive)
      (hstep : recvStep (s.client no) (.failed stale) = some c) :
      Effect cap pid s (.recv no stale) (s.setClient no c)
  | deliver (no : ClientNo) (stale m : Message) (rest : List Message)
      (hpc : (s.client no).recv = .receive) (hlive : s.removed = false)
      (hreceive : Sysv.receive Message.mtype no.val s.queue = some (m, rest)) :
      Effect cap pid s (.recv no stale)
        (State.setClient { s with queue := rest } no
          { s.client no with
            delivered := (s.client no).delivered ++ [m]
            recv := .check (.delivered m) })
  | recvFailed (no : ClientNo) (stale : Message) (hpc : (s.client no).recv = .receive)
      (hgone : s.removed = true) :
      Effect cap pid s (.recv no stale)
        (s.setClient no { s.client no with recv := .check (.failed stale) })
  | clientSigint (no : ClientNo) (halive : (s.client no).main ≠ .exited) :
      Effect cap pid s (.sigint no) (s.setClient no (shutdownHandler (s.client no)))
  | sendInterrupted (no : ClientNo) (m : Message) (hpc : (s.client no).main = .send m) :
      Effect cap pid s (.interruptMain no)
        (s.setClient no { shutdownHandler (s.client no) with main := .sleep })
  | recvInterrupted (no : ClientNo) (stale : Message) (hpc : (s.client no).recv = .receive) :
      Effect cap pid s (.interruptRecv no stale)
        (s.setClient no
          { shutdownHandler (s.client no) with recv := .check (.failed stale) })

theorem msgsnd_cases {cap : Nat} {m : Message} {s : State} {r : Bool × State}
    (h : msgsnd cap m s = some r) :
    (s.removed = true ∧ r = (false, s)) ∨
      (s.removed = false ∧ s.queue.length < cap ∧
        r = (true, { s with queue := s.queue ++ [m] })) := by
  unfold msgsnd at h
  split at h
  · next hgone => exact Or.inl ⟨hgone, (Option.some.inj h).symm⟩
  · next hlive =>
      split at h
      · next hroom => exact Or.inr ⟨by simpa using hlive, hroom, (Option.some.inj h).symm⟩
      · cases h

theorem serverStep_effect {cap : Nat} {pid : ClientNo → Nat} {s t : State}
    (h : serverStep cap s = some t) : Effect cap pid s .server t := by
  unfold serverStep at h
  split at h
  · next hpc =>
      cases h
      exact .serverTest hpc
  · next hpc =>
      split at h
      · cases h
        exact .serverIdle hpc
      · next hlive =>
          split at h
          · cases h
            exact .serverIdle hpc
          · next msg rest hreceive =>
              cases h
              exact .serverReceive msg rest hpc (by simpa using hlive) hreceive
  · next hpc =>
      obtain ⟨r, hsnd, rfl⟩ := Option.map_eq_some_iff.mp h
      rcases msgsnd_cases hsnd with ⟨hgone, rfl⟩ | ⟨hlive, hroom, rfl⟩
      · exact .forwardFailed hpc hgone
      · exact .forward hpc hlive hroom
  · next i hpc =>
      split at h
      · next hi =>
          obtain ⟨r, hsnd, rfl⟩ := Option.map_eq_some_iff.mp h
          rcases msgsnd_cases hsnd with ⟨hgone, rfl⟩ | ⟨hlive, hroom, rfl⟩
          · exact .quitFailed i hpc hi hgone
          · exact .quit i hpc hi hlive hroom
      · next hi =>
          cases h
          exact .quitEnd i hpc (by omega)
  · next hpc =>
      cases h
      exact .serverRemove hpc
  · cases h

theorem clientMain_effect {cap : Nat} {pid : ClientNo → Nat} {no : ClientNo} {s t : State}
    (h : clientMain cap pid no s = some t) : Effect cap pid s (.main no) t := by
  unfold clientMain at h
  split at h
  · next m hpc =>
      obtain ⟨r, hsnd, h⟩ := Option.bind_eq_some_iff.mp h
      rcases msgsnd_cases hsnd with ⟨hgone, rfl⟩ | ⟨hlive, hroom, rfl⟩
      · simp only [mainStep, hpc, Option.map_some, Option.some.injEq] at h
        subst h
        exact .sendFailed no m hpc hgone
      · simp only [mainStep, hpc, Option.map_some, Option.some.injEq] at h
        subst h
        exact .send no m hpc hlive hroom
  · next hpc =>
      simp only [mainStep, hpc, Option.map_some, Option.some.injEq] at h
      subst h
      exact .clientRemove no hpc
  · next hsend hremove =>
      obtain ⟨c, hstep, rfl⟩ := Option.map_eq_some_iff.mp h
      refine .mainLocal no c ?_ hstep
      unfold MainPc.isLocal
      split
      · next m hpc => exact absurd hpc (hsend m)
      · next hpc => exact absurd hpc hremove
      · rfl

theorem clientRecv_effect {cap : Nat} {pid : ClientNo → Nat} {no : ClientNo}
    {stale : Message} {s t : State} (h : clientRecv no stale s = some t) :
    Effect cap pid s (.recv no stale) t := by
  unfold clientRecv at h
  split at h
  · next hpc =>
      obtain ⟨r, hrcv, h⟩ := Option.bind_eq_some_iff.mp h
      unfold msgrcv at hrcv
      split at hrcv
      · next hgone =>
          cases hrcv
          simp only [recvStep, hpc, Option.map_some, Option.some.injEq] at h
          subst h
          exact .recvFailed no stale hpc hgone
      · next hlive =>
          obtain ⟨⟨m, rest⟩, hreceive, rfl⟩ := Option.map_eq_some_iff.mp hrcv
          simp only [recvStep, hpc, Option.map_some, Option.some.injEq] at h
          subst h
          exact .deliver no stale m rest hpc (by simpa using hlive) hreceive
  · next hpc =>
      obtain ⟨c, hstep, rfl⟩ := Option.map_eq_some_iff.mp h
      exact .recvLocal no stale c hpc hstep

theorem interruptServer_effect {cap : Nat} {pid : ClientNo → Nat} {s t : State}
    (h : interruptServer cap s = some t) : Effect cap pid s .interruptServer t := by
  unfold interruptServer at h
  split at h
  · split at h
    · next hpc =>
        cases h
        exact .forwardInterrupted hpc
    · next i hpc =>
        split at h
        · next hi =>
            cases h
            exact .quitInterrupted i hpc hi
        · cases h
    · cases h
  · cases h

theorem step_effect {cap : Nat} {pid : ClientNo → Nat} {s t : State} {a : Action}
    (h : step cap pid s a = some t) : Effect cap pid s a t := by
  cases a with
  | server => exact serverStep_effect h
  | main no => exact clientMain_effect h
  | recv no stale => exact clientRecv_effect h
  | interruptServer => exact interruptServer_effect h
  | createFails no =>
      simp only [step] at h
      split at h
      · next hpc =>
          simp only [mainStep, hpc, Bool.false_eq_true, if_false, Option.map_some,
            Option.some.injEq] at h
          subst h
          exact .createFails no hpc
      · cases h
  | sigintServer =>
      simp only [step] at h
      split at h
      · cases h
      · cases h
        exact .serverSigint
  | sigint no =>
      simp only [step] at h
      split at h
      · cases h
      · next halive =>
          cases h
          exact .clientSigint no halive
  | interruptMain no =>
      simp only [step, interruptMain] at h
      split at h
      · next m hpc =>
          split at h
          · simp only [mainStep, shutdownHandler, hpc, Bool.false_eq_true, if_false,
              Option.map_some, Option.some.injEq] at h
            subst h
            exact .sendInterrupted no m hpc
          · cases h
      · cases h
  | interruptRecv no stale =>
      simp only [step, interruptRecv] at h
      split at h
      · next hpc =>
          split at h
          · simp only [recvStep, shutdownHandler, hpc, Option.map_some,
              Option.some.injEq] at h
            subst h
            exact .recvInterrupted no stale hpc
          · cases h
      · cases h

end Unx511.Lab8
