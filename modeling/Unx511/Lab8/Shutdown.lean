import Unx511.Lab8.Routing

/-!
The shutdown of Lab 8. The server sends one "Quit" to each client and removes
the queue at once; a client that leaves its loops removes it as well. The "Quit"
messages are conserved while the queue exists: each one sent is queued, held by
a receive thread or has been read. Nothing orders the removals after the receive
threads. In the runs that are scheduled so, no "Quit" is lost, no removal cuts a
receive thread off, and nobody leaves the receive loop for another reason than
its "Quit" or a SIGINT of its own.
-/

namespace Unx511.Lab8

open Unx511.Machine

def RecvPc.inLoop : RecvPc → Bool
  | .absent | .exited => false
  | .test | .receive | .check _ => true

/-- A client before its start, with `is_running` set, or with its receive thread
in its loop. The last counts also after a SIGINT that the other thread has
handled, when `msgrcv` is still blocked. -/
def StillRunning (c : Client) : Prop :=
  c.main = .start ∨ c.isRunning = true ∨ c.recv.inLoop = true

/-- The clients that the shutdown owes a "Quit": those still running, and those
whose receive thread has ended without a SIGINT of their own. -/
def Owed (c : Client) : Prop :=
  StillRunning c ∨ (c.recv = .exited ∧ c.signalled = false)

/-- The step executes `msgctl(IPC_RMID)` on a queue that still exists. -/
def removesQueue (s : State) : Action → Prop
  | .server => s.server.pc = .remove ∧ s.removed = false
  | .main no => (s.client no).main = .remove ∧ s.removed = false
  | _ => False

/-- Every client that is owed a "Quit" has been sent it, and none is left in the
queue. -/
def QuitsDelivered (s : State) : Prop :=
  ∀ no, Owed (s.client no) →
    no.val ∈ s.server.quitSent ∧ ∀ m ∈ s.queue, m.mtype = no.val → m.isQuit = false

/-- A removal is lawful when no "Quit" is owed or lost. -/
def LawfulRemoval (s : State) (a : Action) : Prop := removesQueue s a → QuitsDelivered s

/-- The receive thread has ended, or `pthread_create` failed and there is none. -/
def ReceiveEnded (c : Client) : Prop :=
  c.recv = .exited ∨ (c.recv = .absent ∧ c.main = .exited)

/-- The condition on the schedule: the queue is removed after the receive threads
of all clients have ended. -/
def RemovesLast (s : State) (a : Action) : Prop :=
  removesQueue s a → ∀ no, ReceiveEnded (s.client no)

def quitRead : Msgrcv → Bool
  | .delivered m => m.isQuit
  | .failed _ => false

def quitsRead (c : Client) : Nat := c.tested.countP quitRead

def quitsHeld (c : Client) : Nat := (recvHeld c).countP quitRead

def quitsQueued (no : ClientNo) (queue : List Message) : Nat :=
  (Sysv.ofType Message.mtype no.val queue).countP Message.isQuit

/-- A client whose receive thread has left its loop had read a "Quit" or had
been told to stop by SIGINT. -/
def LeftByQuit (c : Client) : Prop :=
  c.recv = .exited → c.signalled = true ∨ ∃ m, .delivered m ∈ c.tested ∧ m.isQuit = true

structure Orderly (c : Client) : Prop where
  fresh : c.main = .start ∨ c.main = .create → c.recv = .absent ∧ c.tested = []
  sending : ∀ m, c.main = .send m → m.mtype = 4 ∧ m.isQuit = false
  readStops : 0 < quitsRead c → c.isRunning = false

theorem orderly_initial : Orderly Client.initial :=
  ⟨fun _ => ⟨rfl, rfl⟩, by simp [Client.initial], fun h => by cases h⟩

theorem Orderly.created {c : Client} (h : Orderly c) (hrecv : c.recv ≠ .absent) :
    ¬ (c.main = .start ∨ c.main = .create) :=
  fun hmain => hrecv (h.fresh hmain).1

theorem orderly_main {pid : Nat} {no : ClientNo} {c c' : Client} {ok : Bool}
    (h : Orderly c) (hstep : MainEffect pid no c ok c') :
    Orderly c' ∧ quitsRead c' = quitsRead c ∧ quitsHeld c' = quitsHeld c := by
  cases hstep with
  | start _ hpc =>
      obtain ⟨habsent, htested⟩ := h.fresh (Or.inl hpc)
      refine ⟨⟨fun _ => ⟨habsent, htested⟩, by simp, fun hread => ?_⟩, rfl, rfl⟩
      simp [quitsRead, htested] at hread
  | create hpc =>
      obtain ⟨habsent, htested⟩ := h.fresh (Or.inr hpc)
      refine ⟨⟨by simp, by simp, h.readStops⟩, rfl, ?_⟩
      simp [quitsHeld, recvHeld, habsent]
  | createFails hpc => exact ⟨⟨by simp, by simp, fun _ => rfl⟩, rfl, rfl⟩
  | test _ hpc =>
      refine ⟨⟨?_, ?_, h.readStops⟩, rfl, rfl⟩
      · cases c.isRunning <;> simp
      · cases c.isRunning <;> simp
  | prepare _ hpc _ =>
      refine ⟨⟨by simp, ?_, h.readStops⟩, rfl, rfl⟩
      rintro m hm
      cases hm
      exact ⟨rfl, sendMsg_not_quit pid no _⟩
  | _ => exact ⟨⟨by simp, by simp, h.readStops⟩, rfl, rfl⟩

/-- Without a new delivery a receive thread only turns a held "Quit" into a read
one. -/
theorem orderly_recv {c c' : Client} {stale : Message} (h : Orderly c)
    (hstep : RecvEffect c (.failed stale) c') :
    Orderly c' ∧ quitsRead c' + quitsHeld c' = quitsRead c + quitsHeld c := by
  cases hstep with
  | test _ hpc =>
      have hcreated := h.created (by simp [hpc])
      refine ⟨⟨fun hmain => absurd hmain hcreated, h.sending, h.readStops⟩, ?_⟩
      cases c.isRunning <;> simp [quitsRead, quitsHeld, recvHeld, hpc]
  | fail _ hpc =>
      have hcreated := h.created (by simp [hpc])
      refine ⟨⟨fun hmain => absurd hmain hcreated, h.sending, h.readStops⟩, ?_⟩
      simp [quitsRead, quitsHeld, recvHeld, hpc, quitRead]
  | quit _ held hpc hquit =>
      have hcreated := h.created (by simp [hpc])
      refine ⟨⟨fun hmain => absurd hmain hcreated, h.sending, fun _ => rfl⟩, ?_⟩
      simp [quitsRead, quitsHeld, recvHeld, hpc]
  | push _ held hpc hquit =>
      have hcreated := h.created (by simp [hpc])
      have hnot : quitRead held = false := by
        cases held with
        | delivered m => exact hquit
        | failed _ => rfl
      refine ⟨⟨fun hmain => absurd hmain hcreated, h.sending, fun hread => ?_⟩, ?_⟩
      · exact h.readStops (by simpa [quitsRead, hnot] using hread)
      · simp [quitsRead, quitsHeld, recvHeld, hpc, hnot]

theorem orderly_shutdown {c : Client} (h : Orderly c) : Orderly (shutdownHandler c) :=
  ⟨h.fresh, h.sending, fun _ => rfl⟩

/-- What holds in every run, with any signals: only the server makes "Quit"
messages, one for each client, and while the queue exists none of them gets
lost. -/
structure Conserved (s : State) : Prop where
  clients : ∀ no, Orderly (s.client no)
  held : s.server.pc = .forward → s.server.msg.isQuit = false
  requests : ∀ m ∈ s.queue, m.mtype = 4 → m.isQuit = false
  before : s.server.pc = .test ∨ s.server.pc = .receive ∨ s.server.pc = .forward →
    s.server.quitSent = []
  order : ∀ i, s.server.pc = .quit i → ∀ j ∈ s.server.quitSent, j < i
  once : s.server.quitSent.Nodup
  quits : s.removed = false → ∀ no : ClientNo,
    s.server.quitSent.count no.val =
      quitsQueued no s.queue + (quitsRead (s.client no) + quitsHeld (s.client no))

theorem conserved_initial (msg : Message) : Conserved (State.initial msg) := by
  refine ⟨fun _ => orderly_initial, by simp [State.initial], by simp [State.initial],
    fun _ => rfl, by simp [State.initial], List.nodup_nil, fun _ no => rfl⟩

/-- A step inside one client that loses no "Quit". -/
theorem conserved_setClient {s : State} {no : ClientNo} {c : Client} (h : Conserved s)
    (horderly : Orderly c)
    (hquits : quitsRead c + quitsHeld c =
      quitsRead (s.client no) + quitsHeld (s.client no)) : Conserved (s.setClient no c) := by
  refine ⟨forall_setClient h.clients horderly, h.held, h.requests, h.before, h.order, h.once,
    fun hlive other => ?_⟩
  have hcount := h.quits hlive other
  by_cases hother : other = no
  · subst hother
    simpa [hquits] using hcount
  · rw [setClient_client_other s c hother]
    exact hcount

theorem quitsQueued_send_plain {m : Message} (hquit : m.isQuit = false) (no : ClientNo)
    (queue : List Message) : quitsQueued no (queue ++ [m]) = quitsQueued no queue := by
  by_cases htype : m.mtype = no.val
  · simp [quitsQueued, Sysv.ofType_send_same htype, List.countP_append, hquit]
  · simp [quitsQueued, Sysv.ofType_send_other htype]

/-- The server moves on without touching the queue or a client. -/
theorem conserved_server {s : State} {sv : Server} (h : Conserved s)
    (hsent : sv.quitSent = s.server.quitSent) (hheld : sv.pc ≠ .forward)
    (hbefore : sv.pc = .test ∨ sv.pc = .receive → s.server.quitSent = [])
    (horder : ∀ i, sv.pc = .quit i → ∀ j ∈ s.server.quitSent, j < i) :
    Conserved { s with server := sv } := by
  refine ⟨h.clients, fun hpc => absurd hpc hheld, h.requests, ?_, ?_, ?_, ?_⟩
  · rintro (hpc | hpc | hpc)
    · exact hsent.trans (hbefore (Or.inl hpc))
    · exact hsent.trans (hbefore (Or.inr hpc))
    · exact absurd hpc hheld
  · intro i hpc j hj
    exact horder i hpc j (hsent ▸ hj)
  · exact hsent ▸ h.once
  · intro hlive no
    rw [hsent]
    exact h.quits hlive no

theorem conserved_receive {s : State} {msg : Message} {rest : List Message}
    (h : Conserved s) (hpc : s.server.pc = .receive)
    (hreceive : Sysv.receive Message.mtype 4 s.queue = some (msg, rest)) :
    Conserved { s with
      queue := rest
      server.msg := { msg with mtype := msg.msgBuf.dest }
      server.pc := .forward } := by
  have hquit : msg.isQuit = false :=
    h.requests msg (Sysv.receive_mem hreceive) (Sysv.receive_type hreceive)
  refine ⟨h.clients, fun _ => hquit, ?_, fun _ => h.before (by simp [hpc]), by simp, h.once,
    fun hlive no => ?_⟩
  · intro m hm
    exact h.requests m (Sysv.mem_of_mem_receive hreceive hm)
  · have hother := Sysv.ofType_receive_other no.val_ne_four.symm hreceive
    have hcount := h.quits hlive no
    simp only [quitsQueued, hother] at hcount
    exact hcount

theorem conserved_forward {s : State} (h : Conserved s) (hpc : s.server.pc = .forward) :
    Conserved { s with queue := s.queue ++ [s.server.msg], server.pc := .test } := by
  have hquit := h.held hpc
  refine ⟨h.clients, by simp, ?_, fun _ => h.before (by simp [hpc]), by simp, h.once,
    fun hlive no => ?_⟩
  · intro m hm hfour
    rcases List.mem_append.mp hm with hold | hnew
    · exact h.requests m hold hfour
    · rw [List.mem_singleton.mp hnew]
      exact hquit
  · rw [quitsQueued_send_plain hquit]
    exact h.quits hlive no

theorem conserved_quit {s : State} {i : Nat} (h : Conserved s)
    (hpc : s.server.pc = .quit i) (hi : i ≤ 3) :
    Conserved { s with
      queue := s.queue ++ [quitMsg i s.server.msg]
      server.msg := quitMsg i s.server.msg
      server.pc := .quit (i + 1)
      server.quitSent := s.server.quitSent ++ [i] } := by
  have hlater := h.order i hpc
  refine ⟨h.clients, by simp, ?_, by simp, ?_, ?_, fun hlive no => ?_⟩
  · intro m hm hfour
    rcases List.mem_append.mp hm with hold | hnew
    · exact h.requests m hold hfour
    · rw [List.mem_singleton.mp hnew] at hfour
      simp only [quitMsg] at hfour
      omega
  · rintro k hk j hj
    cases hk
    rcases List.mem_append.mp hj with hold | hnew
    · have := hlater j hold
      omega
    · rw [List.mem_singleton.mp hnew]
      omega
  · refine List.nodup_append.mpr ⟨h.once, List.nodup_singleton i, ?_⟩
    intro j hj k hk
    rw [List.mem_singleton.mp hk]
    have := hlater j hj
    omega
  · have hcount := h.quits hlive no
    have hquit (k : Nat) : (quitMsg k s.server.msg).isQuit = true := rfl
    by_cases htype : i = no.val
    · have hsame : (quitMsg i s.server.msg).mtype = no.val := htype
      simp only [quitsQueued, Sysv.ofType_send_same hsame, List.countP_append,
        List.count_append] at hcount ⊢
      simp only [List.countP_singleton, List.count_singleton, hquit, htype, beq_self_eq_true,
        if_true]
      omega
    · have hother : (quitMsg i s.server.msg).mtype ≠ no.val := htype
      simp only [quitsQueued, Sysv.ofType_send_other hother, List.count_append] at hcount ⊢
      simp only [List.count_singleton, beq_iff_eq, htype, if_false]
      omega

theorem conserved_send {s : State} {no : ClientNo} {m : Message} (h : Conserved s)
    (hpc : (s.client no).main = .send m) :
    Conserved (State.setClient { s with queue := s.queue ++ [m] } no
      { s.client no with sent := (s.client no).sent ++ [m.msgBuf], main := .sleep }) := by
  obtain ⟨hfour, hquit⟩ := (h.clients no).sending m hpc
  have hqueue : Conserved { s with queue := s.queue ++ [m] } := by
    refine ⟨h.clients, h.held, ?_, h.before, h.order, h.once, fun hlive other => ?_⟩
    · intro x hx hx4
      rcases List.mem_append.mp hx with hold | hnew
      · exact h.requests x hold hx4
      · rw [List.mem_singleton.mp hnew]
        exact hquit
    · rw [quitsQueued_send_plain hquit]
      exact h.quits hlive other
  have horderly := h.clients no
  exact conserved_setClient hqueue ⟨by simp, by simp, horderly.readStops⟩ rfl

theorem conserved_deliver {s : State} {no : ClientNo} {m : Message} {rest : List Message}
    (h : Conserved s) (hpc : (s.client no).recv = .receive)
    (hreceive : Sysv.receive Message.mtype no.val s.queue = some (m, rest)) :
    Conserved (State.setClient { s with queue := rest } no
      { s.client no with
        delivered := (s.client no).delivered ++ [m]
        recv := .check (.delivered m) }) := by
  have horderly := h.clients no
  have hcreated := horderly.created (by simp [hpc])
  refine ⟨forall_setClient h.clients
      ⟨fun hmain => absurd hmain hcreated, horderly.sending, horderly.readStops⟩,
    h.held, ?_, h.before, h.order, h.once, fun hlive other => ?_⟩
  · intro x hx
    exact h.requests x (Sysv.mem_of_mem_receive hreceive hx)
  · have hcount := h.quits hlive other
    by_cases hother : other = no
    · subst hother
      simp only [quitsQueued, Sysv.ofType_receive_same hreceive, List.countP_cons, quitsRead,
        quitsHeld, recvHeld, hpc, List.countP_nil] at hcount
      simp only [quitsQueued, setClient_queue, setClient_server, setClient_client_self,
        quitsRead, quitsHeld, recvHeld, List.countP_singleton]
      have hmove : quitRead (.delivered m) = m.isQuit := rfl
      rw [hmove]
      cases hquit : m.isQuit with
      | true => simp only [hquit, if_true] at hcount ⊢; omega
      | false => simp only [hquit, Bool.false_eq_true, if_false] at hcount ⊢; omega
    · have hne : no.val ≠ other.val := fun heq => hother (ClientNo.val_injective heq.symm)
      simp only [quitsQueued, Sysv.ofType_receive_other hne hreceive] at hcount
      simpa [quitsQueued, setClient_client_other _ _ hother] using hcount

theorem conserved_remove {s : State} (h : Conserved s) : Conserved (msgctlRmid s) :=
  ⟨h.clients, h.held, by simp [msgctlRmid], h.before, h.order, h.once,
    fun hlive => by cases hlive⟩

theorem conserved_step {cap : Nat} {pid : ClientNo → Nat} {s t : State} {a : Action}
    (h : Conserved s) (heffect : Effect cap pid s a t) : Conserved t := by
  cases heffect with
  | serverTest hpc =>
      have hnone := h.before (Or.inl hpc)
      refine conserved_server h rfl ?_ (fun _ => hnone) (by simp [hnone])
      cases s.server.isRunning <;> simp
  | serverIdle hpc =>
      exact conserved_server h rfl (by simp) (fun _ => h.before (by simp [hpc])) (by simp)
  | serverReceive msg rest hpc _ hreceive => exact conserved_receive h hpc hreceive
  | forward hpc => exact conserved_forward h hpc
  | forwardFailed hpc | forwardInterrupted hpc =>
      exact conserved_server h rfl (by simp) (fun _ => h.before (by simp [hpc])) (by simp)
  | quit i hpc hi => exact conserved_quit h hpc hi
  | quitFailed i hpc hi | quitInterrupted i hpc hi =>
      refine conserved_server h rfl (by simp) (by simp) ?_
      rintro k hk j hj
      cases hk
      have := h.order i hpc j hj
      omega
  | quitEnd i hpc => exact conserved_server h rfl (by simp) (by simp) (by simp)
  | serverRemove hpc =>
      exact conserved_server (conserved_remove h) rfl (by simp) (by simp) (by simp)
  | serverSigint =>
      exact ⟨h.clients, h.held, h.requests, h.before, h.order, h.once, h.quits⟩
  | mainLocal no c _ hstep =>
      obtain ⟨horderly, hread, hheld⟩ := orderly_main (h.clients no) (mainStep_effect hstep)
      exact conserved_setClient h horderly (by rw [hread, hheld])
  | send no m hpc => exact conserved_send h hpc
  | sendFailed no m hpc | sendInterrupted no m hpc =>
      exact conserved_setClient h ⟨by simp, by simp, fun hread => by
        first | rfl | exact (h.clients no).readStops hread⟩ rfl
  | clientRemove no hpc =>
      exact conserved_setClient (conserved_remove h)
        ⟨by simp, by simp, (h.clients no).readStops⟩ rfl
  | createFails no hpc => exact conserved_setClient h ⟨by simp, by simp, fun _ => rfl⟩ rfl
  | recvLocal no stale c _ hstep =>
      obtain ⟨horderly, hquits⟩ := orderly_recv (h.clients no) (recvStep_effect hstep)
      exact conserved_setClient h horderly hquits
  | deliver no _ m rest hpc _ hreceive => exact conserved_deliver h hpc hreceive
  | recvFailed no stale hpc _ =>
      obtain ⟨horderly, hquits⟩ := orderly_recv (h.clients no) (RecvEffect.fail stale hpc)
      exact conserved_setClient h horderly hquits
  | clientSigint no _ => exact conserved_setClient h (orderly_shutdown (h.clients no)) rfl
  | recvInterrupted no stale hpc =>
      obtain ⟨horderly, hquits⟩ :=
        orderly_recv (orderly_shutdown (h.clients no)) (RecvEffect.fail stale hpc)
      exact conserved_setClient h horderly hquits

instance (c : Client) : Decidable (ReceiveEnded c) :=
  inferInstanceAs (Decidable (_ ∨ _))

instance (s : State) : ∀ a, Decidable (removesQueue s a)
  | .server | .main _ => inferInstanceAs (Decidable (_ ∧ _))
  | .createFails _ | .recv _ _ | .sigintServer | .interruptServer | .sigint _
  | .interruptMain _ | .interruptRecv _ _ => isFalse id

instance (s : State) (a : Action) : Decidable (RemovesLast s a) :=
  inferInstanceAs (Decidable (removesQueue s a → ∀ no, ReceiveEnded (s.client no)))

/-- While the queue exists, a client that has read a "Quit" was sent one and has
no second one waiting. -/
theorem Conserved.delivered {s : State} {no : ClientNo} (h : Conserved s)
    (hlive : s.removed = false) (hread : 0 < quitsRead (s.client no)) :
    no.val ∈ s.server.quitSent ∧ ∀ m ∈ s.queue, m.mtype = no.val → m.isQuit = false := by
  have honce := List.nodup_iff_count_le_one.mp h.once no.val
  have hcount := h.quits hlive no
  have hqueued : quitsQueued no s.queue = 0 := by omega
  refine ⟨List.count_pos_iff.mp (by omega), ?_⟩
  simpa [quitsQueued, Sysv.ofType, List.countP_eq_zero] using hqueued

/-- A client that is not running has a reason for it, a failed `msgrcv` meets
only clients that are stopping, and a receive thread ends only when stopped. -/
structure Excused (c : Client) : Prop where
  reason : c.isRunning = false →
    c.main = .start ∨ (c.main = .exited ∧ c.recv = .absent) ∨ c.signalled = true ∨
      0 < quitsRead c
  failed : ∀ stale, c.recv = .check (.failed stale) → c.isRunning = false
  leaving : c.recv = .exited → c.isRunning = false
  absent : c.recv = .absent →
    c.main = .start ∨ c.main = .create ∨ (c.main = .exited ∧ c.isRunning = false)

theorem excused_initial : Excused Client.initial :=
  ⟨fun _ => Or.inl rfl, by simp [Client.initial], by simp [Client.initial],
    fun _ => Or.inl rfl⟩

/-- Between its start and its end a client has stopped for one of two reasons. -/
theorem Excused.told {c : Client} (h : Excused c) (hstopped : c.isRunning = false)
    (hstart : c.main ≠ .start) (hexited : c.main ≠ .exited) :
    c.signalled = true ∨ 0 < quitsRead c := by
  rcases h.reason hstopped with hmain | ⟨hmain, _⟩ | hreason
  · exact absurd hmain hstart
  · exact absurd hmain hexited
  · exact hreason

theorem excused_main {pid : Nat} {no : ClientNo} {c c' : Client} {ok : Bool}
    (horderly : Orderly c) (h : Excused c) (hstep : MainEffect pid no c ok c') :
    Excused c' := by
  cases hstep with
  | start _ hpc =>
      have habsent := (horderly.fresh (Or.inl hpc)).1
      exact ⟨by simp, by simp [habsent], by simp [habsent], fun _ => Or.inr (Or.inl rfl)⟩
  | create hpc =>
      refine ⟨fun hstopped => ?_, by simp, by simp, by simp⟩
      exact Or.inr (Or.inr (h.told hstopped (by simp [hpc]) (by simp [hpc])))
  | createFails hpc =>
      have habsent := (horderly.fresh (Or.inr hpc)).1
      exact ⟨fun _ => Or.inr (Or.inl ⟨rfl, habsent⟩), by simp, fun _ => rfl,
        fun _ => Or.inr (Or.inr ⟨rfl, rfl⟩)⟩
  | test _ hpc | pop _ _ _ hpc | prepare _ hpc | print _ _ hpc | send _ _ hpc | wake _ hpc
  | join _ hpc | remove _ hpc =>
      refine ⟨fun hstopped => ?_, h.failed, h.leaving, fun habsent => ?_⟩
      · exact Or.inr (Or.inr (h.told hstopped (by simp [hpc]) (by simp [hpc])))
      · -- a client without a receive thread takes none of these steps
        rcases h.absent habsent with hmain | hmain | ⟨hmain, _⟩
        all_goals
          rw [hpc] at hmain
          cases hmain

/-- A receive thread keeps this up as long as `msgrcv` fails only for a client
that is stopping already. -/
theorem excused_recv {c c' : Client} {stale : Message} (horderly : Orderly c)
    (h : Excused c) (hfail : c.recv = .receive → c.isRunning = false)
    (hstep : RecvEffect c (.failed stale) c') : Excused c' := by
  have hreason (hcreated : c.recv ≠ .absent) (hstopped : c.isRunning = false) :
      c.signalled = true ∨ 0 < quitsRead c := by
    rcases h.reason hstopped with hmain | ⟨_, habsent⟩ | hreason
    · exact absurd (Or.inl hmain) (horderly.created hcreated)
    · exact absurd habsent hcreated
    · exact hreason
  cases hstep with
  | test _ hpc =>
      refine ⟨fun hstopped => Or.inr (Or.inr (hreason (by simp [hpc]) hstopped)), ?_, ?_, ?_⟩
      · cases c.isRunning <;> simp
      · cases hflag : c.isRunning <;> simp
      · cases c.isRunning <;> simp
  | fail _ hpc =>
      have hstopped := hfail hpc
      exact ⟨fun _ => Or.inr (Or.inr (hreason (by simp [hpc]) hstopped)),
        fun _ _ => hstopped, fun _ => hstopped, by simp⟩
  | quit _ held hpc hquit =>
      refine ⟨fun _ => Or.inr (Or.inr ?_), by simp, by simp, by simp⟩
      cases held with
      | delivered m =>
          have hread : quitRead (.delivered m) = true := hquit
          exact Or.inr (by simp [quitsRead, hread])
      | failed old =>
          have hread := hreason (by simp [hpc]) (h.failed old hpc)
          simpa [quitsRead, quitRead] using hread
  | push _ held hpc hquit =>
      have hnot : quitRead held = false := by
        cases held with
        | delivered m => exact hquit
        | failed _ => rfl
      refine ⟨fun hstopped => Or.inr (Or.inr ?_), by simp, by simp, by simp⟩
      simpa [quitsRead, hnot] using hreason (by simp [hpc]) hstopped

theorem excused_shutdown {c : Client} (h : Excused c) : Excused (shutdownHandler c) := by
  refine ⟨fun _ => Or.inr (Or.inr (Or.inl rfl)), fun _ _ => rfl, fun _ => rfl,
    fun habsent => ?_⟩
  rcases h.absent habsent with hmain | hmain | ⟨hmain, _⟩
  · exact Or.inl hmain
  · exact Or.inr (Or.inl hmain)
  · exact Or.inr (Or.inr ⟨hmain, rfl⟩)

theorem receiveEnded_main {pid : Nat} {no : ClientNo} {c c' : Client} {ok : Bool}
    (horderly : Orderly c) (h : ReceiveEnded c) (hstep : MainEffect pid no c ok c') :
    ReceiveEnded c' := by
  rcases h with hexited | ⟨_, hmain⟩
  · cases hstep with
    | create hpc =>
        have habsent := (horderly.fresh (Or.inr hpc)).1
        rw [hexited] at habsent
        cases habsent
    | _ => exact Or.inl hexited
  · cases hstep <;> simp_all

/-- A receive thread that takes a step has not ended. -/
theorem not_receiveEnded {c c' : Client} {result : Msgrcv} (hstep : RecvEffect c result c') :
    ¬ ReceiveEnded c := by
  cases hstep with
  | test _ hpc | deliver _ hpc | fail _ hpc | quit _ _ hpc | push _ _ hpc =>
      simp [ReceiveEnded, hpc]

theorem Excused.not_running {c : Client} (horderly : Orderly c) (h : Excused c)
    (hended : ReceiveEnded c) : ¬ StillRunning c := by
  rcases hended with hexited | ⟨habsent, hmain⟩
  · have hcreated := horderly.created (by simp [hexited])
    rintro (hstart | hrunning | hloop)
    · exact hcreated (Or.inl hstart)
    · rw [h.leaving hexited] at hrunning
      cases hrunning
    · rw [hexited] at hloop
      cases hloop
  · have hstopped : c.isRunning = false := by
      rcases h.absent habsent with hstart | hcreate | ⟨_, hstopped⟩
      · rw [hmain] at hstart
        cases hstart
      · rw [hmain] at hcreate
        cases hcreate
      · exact hstopped
    simp [StillRunning, habsent, hmain, hstopped, RecvPc.inLoop]

/-- The invariant of the runs in which every removal comes last. -/
structure Sparing (s : State) : Prop where
  conserved : Conserved s
  excused : ∀ no, Excused (s.client no)
  ended : s.removed = true → ∀ no, ReceiveEnded (s.client no)

theorem sparing_initial (msg : Message) : Sparing (State.initial msg) :=
  ⟨conserved_initial msg, fun _ => excused_initial, fun hgone => by cases hgone⟩

theorem sparing_setClient {s : State} {u : State} {no : ClientNo} {c : Client}
    (h : Sparing s) (hu : u.client = s.client) (hremoved : u.removed = s.removed)
    (hconserved : Conserved (u.setClient no c)) (hexcused : Excused c)
    (hended : ReceiveEnded (s.client no) → ReceiveEnded c) : Sparing (u.setClient no c) := by
  refine ⟨hconserved, ?_, fun hgone => ?_⟩
  · exact forall_setClient (P := fun _ c => Excused c) (hu ▸ h.excused) hexcused
  · have hall := h.ended (hremoved ▸ hgone)
    exact forall_setClient (P := fun _ c => ReceiveEnded c) (hu ▸ hall) (hended (hall no))

theorem ended_of_removes {s : State} {a : Action} (h : Sparing s) (hcond : RemovesLast s a)
    (hremoves : s.removed = false → removesQueue s a) : ∀ no, ReceiveEnded (s.client no) := by
  cases hgone : s.removed with
  | true => exact h.ended hgone
  | false => exact hcond (hremoves hgone)

theorem sparing_step {cap : Nat} {pid : ClientNo → Nat} {s t : State} {a : Action}
    (h : Sparing s) (hcond : RemovesLast s a) (heffect : Effect cap pid s a t) :
    Sparing t := by
  have hconserved := conserved_step h.conserved heffect
  have horderly := h.conserved.clients
  cases heffect with
  | serverRemove hpc =>
      have hall := ended_of_removes h hcond fun hlive => ⟨hpc, hlive⟩
      exact ⟨hconserved, h.excused, fun _ => hall⟩
  | clientRemove no hpc =>
      have hall := ended_of_removes h hcond fun hlive => ⟨hpc, hlive⟩
      have heffect : MainEffect (pid no) no (s.client no) true _ := .remove true hpc
      exact ⟨hconserved,
        forall_setClient (P := fun _ c => Excused c) (s := msgctlRmid s) h.excused
          (excused_main (horderly no) (h.excused no) heffect),
        fun _ => forall_setClient (P := fun _ c => ReceiveEnded c) (s := msgctlRmid s) hall
          (receiveEnded_main (horderly no) (hall no) heffect)⟩
  | mainLocal no c _ hstep =>
      have heffect := mainStep_effect hstep
      exact sparing_setClient h rfl rfl hconserved
        (excused_main (horderly no) (h.excused no) heffect)
        fun hold => receiveEnded_main (horderly no) hold heffect
  | send no m hpc =>
      have heffect : MainEffect (pid no) no (s.client no) true _ := .send true m hpc
      exact sparing_setClient (u := { s with queue := s.queue ++ [m] }) h rfl rfl hconserved
        (excused_main (horderly no) (h.excused no) heffect)
        fun hold => receiveEnded_main (horderly no) hold heffect
  | sendFailed no m hpc =>
      have heffect : MainEffect (pid no) no (s.client no) false _ := .send false m hpc
      exact sparing_setClient h rfl rfl hconserved
        (excused_main (horderly no) (h.excused no) heffect)
        fun hold => receiveEnded_main (horderly no) hold heffect
  | sendInterrupted no m hpc =>
      have heffect : MainEffect (pid no) no (shutdownHandler (s.client no)) false _ :=
        .send false m hpc
      exact sparing_setClient h rfl rfl hconserved
        (excused_main (orderly_shutdown (horderly no)) (excused_shutdown (h.excused no)) heffect)
        fun hold => receiveEnded_main (orderly_shutdown (horderly no)) hold heffect
  | createFails no hpc =>
      have heffect : MainEffect (pid no) no (s.client no) false _ := .createFails hpc
      exact sparing_setClient h rfl rfl hconserved
        (excused_main (horderly no) (h.excused no) heffect)
        fun hold => receiveEnded_main (horderly no) hold heffect
  | recvLocal no stale c hpc hstep =>
      have heffect := recvStep_effect hstep
      exact sparing_setClient h rfl rfl hconserved
        (excused_recv (horderly no) (h.excused no) (fun hreceive => absurd hreceive hpc) heffect)
        fun hold => absurd hold (not_receiveEnded heffect)
  | deliver no _ m rest hpc hlive _ =>
      have hexcused := h.excused no
      refine ⟨hconserved, forall_setClient (P := fun _ c => Excused c) h.excused
        ⟨fun hstopped => ?_, by simp, by simp, by simp⟩, fun hgone => ?_⟩
      · rcases hexcused.reason hstopped with hmain | ⟨_, habsent⟩ | hreason
        · exact Or.inl hmain
        · rw [hpc] at habsent
          cases habsent
        · exact Or.inr (Or.inr hreason)
      · rw [setClient_removed, hlive] at hgone
        cases hgone
  | recvFailed no stale hpc hgone =>
      -- the queue is gone, so no receive thread is left to call `msgrcv`
      have heffect : RecvEffect (s.client no) (.failed stale) _ := .fail stale hpc
      exact absurd (h.ended hgone no) (not_receiveEnded heffect)
  | clientSigint no _ =>
      exact sparing_setClient h rfl rfl hconserved (excused_shutdown (h.excused no)) id
  | recvInterrupted no stale hpc =>
      have heffect : RecvEffect (shutdownHandler (s.client no)) (.failed stale) _ :=
        .fail stale hpc
      exact sparing_setClient h rfl rfl hconserved
        (excused_recv (orderly_shutdown (horderly no)) (excused_shutdown (h.excused no))
          (fun _ => rfl) heffect)
        fun hold => absurd (show ReceiveEnded (shutdownHandler (s.client no)) from hold)
          (not_receiveEnded heffect)
  | _ => exact ⟨hconserved, h.excused, h.ended⟩

/-- Why a receive thread that has ended left its loop. -/
theorem Excused.left {c : Client} (horderly : Orderly c) (h : Excused c)
    (hexited : c.recv = .exited) : c.signalled = true ∨ 0 < quitsRead c := by
  have hcreated : c.recv ≠ .absent := by simp [hexited]
  rcases h.reason (h.leaving hexited) with hmain | ⟨_, habsent⟩ | hreason
  · exact absurd (Or.inl hmain) (horderly.created hcreated)
  · exact absurd habsent hcreated
  · exact hreason

theorem leftByQuit_of_excused {c : Client} (horderly : Orderly c) (h : Excused c) :
    LeftByQuit c := by
  intro hexited
  rcases h.left horderly hexited with hsignal | hread
  · exact Or.inl hsignal
  · obtain ⟨result, hmem, hquit⟩ := List.countP_pos_iff.mp hread
    cases result with
    | delivered m => exact Or.inr ⟨m, hmem, hquit⟩
    | failed stale => cases hquit

theorem Sparing.lawful {s : State} {a : Action} (h : Sparing s) (hlast : RemovesLast s a) :
    LawfulRemoval s a := by
  intro hremoves no howed
  have hlive : s.removed = false := by
    cases a with
    | server => exact hremoves.2
    | main no => exact hremoves.2
    | _ => cases hremoves
  have horderly := h.conserved.clients no
  rcases howed with hrunning | ⟨hexited, hunsignalled⟩
  · exact absurd hrunning ((h.excused no).not_running horderly (hlast hremoves no))
  · refine h.conserved.delivered hlive ?_
    rcases (h.excused no).left horderly hexited with hsignal | hread
    · rw [hunsignalled] at hsignal
      cases hsignal
    · exact hread

/-- In a run that removes the queue only after all receive threads have ended, in
every state reached such a removal is lawful, a queue that is gone cuts no receive
thread off, and every client that has left its receive loop had read a "Quit" or
had been stopped by SIGINT. -/
theorem shutdown_by_quit {cap : Nat} {pid : ClientNo → Nat} {msg : Message} {s : State}
    (h : Reaches (step cap pid) RemovesLast (State.initial msg) s) :
    (∀ a, RemovesLast s a → LawfulRemoval s a) ∧
      (s.removed = true → ∀ no, ¬ StillRunning (s.client no)) ∧
      ∀ no, LeftByQuit (s.client no) := by
  have hinv : Sparing s := by
    apply h.invariant (sparing_initial msg)
    intro u a v hu hcond hstep
    exact sparing_step hu hcond (step_effect hstep)
  have horderly := hinv.conserved.clients
  refine ⟨fun a => hinv.lawful, fun hgone no => ?_, fun no => ?_⟩
  · exact (hinv.excused no).not_running (horderly no) (hinv.ended hgone no)
  · exact leftByQuit_of_excused (horderly no) (hinv.excused no)

/-- All clients are waiting in `msgrcv`, and the server has been told to stop. -/
def stopServer : List Action :=
  [.main .one, .main .one, .recv .one leftover,
   .main .two, .main .two, .recv .two leftover,
   .main .three, .main .three, .recv .three leftover,
   .sigintServer, .server, .server, .server, .server, .server]

/-- The receive threads read their "Quit" and end before the server removes the
queue. -/
theorem shutdown_by_quit_clients_first :
    ∃ s, Reaches (step 8 ClientNo.val) RemovesLast (State.initial leftover) s ∧
      s.removed = true ∧ (∀ no, ¬ StillRunning (s.client no)) ∧
      ∀ no, LeftByQuit (s.client no) := by
  have hreach : Reaches (step 8 ClientNo.val) RemovesLast (State.initial leftover) _ :=
    Reaches.of_run (stopServer ++
      [.recv .one leftover, .recv .one leftover, .recv .one leftover,
       .recv .two leftover, .recv .two leftover, .recv .two leftover,
       .recv .three leftover, .recv .three leftover, .recv .three leftover,
       .server]) rfl (by decide)
  have hshutdown := shutdown_by_quit hreach
  exact ⟨_, hreach, by decide, hshutdown.2.1 (by decide), hshutdown.2.2⟩

/-- The server is scheduled first: it removes the queue while the "Quit" of every
client is still in it, and the next `msgrcv` of client 1 fails. -/
theorem quits_removed_unread :
    ∃ s t, run (step 8 ClientNo.val) (State.initial leftover) stopServer = some s ∧
      ¬ LawfulRemoval s .server ∧
      run (step 8 ClientNo.val) s [.server, .recv .one leftover] = some t ∧
      (t.client .one).recv = .check (.failed leftover) ∧ (t.client .one).delivered = [] := by
  refine ⟨_, _, rfl, ?_, rfl, by decide, by decide⟩
  intro hlawful
  obtain ⟨_, hqueue⟩ := hlawful ⟨rfl, rfl⟩ .one (Or.inl (Or.inr (Or.inl rfl)))
  exact absurd (hqueue (quitMsg 1 leftover) (by decide) rfl) (by decide)

end Unx511.Lab8
