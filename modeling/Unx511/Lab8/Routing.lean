import Unx511.Lab8.Phantom

/-!
Routing in Lab 8, as long as no process has been told to stop. The abstract
model is a dispatcher: a FIFO list of requests whose head is forwarded to the
mailbox of its addressee. The six places a message passes through in the
programs (the queue under type 4, the server's `msg`, the queue under a
client's type, its receive thread, its local queue and its `main` thread) are
the requests and the mailboxes of a dispatcher, cut into pieces.
-/

namespace Unx511.Lab8

open Unx511.Machine

structure Dispatcher where
  forwarded : List MesgBuffer
  requests : List MesgBuffer

namespace Dispatcher

def mailbox (d : Dispatcher) (no : ClientNo) : List MesgBuffer :=
  d.forwarded.filter fun p => p.dest = no.val

/-- Everything a client has posted, in its order. -/
def posted (d : Dispatcher) (no : ClientNo) : List MesgBuffer :=
  (d.forwarded ++ d.requests).filter fun p => p.source = no.val

inductive Move : Dispatcher → Dispatcher → Prop
  | post (d : Dispatcher) (p : MesgBuffer) :
      Move d { d with requests := d.requests ++ [p] }
  | dispatch (d : Dispatcher) (p : MesgBuffer) (rest : List MesgBuffer)
      (hrequests : d.requests = p :: rest) :
      Move d { forwarded := d.forwarded ++ [p], requests := rest }

/-- What reached `dst` from `src`, followed by what still waits for it, is what
`src` posted for `dst`. -/
theorem posted_to (d : Dispatcher) (src dst : ClientNo) :
    (d.mailbox dst).filter (fun p => p.source = src.val) ++
        d.requests.filter (fun p => p.source = src.val ∧ p.dest = dst.val) =
      (d.posted src).filter fun p => p.dest = dst.val := by
  simp only [mailbox, posted, List.filter_append, List.filter_filter, Bool.decide_and]
  congr 1
  · apply List.filter_congr
    intro p _
    exact Bool.and_comm _ _
  · apply List.filter_congr
    intro p _
    exact Bool.and_comm _ _

end Dispatcher

/-- What client `no` took out of the queue, oldest first. -/
def received (c : Client) : List Message :=
  c.printed ++ mainHeld c ++ c.message ++ (recvHeld c).map Msgrcv.buffer

def serverHeld (s : State) : List Message :=
  match s.server.pc with
  | .forward => [s.server.msg]
  | _ => []

def inbound (no : ClientNo) (s : State) : List MesgBuffer :=
  (received (s.client no) ++ Sysv.ofType Message.mtype no.val s.queue).map Message.msgBuf

def pending (s : State) : List MesgBuffer :=
  (serverHeld s ++ Sysv.ofType Message.mtype 4 s.queue).map Message.msgBuf

/-- The messages from `src` to `dst` in the order of the places they are in. -/
def inTransit (src dst : ClientNo) (s : State) : List MesgBuffer :=
  (inbound dst s).filter (fun p => p.source = src.val) ++
    (pending s).filter (fun p => p.source = src.val ∧ p.dest = dst.val)

/-- A message that a client addressed to a client. -/
def Addressed (m : Message) : Prop :=
  m.isQuit = false ∧ 1 ≤ m.msgBuf.dest ∧ m.msgBuf.dest ≤ 3

def MainPc.inLoop : MainPc → Bool
  | .test | .drain | .print _ | .send _ | .sleep => true
  | _ => false

/-- A client that nobody has told to stop: still starting up, gone because its
thread could not be created, or in both of its loops. -/
structure Working (no : ClientNo) (c : Client) : Prop where
  phase : (c.recv = .absent ∧
      (c.main = .start ∨ (c.main = .create ∧ c.isRunning = true) ∨ c.main = .exited)) ∨
    (c.isRunning = true ∧ c.recv ≠ .absent ∧ c.recv ≠ .exited ∧ c.main.inLoop = true)
  sending : ∀ m, c.main = .send m →
    m.mtype = 4 ∧ Addressed m ∧ m.msgBuf.source = no.val
  checking : ∀ result, c.recv = .check result → result.buffer.isQuit = false

theorem working_initial (no : ClientNo) : Working no Client.initial :=
  ⟨Or.inl ⟨rfl, Or.inl rfl⟩, by simp [Client.initial], by simp [Client.initial]⟩

theorem Working.main_inLoop {no : ClientNo} {c : Client} (h : Working no c)
    (hmain : c.main.inLoop = true) :
    c.isRunning = true ∧ c.recv ≠ .absent ∧ c.recv ≠ .exited := by
  rcases h.phase with ⟨_, hpc | ⟨hpc, _⟩ | hpc⟩ | ⟨hrunning, hcreated, hrecv, _⟩
  · simp [hpc, MainPc.inLoop] at hmain
  · simp [hpc, MainPc.inLoop] at hmain
  · simp [hpc, MainPc.inLoop] at hmain
  · exact ⟨hrunning, hcreated, hrecv⟩

theorem Working.recv_inLoop {no : ClientNo} {c : Client} (h : Working no c)
    (hrecv : c.recv ≠ .absent) : c.isRunning = true ∧ c.main.inLoop = true := by
  rcases h.phase with ⟨habsent, _⟩ | ⟨hrunning, _, _, hmain⟩
  · exact absurd habsent hrecv
  · exact ⟨hrunning, hmain⟩

theorem Working.not_leaving {no : ClientNo} {c : Client} (h : Working no c) :
    c.main ≠ .join ∧ c.main ≠ .remove := by
  constructor
  · intro hpc
    simpa [hpc, MainPc.inLoop] using h.phase
  · intro hpc
    simpa [hpc, MainPc.inLoop] using h.phase

/-- While it is not told to stop, `main` keeps to its loop and only moves what
was received along. -/
theorem working_main {pid : Nat} {no : ClientNo} {c c' : Client}
    (h : Working no c) (hstep : MainEffect pid no c true c') :
    Working no c' ∧ received c' = received c := by
  have hphase := h.phase
  have hloop := h.main_inLoop
  cases hstep with
  | start _ hpc =>
      have habsent : c.recv = .absent := by simpa [hpc, MainPc.inLoop] using hphase
      refine ⟨⟨Or.inl ⟨habsent, Or.inr (Or.inl ⟨rfl, rfl⟩)⟩, by simp, h.checking⟩, ?_⟩
      simp [received, mainHeld, recvHeld, hpc]
  | create hpc =>
      have hready : c.recv = .absent ∧ c.isRunning = true := by
        simpa [hpc, MainPc.inLoop] using hphase
      refine ⟨⟨Or.inr ⟨hready.2, by simp, by simp, rfl⟩, by simp, by simp⟩, ?_⟩
      simp [received, mainHeld, recvHeld, hpc, hready.1]
  | test _ hpc =>
      obtain ⟨hrunning, hcreated, hrecv⟩ := hloop (by simp [hpc, MainPc.inLoop])
      refine ⟨⟨Or.inr ⟨hrunning, hcreated, hrecv, by simp [hrunning, MainPc.inLoop]⟩,
        by simp [hrunning], h.checking⟩, ?_⟩
      simp [received, mainHeld, recvHeld, hpc, hrunning]
  | pop _ recvMsg rest hpc hmessage =>
      obtain ⟨hrunning, hcreated, hrecv⟩ := hloop (by simp [hpc, MainPc.inLoop])
      refine ⟨⟨Or.inr ⟨hrunning, hcreated, hrecv, rfl⟩, by simp, h.checking⟩, ?_⟩
      simp [received, mainHeld, recvHeld, hpc, hmessage]
  | prepare _ hpc hmessage =>
      obtain ⟨hrunning, hcreated, hrecv⟩ := hloop (by simp [hpc, MainPc.inLoop])
      refine ⟨⟨Or.inr ⟨hrunning, hcreated, hrecv, rfl⟩, ?_, h.checking⟩, ?_⟩
      · rintro m hm
        cases hm
        exact ⟨rfl, ⟨sendMsg_not_quit pid no _, nextDest_bounds no c.dest⟩, rfl⟩
      · simp [received, mainHeld, recvHeld, hpc]
  | print _ _ hpc | send _ _ hpc | wake _ hpc =>
      obtain ⟨hrunning, hcreated, hrecv⟩ := hloop (by simp [hpc, MainPc.inLoop])
      refine ⟨⟨Or.inr ⟨hrunning, hcreated, hrecv, rfl⟩, by simp, h.checking⟩, ?_⟩
      simp [received, mainHeld, recvHeld, hpc]
  | join _ hpc _ => exact absurd hpc h.not_leaving.1
  | remove _ hpc => exact absurd hpc h.not_leaving.2

/-- The same for the statements of the receive thread other than `msgrcv`: a
tested message goes to the end of the local queue. -/
theorem working_recv {no : ClientNo} {c c' : Client} {result : Msgrcv}
    (h : Working no c) (hpc : c.recv ≠ .receive) (hstep : RecvEffect c result c') :
    Working no c' ∧ received c' = received c ∧ c'.sent = c.sent := by
  cases hstep with
  | test _ htest =>
      obtain ⟨hrunning, hmain⟩ := h.recv_inLoop (by simp [htest])
      refine ⟨⟨Or.inr ⟨hrunning, ?_, ?_, hmain⟩, h.sending, ?_⟩, ?_, rfl⟩
      · simp [hrunning]
      · simp [hrunning]
      · simp [hrunning]
      · simp [received, mainHeld, recvHeld, htest, hrunning]
  | deliver m hreceive => exact absurd hreceive hpc
  | fail stale hreceive => exact absurd hreceive hpc
  | quit _ held hcheck hquit =>
      have hno : held.buffer.isQuit = false := h.checking held hcheck
      rw [hno] at hquit
      cases hquit
  | push _ held hcheck hquit =>
      obtain ⟨hrunning, hmain⟩ := h.recv_inLoop (by simp [hcheck])
      refine ⟨⟨Or.inr ⟨hrunning, by simp, by simp, hmain⟩, h.sending, by simp⟩, ?_, rfl⟩
      simp [received, mainHeld, recvHeld, hcheck]

theorem working_deliver {no : ClientNo} {c : Client} {m : Message} (h : Working no c)
    (hpc : c.recv = .receive) (hquit : m.isQuit = false) :
    let c' := { c with delivered := c.delivered ++ [m], recv := .check (.delivered m) }
    Working no c' ∧ received c' = received c ++ [m] := by
  obtain ⟨hrunning, hmain⟩ := h.recv_inLoop (by simp [hpc])
  refine ⟨⟨Or.inr ⟨hrunning, by simp, by simp, hmain⟩, h.sending, ?_⟩, ?_⟩
  · rintro result hresult
    cases hresult
    exact hquit
  · simp [received, mainHeld, recvHeld, hpc, Msgrcv.buffer]

theorem mainLocal_sent {pid : Nat} {no : ClientNo} {c c' : Client}
    (hpc : c.main.isLocal = true) (hstep : MainEffect pid no c true c') :
    c'.sent = c.sent := by
  cases hstep with
  | send _ m hsend => simp [hsend, MainPc.isLocal] at hpc
  | _ => rfl

/-- No process has been told to stop: the server is in its forward loop, the
clients are working and only requests and deliveries are queued. -/
structure Serving (s : State) : Prop where
  live : s.removed = false
  running : s.server.isRunning = true
  serving : s.server.pc = .test ∨ s.server.pc = .receive ∨ s.server.pc = .forward
  held : s.server.pc = .forward →
    Addressed s.server.msg ∧ s.server.msg.mtype = s.server.msg.msgBuf.dest
  queued : ∀ m ∈ s.queue, Addressed m ∧ (m.mtype = 4 ∨ m.mtype = m.msgBuf.dest)
  clients : ∀ no, Working no (s.client no)

/-- The dispatcher that a state of the programs stands for. -/
structure Represents (s : State) (d : Dispatcher) : Prop where
  inbound : ∀ no, inbound no s = d.mailbox no
  pending : pending s = d.requests
  posted : ∀ no, (s.client no).sent = d.posted no

theorem inbound_setClient_self (s : State) (no : ClientNo) (c : Client) :
    inbound no (s.setClient no c) =
      (received c ++ Sysv.ofType Message.mtype no.val s.queue).map Message.msgBuf := by
  simp [inbound]

theorem inbound_setClient_other (s : State) {no other : ClientNo} (c : Client)
    (hne : other ≠ no) : inbound other (s.setClient no c) = inbound other s := by
  simp [inbound, setClient_client_other s c hne]

theorem pending_setClient (s : State) (no : ClientNo) (c : Client) :
    pending (s.setClient no c) = pending s := rfl

/-- A step inside one client that moves its received messages along and sends
nothing changes nothing for the dispatcher. -/
theorem represents_setClient {s : State} {d : Dispatcher} {no : ClientNo} {c : Client}
    (h : Represents s d) (hreceived : received c = received (s.client no))
    (hsent : c.sent = (s.client no).sent) : Represents (s.setClient no c) d := by
  refine ⟨fun other => ?_, h.pending, fun other => ?_⟩
  · by_cases hother : other = no
    · subst hother
      rw [inbound_setClient_self, hreceived]
      exact h.inbound other
    · rw [inbound_setClient_other s c hother]
      exact h.inbound other
  · by_cases hother : other = no
    · subst hother
      rw [setClient_client_self, hsent]
      exact h.posted other
    · rw [setClient_client_other s c hother]
      exact h.posted other

theorem serving_setClient {s : State} {no : ClientNo} {c : Client} (h : Serving s)
    (hworking : Working no c) : Serving (s.setClient no c) :=
  ⟨h.live, h.running, h.serving, h.held, h.queued, forall_setClient h.clients hworking⟩

/-- The server takes a request out of the queue: it stays the first pending one. -/
theorem receive_simulated {s : State} {d : Dispatcher} {msg : Message} {rest : List Message}
    (hserving : Serving s) (h : Represents s d) (hpc : s.server.pc = .receive)
    (hreceive : Sysv.receive Message.mtype 4 s.queue = some (msg, rest)) :
    let t := { s with
      queue := rest
      server.msg := { msg with mtype := msg.msgBuf.dest }
      server.pc := .forward }
    Serving t ∧ Represents t d := by
  have haddressed := (hserving.queued msg (Sysv.receive_mem hreceive)).1
  have hhead := Sysv.ofType_receive_same hreceive
  refine ⟨⟨hserving.live, hserving.running, Or.inr (Or.inr rfl), fun _ => ⟨haddressed, rfl⟩,
    fun m hm => hserving.queued m (Sysv.mem_of_mem_receive hreceive hm), hserving.clients⟩,
    ⟨fun no => ?_, ?_, h.posted⟩⟩
  · have hother := Sysv.ofType_receive_other no.val_ne_four.symm hreceive
    have hin := h.inbound no
    simp only [inbound, hother] at hin
    exact hin
  · have hpending := h.pending
    simp only [pending, serverHeld, hpc, hhead, List.nil_append] at hpending
    simpa [pending, serverHeld] using hpending

/-- The server puts its message back into the queue under the type of the
addressee: the dispatcher forwards its first request. -/
theorem forward_simulated {s : State} {d : Dispatcher} (hserving : Serving s)
    (h : Represents s d) (hpc : s.server.pc = .forward) :
    let t := { s with queue := s.queue ++ [s.server.msg], server.pc := .test }
    Serving t ∧ ∃ e, d.Move e ∧ Represents t e := by
  obtain ⟨haddressed, htype⟩ := hserving.held hpc
  have hfour : s.server.msg.mtype ≠ 4 := by
    have := haddressed.2.2
    omega
  have hrequests : d.requests = s.server.msg.msgBuf ::
      (Sysv.ofType Message.mtype 4 s.queue).map Message.msgBuf := by
    rw [← h.pending]
    simp [pending, serverHeld, hpc]
  refine ⟨⟨hserving.live, hserving.running, Or.inl rfl, by simp, ?_, hserving.clients⟩,
    _, .dispatch d _ _ hrequests, ⟨fun no => ?_, ?_, fun no => ?_⟩⟩
  · intro m hm
    rcases List.mem_append.mp hm with hold | hnew
    · exact hserving.queued m hold
    · rw [List.mem_singleton.mp hnew]
      exact ⟨haddressed, Or.inr htype⟩
  · have hin := h.inbound no
    simp only [inbound, Dispatcher.mailbox, List.map_append] at hin
    by_cases hdest : s.server.msg.mtype = no.val
    · simp only [inbound, Dispatcher.mailbox, List.map_append,
        Sysv.ofType_send_same hdest, List.filter_append, ← hin]
      simp [← htype, hdest]
    · simp only [inbound, Dispatcher.mailbox, List.map_append,
        Sysv.ofType_send_other hdest, List.filter_append, ← hin]
      simp [← htype, hdest]
  · simp [pending, serverHeld, Sysv.ofType_send_other hfour]
  · rw [h.posted no]
    simp [Dispatcher.posted, hrequests]

/-- A client's `msgsnd` posts a request. -/
theorem send_simulated {s : State} {d : Dispatcher} {no : ClientNo} {m : Message}
    (hserving : Serving s) (h : Represents s d) (hpc : (s.client no).main = .send m) :
    let t := State.setClient { s with queue := s.queue ++ [m] } no
      { s.client no with sent := (s.client no).sent ++ [m.msgBuf], main := .sleep }
    Serving t ∧ ∃ e, d.Move e ∧ Represents t e := by
  have hworking := hserving.clients no
  obtain ⟨hfour, haddressed, hsource⟩ := hworking.sending m hpc
  obtain ⟨hrunning, hcreated, hrecv⟩ := hworking.main_inLoop (by simp [hpc, MainPc.inLoop])
  refine ⟨⟨hserving.live, hserving.running, hserving.serving, hserving.held, ?_,
      forall_setClient hserving.clients
        ⟨Or.inr ⟨hrunning, hcreated, hrecv, rfl⟩, by simp, hworking.checking⟩⟩,
    _, .post d m.msgBuf, ⟨fun other => ?_, ?_, fun other => ?_⟩⟩
  · intro x hx
    rcases List.mem_append.mp hx with hold | hnew
    · exact hserving.queued x hold
    · rw [List.mem_singleton.mp hnew]
      exact ⟨haddressed, Or.inl hfour⟩
  · have hne : m.mtype ≠ other.val := by
      rw [hfour]
      exact other.val_ne_four.symm
    have hin := h.inbound other
    by_cases hother : other = no
    · subst hother
      rw [inbound_setClient_self]
      simpa [inbound, Dispatcher.mailbox, Sysv.ofType_send_other hne, received, mainHeld,
        recvHeld, hpc] using hin
    · rw [inbound_setClient_other _ _ hother]
      simpa [inbound, Dispatcher.mailbox, Sysv.ofType_send_other hne] using hin
  · rw [pending_setClient, ← h.pending]
    simp [pending, serverHeld, Sysv.ofType_send_same hfour]
  · by_cases hother : other = no
    · subst hother
      have hposted := h.posted other
      simp only [Dispatcher.posted, List.filter_append] at hposted
      simp [Dispatcher.posted, hposted, hsource]
    · have hne : m.msgBuf.source ≠ other.val := by
        rw [hsource]
        exact fun heq => hother (ClientNo.val_injective heq.symm)
      rw [setClient_client_other _ _ hother, h.posted other]
      simp [Dispatcher.posted, hne]

/-- A client's `msgrcv` takes its oldest message: it stays in its mailbox. -/
theorem deliver_simulated {s : State} {d : Dispatcher} {no : ClientNo} {m : Message}
    {rest : List Message} (hserving : Serving s) (h : Represents s d)
    (hpc : (s.client no).recv = .receive)
    (hreceive : Sysv.receive Message.mtype no.val s.queue = some (m, rest)) :
    let t := State.setClient { s with queue := rest } no
      { s.client no with
        delivered := (s.client no).delivered ++ [m]
        recv := .check (.delivered m) }
    Serving t ∧ Represents t d := by
  have hquit := (hserving.queued m (Sysv.receive_mem hreceive)).1.1
  obtain ⟨hworking, hreceived⟩ := working_deliver (hserving.clients no) hpc hquit
  have hhead := Sysv.ofType_receive_same hreceive
  refine ⟨⟨hserving.live, hserving.running, hserving.serving, hserving.held,
      fun x hx => hserving.queued x (Sysv.mem_of_mem_receive hreceive hx),
      forall_setClient hserving.clients hworking⟩,
    ⟨fun other => ?_, ?_, fun other => ?_⟩⟩
  · have hin := h.inbound other
    by_cases hother : other = no
    · subst hother
      rw [inbound_setClient_self, hreceived]
      simpa [inbound, hhead] using hin
    · have hne : no.val ≠ other.val := fun heq => hother (ClientNo.val_injective heq.symm)
      have hsame := Sysv.ofType_receive_other hne hreceive
      rw [inbound_setClient_other _ _ hother]
      simpa [inbound, hsame] using hin
  · have hsame := Sysv.ofType_receive_other no.val_ne_four hreceive
    rw [pending_setClient, ← h.pending]
    simp [pending, serverHeld, hsame]
  · by_cases hother : other = no
    · subst hother
      simpa using h.posted other
    · rw [setClient_client_other _ _ hother]
      exact h.posted other

/-- The condition on a run in which nobody is told to stop. -/
def noSigint (_ : State) (a : Action) : Prop := a.isSigint = false

/-- One step of the programs is at most one move of the dispatcher. -/
theorem step_simulated {cap : Nat} {pid : ClientNo → Nat} {s t : State} {a : Action}
    {d : Dispatcher} (hserving : Serving s) (h : Represents s d) (hno : noSigint s a)
    (heffect : Effect cap pid s a t) :
    Serving t ∧ ∃ e, Relation.ReflTransGen Dispatcher.Move d e ∧ Represents t e := by
  have hstay {u : State} (hu : Serving u ∧ Represents u d) :
      Serving u ∧ ∃ e, Relation.ReflTransGen Dispatcher.Move d e ∧ Represents u e :=
    ⟨hu.1, d, Relation.ReflTransGen.refl, hu.2⟩
  have hmove {u : State} (hu : Serving u ∧ ∃ e, d.Move e ∧ Represents u e) :
      Serving u ∧ ∃ e, Relation.ReflTransGen Dispatcher.Move d e ∧ Represents u e := by
    obtain ⟨hu, e, hmove, hrep⟩ := hu
    exact ⟨hu, e, Relation.ReflTransGen.single hmove, hrep⟩
  cases heffect with
  | serverTest hpc =>
      simp only [hserving.running, if_true]
      refine hstay ⟨⟨hserving.live, rfl, Or.inr (Or.inl rfl), by simp,
        hserving.queued, hserving.clients⟩, ⟨h.inbound, ?_, h.posted⟩⟩
      simpa [pending, serverHeld, hpc] using h.pending
  | serverIdle hpc =>
      refine hstay ⟨⟨hserving.live, hserving.running, Or.inl rfl, by simp,
        hserving.queued, hserving.clients⟩, ⟨h.inbound, ?_, h.posted⟩⟩
      simpa [pending, serverHeld, hpc] using h.pending
  | serverReceive msg rest hpc _ hreceive =>
      exact hstay (receive_simulated hserving h hpc hreceive)
  | forward hpc _ _ => exact hmove (forward_simulated hserving h hpc)
  | send no m hpc _ _ => exact hmove (send_simulated hserving h hpc)
  | deliver no _ m rest hpc _ hreceive =>
      exact hstay (deliver_simulated hserving h hpc hreceive)
  | mainLocal no c hpc hstep =>
      have heffect := mainStep_effect hstep
      obtain ⟨hworking, hreceived⟩ := working_main (hserving.clients no) heffect
      exact hstay ⟨serving_setClient hserving hworking,
        represents_setClient h hreceived (mainLocal_sent hpc heffect)⟩
  | createFails no hpc =>
      have hphase := (hserving.clients no).phase
      have hready : (s.client no).recv = .absent := by
        simp only [hpc, MainPc.inLoop] at hphase
        simp_all
      refine hstay ⟨serving_setClient hserving
        ⟨Or.inl ⟨hready, Or.inr (Or.inr rfl)⟩, by simp, by simp [hready]⟩,
        represents_setClient h ?_ rfl⟩
      simp [received, mainHeld, recvHeld, hpc]
  | recvLocal no stale c hpc hstep =>
      obtain ⟨hworking, hreceived, hsent⟩ :=
        working_recv (hserving.clients no) hpc (recvStep_effect hstep)
      exact hstay ⟨serving_setClient hserving hworking, represents_setClient h hreceived hsent⟩
  | forwardFailed _ hgone | quitFailed _ _ _ hgone | sendFailed _ _ _ hgone
  | recvFailed _ _ _ hgone =>
      rw [hserving.live] at hgone
      cases hgone
  | quit _ hpc | quitEnd _ hpc | serverRemove hpc =>
      rcases hserving.serving with h' | h' | h' <;> rw [hpc] at h' <;> cases h'
  | clientRemove no hpc => exact absurd hpc (hserving.clients no).not_leaving.2
  | serverSigint | forwardInterrupted | quitInterrupted | clientSigint | sendInterrupted
  | recvInterrupted => cases hno

theorem serving_initial (msg : Message) : Serving (State.initial msg) :=
  ⟨rfl, rfl, Or.inl rfl, by simp [State.initial], by simp [State.initial],
    fun no => working_initial no⟩

theorem represents_initial (msg : Message) :
    Represents (State.initial msg) { forwarded := [], requests := [] } := by
  refine ⟨fun _ => ?_, ?_, fun _ => ?_⟩ <;> rfl

/-- The running programs refine the dispatcher. -/
theorem refines_dispatcher {cap : Nat} {pid : ClientNo → Nat} {msg : Message} {s : State}
    (h : Reaches (step cap pid) noSigint (State.initial msg) s) :
    ∃ d, Relation.ReflTransGen Dispatcher.Move { forwarded := [], requests := [] } d ∧
      Serving s ∧ Represents s d := by
  refine h.simulation (R := fun u e => Serving u ∧ Represents u e)
    ⟨serving_initial msg, represents_initial msg⟩ ?_
  rintro u a v e ⟨hserving, hrep⟩ hno hstep
  obtain ⟨hserving', f, hmoves, hrep'⟩ := step_simulated hserving hrep hno (step_effect hstep)
  exact ⟨f, hmoves, hserving', hrep'⟩

/-- In every state reached before a process is told to stop, the places between
`src` and `dst`, read from the screen of `dst` back to the queue under type 4,
hold exactly the messages that `src` sent to `dst`, in order. The queue still
exists, and no receive thread holds a message that reads as "Quit". -/
theorem routing {cap : Nat} {pid : ClientNo → Nat} {msg : Message} {s : State}
    (h : Reaches (step cap pid) noSigint (State.initial msg) s) :
    (∀ src dst, inTransit src dst s =
        (s.client src).sent.filter fun p => p.dest = dst.val) ∧
      (∀ no result, (s.client no).recv = .check result → result.buffer.isQuit = false) ∧
      s.removed = false := by
  obtain ⟨d, _, hserving, hrep⟩ := refines_dispatcher h
  refine ⟨fun src dst => ?_, fun no => (hserving.clients no).checking, hserving.live⟩
  rw [inTransit, hrep.inbound dst, hrep.pending, hrep.posted src]
  exact d.posted_to src dst

/-- A request of client 1 on its way to client 2 while a second one waits. -/
theorem routing_two_requests :
    ∃ s, Reaches (step 8 ClientNo.val) noSigint (State.initial leftover) s ∧
      (s.client .one).sent.length = 2 ∧ s.server.pc = .forward ∧
      inTransit .one .two s = (s.client .one).sent.filter (fun p => p.dest = 2) := by
  have hreach : Reaches (step 8 ClientNo.val) noSigint (State.initial leftover) _ :=
    Reaches.of_run [.main .one, .main .one, .main .one, .main .one, .main .one, .main .one,
      .main .one, .main .one, .main .one, .server, .server] rfl
      (by simp [StepsMeet, noSigint, Action.isSigint])
  exact ⟨_, hreach, by decide, by decide, (routing hreach).1 .one .two⟩

end Unx511.Lab8
