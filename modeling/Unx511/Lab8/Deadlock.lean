import Unx511.Lab8.Routing

/-!
The server of Lab 8 frees one slot of the queue when it takes a request and
needs one back to forward it. If the clients fill the queue with further
requests in between, nothing can move: the server and every `main` wait for a
slot, and every receive thread waits for a message that only the server can
send. This can happen at every capacity. It needs one particular step, a client
that takes the last free slot in that situation, and without such a step it
never happens.
-/

namespace Unx511.Lab8

open Unx511.Machine

/-- Server, `main` threads and receive threads are all blocked in their calls. -/
structure Deadlocked (cap : Nat) (pid : ClientNo → Nat) (s : State) : Prop where
  server : s.server.pc = .forward ∧ step cap pid s .server = none
  main : ∀ no, (∃ m, (s.client no).main = .send m) ∧ step cap pid s (.main no) = none
  recv : ∀ no stale, (s.client no).recv = .receive ∧
    step cap pid s (.recv no stale) = none

/-- No receive thread can take anything that is queued. -/
def OnlyRequests (queue : List Message) : Prop :=
  ∀ m ∈ queue, ∀ no : ClientNo, m.mtype ≠ no.val

/-- A client's `msgsnd` that takes the last free slot of a queue without
deliveries while the server holds a message to forward. -/
def takesLastSlot (cap : Nat) (s : State) : Action → Prop
  | .main no => (∃ m, (s.client no).main = .send m) ∧ s.removed = false ∧
      s.server.pc = .forward ∧ s.queue.length + 1 = cap ∧ OnlyRequests s.queue
  | _ => False

/-- The queue is full of requests while the server holds a message. -/
def Jammed (cap : Nat) (s : State) : Prop :=
  s.server.pc = .forward ∧ s.removed = false ∧ s.queue.length = cap ∧ OnlyRequests s.queue

/-- The kernel never queues more than `cap` messages. -/
def WithinCapacity (cap : Nat) (s : State) : Prop := s.queue.length ≤ cap

theorem withinCapacity_step {cap : Nat} {pid : ClientNo → Nat} {s t : State} {a : Action}
    (h : WithinCapacity cap s) (heffect : Effect cap pid s a t) : WithinCapacity cap t := by
  unfold WithinCapacity at h ⊢
  cases heffect with
  | serverReceive msg rest _ _ hreceive =>
      have hlength := Sysv.receive_length hreceive
      change rest.length ≤ cap
      omega
  | deliver no _ m rest _ _ hreceive =>
      have hlength := Sysv.receive_length hreceive
      change rest.length ≤ cap
      omega
  | forward _ _ hroom | quit _ _ _ _ hroom | send _ _ _ _ hroom =>
      simp only [setClient_queue, List.length_append, List.length_singleton]
      omega
  | serverRemove | clientRemove => exact Nat.zero_le cap
  | _ => exact h

theorem jammed_of_deadlocked {cap : Nat} {pid : ClientNo → Nat} {s : State}
    (hcap : WithinCapacity cap s) (h : Deadlocked cap pid s) : Jammed cap s := by
  obtain ⟨hpc, hblocked⟩ := h.server
  have hsend : msgsnd cap s.server.msg s = none := by
    simpa [step, serverStep, hpc] using hblocked
  have hfull : s.removed = false ∧ ¬ s.queue.length < cap := by
    unfold msgsnd at hsend
    split at hsend
    · cases hsend
    · next hlive =>
        split at hsend
        · cases hsend
        · next hroom => exact ⟨by simpa using hlive, hroom⟩
  refine ⟨hpc, hfull.1, Nat.le_antisymm hcap (Nat.le_of_not_lt hfull.2), ?_⟩
  intro m hm no
  obtain ⟨hrecv, hwaits⟩ := h.recv no m
  have hnone : Sysv.receive Message.mtype no.val s.queue = none := by
    cases hreceive : Sysv.receive Message.mtype no.val s.queue with
    | none => rfl
    | some r => simp [step, clientRecv, hrecv, msgrcv, hfull.1, hreceive, recvStep] at hwaits
  exact Sysv.receive_eq_none_iff.mp hnone m hm

/-- The queue can only jam through a client that takes the last slot. -/
theorem jammed_step {cap : Nat} {pid : ClientNo → Nat} {s t : State} {a : Action}
    (hcap : WithinCapacity cap s) (h : ¬ Jammed cap s) (hslot : ¬ takesLastSlot cap s a)
    (heffect : Effect cap pid s a t) : ¬ Jammed cap t := by
  rintro ⟨hpc, hlive, hlength, honly⟩
  unfold WithinCapacity at hcap
  cases heffect with
  | serverReceive msg rest _ _ hreceive =>
      have hless := Sysv.receive_length hreceive
      change rest.length = cap at hlength
      omega
  | deliver no _ m rest _ _ hreceive =>
      have hless := Sysv.receive_length hreceive
      change rest.length = cap at hlength
      omega
  | send no m hsend hlive' hroom =>
      simp only [setClient_queue, List.length_append, List.length_singleton] at hlength
      refine hslot ⟨⟨m, hsend⟩, hlive', hpc, hlength, fun x hx => honly x ?_⟩
      exact List.mem_append_left _ hx
  | serverTest =>
      cases hrunning : s.server.isRunning <;> simp [hrunning] at hpc
  | serverIdle | forward | forwardFailed | quit | quitFailed | quitEnd | serverRemove
  | forwardInterrupted | quitInterrupted => cases hpc
  | clientRemove => cases hlive
  | _ => exact h ⟨hpc, hlive, hlength, honly⟩

/-- In every run in which no client takes the last slot of a queue without
deliveries while the server holds a message, no state reached is deadlocked. -/
theorem no_deadlock {cap : Nat} {pid : ClientNo → Nat} {msg : Message} {s : State}
    (h : Reaches (step cap pid) (fun u a => ¬ takesLastSlot cap u a) (State.initial msg) s) :
    ¬ Deadlocked cap pid s := by
  have hinv : WithinCapacity cap s ∧ ¬ Jammed cap s := by
    apply h.invariant (I := fun u => WithinCapacity cap u ∧ ¬ Jammed cap u)
    · exact ⟨Nat.zero_le cap, fun hjam => by cases hjam.1⟩
    · rintro u a v ⟨hwithin, hjam⟩ hslot hstep
      exact ⟨withinCapacity_step hwithin (step_effect hstep),
        jammed_step hwithin hjam hslot (step_effect hstep)⟩
  exact fun hdead => hinv.2 (jammed_of_deadlocked hinv.1 hdead)

/-- Client 1 sends the request that fills a queue of one slot while the server
is idle, and the server takes it. -/
theorem no_deadlock_one_request :
    ∃ s, s.server.pc = .forward ∧ (s.client .one).sent.length = 1 ∧
      ¬ Deadlocked 1 ClientNo.val s := by
  have hidle {u : State} (hpc : u.server.pc = .test) (no : ClientNo) :
      ¬ takesLastSlot 1 u (.main no) := by
    rintro ⟨_, _, hforward, _⟩
    rw [hpc] at hforward
    cases hforward
  have hreach : Reaches (step 1 ClientNo.val) (fun u a => ¬ takesLastSlot 1 u a)
      (State.initial leftover) _ :=
    .head (hidle rfl .one) rfl <| .head (hidle rfl .one) rfl <| .head (hidle rfl .one) rfl <|
      .head (hidle rfl .one) rfl <| .head (hidle rfl .one) rfl <|
      .head (a := .server) id rfl <| .head (a := .server) id rfl <| .refl _
  exact ⟨_, by decide, by decide, no_deadlock hreach⟩

/-- Every client is about to send its request, nothing has been delivered and
only requests are queued. -/
structure AllSending (s : State) : Prop where
  live : s.removed = false
  sending : ∀ no, ∃ m, (s.client no).main = .send m ∧ m.mtype = 4
  running : ∀ no, (s.client no).isRunning = true ∧ (s.client no).message = [] ∧
    (s.client no).recv = .receive
  requests : ∀ m ∈ s.queue, m.mtype = 4

/-- One turn of a client's main loop: send, sleep, test the flag, find nothing
to print and prepare the next request. -/
def turn (no : ClientNo) : List Action := [.main no, .main no, .main no, .main no]

theorem turn_sends (cap : Nat) (pid : ClientNo → Nat) {s : State} (no : ClientNo)
    (h : AllSending s) (hroom : s.queue.length < cap) :
    ∃ t, run (step cap pid) s (turn no) = some t ∧ AllSending t ∧
      t.queue.length = s.queue.length + 1 ∧ t.server = s.server := by
  obtain ⟨m, hsend, hfour⟩ := h.sending no
  obtain ⟨hrunning, hmessage, hrecv⟩ := h.running no
  refine ⟨State.setClient { s with queue := s.queue ++ [m] } no
    { s.client no with
      sent := (s.client no).sent ++ [m.msgBuf]
      dest := nextDest no (s.client no).dest
      main := .send (sendMsg (pid no) no (nextDest no (s.client no).dest)) },
    ?_, ⟨h.live, ?_, ?_, ?_⟩, by simp, rfl⟩
  · simp [turn, run, step, clientMain, hsend, msgsnd, h.live, hroom, mainStep,
      State.setClient, hrunning, hmessage]
  · exact forall_setClient (P := fun _ c => ∃ x, c.main = .send x ∧ x.mtype = 4)
      h.sending ⟨_, rfl, rfl⟩
  · exact forall_setClient
      (P := fun _ c => c.isRunning = true ∧ c.message = [] ∧ c.recv = .receive)
      h.running ⟨hrunning, hmessage, hrecv⟩
  · intro x hx
    rcases List.mem_append.mp hx with hold | hnew
    · exact h.requests x hold
    · rw [List.mem_singleton.mp hnew]
      exact hfour

/-- Client 1 alone can fill what is left of the queue. -/
theorem turns_fill (cap : Nat) (pid : ClientNo → Nat) (n : Nat) {s : State}
    (h : AllSending s) (hroom : s.queue.length + n ≤ cap) :
    ∃ as t, run (step cap pid) s as = some t ∧ AllSending t ∧
      t.queue.length = s.queue.length + n ∧ t.server = s.server := by
  induction n generalizing s with
  | zero => exact ⟨[], s, rfl, h, rfl, rfl⟩
  | succ n ih =>
      obtain ⟨u, hturn, hu, hlength, hserver⟩ :=
        turn_sends cap pid .one h (by omega)
      obtain ⟨as, t, hrun, ht, htotal, hserver'⟩ := ih hu (by omega)
      refine ⟨turn .one ++ as, t, ?_, ht, by omega, hserver'.trans hserver⟩
      rw [run_append_of_eq hturn]
      exact hrun

theorem deadlocked_of_allSending {cap : Nat} {pid : ClientNo → Nat} {s : State}
    (h : AllSending s) (hpc : s.server.pc = .forward) (hfull : s.queue.length = cap) :
    Deadlocked cap pid s := by
  have hblocked (m : Message) : msgsnd cap m s = none := by
    simp [msgsnd, h.live, hfull]
  refine ⟨⟨hpc, by simp [step, serverStep, hpc, hblocked]⟩, fun no => ?_, fun no stale => ?_⟩
  · obtain ⟨m, hsend, _⟩ := h.sending no
    exact ⟨⟨m, hsend⟩, by simp [step, clientMain, hsend, hblocked]⟩
  · have hrecv := (h.running no).2.2
    have hnone : Sysv.receive Message.mtype no.val s.queue = none := by
      apply Sysv.receive_eq_none_iff.mpr
      intro m hm
      rw [h.requests m hm]
      exact no.val_ne_four.symm
    exact ⟨hrecv, by simp [step, clientRecv, hrecv, msgrcv, h.live, hnone]⟩

/-- The clients and their receive threads start, the server does not yet. -/
def startUp : List Action :=
  [.main .one, .main .one, .main .one, .main .one, .recv .one leftover,
   .main .two, .main .two, .main .two, .main .two, .recv .two leftover,
   .main .three, .main .three, .main .three, .main .three, .recv .three leftover]

theorem startUp_allSending (cap : Nat) (pid : ClientNo → Nat) (msg : Message) :
    ∃ s, run (step cap pid) (State.initial msg) startUp = some s ∧ AllSending s ∧
      s.queue = [] ∧ s.server = (State.initial msg).server := by
  refine ⟨_, rfl, ⟨rfl, ?_, ?_, by simp [State.setClient, State.initial]⟩, rfl, rfl⟩
  · intro no
    cases no <;> exact ⟨_, rfl, rfl⟩
  · intro no
    cases no <;> exact ⟨rfl, rfl, rfl⟩

/-- The smallest case: a queue of one slot and two requests of client 1. -/
theorem deadlock_at_capacity_one :
    ∃ s, run (step 1 ClientNo.val) (State.initial leftover)
        (startUp ++ turn .one ++ [.server, .server] ++ turn .one) = some s ∧
      Deadlocked 1 ClientNo.val s := by
  refine ⟨_, rfl, deadlocked_of_allSending ⟨rfl, ?_, ?_, by decide⟩ rfl rfl⟩
  · intro no
    cases no <;> exact ⟨_, rfl, rfl⟩
  · intro no
    cases no <;> exact ⟨rfl, rfl, rfl⟩

/-- The server wakes up to a full queue, takes the oldest request, and client 1
takes the slot before it is forwarded. -/
theorem deadlock_reachable {cap : Nat} (hcap : 1 ≤ cap) (pid : ClientNo → Nat)
    (msg : Message) :
    ∃ s, Reaches (step cap pid) anyAction (State.initial msg) s ∧ Deadlocked cap pid s := by
  obtain ⟨s₀, hstart, h₀, hempty, hserver₀⟩ := startUp_allSending cap pid msg
  obtain ⟨fill, s₁, hfill, h₁, hlength₁, hserver₁⟩ :=
    turns_fill cap pid cap h₀ (by simp [hempty])
  have hserver : s₁.server = (State.initial msg).server := hserver₁.trans hserver₀
  have hfull : s₁.queue.length = cap := by simpa [hempty] using hlength₁
  -- the queue is not empty, so the server finds a request
  obtain ⟨m, rest, hqueue⟩ : ∃ m rest, s₁.queue = m :: rest := by
    cases hq : s₁.queue with
    | nil => rw [hq] at hfull; simp at hfull; omega
    | cons m rest => exact ⟨m, rest, rfl⟩
  have hfour : m.mtype = 4 := h₁.requests m (by simp [hqueue])
  let s₂ : State := { s₁ with
    queue := rest
    server.msg := { m with mtype := m.msgBuf.dest }
    server.pc := .forward }
  have htake : run (step cap pid) s₁ [.server, .server] = some s₂ := by
    simp [run, step, serverStep, hserver, State.initial, h₁.live, hqueue, Sysv.receive, hfour,
      s₂]
  have h₂ : AllSending s₂ :=
    ⟨h₁.live, h₁.sending, h₁.running,
      fun x hx => h₁.requests x (hqueue ▸ List.mem_cons_of_mem m hx)⟩
  have hlength₂ : s₂.queue.length + 1 = cap := by simpa [hqueue] using hfull
  obtain ⟨s₃, hturn, h₃, hlength₃, hserver₃⟩ :=
    turn_sends cap pid .one h₂ (by omega)
  refine ⟨s₃, Reaches.of_any_run (startUp ++ (fill ++ ([.server, .server] ++ turn .one))) ?_,
    deadlocked_of_allSending h₃ (by simp [hserver₃, s₂]) (by omega)⟩
  rw [run_append_of_eq hstart, run_append_of_eq hfill, run_append_of_eq htake]
  exact hturn

end Unx511.Lab8
