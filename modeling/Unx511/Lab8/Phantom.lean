import Unx511.Lab8.System

/-!
What a Lab 8 client pushes and prints, over all runs of one client in any
environment. `recv_func` ignores the return value of `msgrcv`. As long as no
call fails, every buffer it tests, pushes or prints is a message of its own
type that was delivered, each at most once. The first failing call breaks this,
since the unwritten buffer is then tested and pushed.
-/

namespace Unx511.Lab8

open Unx511.Machine

inductive ClientAction where
  | main (ok : Bool)
  | recv (result : Msgrcv)
  | sigint
  deriving DecidableEq, Repr

/-- The kernel returns messages of the requested type only. -/
def Msgrcv.ofType (no : ClientNo) : Msgrcv → Bool
  | .delivered m => m.mtype = no.val
  | .failed _ => true

/-- One client in an environment that chooses the outcome of every call. -/
def clientStep (pid : Nat) (no : ClientNo) (c : Client) : ClientAction → Option Client
  | .main ok => mainStep pid no c ok
  | .recv result => if result.ofType no then recvStep c result else none
  | .sigint => some (shutdownHandler c)

def Msgrcv.message? : Msgrcv → Option Message
  | .delivered m => some m
  | .failed _ => none

/-- The message popped by `main` and not yet printed. -/
def mainHeld (c : Client) : List Message :=
  match c.main with
  | .print recvMsg => [recvMsg]
  | _ => []

/-- The outcome of `msgrcv` that the loop body has not yet tested. -/
def recvHeld (c : Client) : List Msgrcv :=
  match c.recv with
  | .check result => [result]
  | _ => []

/-- The law of the receive thread: what it tests is delivered messages in their
order, what it pushes is among them, and what `main` prints was pushed. -/
structure NoPhantom (no : ClientNo) (c : Client) : Prop where
  tested : c.tested <+: c.delivered.map Msgrcv.delivered
  pending : ∀ stale, c.recv ≠ .check (.failed stale)
  pushed : c.pushed.Sublist c.delivered
  typed : ∀ m ∈ c.delivered, m.mtype = no.val
  printed : c.printed <+: c.pushed

/-- A `msgrcv` that returns -1 in this step. -/
def receiveFails (c : Client) : ClientAction → Prop
  | .recv (.failed _) => c.recv = .receive
  | _ => False

/-- What the histories of a client have to do with each other in every run,
failing calls included. -/
structure Bookkeeping (no : ClientNo) (c : Client) : Prop where
  created : c.main = .start ∨ c.main = .create → c.recv = .absent
  local_queue : c.pushed = c.printed ++ mainHeld c ++ c.message
  pushes : c.pushed = (c.tested.map Msgrcv.buffer).filter fun m => !m.isQuit
  arrivals : c.delivered = (c.tested ++ recvHeld c).filterMap Msgrcv.message?
  typed : ∀ m ∈ c.delivered, m.mtype = no.val

theorem bookkeeping_initial (no : ClientNo) : Bookkeeping no Client.initial :=
  ⟨fun _ => rfl, rfl, rfl, rfl, by simp [Client.initial]⟩

/-- `main` only moves messages from the local queue to the screen. -/
theorem bookkeeping_main {pid : Nat} {no : ClientNo} {c c' : Client} {ok : Bool}
    (h : Bookkeeping no c) (hstep : MainEffect pid no c ok c') : Bookkeeping no c' := by
  obtain ⟨hcreated, hlocal, hpushes, harrivals, htyped⟩ := h
  cases hstep with
  | start _ hpc =>
      exact ⟨fun _ => hcreated (Or.inl hpc), by simpa [mainHeld, hpc] using hlocal,
        hpushes, harrivals, htyped⟩
  | create hpc =>
      have habsent : c.recv = .absent := hcreated (Or.inr hpc)
      refine ⟨by simp, by simpa [mainHeld, hpc] using hlocal, hpushes, ?_, htyped⟩
      simpa [recvHeld, habsent] using harrivals
  | test _ hpc =>
      refine ⟨?_, ?_, hpushes, harrivals, htyped⟩
      · cases c.isRunning <;> simp
      · cases c.isRunning <;> simpa [mainHeld, hpc] using hlocal
  | pop _ recvMsg rest hpc hmessage =>
      exact ⟨by simp, by simpa [mainHeld, hpc, hmessage] using hlocal, hpushes,
        harrivals, htyped⟩
  | createFails hpc | prepare _ hpc | print _ _ hpc | send _ _ hpc | wake _ hpc
  | join _ hpc | remove _ hpc =>
      exact ⟨by simp, by simpa [mainHeld, hpc] using hlocal, hpushes, harrivals, htyped⟩

/-- The receive thread moves the outcome of a call from `delivered` to `tested`
and, unless it reads as "Quit", to the local queue. -/
theorem bookkeeping_recv {no : ClientNo} {c c' : Client} {result : Msgrcv}
    (h : Bookkeeping no c) (htype : result.ofType no = true)
    (hstep : RecvEffect c result c') : Bookkeeping no c' := by
  obtain ⟨hcreated, hlocal, hpushes, harrivals, htyped⟩ := h
  have hlate (hrecv : c.recv ≠ .absent) : ¬ (c.main = .start ∨ c.main = .create) :=
    fun hmain => hrecv (hcreated hmain)
  cases hstep with
  | test _ hpc =>
      refine ⟨fun hmain => absurd hmain (hlate (by simp [hpc])), hlocal, hpushes, ?_, htyped⟩
      cases c.isRunning <;> simpa [recvHeld, hpc] using harrivals
  | deliver m hpc =>
      refine ⟨fun hmain => absurd hmain (hlate (by simp [hpc])), hlocal, hpushes, ?_, ?_⟩
      · simpa [recvHeld, hpc, Msgrcv.message?] using harrivals
      · have hm : m.mtype = no.val := by simpa [Msgrcv.ofType] using htype
        intro x hx
        rcases List.mem_append.mp hx with hold | hnew
        · exact htyped x hold
        · rw [List.mem_singleton.mp hnew]
          exact hm
  | fail stale hpc =>
      refine ⟨fun hmain => absurd hmain (hlate (by simp [hpc])), hlocal, hpushes, ?_, htyped⟩
      simpa [recvHeld, hpc, Msgrcv.message?, List.filterMap_cons] using harrivals
  | quit _ held hpc hquit =>
      refine ⟨fun hmain => absurd hmain (hlate (by simp [hpc])), hlocal, ?_, ?_, htyped⟩
      · simpa [hquit] using hpushes
      · simpa [recvHeld, hpc] using harrivals
  | push _ held hpc hquit =>
      refine ⟨fun hmain => absurd hmain (hlate (by simp [hpc])), ?_, ?_, ?_, htyped⟩
      · have hqueue : c.pushed ++ [held.buffer] =
            c.printed ++ mainHeld c ++ (c.message ++ [held.buffer]) := by
          rw [hlocal]
          simp
        exact hqueue
      · simpa [hquit] using hpushes
      · simpa [recvHeld, hpc] using harrivals

theorem bookkeeping_step {pid : Nat} {no : ClientNo} {c c' : Client} {a : ClientAction}
    (h : Bookkeeping no c) (hstep : clientStep pid no c a = some c') :
    Bookkeeping no c' := by
  cases a with
  | main ok => exact bookkeeping_main h (mainStep_effect hstep)
  | recv result =>
      simp only [clientStep, Option.ite_none_right_eq_some] at hstep
      exact bookkeeping_recv h hstep.1 (recvStep_effect hstep.2)
  | sigint =>
      cases hstep
      obtain ⟨hcreated, hlocal, hpushes, harrivals, htyped⟩ := h
      exact ⟨hcreated, hlocal, hpushes, harrivals, htyped⟩

/-- Every outcome tested or about to be tested was a delivery. -/
def AllDelivered (c : Client) : Prop :=
  ∀ result ∈ c.tested ++ recvHeld c, ∃ m, result = .delivered m

theorem delivered_of_filterMap {results : List Msgrcv}
    (h : ∀ result ∈ results, ∃ m, result = .delivered m) :
    (results.filterMap Msgrcv.message?).map Msgrcv.delivered = results := by
  induction results with
  | nil => rfl
  | cons result rest ih =>
      obtain ⟨m, rfl⟩ := h result (by simp)
      have hrest := ih fun r hr => h r (by simp [hr])
      simp [Msgrcv.message?, hrest]

theorem buffers_of_delivered {results : List Msgrcv}
    (h : ∀ result ∈ results, ∃ m, result = .delivered m) :
    results.map Msgrcv.buffer = results.filterMap Msgrcv.message? := by
  induction results with
  | nil => rfl
  | cons result rest ih =>
      obtain ⟨m, rfl⟩ := h result (by simp)
      have hrest := ih fun r hr => h r (by simp [hr])
      simp [Msgrcv.message?, Msgrcv.buffer, hrest]

theorem noPhantom_iff_allDelivered {no : ClientNo} {c : Client} (h : Bookkeeping no c) :
    NoPhantom no c ↔ AllDelivered c := by
  obtain ⟨_, hlocal, hpushes, harrivals, htyped⟩ := h
  constructor
  · rintro ⟨htested, hpending, _, _, _⟩ result hresult
    rcases List.mem_append.mp hresult with hold | hheld
    · obtain ⟨m, _, hm⟩ := List.mem_map.mp (htested.subset hold)
      exact ⟨m, hm.symm⟩
    · unfold recvHeld at hheld
      split at hheld
      · next held hpc =>
          rw [List.mem_singleton.mp hheld]
          cases held with
          | delivered m => exact ⟨m, rfl⟩
          | failed stale => exact absurd hpc (hpending stale)
      · cases hheld
  · intro hall
    have htestedAll : ∀ result ∈ c.tested, ∃ m, result = .delivered m :=
      fun result hr => hall result (List.mem_append_left _ hr)
    have hmap : c.delivered.map Msgrcv.delivered = c.tested ++ recvHeld c := by
      rw [harrivals]
      exact delivered_of_filterMap hall
    refine ⟨⟨recvHeld c, hmap.symm⟩, ?_, ?_, htyped, ?_⟩
    · intro stale hpc
      obtain ⟨m, hm⟩ := hall (.failed stale) (by simp [recvHeld, hpc])
      cases hm
    · rw [hpushes, buffers_of_delivered htestedAll, harrivals, List.filterMap_append]
      exact List.filter_sublist.trans (List.sublist_append_left _ _)
    · rw [hlocal, List.append_assoc]
      exact List.prefix_append _ _

/-- One step keeps all outcomes delivered exactly when it is not a failing
call. -/
theorem allDelivered_step {pid : Nat} {no : ClientNo} {c c' : Client} {a : ClientAction}
    (h : AllDelivered c) (hbook : Bookkeeping no c)
    (hstep : clientStep pid no c a = some c') :
    AllDelivered c' ↔ ¬ receiveFails c a := by
  cases a with
  | sigint =>
      cases hstep
      exact ⟨fun _ hfail => hfail, fun _ => h⟩
  | main ok =>
      refine ⟨fun _ hfail => hfail, fun _ => ?_⟩
      cases mainStep_effect hstep with
      | create hpc =>
          have habsent : c.recv = .absent := hbook.created (Or.inr hpc)
          simpa [AllDelivered, recvHeld, habsent] using h
      | _ => exact h
  | recv result =>
      simp only [clientStep, Option.ite_none_right_eq_some] at hstep
      cases recvStep_effect hstep.2 with
      | test _ hpc =>
          refine ⟨fun _ hfail => ?_, fun _ => ?_⟩
          · cases result <;> simp [receiveFails, hpc] at hfail
          · cases c.isRunning <;> simpa [AllDelivered, recvHeld, hpc] using h
      | deliver m hpc =>
          refine ⟨fun _ hfail => hfail, fun _ => ?_⟩
          intro r hr
          rcases List.mem_append.mp hr with hold | hheld
          · exact h r (List.mem_append_left _ hold)
          · exact ⟨m, by simpa [recvHeld] using hheld⟩
      | fail stale hpc =>
          refine ⟨fun hall _ => ?_, fun hno => absurd hpc hno⟩
          obtain ⟨m, hm⟩ := hall (.failed stale) (by simp [recvHeld])
          cases hm
      | quit _ held hpc _ | push _ held hpc _ =>
          refine ⟨fun _ hfail => ?_, fun _ => ?_⟩
          · cases result <;> simp [receiveFails, hpc] at hfail
          · simpa [AllDelivered, recvHeld, hpc] using h

/-- A client keeps the law in every state of a run exactly when no `msgrcv` of
the run fails. -/
theorem no_phantom_iff (pid : Nat) (no : ClientNo) (as : List ClientAction) :
    StatesMeet (clientStep pid no) (NoPhantom no) Client.initial as ↔
      StepsMeet (clientStep pid no) (fun c a => ¬ receiveFails c a) Client.initial as := by
  apply statesMeet_iff_stepsMeet (I := Bookkeeping no)
  · intro c a c' hbook hstep
    exact bookkeeping_step hbook hstep
  · intro c a c' hbook hlaw hstep
    rw [noPhantom_iff_allDelivered (bookkeeping_step hbook hstep)]
    exact allDelivered_step ((noPhantom_iff_allDelivered hbook).mp hlaw) hbook hstep
  · exact bookkeeping_initial no
  · rw [noPhantom_iff_allDelivered (bookkeeping_initial no)]
    simp [AllDelivered, Client.initial, recvHeld]

theorem reaches_clientStep {pid : Nat} {no : ClientNo} {c c' : Client} (a : ClientAction)
    (hstep : clientStep pid no c a = some c') :
    Reaches (clientStep pid no) anyAction c c' :=
  Reaches.head trivial hstep (Reaches.refl c')

/-- A step of the system is at most two steps of one client and none of the
others. An interrupted call is the handler followed by the failing call. -/
theorem client_moves {cap : Nat} {pid : ClientNo → Nat} {s t : State} {a : Action}
    (h : Effect cap pid s a t) (no : ClientNo) :
    Reaches (clientStep (pid no) no) anyAction (s.client no) (t.client no) := by
  have hset (other : ClientNo) (u : State) (c : Client) (hu : u.client = s.client)
      (hmove : Reaches (clientStep (pid other) other) anyAction (s.client other) c) :
      Reaches (clientStep (pid no) no) anyAction (s.client no)
        ((u.setClient other c).client no) := by
    by_cases hno : no = other
    · subst hno
      simpa using hmove
    · rw [setClient_client_other u c hno, hu]
      exact Reaches.refl _
  cases h with
  | mainLocal other c _ hstep => exact hset other s c rfl (reaches_clientStep (.main true) hstep)
  | send other m hpc _ _ =>
      refine hset other _ _ rfl (reaches_clientStep (.main true) ?_)
      simp [clientStep, mainStep, hpc]
  | sendFailed other m hpc _ =>
      refine hset other _ _ rfl (reaches_clientStep (.main false) ?_)
      simp [clientStep, mainStep, hpc]
  | clientRemove other hpc =>
      refine hset other (msgctlRmid s) _ rfl (reaches_clientStep (.main true) ?_)
      simp [clientStep, mainStep, hpc]
  | createFails other hpc =>
      refine hset other _ _ rfl (reaches_clientStep (.main false) ?_)
      simp [clientStep, mainStep, hpc]
  | recvLocal other stale c _ hstep =>
      refine hset other _ _ rfl (reaches_clientStep (.recv (.failed stale)) ?_)
      simpa [clientStep, Msgrcv.ofType] using hstep
  | deliver other _ m rest hpc _ hreceive =>
      refine hset other _ _ rfl (reaches_clientStep (.recv (.delivered m)) ?_)
      have htype : m.mtype = other.val := Sysv.receive_type hreceive
      simp [clientStep, Msgrcv.ofType, htype, recvStep, hpc]
  | recvFailed other stale hpc _ =>
      refine hset other _ _ rfl (reaches_clientStep (.recv (.failed stale)) ?_)
      simp [clientStep, Msgrcv.ofType, recvStep, hpc]
  | clientSigint other _ => exact hset other _ _ rfl (reaches_clientStep .sigint rfl)
  | sendInterrupted other m hpc =>
      refine hset other _ _ rfl (Reaches.head trivial (a := .sigint) rfl
        (reaches_clientStep (.main false) ?_))
      simp [clientStep, mainStep, shutdownHandler, hpc]
  | recvInterrupted other stale hpc =>
      refine hset other _ _ rfl (Reaches.head trivial (a := .sigint) rfl
        (reaches_clientStep (.recv (.failed stale)) ?_))
      simp [clientStep, Msgrcv.ofType, recvStep, shutdownHandler, hpc]
  | _ => exact Reaches.refl _

/-- Each client of a system run makes a run of its own. -/
theorem client_run_of_system {cap : Nat} {pid : ClientNo → Nat} {msg : Message} {s : State}
    (h : Reaches (step cap pid) anyAction (State.initial msg) s) (no : ClientNo) :
    Reaches (clientStep (pid no) no) anyAction Client.initial (s.client no) := by
  apply h.invariant (I := fun u => Reaches (clientStep (pid no) no) anyAction Client.initial
    (u.client no))
  · exact Reaches.refl _
  · intro u a v hu _ hstep
    exact hu.trans (client_moves (step_effect hstep) no)

/-- What holds of the histories of one client holds of every client of the
system. -/
theorem bookkeeping_of_system {cap : Nat} {pid : ClientNo → Nat} {msg : Message} {s : State}
    (h : Reaches (step cap pid) anyAction (State.initial msg) s) (no : ClientNo) :
    Bookkeeping no (s.client no) :=
  (client_run_of_system h no).invariant (bookkeeping_initial no)
    fun _ _ _ hbook _ hstep => bookkeeping_step hbook hstep

/-- A message that no process ever sent. -/
def leftover : Message where
  mtype := 0
  msgBuf := { source := 7, dest := 7, buf := ['x'] }

/-- Client 2 is stopped by SIGINT and removes the queue on its way out. From
then on every `msgrcv` of client 1 fails at once, and the unwritten buffer is
pushed and printed once for each call. -/
def removalRun : List Action :=
  [.main .one, .main .one, .main .two, .main .two,
   .recv .one leftover, .recv .two leftover,
   .interruptRecv .two leftover, .recv .two leftover, .recv .two leftover,
   .main .two, .main .two, .main .two,
   .recv .one leftover, .recv .one leftover, .recv .one leftover,
   .recv .one leftover, .recv .one leftover,
   .main .one, .main .one, .main .one, .main .one, .main .one]

theorem phantom_after_removal :
    ∃ s, run (step 1 ClientNo.val) (State.initial leftover) removalRun = some s ∧
      (s.client .one).delivered = [] ∧
      (s.client .one).pushed = [leftover, leftover] ∧
      (s.client .one).printed = [leftover, leftover] ∧
      ¬ NoPhantom .one (s.client .one) := by
  refine ⟨_, rfl, by decide, by decide, by decide, ?_⟩
  intro hlaw
  exact absurd hlaw.pushed (by decide)

end Unx511.Lab8
