import Unx511.Assignment2.System

/-!
networkMonitor alone, in an environment that may do anything: its select loop
and `cleanup_sockets`, one statement a step. Clients connect, send any message,
close their end, and `recv`, `accept` and `select` may fail; SIGINT comes between
any two statements. `accept` and the assignment of a name are one step, and so
are `close` and `erase`, since no handler looks at a client's descriptor.
-/

namespace Unx511.Assignment2.SelectLoop

open Unx511.Machine

/-- A descriptor as the kernel sees it, leaving the listening socket aside: not open, or open
with the client at the other end or gone. -/
inductive Conn where
  | free
  | connected
  | peerGone
  deriving DecidableEq, Repr

/-- The statement networkMonitor is at. `setMaster` and `testMaster` are `FD_SET` and
`FD_ISSET` of `master_socket_fd`, `snapshot` makes `fds_to_check`, and SIGPIPE leads to
`killed`. -/
inductive Pc where
  | test
  | setMaster
  | setClients (fds : List Nat)
  | select
  | testMaster
  | accept
  | snapshot
  | check (fds : List Nat)
  | receive (fd : Nat) (fds : List Nat)
  | handle (fd : Nat) (message : String) (fds : List Nat)
  | sendShutDown (fds : List Nat)
  | closeClient (fd : Nat) (fds : List Nat)
  | closeMaster
  | removeFile
  | exited
  | killed
  deriving DecidableEq, Repr

namespace Pc

/-- Before `cleanup_sockets`. -/
def inLoop : Pc → Bool
  | .sendShutDown _ | .closeClient _ _ | .closeMaster | .removeFile | .exited | .killed => false
  | _ => true

/-- Between the test of `running` and the end of `accept`. -/
def inWindow : Pc → Bool
  | .setMaster | .setClients _ | .select | .testMaster | .accept => true
  | _ => false

/-- The map has been cleared. -/
def cleared : Pc → Bool
  | .closeMaster | .removeFile | .exited => true
  | _ => false

/-- The clients that the loop over them has still to come to. -/
def visits : Pc → List Nat
  | .setClients fds | .check fds => fds
  | .receive fd fds | .handle fd _ fds => fd :: fds
  | _ => []

/-- The clients that `cleanup_sockets` has still to close. -/
def toClose : Pc → List Nat
  | .sendShutDown fds => fds
  | .closeClient fd fds => fd :: fds
  | _ => []

end Pc

/-- `masterFd` is `none` for -1 and otherwise open. Four histories: whether `close`, `recv` or
`send` met a free descriptor, the clients at the call of `cleanup_sockets`, and those that it
told "Shut Down" and closed. -/
structure State where
  pc : Pc
  running : Bool
  masterFd : Option Nat
  clientFds : OrderedMap Nat String
  readFds : List Nat
  conn : Nat → Conn
  socketFile : Bool
  misused : Bool
  remaining : List Nat
  told : List Nat
  closed : List Nat

/-- After `listen`. SIGINT may have come while the names were entered. -/
def State.initial (master : Nat) (running : Bool) : State where
  pc := .test
  running := running
  masterFd := some master
  clientFds := OrderedMap.empty
  readFds := []
  conn := fun _ => .free
  socketFile := true
  misused := false
  remaining := []
  told := []
  closed := []

def State.goto (s : State) (pc : Pc) : State := { s with pc := pc }

/-- `accept` has returned `fd`. -/
def State.openFd (s : State) (fd : Nat) : State :=
  { s with conn := Function.update s.conn fd .connected }

def State.closeFd (s : State) (fd : Nat) : State :=
  { s with
    conn := Function.update s.conn fd .free
    misused := s.misused || decide (s.conn fd = .free) }

/-- `close(fd)` and `client_fds.erase(fd)` -/
def State.dropClient (s : State) (fd : Nat) : State :=
  { s.closeFd fd with clientFds := s.clientFds.erase fd }

/-- SIGPIPE ends the process. -/
def State.kill (s : State) : State :=
  { s with pc := .killed, masterFd := none, conn := fun _ => .free }

/-- `send_message` on a client's descriptor, and the statement after it. -/
def State.send (s : State) (fd : Nat) (next : State) : State :=
  match s.conn fd with
  | .connected => next
  | .peerGone => s.kill
  | .free => { next with misused := true }

/-- `handle_client_message` once `recv` has returned a message. -/
def handleMessage (fd : Nat) (message : String) (fds : List Nat) (s : State) : State :=
  let s := { s with clientFds := (subscript s.clientFds fd).2 }
  match Request.ofMessage message with
  | some .ready | some .linkDown => s.send fd (s.goto (.check fds))
  | some .done => (s.dropClient fd).goto (.check fds)
  | some .monitoring | none => s.goto (.check fds)

/-- `next` is a statement that asks nobody. SIGINT interrupts `select` at
`selectInterrupted`. -/
inductive Action where
  | next
  | testMaster (result : Bool)
  | selectReturns (ready : List Nat)
  | selectInterrupted
  | selectFails
  | accepted (fd : Nat)
  | acceptFails (interrupted : Bool)
  | received (message : String)
  | receiveEnds
  | receiveFails
  | receiveInterrupted
  | sigint
  | peerCloses (fd : Nat)
  deriving DecidableEq, Repr

/-- `sig_handler` -/
def sigHandler (s : State) : State := { s with running := false, masterFd := none }

/-- The statements that depend on nothing outside. -/
def nextStep (s : State) : Option State :=
  match s.pc with
  | .test =>
      if s.running then some { s with pc := .setMaster, readFds := [] }
      else
        some { s with
          pc := .sendShutDown s.clientFds.keys
          remaining := s.clientFds.keys
          told := []
          closed := [] }
  | .setMaster =>
      -- `FD_SET` of -1 is undefined; here it sets nothing
      some { s with
        pc := .setClients s.clientFds.keys
        readFds := s.readFds ++ s.masterFd.toList }
  | .setClients (fd :: fds) => some { s with pc := .setClients fds, readFds := s.readFds ++ [fd] }
  | .setClients [] => some (s.goto .select)
  | .snapshot => some (s.goto (.check s.clientFds.keys))
  | .check (fd :: fds) =>
      some (s.goto
        (if fd ∈ s.readFds ∧ fd ∈ s.clientFds.keys then .receive fd fds else .check fds))
  | .check [] => some (s.goto .test)
  | .handle fd message fds => some (handleMessage fd message fds s)
  | .sendShutDown (fd :: fds) =>
      some (s.send fd { s with pc := .closeClient fd fds, told := s.told ++ [fd] })
  | .sendShutDown [] => some { s with pc := .closeMaster, clientFds := OrderedMap.empty }
  | .closeClient fd fds =>
      some { s.closeFd fd with pc := .sendShutDown fds, closed := s.closed ++ [fd] }
  | .closeMaster => some { s with pc := .removeFile, masterFd := none }
  | .removeFile => some { s with pc := .exited, socketFile := false }
  | _ => none

/-- `accept` returns a descriptor that is not open; the client gets the first
free name, or the descriptor is closed again. -/
def accepted (names : List String) (fd : Nat) (s : State) : Option State :=
  if s.pc = .accept ∧ s.masterFd.isSome = true ∧ s.masterFd ≠ some fd ∧ s.conn fd = .free then
    match freeName names s.clientFds with
    | some name =>
        some { s.openFd fd with pc := .snapshot, clientFds := s.clientFds.set fd name }
    | none => some (((s.openFd fd).closeFd fd).goto .snapshot)
  else none

/-- The outcomes of `recv` in `handle_client_message`. -/
def receive (s : State) : Action → Option State
  | .received message =>
      match s.pc with
      | .receive fd fds =>
          if s.conn fd = .free then none else some (s.goto (.handle fd message fds))
      | _ => none
  | .receiveEnds =>
      match s.pc with
      | .receive fd fds =>
          if s.conn fd = .peerGone then some ((s.dropClient fd).goto (.check fds)) else none
      | _ => none
  | .receiveFails =>
      match s.pc with
      | .receive fd fds =>
          let s := { s with clientFds := (subscript s.clientFds fd).2 }
          some ((s.dropClient fd).goto (.check fds))
      | _ => none
  | .receiveInterrupted =>
      match s.pc with
      | .receive _ fds => some (s.goto (.check fds))
      | _ => none
  | _ => none

def step (names : List String) (s : State) : Action → Option State
  | .next => nextStep s
  | .testMaster result =>
      -- `FD_ISSET` of -1 is undefined and may find anything
      if s.pc = .testMaster ∧ ∀ m ∈ s.masterFd, result = decide (m ∈ s.readFds) then
        some (s.goto (if result then .accept else .snapshot))
      else none
  | .selectReturns ready =>
      if s.pc = .select ∧ ∀ fd ∈ ready, fd ∈ s.readFds then
        some { s with pc := .testMaster, readFds := ready }
      else none
  | .selectInterrupted => if s.pc = .select then some ((sigHandler s).goto .test) else none
  | .selectFails =>
      -- an error leaves the set as it was
      if s.pc = .select then some { s with pc := .testMaster, running := false } else none
  | .accepted fd => accepted names fd s
  | .acceptFails interrupted =>
      if s.pc = .accept then some (s.goto (if interrupted then .test else .snapshot)) else none
  | .sigint => if s.pc = .exited ∨ s.pc = .killed then none else some (sigHandler s)
  | .peerCloses fd =>
      if s.conn fd = .connected then some { s with conn := Function.update s.conn fd .peerGone }
      else none
  | a => receive s a

/-- One turn of the loop in which `fd` is accepted while `before` clients are
registered. -/
def acceptClient (master fd before : Nat) : List Action :=
  List.replicate (before + 3) .next ++ [.selectReturns [master], .testMaster true, .accepted fd] ++
    List.replicate (before + 3) .next

/-- SIGINT interrupts `select`, and the `clients` clients are told and closed. -/
def shutDown (clients : Nat) : List Action :=
  List.replicate (clients + 3) .next ++ [.selectInterrupted] ++
    List.replicate (2 * clients + 4) .next

/-- The client that the statement sends to. -/
def State.sendsTo (s : State) : Option Nat :=
  match s.pc with
  | .handle fd message _ =>
      match Request.ofMessage message with
      | some .ready | some .linkDown => some fd
      | _ => none
  | .sendShutDown (fd :: _) => some fd
  | _ => none

/-- A step inside the loop that changes neither the map nor a descriptor. -/
structure Inside (s : State) (pc : Pc) (running : Bool) : Prop where
  loop : s.pc.inLoop = true
  loop' : pc.inLoop = true
  visits : pc.visits.Sublist s.pc.visits ∨ pc.visits = s.clientFds.keys
  window : pc.inWindow = true → s.pc.inWindow = true ∨ s.running = true
  running : running = true → s.running = true
  quiet : s.sendsTo = none

/-- What one step can do. -/
inductive Move (names : List String) (s : State) : Action → State → Prop
  | inside {a : Action} {pc : Pc} {running : Bool} {readFds : List Nat}
      (h : Inside s pc running) :
      Move names s a { s with pc := pc, running := running, readFds := readFds }
  | interrupted (hpc : s.pc = .select) :
      Move names s .selectInterrupted ((sigHandler s).goto .test)
  | sigint (hlives : s.pc ≠ .exited ∧ s.pc ≠ .killed) : Move names s .sigint (sigHandler s)
  | register {fd : Nat} {name : String} (hpc : s.pc = .accept) (hmaster : s.masterFd ≠ some fd)
      (hfree : s.conn fd = .free) (hname : freeName names s.clientFds = some name) :
      Move names s (.accepted fd) { s with
        pc := .snapshot
        clientFds := s.clientFds.set fd name
        conn := Function.update s.conn fd .connected }
  | handle {fd : Nat} {message : String} {fds : List Nat} (hpc : s.pc = .handle fd message fds) :
      Move names s .next (handleMessage fd message fds s)
  | ends {fd : Nat} {fds : List Nat} (hpc : s.pc = .receive fd fds)
      (hconn : s.conn fd = .peerGone) :
      Move names s .receiveEnds ((s.dropClient fd).goto (.check fds))
  | fails {fd : Nat} {fds : List Nat} (hpc : s.pc = .receive fd fds) :
      Move names s .receiveFails
        (({ s with clientFds := (subscript s.clientFds fd).2 }.dropClient fd).goto (.check fds))
  | leave (hpc : s.pc = .test) (hrunning : s.running = false) :
      Move names s .next { s with
        pc := .sendShutDown s.clientFds.keys
        remaining := s.clientFds.keys
        told := []
        closed := [] }
  | tell {fd : Nat} {fds : List Nat} (hpc : s.pc = .sendShutDown (fd :: fds)) :
      Move names s .next (s.send fd { s with pc := .closeClient fd fds, told := s.told ++ [fd] })
  | close {fd : Nat} {fds : List Nat} (hpc : s.pc = .closeClient fd fds) :
      Move names s .next
        { s.closeFd fd with pc := .sendShutDown fds, closed := s.closed ++ [fd] }
  | clear (hpc : s.pc = .sendShutDown []) :
      Move names s .next { s with pc := .closeMaster, clientFds := OrderedMap.empty }
  | closeMaster (hpc : s.pc = .closeMaster) :
      Move names s .next { s with pc := .removeFile, masterFd := none }
  | removeFile (hpc : s.pc = .removeFile) :
      Move names s .next { s with pc := .exited, socketFile := false }
  | peerCloses {fd : Nat} (hconn : s.conn fd = .connected) :
      Move names s (.peerCloses fd) { s with conn := Function.update s.conn fd .peerGone }

theorem Inside.of_pc {s : State} {old pc : Pc} {running : Bool} (hpc : s.pc = old)
    (hloop : old.inLoop = true) (hloop' : pc.inLoop = true)
    (hvisits : pc.visits.Sublist old.visits ∨ pc.visits = s.clientFds.keys)
    (hwindow : pc.inWindow = true → old.inWindow = true ∨ s.running = true)
    (hrunning : running = true → s.running = true)
    (hquiet : ∀ fd message fds, old ≠ .handle fd message fds) : Inside s pc running := by
  subst hpc
  refine ⟨hloop, hloop', hvisits, hwindow, hrunning, ?_⟩
  unfold State.sendsTo
  split
  case h_1 fd message fds hpc => exact absurd hpc (hquiet fd message fds)
  case h_2 hpc =>
    rw [hpc] at hloop
    cases hloop
  case h_3 => rfl

theorem nextStep_move {names : List String} {s t : State} (h : nextStep s = some t) :
    Move names s .next t := by
  unfold nextStep at h
  split at h
  case h_1 hpc =>
    split at h
    case isTrue hrunning =>
      cases h
      exact .inside
        (.of_pc hpc rfl rfl (.inl (List.nil_sublist _)) (fun _ => .inr hrunning) id nofun)
    case isFalse hrunning =>
      cases h
      exact .leave hpc (by simpa using hrunning)
  case h_2 hpc =>
    cases h
    exact .inside (.of_pc hpc rfl rfl (.inr rfl) (fun _ => .inl rfl) id nofun)
  case h_3 fd fds hpc =>
    cases h
    exact .inside (.of_pc hpc rfl rfl (.inl (List.sublist_cons_self fd fds)) (fun _ => .inl rfl) id
      nofun)
  case h_4 hpc =>
    cases h
    exact .inside (.of_pc hpc rfl rfl (.inl (List.nil_sublist _)) (fun _ => .inl rfl) id nofun)
  case h_5 hpc =>
    cases h
    exact .inside (.of_pc hpc rfl rfl (.inr rfl) nofun id nofun)
  case h_6 fd fds hpc =>
    cases h
    refine .inside (.of_pc hpc rfl ?_ ?_ ?_ id nofun)
    · split <;> rfl
    · left
      split
      · exact List.Sublist.refl _
      · exact List.sublist_cons_self fd fds
    · split <;> nofun
  case h_7 hpc =>
    cases h
    exact .inside (.of_pc hpc rfl rfl (.inl (List.nil_sublist _)) nofun id nofun)
  case h_8 hpc =>
    cases h
    exact .handle hpc
  case h_9 hpc =>
    cases h
    exact .tell hpc
  case h_10 hpc =>
    cases h
    exact .clear hpc
  case h_11 hpc =>
    cases h
    exact .close hpc
  case h_12 hpc =>
    cases h
    exact .closeMaster hpc
  case h_13 hpc =>
    cases h
    exact .removeFile hpc
  case h_14 => cases h

/-- A descriptor that is closed at once leaves nothing behind. -/
theorem closeFd_openFd {s : State} {fd : Nat} (hfree : s.conn fd = .free) :
    (s.openFd fd).closeFd fd = s := by
  have hconn : Function.update (Function.update s.conn fd .connected) fd .free = s.conn := by
    rw [Function.update_idem, ← hfree, Function.update_eq_self]
  simp [State.openFd, State.closeFd, hconn]

theorem accepted_move {names : List String} {s t : State} {fd : Nat}
    (h : accepted names fd s = some t) : Move names s (.accepted fd) t := by
  unfold accepted at h
  split at h
  case isTrue hguard =>
    obtain ⟨hpc, _, hmaster, hfree⟩ := hguard
    split at h
    case h_1 name hname =>
      cases h
      exact .register hpc hmaster hfree hname
    case h_2 =>
      cases h
      rw [closeFd_openFd hfree]
      exact .inside (.of_pc hpc rfl rfl (.inl (List.nil_sublist _)) nofun id nofun)
  case isFalse => cases h

theorem receive_move {names : List String} {s t : State} {a : Action}
    (h : receive s a = some t) : Move names s a t := by
  unfold receive at h
  split at h
  case h_1 =>
    split at h
    case h_1 fd fds hpc =>
      split at h
      case isTrue => cases h
      case isFalse =>
        cases h
        exact .inside (.of_pc hpc rfl rfl (.inl (List.Sublist.refl _)) nofun id nofun)
    case h_2 => cases h
  case h_2 =>
    split at h
    case h_1 fd fds hpc =>
      split at h
      case isTrue hconn =>
        cases h
        exact .ends hpc hconn
      case isFalse => cases h
    case h_2 => cases h
  case h_3 =>
    split at h
    case h_1 fd fds hpc =>
      cases h
      exact .fails hpc
    case h_2 => cases h
  case h_4 =>
    split at h
    case h_1 fd fds hpc =>
      cases h
      exact .inside (.of_pc hpc rfl rfl (.inl (List.sublist_cons_self fd fds)) nofun id nofun)
    case h_2 => cases h
  case h_5 => cases h

theorem step_move {names : List String} {s t : State} {a : Action}
    (h : step names s a = some t) : Move names s a t := by
  unfold step at h
  split at h
  case h_1 => exact nextStep_move h
  case h_2 result =>
    split at h
    case isTrue hguard =>
      cases h
      refine .inside (.of_pc hguard.1 rfl ?_ (.inl ?_) (fun _ => .inl rfl) id nofun)
      · split <;> rfl
      · split <;> exact List.nil_sublist _
    case isFalse => cases h
  case h_3 ready =>
    split at h
    case isTrue hguard =>
      cases h
      exact .inside
        (.of_pc hguard.1 rfl rfl (.inl (List.nil_sublist _)) (fun _ => .inl rfl) id nofun)
    case isFalse => cases h
  case h_4 =>
    split at h
    case isTrue hpc =>
      cases h
      exact .interrupted hpc
    case isFalse => cases h
  case h_5 =>
    split at h
    case isTrue hpc =>
      cases h
      exact .inside (.of_pc hpc rfl rfl (.inl (List.nil_sublist _)) (fun _ => .inl rfl) nofun nofun)
    case isFalse => cases h
  case h_6 fd => exact accepted_move h
  case h_7 interrupted =>
    split at h
    case isTrue hpc =>
      cases h
      refine .inside (.of_pc hpc rfl ?_ (.inl ?_) (fun _ => .inl rfl) id nofun)
      · split <;> rfl
      · split <;> exact List.nil_sublist _
    case isFalse => cases h
  case h_8 =>
    split at h
    case isTrue => cases h
    case isFalse hended =>
      cases h
      exact .sigint (not_or.mp hended)
  case h_9 fd =>
    split at h
    case isTrue hconn =>
      cases h
      exact .peerCloses hconn
    case isFalse => cases h
  case h_10 => exact receive_move h

end Unx511.Assignment2.SelectLoop
