import Unx511.Assignment2.IntfMonitor
import Unx511.Assignment2.NetworkMonitor
import Unx511.Machine.OrderedMap
import Unx511.Machine.Run

/-!
The Assignment 2 system: one networkMonitor, from its `listen` on, and any
number of monitors. The first ones are those that networkMonitor forks, one for
each entry of `interface_names`; the others are started by somebody else. A
connection is numbered by its monitor, which connects at most once, and delivers
messages whole and in order. networkMonitor knows it by the descriptor that
`accept` returned.
-/

namespace Unx511.Assignment2

open Unx511.Machine

/-- `names` are `interface_names`, and `restarts` says that a handler installed by `signal`
restarts `recv`. -/
structure Config where
  names : List String
  restarts : Bool

/-- The end of a connection that networkMonitor holds. A waiting one is in the backlog of the
listening socket. -/
inductive Link where
  | none
  | waiting
  | accepted
  | closed
  deriving DecidableEq, Repr

/-- `up` and `down` are on their way to networkMonitor and to the monitor. The rest are
histories: whether the connection was refused, the "Link Down" messages sent, whose report
each "Set Link Up" sent here answers, and the runs of the branch that sets the link up. -/
structure Monitor where
  process : Process
  link : Link
  up : List String
  down : List String
  refused : Bool
  reports : Nat
  answers : List Nat
  linkUps : Nat
  deriving DecidableEq, Repr

def Monitor.initial : Monitor where
  process := { pc := .unborn, running := true }
  link := .none
  up := []
  down := []
  refused := false
  reports := 0
  answers := []
  linkUps := 0

def Monitor.pc (m : Monitor) : MonitorPc := m.process.pc

/-- networkMonitor closes its end. -/
def Monitor.hangUp (m : Monitor) : Monitor :=
  if m.link = .none then m else { m with link := .closed }

/-- The statement networkMonitor is at. `ready` is what `select` left in
`read_fds` and `fds` what is still to be visited; `cleanup_sockets` starts at
`sendShutDown`. -/
inductive ServerPc where
  | fork (k : Nat)
  | test
  | fill
  | select (master : Bool) (fds : List Nat)
  | checkMaster (master : Bool) (ready : List Nat)
  | accept (ready : List Nat)
  | snapshot (ready : List Nat)
  | check (fds ready : List Nat)
  | receive (fd : Nat) (fds ready : List Nat)
  | handle (fd source : Nat) (message : String) (fds ready : List Nat)
  | sendShutDown (fds : List Nat)
  | closeClient (fd : Nat) (fds : List Nat)
  | closeMaster
  | exited
  deriving DecidableEq, Repr

/-- `peer` is the kernel's: the connection of each open descriptor. `alerts` and `unknown` are
histories: whose report was printed under which name, and the "Unknown message" warnings. -/
structure Server where
  pc : ServerPc
  running : Bool
  masterOpen : Bool
  clientFds : OrderedMap Nat String
  peer : Nat → Option Nat
  alerts : List (Nat × String)
  unknown : List (String × String)

structure State where
  server : Server
  backlog : List Nat
  monitor : Nat → Monitor

/-- SIGINT may have come while the names were entered. -/
def State.initial (running : Bool) : State where
  server := {
    pc := .fork 0
    running := running
    masterOpen := true
    clientFds := OrderedMap.empty
    peer := fun _ => none
    alerts := []
    unknown := [] }
  backlog := []
  monitor := fun _ => Monitor.initial

def State.setMonitor (s : State) (k : Nat) (m : Monitor) : State :=
  { s with monitor := Function.update s.monitor k m }

def State.goto (s : State) (pc : ServerPc) : State := { s with server.pc := pc }

/-- The first name that no entry of `client_fds` has. -/
def freeName (names : List String) (clientFds : OrderedMap Nat String) : Option String :=
  names.find? fun name => name ∉ clientFds.values

/-- `client_fds[fd]` creates the entry where there is none. -/
def subscript (clientFds : OrderedMap Nat String) (fd : Nat) :
    String × OrderedMap Nat String :=
  match clientFds.get? fd with
  | some name => (name, clientFds)
  | none => ("", clientFds.set fd "")

theorem subscript_of_mem {clientFds : OrderedMap Nat String} {fd : Nat}
    (h : fd ∈ clientFds.keys) :
    ∃ name, (fd, name) ∈ clientFds ∧ subscript clientFds fd = (name, clientFds) := by
  obtain ⟨name, hname⟩ := Option.isSome_iff_exists.mp (OrderedMap.get?_isSome_iff.mpr h)
  refine ⟨name, OrderedMap.mem_of_get? hname, ?_⟩
  unfold subscript
  rw [hname]

/-- The process of networkMonitor ends and its sockets are closed with it. -/
def State.serverExit (s : State) : State where
  server := { s.server with pc := .exited, masterOpen := false, peer := fun _ => none }
  backlog := []
  monitor := fun k => (s.monitor k).hangUp

/-- `close` of a descriptor. -/
def State.closeFd (s : State) (fd : Nat) : State :=
  match s.server.peer fd with
  | some k =>
      { s with
        server.peer := Function.update s.server.peer fd none
        monitor := Function.update s.monitor k (s.monitor k).hangUp }
  | none => s

/-- `close(fd)` and `client_fds.erase(fd)` -/
def State.dropClient (s : State) (fd : Nat) : State :=
  { s.closeFd fd with server.clientFds := s.server.clientFds.erase fd }

def Monitor.told (m : Monitor) (message : String) (sources : List Nat) : Monitor :=
  { m with down := m.down ++ [message], answers := m.answers ++ sources }

/-- `send_message` of networkMonitor. On a connection whose monitor is gone it
raises SIGPIPE, which ends the process. `sources` are the reports that the
message answers. -/
def State.serverSend (s : State) (fd : Nat) (message : String) (sources : List Nat)
    (next : ServerPc) : State :=
  match s.server.peer fd with
  | some k =>
      if (s.monitor k).pc.connected then
        (s.setMonitor k ((s.monitor k).told message sources)).goto next
      else s.serverExit
  | none => s.goto next

/-- `handle_client_message` once `recv` has returned a message. -/
def handleMessage (fd source : Nat) (message : String) (fds ready : List Nat) (s : State) :
    State :=
  let iface := subscript s.server.clientFds fd
  let s := { s with server.clientFds := iface.2 }
  match Request.ofMessage message with
  | some .ready => s.serverSend fd "Monitor" [] (.check fds ready)
  | some .monitoring => s.goto (.check fds ready)
  | some .linkDown =>
      { s with server.alerts := s.server.alerts ++ [(source, iface.1)] }.serverSend fd
        "Set Link Up" [source] (.check fds ready)
  | some .done => (s.dropClient fd).goto (.check fds ready)
  | none =>
      { s.goto (.check fds ready) with
        server.unknown := s.server.unknown ++ [(iface.1, message)] }

/-- `handle_client_message` up to the result of `recv`, or `none` while it
blocks. A result of 0 and an error other than EINTR both drop the client. -/
def receiveMessage (fd : Nat) (fds ready : List Nat) (s : State) : Option State :=
  match s.server.peer fd with
  | none => some ((s.dropClient fd).goto (.check fds ready))
  | some k =>
      match (s.monitor k).up with
      | message :: rest =>
          some ((s.setMonitor k { s.monitor k with up := rest }).goto
            (.handle fd k message fds ready))
      | [] =>
          if (s.monitor k).pc.connected then none
          else some ((s.dropClient fd).goto (.check fds ready))

/-- The listening socket is closed, and with it every connection that has not
been accepted. -/
def State.closeMaster (s : State) : State where
  server := { s.server with masterOpen := false }
  backlog := []
  monitor := fun k => if k ∈ s.backlog then (s.monitor k).hangUp else s.monitor k

/-- The statements of networkMonitor that depend on nothing outside. -/
def serverStep (cfg : Config) (s : State) : Option State :=
  match s.server.pc with
  | .fork k => if cfg.names.length ≤ k then some (s.goto .test) else none
  | .test =>
      some (s.goto (if s.server.running then .fill else .sendShutDown s.server.clientFds.keys))
  | .fill => some (s.goto (.select s.server.masterOpen s.server.clientFds.keys))
  | .snapshot ready => some (s.goto (.check s.server.clientFds.keys ready))
  | .check [] _ => some (s.goto .test)
  | .check (fd :: fds) ready =>
      some (s.goto
        (if fd ∈ ready ∧ fd ∈ s.server.clientFds.keys then .receive fd fds ready
        else .check fds ready))
  | .receive fd fds ready => receiveMessage fd fds ready s
  | .handle fd source message fds ready => some (handleMessage fd source message fds ready s)
  | .sendShutDown (fd :: fds) => some (s.serverSend fd "Shut Down" [] (.closeClient fd fds))
  | .sendShutDown [] =>
      some { s.goto .closeMaster with server.clientFds := OrderedMap.empty }
  | .closeClient fd fds => some ((s.closeFd fd).goto (.sendShutDown fds))
  | .closeMaster => some s.serverExit
  | .select _ _ | .checkMaster _ _ | .accept _ | .exited => none

/-- A descriptor that `recv` would not block on. -/
def readable (s : State) (fd : Nat) : Bool :=
  match s.server.peer fd with
  | some k => !(s.monitor k).up.isEmpty || !(s.monitor k).pc.connected
  | none => false

def selectReturns (master : Bool) (ready : List Nat) (s : State) : Option State :=
  match s.server.pc with
  | .select set fds =>
      if (master = true → set = true ∧ s.server.masterOpen = true ∧ s.backlog ≠ []) ∧
          ∀ fd ∈ ready, fd ∈ fds ∧ readable s fd = true then
        some (s.goto (.checkMaster master ready))
      else none
  | _ => none

/-- An error of `select` leaves the set as it was. -/
def selectFails (s : State) : Option State :=
  match s.server.pc with
  | .select set fds => some { s.goto (.checkMaster set fds) with server.running := false }
  | _ => none

/-- `FD_ISSET(master_socket_fd, ..)` is undefined once the handler has set the
descriptor to -1; both results are possible then. -/
def checkMaster (result : Bool) (s : State) : Option State :=
  match s.server.pc with
  | .checkMaster master ready =>
      if s.server.masterOpen = true → result = master then
        some (s.goto (if result then .accept ready else .snapshot ready))
      else none
  | _ => none

/-- `accept` returns `fd`, which is not open, and the connection gets the first
free name or is closed. -/
def accept (cfg : Config) (fd : Nat) (s : State) : Option State :=
  match s.server.pc, s.backlog with
  | .accept ready, k :: rest =>
      if s.server.masterOpen = true ∧ s.server.peer fd = none then
        match freeName cfg.names s.server.clientFds with
        | some name =>
            some {
              server := { s.server with
                pc := .snapshot ready
                clientFds := s.server.clientFds.set fd name
                peer := Function.update s.server.peer fd (some k) }
              backlog := rest
              monitor := Function.update s.monitor k { s.monitor k with link := .accepted } }
        | none =>
            some {
              server := { s.server with pc := .snapshot ready }
              backlog := rest
              monitor := Function.update s.monitor k
                { s.monitor k with link := .closed, refused := true } }
      else none
  | _, _ => none

def acceptFails (interrupted : Bool) (s : State) : Option State :=
  match s.server.pc with
  | .accept ready => some (s.goto (if interrupted then .test else .snapshot ready))
  | _ => none

def receiveInterrupted (cfg : Config) (s : State) : Option State :=
  match s.server.pc with
  | .receive _ fds ready => if cfg.restarts then none else some (s.goto (.check fds ready))
  | _ => none

/-- `sig_handler` of networkMonitor. -/
def sigHandlerServer (s : State) : State :=
  let t := { s with server.running := false }
  if s.server.masterOpen then t.closeMaster else t

def startMonitor (k : Nat) (s : State) : State :=
  s.setMonitor k { s.monitor k with process := { pc := .start, running := true } }

/-- `fork` starts a new process, monitor `k`. -/
def fork (cfg : Config) (s : State) : Option State :=
  match s.server.pc with
  | .fork k =>
      if k < cfg.names.length ∧ (s.monitor k).pc = .unborn then
        some ((startMonitor k s).goto (.fork (k + 1)))
      else none
  | _ => none

def forkFails (cfg : Config) (s : State) : Option State :=
  match s.server.pc with
  | .fork k => if k < cfg.names.length then some (s.goto (.fork (k + 1))) else none
  | _ => none

def exitMonitor (k : Nat) (s : State) : State :=
  s.setMonitor k { s.monitor k with process := (s.monitor k).process.goto .exited }

def localMonitor (operstate : String) (k : Nat) (s : State) : Option State :=
  ((s.monitor k).process.localStep operstate).map fun p =>
    s.setMonitor k { s.monitor k with
      process := p
      linkUps := (s.monitor k).linkUps + if (s.monitor k).pc = .setLinkUp then 1 else 0 }

def connect (k : Nat) (s : State) : Option State :=
  if (s.monitor k).pc = .connect ∧ s.server.masterOpen = true ∧ s.backlog.length ≤ 5 then
    some { s.setMonitor k { s.monitor k with
        process := (s.monitor k).process.goto .sendReady
        link := .waiting } with
      backlog := s.backlog ++ [k] }
  else none

/-- `send` of a monitor raises SIGPIPE once networkMonitor has closed the
connection. -/
def sendMonitor (k : Nat) (s : State) : Option State :=
  (Process.outgoing (s.monitor k).pc).map fun message =>
    if (s.monitor k).link = .closed then exitMonitor k s
    else
      s.setMonitor k { s.monitor k with
        process := (s.monitor k).process.goto (Process.afterSend (s.monitor k).pc)
        up := (s.monitor k).up ++ [message]
        reports := (s.monitor k).reports + if message = "Link Down" then 1 else 0 }

def recvMonitor (k : Nat) (s : State) : Option State :=
  match (s.monitor k).down with
  | message :: rest =>
      ((s.monitor k).process.afterRecv (.data message)).map fun p =>
        s.setMonitor k { s.monitor k with process := p, down := rest }
  | [] => none

/-- `recv` of a monitor returns without data. -/
def recvEnds (cfg : Config) (k : Nat) (r : Recv) (s : State) : Option State :=
  match r, (s.monitor k).down with
  | .closed, [] | .failed, [] =>
      if (s.monitor k).link = .closed then
        ((s.monitor k).process.afterRecv r).map fun p =>
          s.setMonitor k { s.monitor k with process := p }
      else none
  | .interrupted, [] =>
      if cfg.restarts then none
      else
        ((s.monitor k).process.sigHandler.afterRecv r).map fun p =>
          s.setMonitor k { s.monitor k with process := p }
  | _, _ => none

/-- SIGINT ends a monitor that has not installed its handler. -/
def sigintMonitor (k : Nat) (s : State) : Option State :=
  match (s.monitor k).pc with
  | .unborn | .exited => none
  | .start => some (exitMonitor k s)
  | _ => some (s.setMonitor k { s.monitor k with process := (s.monitor k).process.sigHandler })

/-- A monitor that networkMonitor has not forked is launched, one whose `execve`, `socket` or
`connect` fails does so at `fails`, and `die` is any other end of a monitor. -/
inductive Action where
  | server
  | fork
  | forkFails
  | selectReturns (master : Bool) (ready : List Nat)
  | selectInterrupted
  | selectFails
  | checkMaster (result : Bool)
  | accept (fd : Nat)
  | acceptFails (interrupted : Bool)
  | receiveInterrupted
  | sigintServer
  | launch (k : Nat)
  | fails (k : Nat)
  | monitor (k : Nat) (operstate : String)
  | connect (k : Nat)
  | send (k : Nat)
  | recv (k : Nat)
  | recvEnds (k : Nat) (r : Recv)
  | close (k : Nat)
  | sigint (k : Nat)
  | die (k : Nat)
  deriving DecidableEq, Repr

def serverAction (cfg : Config) (s : State) : Action → Option State
  | .server => serverStep cfg s
  | .fork => fork cfg s
  | .forkFails => forkFails cfg s
  | .selectReturns master ready => selectReturns master ready s
  | .selectInterrupted =>
      match s.server.pc with
      | .select _ _ => some (s.goto .test)
      | _ => none
  | .selectFails => selectFails s
  | .checkMaster result => checkMaster result s
  | .accept fd => accept cfg fd s
  | .acceptFails interrupted => acceptFails interrupted s
  | .receiveInterrupted => receiveInterrupted cfg s
  | .sigintServer => if s.server.pc = .exited then none else some (sigHandlerServer s)
  | _ => none

def monitorAction (cfg : Config) (s : State) : Action → Option State
  | .launch k =>
      if cfg.names.length ≤ k ∧ (s.monitor k).pc = .unborn then some (startMonitor k s) else none
  | .fails k =>
      if (s.monitor k).pc = .start ∨ (s.monitor k).pc = .connect then some (exitMonitor k s)
      else none
  | .monitor k operstate => localMonitor operstate k s
  | .connect k => connect k s
  | .send k => sendMonitor k s
  | .recv k => recvMonitor k s
  | .recvEnds k r => recvEnds cfg k r s
  | .close k => if (s.monitor k).pc = .close then some (exitMonitor k s) else none
  | .sigint k => sigintMonitor k s
  | .die k =>
      if (s.monitor k).pc = .unborn ∨ (s.monitor k).pc = .exited then none
      else some (exitMonitor k s)
  | _ => none

def step (cfg : Config) (s : State) (a : Action) : Option State :=
  (serverAction cfg s a).or (monitorAction cfg s a)

/-- One turn of the loop in which the message waiting on `fd` is handled. -/
def serve (fd : Nat) : List Action :=
  [.server, .server, .selectReturns false [fd], .checkMaster false,
   .server, .server, .server, .server, .server]

/-- One turn of the loop in which a connection is accepted while `before`
clients are registered. -/
def acceptAs (fd before : Nat) : List Action :=
  [.server, .server, .selectReturns true [], .checkMaster true, .accept fd] ++
    List.replicate (before + 3) .server

def connecting (k : Nat) : List Action := [.monitor k "up", .connect k]

/-- "Ready", "Monitor" and "Monitoring". -/
def greeting (k fd : Nat) : List Action :=
  .send k :: serve fd ++ [.recv k, .send k] ++ serve fd

end Unx511.Assignment2
