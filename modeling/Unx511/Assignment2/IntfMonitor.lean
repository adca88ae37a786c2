import Mathlib.Tactic

/-!
Assignment 2, `intfMonitor.cpp`: the control flow of one monitor process, with
the statements that touch its connection kept apart. How the connection delivers
what is sent is left to the models that use this program.

The statistics that the loop prints decide nothing and are left out.
-/

namespace Unx511.Assignment2

/-- The statement a monitor is at. It waits in `receive_message` after "Ready"
(`awaitMonitor`) and after "Link Down" (`awaitCommand`); `poll` is the reads from sysfs,
`setLinkUp` the branch with the ioctl, and `report` the output and `sleep(1)`. -/
inductive MonitorPc where
  | unborn
  | start
  | connect
  | sendReady
  | awaitMonitor
  | sendMonitoring
  | test
  | poll
  | sendLinkDown
  | awaitCommand
  | setLinkUp
  | report
  | sendDone
  | close
  | exited
  deriving DecidableEq, Repr

/-- The process holds its end of a connection. -/
def MonitorPc.connected : MonitorPc → Bool
  | .unborn | .start | .connect | .exited => false
  | _ => true

/-- The monitor has no connection yet. -/
def MonitorPc.early : MonitorPc → Bool
  | .unborn | .start | .connect => true
  | _ => false

/-- The monitor is in its loop or at its end, and waits for no answer. -/
def MonitorPc.looping : MonitorPc → Bool
  | .test | .poll | .sendLinkDown | .setLinkUp | .report | .sendDone => true
  | _ => false

structure Process where
  pc : MonitorPc
  running : Bool
  deriving DecidableEq, Repr

/-- What `recv` of the monitor returns: data, 0, or -1 with EINTR or another error. -/
inductive Recv where
  | data (s : String)
  | closed
  | interrupted
  | failed
  deriving DecidableEq, Repr

namespace Process

/-- `sig_handler` -/
def sigHandler (p : Process) : Process := { p with running := false }

def goto (p : Process) (pc : MonitorPc) : Process := { p with pc := pc }

/-- The value that `receive_message` returns. -/
def response : Recv → String
  | .data s => s
  | .closed | .interrupted | .failed => ""

/-- `receive_message` clears `running` when the connection is closed. -/
def receiveMessage (r : Recv) (p : Process) : Process :=
  if r = .closed then { p with running := false } else p

/-- The message that the statement sends. -/
def outgoing : MonitorPc → Option String
  | .sendReady => some "Ready"
  | .sendMonitoring => some "Monitoring"
  | .sendLinkDown => some "Link Down"
  | .sendDone => some "Done"
  | _ => none

/-- The statement after a send, whether or not it succeeded. -/
def afterSend : MonitorPc → MonitorPc
  | .sendReady => .awaitMonitor
  | .sendMonitoring => .test
  | .sendLinkDown => .awaitCommand
  | .sendDone => .close
  | pc => pc

/-- The rest of the statement that `receive_message` is called in. -/
def afterRecv (r : Recv) (p : Process) : Option Process :=
  match p.pc with
  | .awaitMonitor =>
      if response r = "Monitor" then some ((receiveMessage r p).goto .sendMonitoring)
      else some ((receiveMessage r p).sigHandler.goto .test)
  | .awaitCommand =>
      if response r = "Set Link Up" then some ((receiveMessage r p).goto .setLinkUp)
      else if response r = "Shut Down" then
        some ((receiveMessage r p).sigHandler.goto .report)
      else some ((receiveMessage r p).goto .report)
  | _ => none

/-- The statements that do not touch the connection; `operstate` is what the
poll reads. -/
def localStep (operstate : String) (p : Process) : Option Process :=
  match p.pc with
  | .start => some (p.goto .connect)
  | .test => some (p.goto (if p.running then .poll else .sendDone))
  | .poll => some (p.goto (if operstate = "down" then .sendLinkDown else .report))
  | .setLinkUp => some (p.goto .report)
  | .report => some (p.goto .test)
  | _ => none

@[simp] theorem goto_pc (p : Process) (pc : MonitorPc) : (p.goto pc).pc = pc := rfl

/-- What a local step can do. -/
theorem localStep_cases {p q : Process} {operstate : String}
    (h : p.localStep operstate = some q) :
    (p.pc = .start ∧ q = p.goto .connect) ∨
      (p.pc.looping = true ∧ q = p.goto q.pc ∧ q.pc.looping = true ∧ q.pc ≠ .setLinkUp) := by
  unfold localStep at h
  split at h
  case h_1 hpc =>
    cases h
    exact .inl ⟨hpc, rfl⟩
  case h_2 hpc =>
    cases h
    refine .inr ⟨by rw [hpc]; rfl, rfl, ?_⟩
    cases p.running <;> exact ⟨rfl, nofun⟩
  case h_3 hpc =>
    cases h
    refine .inr ⟨by rw [hpc]; rfl, rfl, ?_⟩
    change (if operstate = "down" then MonitorPc.sendLinkDown else .report).looping = true ∧ _
    rw [goto_pc]
    split <;> exact ⟨rfl, nofun⟩
  case h_4 hpc =>
    cases h
    exact .inr ⟨by rw [hpc]; rfl, rfl, rfl, nofun⟩
  case h_5 hpc =>
    cases h
    exact .inr ⟨by rw [hpc]; rfl, rfl, rfl, nofun⟩
  case h_6 => cases h

/-- What the rest of the statement around `receive_message` can do. -/
theorem afterRecv_cases {p q : Process} {r : Recv} (h : p.afterRecv r = some q) :
    (p.pc = .awaitMonitor ∧
      ((response r = "Monitor" ∧ q.pc = .sendMonitoring) ∨
        (response r ≠ "Monitor" ∧ q.pc = .test ∧ q.running = false))) ∨
    (p.pc = .awaitCommand ∧
      ((response r = "Set Link Up" ∧ q.pc = .setLinkUp) ∨
        (response r ≠ "Set Link Up" ∧ q.pc = .report))) := by
  unfold afterRecv at h
  split at h
  case h_1 hpc =>
    split at h
    case isTrue hr =>
      cases h
      exact .inl ⟨hpc, .inl ⟨hr, rfl⟩⟩
    case isFalse hr =>
      cases h
      exact .inl ⟨hpc, .inr ⟨hr, rfl, rfl⟩⟩
  case h_2 hpc =>
    split at h
    case isTrue hr =>
      cases h
      exact .inr ⟨hpc, .inl ⟨hr, rfl⟩⟩
    case isFalse hr =>
      split at h <;> cases h <;> exact .inr ⟨hpc, .inr ⟨hr, rfl⟩⟩
  case h_3 => cases h

end Process

end Unx511.Assignment2
