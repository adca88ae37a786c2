import Unx511.Assignment2.Wiring
import Unx511.Assignment2.Dialogue
import Unx511.Assignment2.ClientRegistry

/-!
networkMonitor among its monitors does nothing that networkMonitor in an open
environment cannot do: every run of the system is matched by a run of the select
loop that has the same map, the same descriptors and is at the same statement.
The system fills `read_fds` in one step and ends in one, where the loop takes many.
-/

namespace Unx511.Assignment2.SelectLoop

open Unx511.Machine

/-- What the kernel knows of a descriptor in the system. -/
def connOf (s : Assignment2.State) (fd : Nat) : Conn :=
  match s.server.peer fd with
  | none => .free
  | some k => if (s.monitor k).pc.connected then .connected else .peerGone

/-- The statement of the loop that the system's server is at. -/
def pcOf : ServerPc → Pc
  | .fork _ | .test => .test
  | .fill => .setMaster
  | .select _ _ => .select
  | .checkMaster _ _ => .testMaster
  | .accept _ => .accept
  | .snapshot _ => .snapshot
  | .check fds _ => .check fds
  | .receive fd fds _ => .receive fd fds
  | .handle fd _ message fds _ => .handle fd message fds
  | .sendShutDown fds => .sendShutDown fds
  | .closeClient fd fds => .closeClient fd fds
  | .closeMaster => .closeMaster
  | .exited => .exited

def ended : ServerPc → Bool
  | .exited => true
  | _ => false

/-- `read_fds` as the system's server has it, where it still matters. -/
def ReadSet (master : Nat) (readFds : List Nat) : ServerPc → Prop
  | .fill => readFds = []
  | .select listening fds | .checkMaster listening fds =>
      (master ∈ readFds ↔ listening = true) ∧ ∀ fd, fd ≠ master → (fd ∈ readFds ↔ fd ∈ fds)
  | .accept ready | .snapshot ready | .check _ ready | .receive _ _ ready
  | .handle _ _ _ _ ready => ∀ fd, fd ≠ master → (fd ∈ readFds ↔ fd ∈ ready)
  | _ => True

/-- The loop in state `t` is the system's server in state `s`. -/
structure Shows (master : Nat) (s : Assignment2.State) (t : State) : Prop where
  lives : ended s.server.pc = false
  pc : t.pc = pcOf s.server.pc
  running : t.running = s.server.running
  masterFd : t.masterFd = if s.server.masterOpen then some master else none
  clientFds : t.clientFds = s.server.clientFds
  conn : t.conn = connOf s
  readSet : ReadSet master t.readFds s.server.pc
  apart : master ∉ s.server.clientFds.keys

/-- The process has ended on both sides, or it goes on alike. -/
def Represents (master : Nat) (s : Assignment2.State) (t : State) : Prop :=
  (s.server.pc = .exited ∧ (t.pc = .exited ∨ t.pc = .killed)) ∨ Shows master s t

/-- `accept` does not return the listening descriptor, which is open, and `select` is
interrupted only by SIGINT, whose handler has run. -/
def Allowed (master : Nat) (s : Assignment2.State) : Assignment2.Action → Prop
  | .accept fd => fd ≠ master
  | .selectInterrupted => s.server.running = false ∧ s.server.masterOpen = false
  | _ => True

/-- The select loop can get from one state to the other. -/
abbrev Leads (names : List String) : State → State → Prop := Reaches (step names) anyAction

theorem leads_of_step {names : List String} {t u : State} {a : Action}
    (h : step names t a = some u) : Leads names t u :=
  .of_step trivial h

theorem shows_initial (master : Nat) (running : Bool) :
    Shows master (Assignment2.State.initial running) (State.initial master running) where
  lives := rfl
  pc := rfl
  running := rfl
  masterFd := rfl
  clientFds := rfl
  conn := rfl
  readSet := trivial
  apart := nofun

/-- `FD_SET` on each client. -/
theorem leads_setClients (names : List String) (fds : List Nat) {t : State}
    (hpc : t.pc = .setClients fds) :
    Leads names t { t with pc := .select, readFds := t.readFds ++ fds } := by
  induction fds generalizing t with
  | nil =>
      have hstep : step names t .next = some (t.goto .select) := by rw [step, nextStep, hpc]
      rw [List.append_nil]
      exact leads_of_step hstep
  | cons fd rest ih =>
      have hstep : step names t .next =
          some { t with pc := .setClients rest, readFds := t.readFds ++ [fd] } := by
        rw [step, nextStep, hpc]
      have hrest := ih (t := { t with pc := .setClients rest, readFds := t.readFds ++ [fd] }) rfl
      rw [List.append_assoc] at hrest
      exact .head trivial hstep hrest

theorem connOf_of_peer {s : Assignment2.State} {fd k : Nat} (hpeer : s.server.peer fd = some k) :
    connOf s fd = if (s.monitor k).pc.connected then .connected else .peerGone := by
  unfold connOf
  rw [hpeer]

/-- Monitor `k` is replaced by one that holds its end of the connection as it did. -/
theorem connected_update {s : Assignment2.State} {k : Nat} {m : Monitor}
    (hm : m.pc.connected = (s.monitor k).pc.connected) (j : Nat) :
    (Function.update s.monitor k m j).pc.connected = (s.monitor j).pc.connected := by
  rcases eq_or_ne j k with rfl | hne
  · rw [Function.update_self, hm]
  · rw [Function.update_of_ne hne]

theorem hangUp_connected (m : Monitor) : m.hangUp.pc.connected = m.pc.connected := by
  rw [Monitor.pc, hangUp_process, Monitor.pc]

theorem connOf_congr {s t : Assignment2.State} (hpeer : t.server.peer = s.server.peer)
    (hconnected : ∀ k, (t.monitor k).pc.connected = (s.monitor k).pc.connected) :
    connOf t = connOf s := by
  funext fd
  unfold connOf
  rw [hpeer]
  cases s.server.peer fd with
  | none => rfl
  | some k => simp only [hconnected k]

theorem connOf_closeFd (s : Assignment2.State) (fd : Nat) :
    connOf (s.closeFd fd) = Function.update (connOf s) fd .free := by
  funext f
  unfold Assignment2.State.closeFd
  cases hpeer : s.server.peer fd with
  | none =>
      rcases eq_or_ne f fd with rfl | hne
      · simp [connOf, hpeer]
      · simp [hne]
  | some k =>
      rcases eq_or_ne f fd with rfl | hne
      · simp [connOf]
      · have hconnected := connected_update (hangUp_connected (s.monitor k))
        simp [connOf, hne, hconnected]

/-- A connection that `accept` returns is that of a monitor that may be gone. -/
theorem connOf_accept {s t : Assignment2.State} {fd k : Nat}
    (hpeer : t.server.peer = Function.update s.server.peer fd (some k))
    (hconnected : ∀ j, (t.monitor j).pc.connected = (s.monitor j).pc.connected) :
    connOf t = Function.update (connOf s) fd
      (if (s.monitor k).pc.connected then .connected else .peerGone) := by
  funext f
  rcases eq_or_ne f fd with rfl | hne
  · rw [Function.update_self, connOf_of_peer (k := k) (by rw [hpeer, Function.update_self]),
      hconnected]
  · rw [Function.update_of_ne hne]
    unfold connOf
    rw [hpeer, Function.update_of_ne hne]
    cases s.server.peer f with
    | none => rfl
    | some j => simp only [hconnected j]

namespace Shows

variable {names : List String} {master : Nat} {s : Assignment2.State} {t : State}

theorem pc_at (h : Shows master s t) {pc : ServerPc} (hpc : s.server.pc = pc) : t.pc = pcOf pc := by
  rw [h.pc, hpc]

theorem readSet_at (h : Shows master s t) {pc : ServerPc} (hpc : s.server.pc = pc) :
    ReadSet master t.readFds pc := by
  rw [← hpc]
  exact h.readSet

/-- Both go to another statement and touch nothing else. -/
theorem goto (h : Shows master s t) {pc : ServerPc} {readFds : List Nat} (hlives : ended pc = false)
    (hread : ReadSet master readFds pc) :
    Shows master (s.goto pc) { t with pc := pcOf pc, readFds := readFds } :=
  ⟨hlives, rfl, h.running, h.masterFd, h.clientFds, h.conn, hread, h.apart⟩

theorem fill (h : Shows master s t) (hpc : s.server.pc = .fill) :
    ∃ u, Leads names t u ∧
      Shows master (s.goto (.select s.server.masterOpen s.server.clientFds.keys)) u := by
  have htpc : t.pc = .setMaster := h.pc_at hpc
  have hempty : t.readFds = [] := (h.readSet_at hpc :)
  have hstep : step names t .next = some { t with
      pc := .setClients t.clientFds.keys
      readFds := t.readFds ++ t.masterFd.toList } := by
    rw [step, nextStep, htpc]
  refine ⟨_, .head trivial hstep (leads_setClients names t.clientFds.keys rfl), h.goto rfl ?_⟩
  rw [hempty, h.masterFd, h.clientFds]
  have hapart := h.apart
  cases s.server.masterOpen with
  | false => simpa [ReadSet] using hapart
  | true => simp +contextual [ReadSet]

/-- Only the descriptors change, on both sides alike. -/
theorem update (h : Shows master s t) {s' : Assignment2.State}
    (hserver : s'.server.pc = s.server.pc ∧ s'.server.running = s.server.running ∧
      s'.server.masterOpen = s.server.masterOpen ∧ s'.server.clientFds = s.server.clientFds)
    {conn : Nat → Conn} (misused : Bool) (hconn : conn = connOf s') :
    Shows master s' { t with conn := conn, misused := misused } := by
  obtain ⟨hpc, hrunning, hmaster, hclientFds⟩ := hserver
  refine ⟨?_, ?_, ?_, ?_, ?_, hconn, ?_, ?_⟩
  · rw [hpc]
    exact h.lives
  · rw [hpc]
    exact h.pc
  · rw [hrunning]
    exact h.running
  · rw [hmaster]
    exact h.masterFd
  · rw [hclientFds]
    exact h.clientFds
  · rw [hpc]
    exact h.readSet
  · rw [hclientFds]
    exact h.apart

theorem congr (h : Shows master s t) {s' : Assignment2.State}
    (hserver : s'.server.pc = s.server.pc ∧ s'.server.running = s.server.running ∧
      s'.server.masterOpen = s.server.masterOpen ∧ s'.server.clientFds = s.server.clientFds)
    (hconn : connOf s' = connOf s) : Shows master s' t :=
  h.update hserver t.misused (h.conn.trans hconn.symm)

theorem closeFd (h : Shows master s t) (fd : Nat) : Shows master (s.closeFd fd) (t.closeFd fd) := by
  refine h.update ?_ _ ?_
  · unfold Assignment2.State.closeFd
    split <;> exact ⟨rfl, rfl, rfl, rfl⟩
  · rw [connOf_closeFd, ← h.conn]

theorem drop (h : Shows master s t) (fd : Nat) {pc : ServerPc} (hlives : ended pc = false)
    (hread : ReadSet master t.readFds pc) :
    Shows master ((s.dropClient fd).goto pc) ((t.dropClient fd).goto (pcOf pc)) := by
  have hclosed := h.closeFd fd
  refine ⟨hlives, rfl, hclosed.running, hclosed.masterFd, ?_, hclosed.conn, hread, ?_⟩
  · change t.clientFds.erase fd = s.server.clientFds.erase fd
    rw [h.clientFds]
  · exact fun hmem => h.apart (OrderedMap.mem_keys_erase.mp hmem).1

theorem send (h : Shows master s t) {fd : Nat} {message : String} {sources : List Nat}
    {pc : ServerPc} {u : State} (hopen : t.conn fd ≠ .free) (hnext : Shows master (s.goto pc) u) :
    Represents master (s.serverSend fd message sources pc) (t.send fd u) := by
  have hconn : t.conn fd = connOf s fd := congrFun h.conn fd
  unfold State.send Assignment2.State.serverSend
  cases hpeer : s.server.peer fd with
  | none =>
      rw [hconn, connOf, hpeer] at hopen
      exact absurd rfl hopen
  | some k =>
      rw [connOf_of_peer hpeer] at hconn
      cases hconnected : (s.monitor k).pc.connected with
      | true =>
          rw [hconnected] at hconn
          simp only [hconn, hconnected]
          right
          exact hnext.congr ⟨rfl, rfl, rfl, rfl⟩ (connOf_congr rfl (connected_update rfl))
      | false =>
          rw [hconnected] at hconn
          simp only [hconn, hconnected]
          exact .inl ⟨rfl, .inr rfl⟩

theorem handle (h : Shows master s t) (hconsistent : Consistent names t) {fd source : Nat}
    {message : String} {fds ready : List Nat}
    (hpc : s.server.pc = .handle fd source message fds ready) :
    Represents master (Assignment2.handleMessage fd source message fds ready s)
      (handleMessage fd message fds t) := by
  have htpc : t.pc = .handle fd message fds := h.pc_at hpc
  have hfd : fd ∈ t.pc.visits := by rw [htpc]; exact List.mem_cons_self
  have hkey : fd ∈ t.clientFds.keys := hconsistent.visited fd hfd
  have hopen : t.conn fd ≠ .free := (hconsistent.keys (by rw [htpc]; rfl) fd).mp hkey
  have hread : ReadSet master t.readFds (.check fds ready) := (h.readSet_at hpc :)
  have hnext : Shows master (s.goto (.check fds ready)) (t.goto (.check fds)) :=
    h.goto rfl hread
  rw [h.clientFds] at hkey
  obtain ⟨name, _, hsub⟩ := subscript_of_mem hkey
  unfold Assignment2.handleMessage handleMessage
  dsimp only
  rw [hconsistent.subscript_eq hfd, hsub]
  cases Request.ofMessage message with
  | none => exact .inr (hnext.congr ⟨rfl, rfl, rfl, rfl⟩ rfl)
  | some request =>
      cases request with
      | ready => exact h.send hopen hnext
      | monitoring => exact .inr hnext
      | linkDown =>
          have halerted : Shows master { s with
              server.alerts := s.server.alerts ++ [(source, name)] } t :=
            h.congr ⟨rfl, rfl, rfl, rfl⟩ rfl
          exact halerted.send hopen (halerted.goto rfl hread)
      | done => exact .inr (h.drop fd rfl hread)

theorem receive (h : Shows master s t) (hconsistent : Consistent names t) {fd : Nat}
    {fds ready : List Nat} (hpc : s.server.pc = .receive fd fds ready) {s' : Assignment2.State}
    (hstep : receiveMessage fd fds ready s = some s') :
    ∃ u, Leads names t u ∧ Shows master s' u := by
  have htpc : t.pc = .receive fd fds := h.pc_at hpc
  have hkey : fd ∈ t.clientFds.keys :=
    hconsistent.visited fd (by rw [htpc]; exact List.mem_cons_self)
  have hopen : t.conn fd ≠ .free := (hconsistent.keys (by rw [htpc]; rfl) fd).mp hkey
  have hread : ReadSet master t.readFds (.check fds ready) := (h.readSet_at hpc :)
  have hconn : t.conn fd = connOf s fd := congrFun h.conn fd
  unfold receiveMessage at hstep
  split at hstep
  case h_1 hpeer =>
    rw [hconn, connOf, hpeer] at hopen
    exact absurd rfl hopen
  case h_2 k hpeer =>
    rw [connOf_of_peer hpeer] at hconn
    split at hstep
    case h_1 message rest hup =>
      cases hstep
      have hreceived : step names t (.received message) =
          some (t.goto (.handle fd message fds)) := by
        simp only [step, SelectLoop.receive, htpc, if_neg hopen]
      refine ⟨_, leads_of_step hreceived, ?_⟩
      have hmonitor : Shows master (s.setMonitor k { s.monitor k with up := rest }) t :=
        h.congr ⟨rfl, rfl, rfl, rfl⟩ (connOf_congr rfl (connected_update rfl))
      exact hmonitor.goto rfl hread
    case h_2 =>
      split at hstep
      case isTrue => cases hstep
      case isFalse hgone =>
        cases hstep
        rw [if_neg hgone] at hconn
        have hends : step names t .receiveEnds = some ((t.dropClient fd).goto (.check fds)) := by
          simp only [step, SelectLoop.receive, htpc, if_pos hconn]
        exact ⟨_, leads_of_step hends, h.drop fd rfl hread⟩

theorem test (h : Shows master s t) (hpc : s.server.pc = .test) :
    ∃ u, Leads names t u ∧ Shows master
      (s.goto (if s.server.running then .fill else .sendShutDown s.server.clientFds.keys)) u := by
  have htpc : t.pc = .test := h.pc_at hpc
  have hrunning := h.running
  cases hs : s.server.running with
  | true =>
      rw [hs] at hrunning
      have hstep : step names t .next = some { t with pc := .setMaster, readFds := [] } := by
        simp only [step, nextStep, htpc, hrunning, if_true]
      exact ⟨_, leads_of_step hstep, h.goto rfl rfl⟩
  | false =>
      rw [hs] at hrunning
      have hstep : step names t .next = some { t with
          pc := .sendShutDown t.clientFds.keys
          remaining := t.clientFds.keys
          told := []
          closed := [] } := by
        simp only [step, nextStep, htpc, hrunning, Bool.false_eq_true, if_false]
      refine ⟨_, leads_of_step hstep, ⟨rfl, ?_, h.running, h.masterFd, h.clientFds, h.conn, trivial,
        h.apart⟩⟩
      rw [h.clientFds]
      rfl

theorem check (h : Shows master s t) {fd : Nat} {fds ready : List Nat}
    (hpc : s.server.pc = .check (fd :: fds) ready) :
    ∃ u, Leads names t u ∧ Shows master
      (s.goto (if fd ∈ ready ∧ fd ∈ s.server.clientFds.keys then .receive fd fds ready
        else .check fds ready)) u := by
  have htpc : t.pc = .check (fd :: fds) := h.pc_at hpc
  have hread : ∀ f, f ≠ master → (f ∈ t.readFds ↔ f ∈ ready) := (h.readSet_at hpc :)
  have hsame : (fd ∈ t.readFds ∧ fd ∈ t.clientFds.keys) ↔
      (fd ∈ ready ∧ fd ∈ s.server.clientFds.keys) := by
    rw [h.clientFds]
    apply and_congr_left
    intro hkey
    apply hread
    rintro rfl
    exact h.apart hkey
  have hstep : step names t .next = some (t.goto
      (if fd ∈ t.readFds ∧ fd ∈ t.clientFds.keys then .receive fd fds else .check fds)) := by
    rw [step, nextStep, htpc]
  refine ⟨_, leads_of_step hstep, ?_⟩
  by_cases hvisit : fd ∈ ready ∧ fd ∈ s.server.clientFds.keys
  · rw [if_pos hvisit, if_pos (hsame.mpr hvisit)]
    exact h.goto rfl hread
  · rw [if_neg hvisit, if_neg (mt hsame.mp hvisit)]
    exact h.goto rfl hread

/-- One step of the system's server. -/
theorem serverStep {cfg : Config} (h : Shows master s t) (hconsistent : Consistent cfg.names t)
    {s' : Assignment2.State} (hstep : Assignment2.serverStep cfg s = some s') :
    ∃ u, Leads cfg.names t u ∧ Represents master s' u := by
  have halike : ∀ {s' : Assignment2.State}, (∃ u, Leads cfg.names t u ∧ Shows master s' u) →
      ∃ u, Leads cfg.names t u ∧ Represents master s' u := by
    rintro s' ⟨u, hleads, hshows⟩
    exact ⟨u, hleads, .inr hshows⟩
  unfold Assignment2.serverStep at hstep
  split at hstep
  case h_1 k hpc =>
    split at hstep
    case isTrue =>
      cases hstep
      have htpc : t.pc = .test := h.pc_at hpc
      exact halike ⟨t, .refl t, ⟨rfl, htpc, h.running, h.masterFd, h.clientFds, h.conn, trivial,
        h.apart⟩⟩
    case isFalse => cases hstep
  case h_2 hpc =>
    cases hstep
    exact halike (h.test hpc)
  case h_3 hpc =>
    cases hstep
    exact halike (h.fill hpc)
  case h_4 ready hpc =>
    cases hstep
    have htpc : t.pc = .snapshot := h.pc_at hpc
    have hnext : step cfg.names t .next = some (t.goto (.check t.clientFds.keys)) := by
      rw [step, nextStep, htpc]
    refine halike ⟨_, leads_of_step hnext, ?_⟩
    rw [h.clientFds]
    exact h.goto rfl (h.readSet_at hpc :)
  case h_5 ready hpc =>
    cases hstep
    have htpc : t.pc = .check [] := h.pc_at hpc
    have hnext : step cfg.names t .next = some (t.goto .test) := by rw [step, nextStep, htpc]
    exact halike ⟨_, leads_of_step hnext, h.goto rfl trivial⟩
  case h_6 fd fds ready hpc =>
    cases hstep
    exact halike (h.check hpc)
  case h_7 fd fds ready hpc => exact halike (h.receive hconsistent hpc hstep)
  case h_8 fd source message fds ready hpc =>
    cases hstep
    have htpc : t.pc = .handle fd message fds := h.pc_at hpc
    have hnext : step cfg.names t .next = some (handleMessage fd message fds t) := by
      rw [step, nextStep, htpc]
    exact ⟨_, leads_of_step hnext, h.handle hconsistent hpc⟩
  case h_9 fd fds hpc =>
    cases hstep
    have htpc : t.pc = .sendShutDown (fd :: fds) := h.pc_at hpc
    have hnext : step cfg.names t .next = some
        (t.send fd { t with pc := .closeClient fd fds, told := t.told ++ [fd] }) := by
      rw [step, nextStep, htpc]
    have hopen : t.conn fd ≠ .free := by
      rw [← hconsistent.toClose (.inl (by rw [htpc]; rfl)), htpc]
      exact List.mem_cons_self
    refine ⟨_, leads_of_step hnext, h.send hopen ?_⟩
    exact ⟨rfl, rfl, h.running, h.masterFd, h.clientFds, h.conn, trivial, h.apart⟩
  case h_10 hpc =>
    cases hstep
    have htpc : t.pc = .sendShutDown [] := h.pc_at hpc
    have hnext : step cfg.names t .next = some
        { t with pc := .closeMaster, clientFds := OrderedMap.empty } := by
      rw [step, nextStep, htpc]
    refine halike ⟨_, leads_of_step hnext, ?_⟩
    exact ⟨rfl, rfl, h.running, h.masterFd, rfl, h.conn, trivial, nofun⟩
  case h_11 fd fds hpc =>
    cases hstep
    have htpc : t.pc = .closeClient fd fds := h.pc_at hpc
    have hnext : step cfg.names t .next = some
        { t.closeFd fd with pc := .sendShutDown fds, closed := t.closed ++ [fd] } := by
      rw [step, nextStep, htpc]
    have hclosed := h.closeFd fd
    refine halike ⟨_, leads_of_step hnext, ?_⟩
    exact ⟨rfl, rfl, hclosed.running, hclosed.masterFd, hclosed.clientFds, hclosed.conn, trivial,
      hclosed.apart⟩
  case h_12 hpc =>
    cases hstep
    have htpc : t.pc = .closeMaster := h.pc_at hpc
    have hclose : step cfg.names t .next =
        some { t with pc := .removeFile, masterFd := none } := by
      rw [step, nextStep, htpc]
    exact ⟨_, .head trivial hclose (leads_of_step (a := .next) rfl), .inl ⟨rfl, .inl rfl⟩⟩
  all_goals cases hstep

/-- `accept` returns; the monitor may be gone by then. -/
theorem accept {cfg : Config} (h : Shows master s t) {fd : Nat} (hfd : fd ≠ master)
    {s' : Assignment2.State} (hstep : Assignment2.accept cfg fd s = some s') :
    ∃ u, Leads cfg.names t u ∧ Shows master s' u := by
  unfold Assignment2.accept at hstep
  split at hstep
  case h_1 ready k rest hpc hbacklog =>
    split at hstep
    case isTrue hopen =>
      have htpc : t.pc = .accept := h.pc_at hpc
      have hread : ReadSet master t.readFds (.snapshot ready) := (h.readSet_at hpc :)
      have hmaster : t.masterFd = some master := by rw [h.masterFd, if_pos hopen.1]
      have hfree : t.conn fd = .free := by
        rw [congrFun h.conn fd, connOf, hopen.2]
      have hguard : t.pc = .accept ∧ t.masterFd.isSome = true ∧ t.masterFd ≠ some fd ∧
          t.conn fd = .free := by
        refine ⟨htpc, by rw [hmaster]; rfl, ?_, hfree⟩
        rw [hmaster]
        exact fun heq => hfd (Option.some.inj heq).symm
      split at hstep
      case h_1 name hname =>
        cases hstep
        have haccepted : step cfg.names t (.accepted fd) = some { t with
            pc := .snapshot
            clientFds := t.clientFds.set fd name
            conn := Function.update t.conn fd .connected } := by
          simp only [step, accepted, State.openFd]
          rw [if_pos hguard, h.clientFds, hname]
        have hclientFds : t.clientFds.set fd name = s.server.clientFds.set fd name := by
          rw [h.clientFds]
        have hapart : master ∉ (s.server.clientFds.set fd name).keys := by
          rw [OrderedMap.mem_keys_set]
          rintro (heq | hold)
          · exact hfd heq.symm
          · exact h.apart hold
        have hconn := connOf_accept (s := s) (t := {
          server := { s.server with
            pc := .snapshot ready
            clientFds := s.server.clientFds.set fd name
            peer := Function.update s.server.peer fd (some k) }
          backlog := rest
          monitor := Function.update s.monitor k { s.monitor k with link := .accepted } })
          rfl (connected_update rfl)
        rw [← h.conn] at hconn
        cases hconnected : (s.monitor k).pc.connected with
        | true =>
            rw [hconnected, if_pos rfl] at hconn
            exact ⟨_, leads_of_step haccepted, ⟨rfl, rfl, h.running, h.masterFd, hclientFds,
              hconn.symm, hread, hapart⟩⟩
        | false =>
            rw [hconnected, if_neg Bool.false_ne_true] at hconn
            have hgone : step cfg.names { t with
                pc := .snapshot
                clientFds := t.clientFds.set fd name
                conn := Function.update t.conn fd .connected } (.peerCloses fd) = some { t with
                pc := .snapshot
                clientFds := t.clientFds.set fd name
                conn := Function.update t.conn fd .peerGone } := by
              simp [step]
            exact ⟨_, .head trivial haccepted (leads_of_step hgone), ⟨rfl, rfl, h.running,
              h.masterFd, hclientFds, hconn.symm, hread, hapart⟩⟩
      case h_2 hname =>
        cases hstep
        have haccepted : step cfg.names t (.accepted fd) = some (t.goto .snapshot) := by
          simp only [step, accepted]
          rw [if_pos hguard, h.clientFds, hname, closeFd_openFd hfree]
        refine ⟨_, leads_of_step haccepted, ⟨rfl, rfl, h.running, h.masterFd, h.clientFds, ?_, hread,
          h.apart⟩⟩
        refine h.conn.trans (Eq.symm ?_)
        exact connOf_congr rfl (connected_update rfl)
    case isFalse => cases hstep
  case h_2 => cases hstep

/-- While it forks, the server stands before the loop. -/
theorem forked (h : Shows master s t) {j : Nat} (hpc : s.server.pc = .fork j) (k : Nat)
    {s' : Assignment2.State} (hserver : s'.server = s.server) (hconn : connOf s' = connOf s) :
    Shows master (s'.goto (.fork k)) t := by
  have hshows : Shows master s' t := h.congr (by rw [hserver]; exact ⟨rfl, rfl, rfl, rfl⟩) hconn
  have htpc : t.pc = .test := h.pc_at hpc
  exact ⟨rfl, htpc, hshows.running, hshows.masterFd, hshows.clientFds, hshows.conn, trivial,
    hshows.apart⟩

theorem selectReturns {cfg : Config} (h : Shows master s t) {listening : Bool} {ready : List Nat}
    {s' : Assignment2.State} (hstep : Assignment2.selectReturns listening ready s = some s') :
    ∃ u, Leads cfg.names t u ∧ Shows master s' u := by
  unfold Assignment2.selectReturns at hstep
  split at hstep
  case h_1 set fds hpc =>
    split at hstep
    case isTrue hguard =>
      cases hstep
      obtain ⟨hlistening, hready⟩ := hguard
      have htpc : t.pc = .select := h.pc_at hpc
      have hread : (master ∈ t.readFds ↔ set = true) ∧
          ∀ fd, fd ≠ master → (fd ∈ t.readFds ↔ fd ∈ fds) := (h.readSet_at hpc :)
      let left := (if listening then [master] else []) ++ ready.filter (· ≠ master)
      have hmaster : master ∈ left ↔ listening = true := by
        cases listening <;> simp [left]
      have hother : ∀ fd, fd ≠ master → (fd ∈ left ↔ fd ∈ ready) := by
        intro fd hfd
        cases listening <;> simp [left, hfd]
      have hsub : ∀ fd ∈ left, fd ∈ t.readFds := by
        intro fd hmem
        rcases eq_or_ne fd master with rfl | hfd
        · exact hread.1.mpr (hlistening (hmaster.mp hmem)).1
        · exact (hread.2 fd hfd).mpr (hready fd ((hother fd hfd).mp hmem)).1
      have hreturns : step cfg.names t (.selectReturns left) =
          some { t with pc := .testMaster, readFds := left } := by
        rw [step, if_pos ⟨htpc, hsub⟩]
      exact ⟨_, leads_of_step hreturns, h.goto rfl ⟨hmaster, hother⟩⟩
    case isFalse => cases hstep
  case h_2 => cases hstep

theorem checkMaster {cfg : Config} (h : Shows master s t) {result : Bool}
    {s' : Assignment2.State} (hstep : Assignment2.checkMaster result s = some s') :
    ∃ u, Leads cfg.names t u ∧ Shows master s' u := by
  unfold Assignment2.checkMaster at hstep
  split at hstep
  case h_1 listening ready hpc =>
    split at hstep
    case isTrue hguard =>
      cases hstep
      have htpc : t.pc = .testMaster := h.pc_at hpc
      have hread : (master ∈ t.readFds ↔ listening = true) ∧
          ∀ fd, fd ≠ master → (fd ∈ t.readFds ↔ fd ∈ ready) := (h.readSet_at hpc :)
      have hresult : ∀ m ∈ t.masterFd, result = decide (m ∈ t.readFds) := by
        rw [h.masterFd]
        intro m hm
        cases hopen : s.server.masterOpen with
        | false =>
            rw [hopen] at hm
            cases hm
        | true =>
            rw [hopen] at hm
            cases hm
            rw [hguard hopen]
            exact (Bool.decide_congr hread.1).trans (Bool.decide_eq_true) |>.symm
      have htest : step cfg.names t (.testMaster result) =
          some (t.goto (if result then .accept else .snapshot)) := by
        rw [step, if_pos ⟨htpc, hresult⟩]
      refine ⟨_, leads_of_step htest, ?_⟩
      cases result with
      | true => exact h.goto rfl hread.2
      | false => exact h.goto rfl hread.2
    case isFalse => cases hstep
  case h_2 => cases hstep

theorem sigHandlerServer (h : Shows master s t) :
    Shows master (Assignment2.sigHandlerServer s) (sigHandler t) := by
  unfold Assignment2.sigHandlerServer
  cases hopen : s.server.masterOpen with
  | false =>
      refine ⟨h.lives, h.pc, rfl, ?_, h.clientFds, h.conn, h.readSet, h.apart⟩
      simp [sigHandler, hopen]
  | true =>
      refine ⟨h.lives, h.pc, rfl, rfl, h.clientFds, ?_, h.readSet, h.apart⟩
      refine h.conn.trans (Eq.symm ?_)
      refine connOf_congr rfl fun k => ?_
      change (if k ∈ s.backlog then (s.monitor k).hangUp else s.monitor k).pc.connected = _
      split
      · exact hangUp_connected _
      · rfl

/-- One step of the system's server or of a system call that it makes. -/
theorem serverAction {cfg : Config} (h : Shows master s t) (hconsistent : Consistent cfg.names t)
    {a : Assignment2.Action} (hallowed : Allowed master s a) {s' : Assignment2.State}
    (hstep : Assignment2.serverAction cfg s a = some s') :
    ∃ u, Leads cfg.names t u ∧ Represents master s' u := by
  have halike : ∀ {s' : Assignment2.State}, (∃ u, Leads cfg.names t u ∧ Shows master s' u) →
      ∃ u, Leads cfg.names t u ∧ Represents master s' u := by
    rintro s' ⟨u, hleads, hshows⟩
    exact ⟨u, hleads, .inr hshows⟩
  cases a with
  | server => exact h.serverStep hconsistent hstep
  | fork =>
      simp only [Assignment2.serverAction, Assignment2.fork] at hstep
      split at hstep
      case h_1 k hpc =>
        split at hstep
        case isTrue hk =>
          cases hstep
          have hstarted : connOf (startMonitor k s) = connOf s :=
            connOf_congr rfl (connected_update (by rw [hk.2]; rfl))
          exact halike ⟨t, .refl t, h.forked hpc (k + 1) rfl hstarted⟩
        case isFalse => cases hstep
      case h_2 => cases hstep
  | forkFails =>
      simp only [Assignment2.serverAction, Assignment2.forkFails] at hstep
      split at hstep
      case h_1 k hpc =>
        split at hstep
        · cases hstep
          exact halike ⟨t, .refl t, h.forked hpc (k + 1) rfl rfl⟩
        · cases hstep
      case h_2 => cases hstep
  | selectReturns listening ready => exact halike (h.selectReturns hstep)
  | selectInterrupted =>
      simp only [Assignment2.serverAction] at hstep
      split at hstep
      case h_1 hpc =>
        cases hstep
        have htpc : t.pc = .select := h.pc_at hpc
        have hinterrupted : step cfg.names t .selectInterrupted =
            some ((sigHandler t).goto .test) := by
          rw [step, if_pos htpc]
        refine halike ⟨_, leads_of_step hinterrupted, ?_⟩
        refine ⟨rfl, rfl, hallowed.1.symm, ?_, h.clientFds, h.conn, trivial, h.apart⟩
        simp [State.goto, sigHandler, Assignment2.State.goto, hallowed.2]
      case h_2 => cases hstep
  | selectFails =>
      simp only [Assignment2.serverAction, Assignment2.selectFails] at hstep
      split at hstep
      case h_1 set fds hpc =>
        cases hstep
        have htpc : t.pc = .select := h.pc_at hpc
        have hfails : step cfg.names t .selectFails =
            some { t with pc := .testMaster, running := false } := by
          rw [step, if_pos htpc]
        have hread : ReadSet master t.readFds (.checkMaster set fds) := (h.readSet_at hpc :)
        exact halike ⟨_, leads_of_step hfails,
          ⟨rfl, rfl, rfl, h.masterFd, h.clientFds, h.conn, hread, h.apart⟩⟩
      case h_2 => cases hstep
  | checkMaster result => exact halike (h.checkMaster hstep)
  | accept fd => exact halike (h.accept hallowed hstep)
  | acceptFails interrupted =>
      simp only [Assignment2.serverAction, Assignment2.acceptFails] at hstep
      split at hstep
      case h_1 ready hpc =>
        cases hstep
        have htpc : t.pc = .accept := h.pc_at hpc
        have hfails : step cfg.names t (.acceptFails interrupted) =
            some (t.goto (if interrupted then .test else .snapshot)) := by
          rw [step, if_pos htpc]
        refine halike ⟨_, leads_of_step hfails, ?_⟩
        cases interrupted with
        | true => exact h.goto rfl trivial
        | false => exact h.goto rfl (h.readSet_at hpc :)
      case h_2 => cases hstep
  | receiveInterrupted =>
      simp only [Assignment2.serverAction, Assignment2.receiveInterrupted] at hstep
      split at hstep
      case h_1 fd fds ready hpc =>
        split at hstep
        · cases hstep
        · cases hstep
          have htpc : t.pc = .receive fd fds := h.pc_at hpc
          have hinterrupted : step cfg.names t .receiveInterrupted =
              some (t.goto (.check fds)) := by
            simp only [step, SelectLoop.receive, htpc]
          exact halike ⟨_, leads_of_step hinterrupted,
            h.goto rfl (h.readSet_at hpc :)⟩
      case h_2 => cases hstep
  | sigintServer =>
      simp only [Assignment2.serverAction] at hstep
      split at hstep
      case isTrue => cases hstep
      case isFalse hlives =>
        cases hstep
        have halive : ¬ (t.pc = .exited ∨ t.pc = .killed) := by
          rw [h.pc]
          revert hlives
          cases s.server.pc <;> simp [pcOf]
        have hsigint : step cfg.names t .sigint = some (sigHandler t) := by
          rw [step, if_neg halive]
        exact halike ⟨_, leads_of_step hsigint, h.sigHandlerServer⟩
  | _ => cases hstep

end Shows

/-- An action of the monitors changes one monitor, which gets its end of a connection
only from `connect`. -/
theorem monitorAction_update {cfg : Config} {s s' : Assignment2.State} {a : Assignment2.Action}
    (h : monitorAction cfg s a = some s') :
    ∃ k m, s'.server = s.server ∧ s'.monitor = Function.update s.monitor k m ∧
      (m.pc.connected = true →
        (s.monitor k).pc.connected = true ∨ (s.monitor k).pc = .connect) := by
  have hexit : ∀ k, (exitMonitor k s).server = s.server ∧
      (exitMonitor k s).monitor = Function.update s.monitor k
        { s.monitor k with process := (s.monitor k).process.goto .exited } ∧
      (false = true → (s.monitor k).pc.connected = true ∨ (s.monitor k).pc = .connect) :=
    fun k => ⟨rfl, rfl, fun h => by cases h⟩
  have hwaits : ∀ {k : Nat} {q p : Process} {r : Recv}, q.pc = (s.monitor k).pc →
      q.afterRecv r = some p → (s.monitor k).pc.connected = true := by
    intro k q p r hq hp
    unfold Process.afterRecv at hp
    split at hp
    case h_1 hpc | h_2 hpc =>
      rw [← hq, hpc]
      rfl
    case h_3 => cases hp
  cases a with
  | launch k =>
      simp only [monitorAction] at h
      split at h
      case isTrue =>
        cases h
        exact ⟨k, _, rfl, rfl, fun h => by cases h⟩
      case isFalse => cases h
  | fails k =>
      simp only [monitorAction] at h
      split at h
      case isTrue =>
        cases h
        exact ⟨k, _, hexit k⟩
      case isFalse => cases h
  | monitor k operstate =>
      obtain ⟨p, hp, rfl⟩ := Option.map_eq_some_iff.mp h
      refine ⟨k, _, rfl, rfl, fun hconnected => .inl ?_⟩
      rcases Process.localStep_cases hp with ⟨_, rfl⟩ | ⟨hloop, _⟩
      · cases hconnected
      · exact MonitorPc.connected_of_looping hloop
  | connect k =>
      simp only [monitorAction, connect] at h
      split at h
      case isTrue hpc =>
        cases h
        exact ⟨k, _, rfl, rfl, fun _ => .inr hpc.1⟩
      case isFalse => cases h
  | send k =>
      obtain ⟨message, hout, rfl⟩ := Option.map_eq_some_iff.mp h
      split
      case isTrue => exact ⟨k, _, hexit k⟩
      case isFalse =>
        refine ⟨k, _, rfl, rfl, fun _ => .inl ?_⟩
        cases hpc : (s.monitor k).pc <;> first | rfl | (rw [hpc] at hout; cases hout)
  | recv k =>
      simp only [monitorAction, recvMonitor] at h
      split at h
      case h_1 =>
        obtain ⟨p, hp, rfl⟩ := Option.map_eq_some_iff.mp h
        exact ⟨k, _, rfl, rfl, fun _ => .inl (hwaits rfl hp)⟩
      case h_2 => cases h
  | recvEnds k r =>
      simp only [monitorAction, recvEnds] at h
      split at h
      case h_1 | h_2 =>
        split at h
        case isTrue =>
          obtain ⟨p, hp, rfl⟩ := Option.map_eq_some_iff.mp h
          exact ⟨k, _, rfl, rfl, fun _ => .inl (hwaits rfl hp)⟩
        case isFalse => cases h
      case h_3 =>
        split at h
        case isTrue => cases h
        case isFalse =>
          obtain ⟨p, hp, rfl⟩ := Option.map_eq_some_iff.mp h
          have hpc : (s.monitor k).process.sigHandler.pc = (s.monitor k).pc := rfl
          exact ⟨k, _, rfl, rfl, fun _ => .inl (hwaits hpc hp)⟩
      case h_4 => cases h
  | close k =>
      simp only [monitorAction] at h
      split at h
      case isTrue =>
        cases h
        exact ⟨k, _, hexit k⟩
      case isFalse => cases h
  | sigint k =>
      simp only [monitorAction, sigintMonitor] at h
      split at h
      case h_1 | h_2 => cases h
      case h_3 =>
        cases h
        exact ⟨k, _, hexit k⟩
      case h_4 =>
        cases h
        exact ⟨k, _, rfl, rfl, .inl⟩
  | die k =>
      simp only [monitorAction] at h
      split at h
      case isTrue => cases h
      case isFalse =>
        cases h
        exact ⟨k, _, hexit k⟩
  | _ => cases h

theorem serverAction_exited {cfg : Config} {s : Assignment2.State} (hpc : s.server.pc = .exited)
    (a : Assignment2.Action) : serverAction cfg s a = none := by
  cases a <;> simp [serverAction, Assignment2.serverStep, Assignment2.fork, forkFails,
    selectReturns, selectFails, checkMaster, Assignment2.accept, acceptFails, receiveInterrupted,
    hpc]

/-- A step of the monitors, at most the end of one client. -/
theorem Shows.monitorAction {cfg : Config} {master : Nat}
    {s s' : Assignment2.State} {t : State} (h : Shows master s t)
    (hwired : Assignment2.Consistent s) {a : Assignment2.Action}
    (hstep : monitorAction cfg s a = some s') :
    ∃ u, Leads cfg.names t u ∧ Shows master s' u := by
  obtain ⟨k, m, hserver, hmonitor, hconnect⟩ := monitorAction_update hstep
  have hsame : s'.server.pc = s.server.pc ∧ s'.server.running = s.server.running ∧
      s'.server.masterOpen = s.server.masterOpen ∧ s'.server.clientFds = s.server.clientFds := by
    rw [hserver]
    exact ⟨rfl, rfl, rfl, rfl⟩
  by_cases hgone : ∃ fd, s.server.peer fd = some k ∧ (s.monitor k).pc.connected = true ∧
      m.pc.connected = false
  · obtain ⟨fd, hpeer, hbefore, hafter⟩ := hgone
    have hopen : t.conn fd = .connected := by
      rw [congrFun h.conn fd, connOf_of_peer hpeer, if_pos hbefore]
    have hcloses : step cfg.names t (.peerCloses fd) =
        some { t with conn := Function.update t.conn fd .peerGone } := by
      rw [step, if_pos hopen]
    have hconn : connOf s' = Function.update (connOf s) fd .peerGone := by
      funext f
      rcases eq_or_ne f fd with rfl | hne
      · rw [connOf_of_peer (k := k) (by rw [hserver, hpeer]), hmonitor, Function.update_self,
          Function.update_self, hafter]
        rfl
      · rw [Function.update_of_ne hne]
        unfold connOf
        rw [hserver]
        cases hpeer' : s.server.peer f with
        | none => rfl
        | some j =>
            have hj : j ≠ k := by
              rintro rfl
              exact hne (hwired.wired.injective f fd j hpeer' hpeer)
            simp only [hmonitor, Function.update_of_ne hj]
    refine ⟨_, leads_of_step hcloses, h.update hsame t.misused ?_⟩
    rw [hconn, ← h.conn]
  · refine ⟨t, .refl t, h.congr hsame ?_⟩
    funext f
    unfold connOf
    rw [hserver]
    cases hpeer : s.server.peer f with
    | none => rfl
    | some j =>
        rcases eq_or_ne j k with rfl | hne
        · have hequal : m.pc.connected = (s.monitor j).pc.connected := by
            cases hbefore : (s.monitor j).pc.connected with
            | true =>
                by_contra hafter
                exact hgone ⟨f, hpeer, hbefore, by simpa using hafter⟩
            | false =>
                by_contra hafter
                rcases hconnect (by simpa using hafter) with hold | hpc
                · cases hbefore.symm.trans hold
                · have hearly := hwired.early j (by rw [hpc]; rfl)
                  cases hearly.symm.trans (hwired.peer_link hpeer)
          simp only [hmonitor, Function.update_self, hequal]
        · simp only [hmonitor, Function.update_of_ne hne]

theorem step_matched {cfg : Config} {master : Nat} {s s' : Assignment2.State} {t : State}
    (h : Represents master s t) (hwired : Assignment2.Consistent s)
    (hconsistent : Consistent cfg.names t) {a : Assignment2.Action}
    (hallowed : Allowed master s a) (hstep : Assignment2.step cfg s a = some s') :
    ∃ u, Leads cfg.names t u ∧ Represents master s' u := by
  have hactor := Option.or_eq_some_iff.mp hstep
  rcases h with ⟨hexited, hover⟩ | h
  · rcases hactor with hserver | ⟨_, hmonitor⟩
    · rw [serverAction_exited hexited a] at hserver
      cases hserver
    · obtain ⟨_, _, hserver, _, _⟩ := monitorAction_update hmonitor
      refine ⟨t, .refl t, .inl ⟨?_, hover⟩⟩
      rw [hserver]
      exact hexited
  · rcases hactor with hserver | ⟨_, hmonitor⟩
    · exact h.serverAction hconsistent hallowed hserver
    · obtain ⟨u, hleads, hshows⟩ := h.monitorAction hwired hmonitor
      exact ⟨u, hleads, .inr hshows⟩

/-- Every run of the system, with any number of monitors, is a run of the select loop. -/
theorem system_refines {cfg : Config} {master : Nat} {running : Bool} {s : Assignment2.State}
    (h : Reaches (Assignment2.step cfg) (Allowed master) (Assignment2.State.initial running) s) :
    ∃ t, Leads cfg.names (State.initial master running) t ∧ Represents master s t := by
  have hstart : Represents master (Assignment2.State.initial running)
      (State.initial master running) := .inr (shows_initial master running)
  have hmatch : ∀ u a v e,
      (Represents master u e ∧ Assignment2.Consistent u ∧ Consistent cfg.names e) →
      Allowed master u a → Assignment2.step cfg u a = some v →
      ∃ f, Leads cfg.names e f ∧
        (Represents master v f ∧ Assignment2.Consistent v ∧ Consistent cfg.names f) := by
    rintro u a v e ⟨hrepresents, hwired, hconsistent⟩ hallowed hstep
    obtain ⟨f, hleads, hafter⟩ := step_matched hrepresents hwired hconsistent hallowed hstep
    exact ⟨f, hleads, hafter, hwired.effect (Assignment2.step_effect hstep),
      hconsistent.reaches hleads⟩
  obtain ⟨t, hleads, hrepresents, _, _⟩ := h.simulation
    ⟨hstart, .initial running, consistent_initial cfg.names master running⟩ hmatch
  exact ⟨t, hleads, hrepresents⟩

/-- So in the system too the keys of `client_fds` are the connections that were accepted
and not closed, and their names differ, as long as the loop goes on. -/
theorem system_registry {cfg : Config} {master : Nat} {running : Bool} {s : Assignment2.State}
    (h : Reaches (Assignment2.step cfg) (Allowed master) (Assignment2.State.initial running) s)
    (hloop : s.server.pc.inCleanup = false) :
    (∀ fd, fd ∈ s.server.clientFds.keys ↔ (s.server.peer fd).isSome = true) ∧
      s.server.clientFds.values.Nodup := by
  obtain ⟨t, hleads, hrepresents⟩ := system_refines h
  have hconsistent := (consistent_initial cfg.names master running).reaches hleads
  rcases hrepresents with ⟨hexited, _⟩ | hshows
  · rw [hexited] at hloop
    cases hloop
  have hinLoop : t.pc.inLoop = true := by
    rw [hshows.pc]
    revert hloop
    cases s.server.pc <;> first | exact fun _ => rfl | nofun
  have hopen : ∀ fd, connOf s fd ≠ .free ↔ (s.server.peer fd).isSome = true := by
    intro fd
    unfold connOf
    cases s.server.peer fd with
    | none => simp
    | some k =>
        simp only [Option.isSome_some, iff_true]
        split <;> nofun
  have hkeys := hconsistent.keys hinLoop
  have hdistinct := hconsistent.distinct
  rw [hshows.clientFds] at hkeys hdistinct
  rw [hshows.conn] at hkeys
  exact ⟨fun fd => (hkeys fd).trans (hopen fd), hdistinct⟩

end Unx511.Assignment2.SelectLoop
