import Unx511.Assignment2.Framing

/-!
A monitor after `cleanup_sockets`. Its loop reads the socket only when the link is
down, so "Shut Down" and the end of the connection reach it through the report of a
link that is down, and as long as it reads anything else it polls on.
-/

namespace Unx511.Assignment2.Stopping

open Unx511.Machine Unx511.Assignment2.Framing

/-- A connection and what its monitor has done since `cleanup_sockets`, which has sent "Shut
Down" and closed the connection when `cleanedUp` is set: whether the latest iteration began
after that, what was read last, and what was read in the iterations completed since. -/
structure Watch where
  connection : Connection
  cleanedUp : Bool
  whole : Bool
  operstate : String
  completed : List String

def Watch.initial (running : Bool) : Watch where
  connection := Connection.initial running
  cleanedUp := false
  whole := false
  operstate := ""
  completed := []

def Watch.pc (w : Watch) : MonitorPc := w.connection.monitor.pc

def Watch.observe (w : Watch) (e : Event) : Watch :=
  match e, w.pc with
  | .shutDown, _ => { w with cleanedUp := true }
  | .localStep _, .test => { w with whole := w.cleanedUp }
  | .localStep operstate, .poll => { w with operstate := operstate }
  | .localStep _, .report =>
      { w with completed := if w.whole then w.completed ++ [w.operstate] else w.completed }
  | _, _ => w

def watch (w : Watch) (e : Event) : Option Watch :=
  (w.connection.step e).map fun c => { w.observe e with connection := c }

/-- The monitor is in its loop and will not leave it at the next test. -/
def Watch.inLoop (w : Watch) : Bool :=
  match w.pc with
  | .poll | .sendLinkDown | .awaitCommand | .setLinkUp | .report => true
  | .test => w.connection.monitor.running
  | _ => false

/-- `cleanup_sockets` is over for this monitor, which has completed two iterations
since and is still in the loop. -/
def Watch.runsOn (w : Watch) : Prop :=
  w.cleanedUp = true ∧ 2 ≤ w.completed.length ∧ w.inLoop = true

instance (w : Watch) : Decidable w.runsOn := by
  unfold Watch.runsOn
  infer_instance

/-- One turn of the loop in which the link is not down. -/
def iteration (operstate : String) : List Event := List.replicate 3 (.localStep operstate)

/-- "Ready", "Monitor", "Monitoring", and then the shutdown. -/
def greetAndShutDown : List Event :=
  [.send, .handle 5, .recv 7, .send, .handle 10, .shutDown]

/-- After the loop, or no further in it than the report of a link that is down. -/
def short : MonitorPc → Bool
  | .poll | .sendLinkDown | .sendDone | .close | .exited => true
  | _ => false

theorem afterRecv_not_short {p q : Process} {r : Recv} (h : p.afterRecv r = some q) :
    short p.pc = false := by
  unfold Process.afterRecv at h
  split at h
  case h_1 hpc | h_2 hpc =>
    rw [hpc]
    rfl
  case h_3 => cases h

theorem act_monitor (c : Connection) (m : Option Request) :
    (c.act m).monitor = c.monitor ∧ ((c.act m).serverOpen = true → c.serverOpen = true) := by
  unfold Connection.act
  split
  · exact ⟨rfl, id⟩
  · exact ⟨rfl, nofun⟩
  · split
    · exact ⟨rfl, id⟩
    · split
      · exact ⟨rfl, id⟩
      · exact ⟨rfl, nofun⟩

/-- What a step other than a local one of the monitor does to it and to networkMonitor's
end of the connection. A send on a closed connection is the monitor's last statement. -/
structure Frame (c d : Connection) : Prop where
  serverOpen : d.serverOpen = true → c.serverOpen = true
  pc : c.serverOpen = false → short c.monitor.pc = true →
    d.monitor.pc = c.monitor.pc ∨ d.monitor.pc = .exited

theorem step_frame {c d : Connection} {e : Event} (h : c.step e = some d)
    (hlocal : ∀ operstate, e ≠ .localStep operstate) : Frame c d := by
  have hrecv : ∀ {r : Recv} {p : Process}, c.monitor.afterRecv r = some p →
      short c.monitor.pc = true → False := by
    intro r p hp hshort
    cases hshort.symm.trans (afterRecv_not_short hp)
  cases e with
  | localStep operstate => exact absurd rfl (hlocal operstate)
  | send =>
      obtain ⟨message, _, rfl⟩ := Option.map_eq_some_iff.mp h
      split
      case isTrue hopen =>
        refine ⟨id, fun hclosed => ?_⟩
        cases hopen.symm.trans hclosed
      case isFalse => exact ⟨id, fun _ _ => .inr rfl⟩
  | recv n =>
      simp only [Connection.step, Connection.monitorRecv] at h
      split at h
      · obtain ⟨p, hp, rfl⟩ := Option.map_eq_some_iff.mp h
        exact ⟨id, fun _ hshort => (hrecv hp hshort).elim⟩
      · cases h
  | recvEnds r =>
      simp only [Connection.step] at h
      split at h
      · cases h
      · obtain ⟨p, hp, rfl⟩ := Option.map_eq_some_iff.mp h
        exact ⟨id, fun _ hshort => (hrecv hp hshort).elim⟩
      · split at h
        · obtain ⟨p, hp, rfl⟩ := Option.map_eq_some_iff.mp h
          exact ⟨id, fun _ hshort => (hrecv hp hshort).elim⟩
        · cases h
  | close =>
      simp only [Connection.step] at h
      split at h
      · cases h
        exact ⟨id, fun _ _ => .inr rfl⟩
      · cases h
  | sigint =>
      cases h
      exact ⟨id, fun _ _ => .inl rfl⟩
  | handle n =>
      simp only [Connection.step, Connection.handleClientMessage] at h
      split at h
      · cases h
        obtain ⟨hmonitor, hopen⟩ := act_monitor
          { c with
            up := c.up.drop n
            chunks := c.chunks ++ [c.up.take n]
            acted := c.acted ++ (decode (c.up.take n)).toList } (decode (c.up.take n))
        exact ⟨hopen, fun _ _ => .inl (congrArg Process.pc hmonitor)⟩
      · cases h
  | disconnect | shutDown =>
      simp only [Connection.step] at h
      split at h
      · cases h
        refine ⟨fun hopen => ?_, fun _ _ => .inl rfl⟩
        cases hopen
      · cases h

theorem shutDown_closed {c d : Connection} (h : c.step .shutDown = some d) :
    d.serverOpen = false := by
  simp only [Connection.step] at h
  split at h
  case isTrue =>
    cases h
    rfl
  case isFalse => cases h

/-- Where the monitor stands once networkMonitor has cleaned up. -/
structure Stops (w : Watch) : Prop where
  closed : w.cleanedUp = true → w.connection.serverOpen = false
  whole : w.whole = true → w.cleanedUp = true
  down : w.whole = true → w.operstate = "down" → short w.pc = true
  completed : ∀ operstate ∈ w.completed, operstate ≠ "down"

theorem stops_initial (running : Bool) : Stops (Watch.initial running) where
  closed := nofun
  whole := nofun
  down := nofun
  completed := nofun

namespace Stops

variable {w v : Watch}

theorem localStep (h : Stops w) {operstate : String} {p : Process}
    (hp : w.connection.monitor.localStep operstate = some p) :
    Stops { w.observe (.localStep operstate) with
      connection := { w.connection with monitor := p } } := by
  have hshort : ∀ {pc : MonitorPc}, w.pc = pc → short pc = false → w.whole = true →
      w.operstate ≠ "down" := by
    rintro pc rfl hpc hwhole hdown
    cases hpc.symm.trans (h.down hwhole hdown)
  unfold Process.localStep at hp
  split at hp
  case h_1 hpc =>
    cases hp
    have hobserve : w.observe (.localStep operstate) = w := by
      unfold Watch.observe
      rw [show w.pc = .start from hpc]
    rw [hobserve]
    exact ⟨h.closed, h.whole, fun hwhole hdown => absurd hdown (hshort hpc rfl hwhole), h.completed⟩
  case h_2 hpc =>
    cases hp
    have hobserve : w.observe (.localStep operstate) = { w with whole := w.cleanedUp } := by
      unfold Watch.observe
      rw [show w.pc = .test from hpc]
    rw [hobserve]
    refine ⟨h.closed, id, fun _ _ => ?_, h.completed⟩
    change short (if w.connection.monitor.running then .poll else .sendDone) = true
    split <;> rfl
  case h_3 hpc =>
    cases hp
    have hobserve : w.observe (.localStep operstate) = { w with operstate := operstate } := by
      unfold Watch.observe
      rw [show w.pc = .poll from hpc]
    rw [hobserve]
    refine ⟨h.closed, h.whole, fun _ (hdown : operstate = "down") => ?_, h.completed⟩
    change short (if operstate = "down" then .sendLinkDown else .report) = true
    rw [if_pos hdown]
    rfl
  case h_4 hpc =>
    cases hp
    have hobserve : w.observe (.localStep operstate) = w := by
      unfold Watch.observe
      rw [show w.pc = .setLinkUp from hpc]
    rw [hobserve]
    exact ⟨h.closed, h.whole, fun hwhole hdown => absurd hdown (hshort hpc rfl hwhole), h.completed⟩
  case h_5 hpc =>
    cases hp
    have hobserve : w.observe (.localStep operstate) = { w with
        completed := if w.whole then w.completed ++ [w.operstate] else w.completed } := by
      unfold Watch.observe
      rw [show w.pc = .report from hpc]
    rw [hobserve]
    refine ⟨h.closed, h.whole, fun hwhole hdown => absurd hdown (hshort hpc rfl hwhole), ?_⟩
    intro op hop
    change op ∈ if w.whole then w.completed ++ [w.operstate] else w.completed at hop
    split at hop
    case isTrue hwhole =>
      rcases List.mem_append.mp hop with hold | hnew
      · exact h.completed op hold
      · rw [List.mem_singleton.mp hnew]
        exact hshort hpc rfl hwhole
    case isFalse => exact h.completed op hop
  case h_6 => cases hp

theorem frame (h : Stops w) {e : Event} {c : Connection} (hc : w.connection.step e = some c)
    (hlocal : ∀ operstate, e ≠ .localStep operstate) :
    Stops { w.observe e with connection := c } := by
  have hframe := step_frame hc hlocal
  have hshort : w.whole = true → w.operstate = "down" → short c.monitor.pc = true := by
    intro hwhole hdown
    have hbefore : short w.connection.monitor.pc = true := h.down hwhole hdown
    rcases hframe.pc (h.closed (h.whole hwhole)) hbefore with hsame | hexited
    · rw [hsame]
      exact hbefore
    · rw [hexited]
      rfl
  by_cases hshutDown : e = .shutDown
  · subst hshutDown
    exact ⟨fun _ => shutDown_closed hc, fun _ => rfl, hshort, h.completed⟩
  · have hobserve : w.observe e = w := by
      unfold Watch.observe
      split
      case h_1 => exact absurd rfl hshutDown
      case h_2 | h_3 | h_4 => exact absurd rfl (hlocal _)
      case h_5 => rfl
    rw [hobserve]
    refine ⟨fun hcleanedUp => ?_, h.whole, hshort, h.completed⟩
    have hclosed := h.closed hcleanedUp
    by_contra hopen
    cases hclosed.symm.trans (hframe.serverOpen (by simpa using hopen))

theorem step {e : Event} (h : Stops w) (hstep : watch w e = some v) : Stops v := by
  obtain ⟨c, hc, rfl⟩ := Option.map_eq_some_iff.mp hstep
  by_cases hlocal : ∃ operstate, e = .localStep operstate
  · obtain ⟨operstate, rfl⟩ := hlocal
    obtain ⟨p, hp, rfl⟩ := Option.map_eq_some_iff.mp hc
    exact h.localStep hp
  · have hne : ∀ operstate, e ≠ .localStep operstate := fun operstate heq => hlocal ⟨operstate, heq⟩
    exact h.frame hc hne

end Stops

theorem run_iteration {w : Watch} {operstate : String} (hup : operstate ≠ "down")
    (hmonitor : w.connection.monitor = ⟨.test, true⟩) (hcleanedUp : w.cleanedUp = true) :
    run watch w (iteration operstate) = some { w with
      whole := true
      operstate := operstate
      completed := w.completed ++ [operstate] } := by
  obtain ⟨⟨monitor, _, _, _, _, _, _⟩, cleanedUp, _, _, _⟩ := w
  cases hmonitor
  cases hcleanedUp
  simp [iteration, List.replicate, run, watch, Connection.step, Process.localStep, Process.goto,
    Watch.observe, Watch.pc, hup]

/-- A monitor that reads anything but "down" completes its iterations. -/
theorem polls_on {operstates : List String} (hup : ∀ operstate ∈ operstates, operstate ≠ "down")
    {w : Watch} (hmonitor : w.connection.monitor = ⟨.test, true⟩)
    (hcleanedUp : w.cleanedUp = true) :
    ∃ v, run watch w (operstates.flatMap iteration) = some v ∧
      v.connection = w.connection ∧ v.cleanedUp = true ∧
      v.completed = w.completed ++ operstates := by
  induction operstates generalizing w with
  | nil => exact ⟨w, rfl, rfl, hcleanedUp, (List.append_nil _).symm⟩
  | cons operstate rest ih =>
      have hne : operstate ≠ "down" := hup operstate List.mem_cons_self
      have hturn := run_iteration hne hmonitor hcleanedUp
      obtain ⟨v, hrun, hconnection, hcleanedUp', hcompleted⟩ :=
        ih (fun op hop => hup op (List.mem_cons_of_mem _ hop)) (w := { w with
          whole := true
          operstate := operstate
          completed := w.completed ++ [operstate] }) hmonitor hcleanedUp
      refine ⟨v, ?_, hconnection, hcleanedUp', ?_⟩
      · rw [List.flatMap_cons, run_append_of_eq hturn]
        exact hrun
      · rw [hcompleted, List.append_assoc]
        rfl

/-- What a monitor can read in the iterations that it completes after `cleanup_sockets`
without leaving its loop: anything but "down". -/
theorem completed_iff (operstates : List String) :
    (∃ running w, Reaches watch anyAction (Watch.initial running) w ∧ w.cleanedUp = true ∧
      w.inLoop = true ∧ w.completed = operstates) ↔ "down" ∉ operstates := by
  constructor
  · rintro ⟨running, w, hreaches, _, _, rfl⟩ hdown
    have hstops : Stops w :=
      hreaches.invariant (stops_initial running) fun _ _ _ hu _ hstep => hu.step hstep
    exact hstops.completed "down" hdown rfl
  · intro hdown
    obtain ⟨w, hrun, hmonitor, hcleanedUp, hcompleted⟩ :
        ∃ w, run watch (Watch.initial true) greetAndShutDown = some w ∧
          w.connection.monitor = ⟨.test, true⟩ ∧ w.cleanedUp = true ∧ w.completed = [] :=
      ⟨_, rfl, rfl, rfl, rfl⟩
    have hup : ∀ operstate ∈ operstates, operstate ≠ "down" := by
      rintro operstate hmem rfl
      exact hdown hmem
    obtain ⟨v, hpolls, hconnection, hcleanedUp', hcompleted'⟩ := polls_on hup hmonitor hcleanedUp
    have hall : run watch (Watch.initial true)
        (greetAndShutDown ++ operstates.flatMap iteration) = some v := by
      rw [run_append_of_eq hrun]
      exact hpolls
    refine ⟨true, v, Reaches.of_any_run _ hall, hcleanedUp', ?_, ?_⟩
    · rw [Watch.inLoop, Watch.pc, hconnection, hmonitor]
    · rw [hcompleted', hcompleted]
      rfl

theorem polls_on_after_shutdown :
    ∃ w, run watch (Watch.initial true)
        (greetAndShutDown ++ iteration "up" ++ iteration "up") = some w ∧ w.runsOn :=
  ⟨_, rfl, by decide⟩

end Unx511.Assignment2.Stopping
