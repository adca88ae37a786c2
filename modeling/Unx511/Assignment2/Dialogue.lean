import Unx511.Assignment2.System

/-!
The session protocol on one connection: where the monitor is, what it has sent
that networkMonitor has not dealt with, and what it was sent that it has not
read. Each step of either program keeps to it, and the counts of reports,
answers and runs of the Set-Link-Up branch stay in step.
-/

namespace Unx511.Assignment2

/-- `Dialogue pc up down`: the monitor is at `pc`, `up` is on its way to
networkMonitor or being handled there, and `down` is to be read. "Monitoring" is
the only message that nobody waits for. -/
inductive Dialogue : MonitorPc → List String → List String → Prop
  | sendReady : Dialogue .sendReady [] []
  | ready : Dialogue .awaitMonitor ["Ready"] []
  | monitor : Dialogue .awaitMonitor [] ["Monitor"]
  | sendMonitoring : Dialogue .sendMonitoring [] []
  | loop {pc : MonitorPc} {up : List String} (hpc : pc.looping = true)
      (hup : up = [] ∨ up = ["Monitoring"]) : Dialogue pc up []
  | linkDown {up : List String} (hup : up = [] ∨ up = ["Monitoring"]) :
      Dialogue .awaitCommand (up ++ ["Link Down"]) []
  | setLinkUp : Dialogue .awaitCommand [] ["Set Link Up"]
  | done {pc : MonitorPc} {up : List String} (hpc : pc = .close ∨ pc = .exited)
      (hup : up = [] ∨ up = ["Monitoring"]) : Dialogue pc (up ++ ["Done"]) []

/-- The message whose answer the monitor waits for. -/
def MonitorPc.waitsOn : MonitorPc → Option String
  | .awaitMonitor => some "Ready"
  | .awaitCommand => some "Link Down"
  | _ => none

/-- Reports whose answer the monitor has not acted on. -/
def MonitorPc.owed : MonitorPc → Nat
  | .awaitCommand | .setLinkUp => 1
  | _ => 0

/-- The monitor has left its loop for good, or will at the next test. -/
def Process.leaving (p : Process) : Prop :=
  p.running = false ∧
    (p.pc = .report ∨ p.pc = .test ∨ p.pc = .sendDone ∨ p.pc = .close ∨ p.pc = .exited)

/-- What the connection carries last once the shutdown has told it to stop. -/
def farewell (told : Bool) : List String := if told then ["Shut Down"] else []

theorem MonitorPc.owed_of_looping {pc : MonitorPc} (h : pc.looping = true)
    (hne : pc ≠ .setLinkUp) : pc.owed = 0 := by
  cases pc with
  | setLinkUp => exact absurd rfl hne
  | _ => first | rfl | cases h

theorem MonitorPc.owed_eq_of_looping {pc : MonitorPc} (h : pc.looping = true) :
    pc.owed = if pc = .setLinkUp then 1 else 0 := by
  cases pc <;> first | rfl | cases h

theorem MonitorPc.connected_of_looping {pc : MonitorPc} (h : pc.looping = true) :
    pc.connected = true := by
  cases pc <;> first | rfl | cases h

theorem MonitorPc.waitsOn_of_looping {pc : MonitorPc} (h : pc.looping = true) :
    pc.waitsOn = none := by
  cases pc <;> first | rfl | cases h

theorem MonitorPc.connected_of_waitsOn {pc : MonitorPc} {request : String}
    (h : pc.waitsOn = some request) : pc.connected = true := by
  cases pc <;> first | rfl | cases h

/-- A send waits for an answer exactly when it is a report. -/
theorem Process.outgoing_cases {pc : MonitorPc} {message : String}
    (h : Process.outgoing pc = some message) :
    pc.connected = true ∧ pc.owed = 0 ∧ Process.afterSend pc ≠ .setLinkUp ∧
      (Process.afterSend pc).owed = if message = "Link Down" then 1 else 0 := by
  cases pc with
  | sendReady | sendMonitoring | sendLinkDown | sendDone =>
      cases h
      exact ⟨rfl, rfl, nofun, rfl⟩
  | _ => cases h

theorem Process.leaving.send {p : Process} {message : String} (h : p.leaving)
    (hout : Process.outgoing p.pc = some message) :
    message = "Done" ∧ (p.goto (Process.afterSend p.pc)).leaving := by
  obtain ⟨hrunning, hpc⟩ := h
  rcases hpc with hpc | hpc | hpc | hpc | hpc <;> rw [hpc] at hout <;> cases hout
  rw [hpc]
  exact ⟨rfl, hrunning, .inr (.inr (.inr (.inl rfl)))⟩

theorem Process.leaving.localStep {p q : Process} {operstate : String} (h : p.leaving)
    (hlocal : p.localStep operstate = some q) : q.leaving := by
  obtain ⟨hrunning, hpc⟩ := h
  rcases hpc with hpc | hpc | hpc | hpc | hpc <;>
    simp only [Process.localStep, hpc, hrunning, Option.some.injEq, reduceCtorEq] at hlocal
  · rw [← hlocal]
    exact ⟨hrunning, .inr (.inl rfl)⟩
  · rw [← hlocal]
    exact ⟨hrunning, .inr (.inr (.inl rfl))⟩

/-- The branch is entered on a "Set Link Up" only. -/
theorem Process.response_of_setLinkUp {p q : Process} {r : Recv} (h : p.afterRecv r = some q)
    (hset : q.pc = .setLinkUp) : p.pc = .awaitCommand ∧ response r = "Set Link Up" := by
  rcases Process.afterRecv_cases h with ⟨_, ⟨_, hq⟩ | ⟨_, hq, _⟩⟩ | ⟨hp, ⟨hr, _⟩ | ⟨_, hq⟩⟩
  · rw [hq] at hset
    cases hset
  · rw [hq] at hset
    cases hset
  · exact ⟨hp, hr⟩
  · rw [hq] at hset
    cases hset

theorem Process.not_greeting_of_afterRecv {p q : Process} {r : Recv}
    (h : p.afterRecv r = some q) : ¬ (q.pc = .sendReady ∨ q.pc = .awaitMonitor) := by
  rcases Process.afterRecv_cases h with ⟨_, ⟨_, hq⟩ | ⟨_, hq, _⟩⟩ | ⟨_, ⟨_, hq⟩ | ⟨_, hq⟩⟩ <;>
    rw [hq] <;> rintro (hpc | hpc) <;> cases hpc

theorem Process.leaving_of_shutDown {p q : Process}
    (h : p.afterRecv (.data "Shut Down") = some q) : q.leaving := by
  unfold Process.afterRecv at h
  split at h
  · cases h
    exact ⟨rfl, .inr (.inl rfl)⟩
  · cases h
    exact ⟨rfl, .inl rfl⟩
  · cases h

theorem Process.leaving.afterRecv {p : Process} (h : p.leaving) (r : Recv) :
    p.afterRecv r = none := by
  obtain ⟨_, hpc⟩ := h
  unfold Process.afterRecv
  rcases hpc with hpc | hpc | hpc | hpc | hpc <;> rw [hpc]

namespace Dialogue

variable {pc : MonitorPc} {up down : List String} {message : String} {p q : Process}

theorem localStep {operstate : String} (h : Dialogue p.pc up down)
    (hlocal : p.localStep operstate = some q) :
    Dialogue q.pc up down ∧ p.pc.looping = true ∧ q.pc.owed = 0 := by
  rcases Process.localStep_cases hlocal with ⟨hstart, _⟩ | ⟨hp, _, hq, hne⟩
  · rw [hstart] at h
    cases h with
    | loop hpc _ => cases hpc
    | done hpc _ => rcases hpc with hpc | hpc <;> cases hpc
  · refine ⟨?_, hp, MonitorPc.owed_of_looping hq hne⟩
    generalize p.pc = pc at h hp
    cases h with
    | loop _ hup => exact .loop hq hup
    | done hpc _ => rcases hpc with rfl | rfl <;> cases hp
    | _ => cases hp

theorem send (h : Dialogue pc up down) (hout : Process.outgoing pc = some message) :
    Dialogue (Process.afterSend pc) (up ++ [message]) down := by
  cases h with
  | sendReady =>
      cases hout
      exact .ready
  | sendMonitoring =>
      cases hout
      exact .loop rfl (.inr rfl)
  | loop hpc hup =>
      cases pc with
      | sendLinkDown =>
          cases hout
          exact .linkDown hup
      | sendDone =>
          cases hout
          exact .done (.inl rfl) hup
      | test | poll | setLinkUp | report => cases hout
      | _ => cases hpc
  | done hpc _ => rcases hpc with rfl | rfl <;> cases hout
  | _ => cases hout

theorem recv {rest : List String} (h : Dialogue p.pc up (message :: rest))
    (hrecv : p.afterRecv (.data message) = some q) :
    Dialogue q.pc up rest ∧ q.pc.owed = p.pc.owed := by
  rcases Process.afterRecv_cases hrecv with ⟨hp, hcases⟩ | ⟨hp, hcases⟩
  · rw [hp] at h
    cases h
    rcases hcases with ⟨_, hq⟩ | ⟨hne, _⟩
    · rw [hp, hq]
      exact ⟨.sendMonitoring, rfl⟩
    · exact absurd rfl hne
  · rw [hp] at h
    cases h
    rcases hcases with ⟨_, hq⟩ | ⟨hne, _⟩
    · rw [hp, hq]
      exact ⟨.loop rfl (.inl rfl), rfl⟩
    · exact absurd rfl hne

/-- The next message that networkMonitor handles is a known one, what it sends
back is what the monitor waits for, and who waits is there. -/
theorem handle (h : Dialogue pc (message :: up) down) :
    (message = "Ready" ∧ pc.connected = true ∧ Dialogue pc up (down ++ ["Monitor"])) ∨
    (message = "Monitoring" ∧ Dialogue pc up down) ∨
    (message = "Link Down" ∧ pc.connected = true ∧ Dialogue pc up (down ++ ["Set Link Up"])) ∨
    (message = "Done" ∧ (pc = .close ∨ pc = .exited)) := by
  generalize hall : message :: up = all at h
  cases h with
  | ready =>
      cases hall
      exact .inl ⟨rfl, rfl, .monitor⟩
  | loop hpc hup =>
      rcases hup with rfl | rfl
      · cases hall
      · cases hall
        exact .inr (.inl ⟨rfl, .loop hpc (.inl rfl)⟩)
  | linkDown hup =>
      rcases hup with rfl | rfl
      · cases hall
        exact .inr (.inr (.inl ⟨rfl, rfl, .setLinkUp⟩))
      · cases hall
        exact .inr (.inl ⟨rfl, .linkDown (.inl rfl)⟩)
  | done hpc hup =>
      rcases hup with rfl | rfl
      · cases hall
        exact .inr (.inr (.inr ⟨rfl, hpc⟩))
      · cases hall
        exact .inr (.inl ⟨rfl, .done hpc (.inl rfl)⟩)
  | _ => cases hall

/-- After "Ready" the monitor waits for "Monitor". -/
theorem handle_ready (h : Dialogue pc ("Ready" :: up) down) :
    pc.connected = true ∧ Dialogue pc up (down ++ ["Monitor"]) := by
  simpa using h.handle

theorem handle_monitoring (h : Dialogue pc ("Monitoring" :: up) down) : Dialogue pc up down := by
  simpa using h.handle

/-- After "Link Down" the monitor waits for "Set Link Up". -/
theorem handle_linkDown (h : Dialogue pc ("Link Down" :: up) down) :
    pc.connected = true ∧ Dialogue pc up (down ++ ["Set Link Up"]) := by
  simpa using h.handle

theorem handle_done (h : Dialogue pc ("Done" :: up) down) : pc = .close ∨ pc = .exited := by
  simpa using h.handle

theorem handle_known (h : Dialogue pc (message :: up) down) :
    Request.ofMessage message ≠ none := by
  rcases h.handle with ⟨rfl, _⟩ | ⟨rfl, _⟩ | ⟨rfl, _⟩ | ⟨rfl, _⟩ <;> decide

theorem exit (h : Dialogue .close up down) : Dialogue .exited up down := by
  generalize hpc : MonitorPc.close = pc at h
  cases h with
  | loop h _ =>
      rw [← hpc] at h
      cases h
  | done _ hup => exact .done (.inr rfl) hup
  | _ => cases hpc

/-- What the monitor may be sent while it waits for "Monitor". -/
theorem expected {rest : List String} (h : Dialogue .awaitMonitor up (message :: rest)) :
    message = "Monitor" := by
  generalize hpc : MonitorPc.awaitMonitor = pc at h
  generalize hdown : message :: rest = down at h
  cases h with
  | monitor =>
      cases hdown
      rfl
  | setLinkUp => cases hpc
  | _ => cases hdown

theorem pending {request : String} (h : Dialogue pc up []) (hwaits : pc.waitsOn = some request) :
    request ∈ up := by
  generalize hdown : ([] : List String) = down at h
  cases h with
  | ready =>
      cases hwaits
      simp
  | linkDown _ =>
      cases hwaits
      simp
  | loop hloop _ =>
      rw [MonitorPc.waitsOn_of_looping hloop] at hwaits
      cases hwaits
  | done hpc _ => rcases hpc with rfl | rfl <;> cases hwaits
  | monitor | setLinkUp => cases hdown
  | _ => cases hwaits

end Dialogue

/-- The state of an open connection. Once told to stop, the monitor leaves when it
reads so, whatever it was waiting for. -/
inductive Live (m : Monitor) (up : List String) : Bool → Prop
  | talking {told : Bool} {replies : List String} (hdown : m.down = replies ++ farewell told)
      (hdialogue : Dialogue m.pc up replies) (hbalance : m.reports = m.linkUps + m.pc.owed) :
      Live m up told
  | leaving (h : m.process.leaving) : Live m up true

/-- What holds of monitor `k` and its connection. `handled` is its message that
networkMonitor is at, `told` is set while networkMonitor has told it to stop and
not closed the connection, and `running` is the flag of networkMonitor. -/
structure Session (k : Nat) (m : Monitor) (handled : List String) (told running : Bool) :
    Prop where
  own : ∀ source ∈ m.answers, source = k
  executed : m.linkUps + m.down.count "Set Link Up" + (if m.pc = .setLinkUp then 1 else 0) ≤
    m.answers.length
  answered : m.answers.length + (handled ++ m.up).count "Link Down" ≤ m.reports
  outstanding : m.reports ≤ m.linkUps + 1
  unconnected : m.link = .none →
    m.pc.connected = false ∧ m.up = [] ∧ m.down = [] ∧ m.reports = 0
  live : m.link = .waiting ∨ m.link = .accepted → Live m (handled ++ m.up) told
  gone : m.link = .closed → m.pc = .sendReady ∨ m.pc = .awaitMonitor →
    running = false ∨ m.refused = true

namespace Session

variable {k : Nat} {m : Monitor} {handled : List String} {told running : Bool}

theorem initial (k : Nat) (running : Bool) : Session k Monitor.initial [] false running where
  own := nofun
  executed := by simp [Monitor.initial, Monitor.pc]
  answered := by simp [Monitor.initial]
  outstanding := by simp [Monitor.initial]
  unconnected := fun _ => ⟨rfl, rfl, rfl, rfl⟩
  live := by rintro (h | h) <;> cases h
  gone := nofun

theorem stop (h : Session k m handled told running) : Session k m handled told false :=
  { h with gone := fun _ _ => .inl rfl }

/-- networkMonitor closes its end. -/
theorem hangUp {told' running' : Bool} (h : Session k m handled told running)
    (hwhy : running' = false ∨ (m.pc ≠ .sendReady ∧ m.pc ≠ .awaitMonitor)) :
    Session k m.hangUp [] told' running' := by
  have hanswered : m.answers.length + m.up.count "Link Down" ≤ m.reports := by
    have hcount := h.answered
    rw [List.count_append] at hcount
    omega
  unfold Monitor.hangUp
  split
  case isTrue hnone =>
    refine { h with answered := hanswered, live := ?_, gone := ?_ }
    · rintro (hlink | hlink) <;> rw [hnone] at hlink <;> cases hlink
    · intro hlink
      rw [hnone] at hlink
      cases hlink
  case isFalse =>
    refine ⟨h.own, h.executed, hanswered, h.outstanding, nofun, ?_, ?_⟩
    · rintro (hlink | hlink) <;> cases hlink
    · intro _ hpc
      rcases hwhy with hrunning | ⟨hready, hawait⟩
      · exact .inl hrunning
      · rcases hpc with hpc | hpc
        · exact absurd hpc hready
        · exact absurd hpc hawait

/-- The connection is closed because no name was free. -/
theorem refuse (h : Session k m handled told running) :
    Session k { m with link := .closed, refused := true } handled told running := by
  refine ⟨h.own, h.executed, h.answered, h.outstanding, nofun, ?_, fun _ _ => .inr rfl⟩
  rintro (hlink | hlink) <;> cases hlink

theorem accept (h : Session k m handled told running) (hlink : m.link = .waiting) :
    Session k { m with link := .accepted } handled told running := by
  refine ⟨h.own, h.executed, h.answered, h.outstanding, nofun, fun _ => ?_, nofun⟩
  cases h.live (.inl hlink) with
  | talking hdown hdialogue hbalance => exact .talking hdown hdialogue hbalance
  | leaving hleaving => exact .leaving hleaving

/-- networkMonitor receives the next message. -/
theorem take {message : String} {rest : List String} (h : Session k m [] told running)
    (hup : m.up = message :: rest) : Session k { m with up := rest } [message] told running := by
  have hall : [message] ++ rest = [] ++ m.up := by
    rw [hup]
    rfl
  refine ⟨h.own, h.executed, ?_, h.outstanding, ?_, ?_, h.gone⟩
  · rw [hall]
    exact h.answered
  · intro hlink
    have hnone := (h.unconnected hlink).2.1
    rw [hup] at hnone
    cases hnone
  · intro hlink
    rw [hall]
    cases h.live hlink with
    | talking hdown hdialogue hbalance => exact .talking hdown hdialogue hbalance
    | leaving hleaving => exact .leaving hleaving

/-- The shutdown tells the monitor to stop. -/
theorem tell (h : Session k m [] false running) (hlink : m.link = .accepted) :
    Session k (m.told "Shut Down" []) [] true running := by
  have hlinked : m.link ≠ .none := by
    rw [hlink]
    nofun
  refine ⟨?_, ?_, ?_, h.outstanding, fun hnone => absurd hnone hlinked, fun _ => ?_, h.gone⟩
  · intro source hsource
    exact h.own source (by simpa [Monitor.told] using hsource)
  · have hexecuted := h.executed
    change m.linkUps + (m.down ++ ["Shut Down"]).count "Set Link Up" +
      (if m.pc = .setLinkUp then 1 else 0) ≤ (m.answers ++ []).length
    rw [List.count_append, List.append_nil, show ["Shut Down"].count "Set Link Up" = 0 from rfl]
    omega
  · simpa [Monitor.told] using h.answered
  · cases h.live (.inr hlink) with
    | talking hdown hdialogue hbalance =>
        refine .talking ?_ hdialogue hbalance
        rw [show (m.told "Shut Down" []).down = m.down ++ ["Shut Down"] from rfl, hdown]
        simp [farewell]

/-- networkMonitor has handled a message and sends `reply`, an answer to the
reports in `sources`. -/
theorem reply {message text : String} {sources : List Nat}
    (h : Session k m [message] false running) (hlink : m.link = .accepted)
    (hsources : ∀ source ∈ sources, source = k)
    (hcommand : [text].count "Set Link Up" = sources.length)
    (hreport : [message].count "Link Down" = sources.length)
    (hdialogue : ∀ down, Dialogue m.pc (message :: m.up) down →
      Dialogue m.pc m.up (down ++ [text])) :
    Session k (m.told text sources) [] false running := by
  have hlinked : m.link ≠ .none := by
    rw [hlink]
    nofun
  refine ⟨?_, ?_, ?_, h.outstanding, fun hnone => absurd hnone hlinked, fun _ => ?_, h.gone⟩
  · intro source hsource
    rcases List.mem_append.mp hsource with hold | hnew
    · exact h.own source hold
    · exact hsources source hnew
  · have hexecuted := h.executed
    change m.linkUps + (m.down ++ [text]).count "Set Link Up" +
      (if m.pc = .setLinkUp then 1 else 0) ≤ (m.answers ++ sources).length
    rw [List.count_append, List.length_append, hcommand]
    omega
  · have hanswered := h.answered
    rw [List.count_append, hreport] at hanswered
    change (m.answers ++ sources).length + ([] ++ m.up).count "Link Down" ≤ m.reports
    rw [List.length_append, List.nil_append]
    omega
  · cases h.live (.inr hlink) with
    | talking hdown hold hbalance =>
        refine .talking ?_ (hdialogue _ hold) hbalance
        rw [show (m.told text sources).down = m.down ++ [text] from rfl, hdown]
        simp [farewell]

/-- networkMonitor has handled a message that asks for nothing. -/
theorem dismiss {message : String} (h : Session k m [message] told running)
    (hdialogue : ∀ down, Dialogue m.pc (message :: m.up) down → Dialogue m.pc m.up down) :
    Session k m [] told running := by
  refine { h with answered := ?_, live := ?_ }
  · have hanswered := h.answered
    rw [List.count_append] at hanswered
    rw [List.nil_append]
    omega
  · intro hlink
    cases h.live hlink with
    | talking hdown hold hbalance => exact .talking hdown (hdialogue _ hold) hbalance
    | leaving hleaving => exact .leaving hleaving

/-- The process of the monitor is started. -/
theorem start (h : Session k m handled told running) (hlink : m.link = .none) :
    Session k { m with process := { pc := .start, running := true } } handled told running := by
  have hopen : ¬ (m.link = .waiting ∨ m.link = .accepted) := by
    rw [hlink]
    rintro (h | h) <;> cases h
  have hexecuted := h.executed
  refine ⟨h.own, ?_, h.answered, h.outstanding, ?_, fun hlive => absurd hlive hopen, ?_⟩
  · change m.linkUps + m.down.count "Set Link Up" + 0 ≤ m.answers.length
    omega
  · exact fun hnone => ⟨rfl, (h.unconnected hnone).2⟩
  · intro _ hpc
    rcases hpc with hpc | hpc <;> cases hpc

/-- The process of the monitor ends. -/
theorem exit (h : Session k m handled told running)
    (hwhy : m.link = .none ∨ m.link = .closed ∨ m.pc = .close) :
    Session k { m with process := m.process.goto .exited } handled told running := by
  have hexecuted := h.executed
  refine ⟨h.own, ?_, h.answered, h.outstanding, ?_, ?_, ?_⟩
  · change m.linkUps + m.down.count "Set Link Up" + 0 ≤ m.answers.length
    omega
  · exact fun hnone => ⟨rfl, (h.unconnected hnone).2⟩
  · intro hlink
    have hclose : m.pc = .close := by
      rcases hwhy with hnone | hclosed | hclose
      · rcases hlink with hlink | hlink <;> rw [hnone] at hlink <;> cases hlink
      · rcases hlink with hlink | hlink <;> rw [hclosed] at hlink <;> cases hlink
      · exact hclose
    cases h.live hlink with
    | talking hdown hdialogue hbalance =>
        rw [hclose] at hdialogue hbalance
        refine .talking hdown ?_ hbalance
        exact hdialogue.exit
    | leaving hleaving =>
        exact .leaving ⟨hleaving.1, .inr (.inr (.inr (.inr rfl)))⟩
  · intro _ hpc
    rcases hpc with hpc | hpc <;> cases hpc

/-- A step of the monitor that does not touch the connection. -/
theorem localStep {operstate : String} {p : Process}
    (h : Session k m handled told running) (hlocal : m.process.localStep operstate = some p) :
    Session k { m with
      process := p
      linkUps := m.linkUps + if m.pc = .setLinkUp then 1 else 0 } handled told running := by
  have hexecuted := h.executed
  have houtstanding := h.outstanding
  have hcases := Process.localStep_cases hlocal
  have hne : p.pc ≠ .setLinkUp := by
    rcases hcases with ⟨_, hp⟩ | ⟨_, _, _, hne⟩
    · rw [hp]
      nofun
    · exact hne
  refine ⟨h.own, ?_, h.answered, ?_, ?_, ?_, ?_⟩
  · change m.linkUps + (if m.pc = .setLinkUp then 1 else 0) + m.down.count "Set Link Up" +
      (if p.pc = .setLinkUp then 1 else 0) ≤ m.answers.length
    rw [if_neg hne]
    omega
  · change m.reports ≤ m.linkUps + (if m.pc = .setLinkUp then 1 else 0) + 1
    omega
  · intro hlink
    obtain ⟨hconnected, hrest⟩ := h.unconnected hlink
    rcases hcases with ⟨_, hp⟩ | ⟨hloop, _⟩
    · exact ⟨by show p.pc.connected = false; rw [hp]; rfl, hrest⟩
    · rw [show m.pc.connected = true from MonitorPc.connected_of_looping hloop] at hconnected
      cases hconnected
  · intro hlink
    cases h.live hlink with
    | talking hdown hdialogue hbalance =>
        obtain ⟨hnext, hloop, howed⟩ := hdialogue.localStep hlocal
        refine .talking hdown hnext ?_
        change m.reports = m.linkUps + (if m.pc = .setLinkUp then 1 else 0) + p.pc.owed
        rw [howed, hbalance]
        exact congrArg (m.linkUps + ·) (MonitorPc.owed_eq_of_looping hloop)
    | leaving hleaving => exact .leaving (hleaving.localStep hlocal)
  · intro hlink hpc
    rcases hcases with ⟨_, hp⟩ | ⟨_, _, hloop, _⟩
    · rcases hpc with hpc | hpc <;> rw [hp] at hpc <;> cases hpc
    · rcases hpc with hpc | hpc
      · rw [show p.pc = .sendReady from hpc] at hloop
        cases hloop
      · rw [show p.pc = .awaitMonitor from hpc] at hloop
        cases hloop

theorem connect (h : Session k m [] false running) (hlink : m.link = .none) :
    Session k { m with process := m.process.goto .sendReady, link := .waiting } [] false
      running := by
  obtain ⟨_, hup, hdown, hreports⟩ := h.unconnected hlink
  have hexecuted := h.executed
  have hanswered := h.answered
  refine ⟨h.own, ?_, h.answered, h.outstanding, nofun, fun _ => ?_, nofun⟩
  · change m.linkUps + m.down.count "Set Link Up" + 0 ≤ m.answers.length
    omega
  · have hlevel : m.reports = m.linkUps + 0 := by omega
    refine .talking (show m.down = [] ++ [] from hdown) ?_ hlevel
    change Dialogue .sendReady ([] ++ m.up) []
    rw [hup]
    exact .sendReady

/-- A send on a connection that networkMonitor has not closed. -/
theorem send {message : String} (h : Session k m handled told running)
    (hout : Process.outgoing m.pc = some message) (hlink : m.link ≠ .closed) :
    Session k { m with
      process := m.process.goto (Process.afterSend m.pc)
      up := m.up ++ [message]
      reports := m.reports + if message = "Link Down" then 1 else 0 } handled told running := by
  obtain ⟨hconnected, howed, hne, hafter⟩ := Process.outgoing_cases hout
  have hlinked : m.link ≠ .none := by
    intro hnone
    rw [(h.unconnected hnone).1] at hconnected
    cases hconnected
  have hopen : m.link = .waiting ∨ m.link = .accepted := by
    cases hl : m.link with
    | none => exact absurd hl hlinked
    | waiting => exact .inl rfl
    | accepted => exact .inr rfl
    | closed => exact absurd hl hlink
  have hexecuted := h.executed
  have hanswered := h.answered
  have houtstanding : m.reports + (if message = "Link Down" then 1 else 0) ≤ m.linkUps + 1 := by
    cases h.live hopen with
    | talking _ _ hbalance =>
        rw [howed] at hbalance
        split <;> omega
    | leaving hleaving =>
        rw [(hleaving.send hout).1]
        exact h.outstanding
  refine ⟨h.own, ?_, ?_, houtstanding, fun hnone => absurd hnone hlinked, fun _ => ?_,
    fun hclosed => absurd hclosed hlink⟩
  · change m.linkUps + m.down.count "Set Link Up" +
      (if Process.afterSend m.pc = .setLinkUp then 1 else 0) ≤ m.answers.length
    rw [if_neg hne]
    omega
  · change m.answers.length + (handled ++ (m.up ++ [message])).count "Link Down" ≤
      m.reports + if message = "Link Down" then 1 else 0
    rw [← List.append_assoc, List.count_append, List.count_singleton]
    simp only [beq_iff_eq]
    omega
  · change Live _ (handled ++ (m.up ++ [message])) told
    rw [← List.append_assoc]
    cases h.live hopen with
    | talking hdown hdialogue hbalance =>
        refine .talking hdown (hdialogue.send hout) ?_
        change m.reports + (if message = "Link Down" then 1 else 0) =
          m.linkUps + (Process.afterSend m.pc).owed
        rw [hafter, hbalance, howed]
        omega
    | leaving hleaving => exact .leaving (hleaving.send hout).2

/-- The monitor reads a message. -/
theorem recv {message : String} {rest : List String} {p : Process}
    (h : Session k m handled told running) (hdown : m.down = message :: rest)
    (hrecv : m.process.afterRecv (.data message) = some p) :
    Session k { m with process := p, down := rest } handled told running := by
  refine ⟨h.own, ?_, h.answered, h.outstanding, ?_, ?_, ?_⟩
  · have hexecuted := h.executed
    rw [hdown, List.count_cons] at hexecuted
    change m.linkUps + rest.count "Set Link Up" + (if p.pc = .setLinkUp then 1 else 0) ≤
      m.answers.length
    have hentered : (if p.pc = .setLinkUp then 1 else 0) ≤
        if (message == "Set Link Up") = true then 1 else 0 := by
      split
      case isTrue hset =>
        rw [show message = "Set Link Up" from (Process.response_of_setLinkUp hrecv hset).2]
        exact le_rfl
      case isFalse => exact Nat.zero_le _
    omega
  · intro hlink
    rw [(h.unconnected hlink).2.2.1] at hdown
    cases hdown
  · intro hlink
    cases h.live hlink with
    | @talking _ replies hreplies hdialogue hbalance =>
        rw [hdown] at hreplies
        cases replies with
        | nil =>
            cases told with
            | false => cases hreplies
            | true =>
                cases hreplies
                exact .leaving (Process.leaving_of_shutDown hrecv)
        | cons reply more =>
            cases hreplies
            obtain ⟨hnext, howed⟩ := hdialogue.recv hrecv
            refine .talking rfl hnext ?_
            change m.reports = m.linkUps + p.pc.owed
            rw [howed]
            exact hbalance
    | leaving hleaving =>
        rw [hleaving.afterRecv] at hrecv
        cases hrecv
  · intro _ hpc
    exact absurd hpc (Process.not_greeting_of_afterRecv hrecv)

/-- The `recv` of the monitor returns without data. -/
theorem recvEnds {r : Recv} {p : Process} (h : Session k m handled told running)
    (hr : r = .closed ∨ r = .failed) (hlink : m.link = .closed)
    (hrecv : m.process.afterRecv r = some p) :
    Session k { m with process := p } handled told running := by
  have hne : p.pc ≠ .setLinkUp := by
    intro hset
    have hresponse := (Process.response_of_setLinkUp hrecv hset).2
    rcases hr with rfl | rfl <;> exact absurd hresponse (by decide)
  have hexecuted := h.executed
  refine ⟨h.own, ?_, h.answered, h.outstanding, ?_, ?_, ?_⟩
  · change m.linkUps + m.down.count "Set Link Up" + (if p.pc = .setLinkUp then 1 else 0) ≤
      m.answers.length
    rw [if_neg hne]
    omega
  · intro hnone
    rw [show m.link = .none from hnone] at hlink
    cases hlink
  · rintro (hopen | hopen) <;> rw [show m.link = _ from hopen] at hlink <;> cases hlink
  · intro _ hpc
    exact absurd hpc (Process.not_greeting_of_afterRecv hrecv)

theorem sigint (h : Session k m handled told running) :
    Session k { m with process := m.process.sigHandler } handled told running := by
  refine ⟨h.own, h.executed, h.answered, h.outstanding, h.unconnected, ?_, h.gone⟩
  intro hlink
  cases h.live hlink with
  | talking hdown hdialogue hbalance => exact .talking hdown hdialogue hbalance
  | leaving hleaving => exact .leaving ⟨rfl, hleaving.2⟩

/-- In place of "Monitor" the monitor only reads that it is to stop. -/
theorem unexpected {message : String} {rest : List String}
    (h : Session k m handled told running) (hpc : m.pc = .awaitMonitor)
    (hdown : m.down = message :: rest) (hne : message ≠ "Monitor") :
    running = false ∨ m.refused = true ∨ told = true := by
  have hlive : Live m (handled ++ m.up) told → told = true := by
    intro hlive
    cases hlive with
    | @talking _ replies hreplies hdialogue _ =>
        rw [hdown] at hreplies
        rw [hpc] at hdialogue
        cases replies with
        | nil =>
            cases told with
            | false => cases hreplies
            | true => rfl
        | cons reply more =>
            cases hreplies
            exact absurd hdialogue.expected hne
    | leaving _ => rfl
  cases hlink : m.link with
  | none =>
      rw [(h.unconnected hlink).2.2.1] at hdown
      cases hdown
  | waiting => exact .inr (.inr (hlive (h.live (.inl hlink))))
  | accepted => exact .inr (.inr (hlive (h.live (.inr hlink))))
  | closed =>
      rcases h.gone hlink (.inr hpc) with hrunning | hrefused
      · exact .inl hrunning
      · exact .inr (.inl hrefused)

/-- A monitor that waits on an open connection with nothing to read has its
request on the way. -/
theorem pending {request : String} (h : Session k m handled told running)
    (hwaits : m.pc.waitsOn = some request) (hlink : m.link ≠ .closed) (hdown : m.down = []) :
    request ∈ handled ++ m.up := by
  have hopen : m.link = .waiting ∨ m.link = .accepted := by
    cases hl : m.link with
    | none =>
        have hconnected := (h.unconnected hl).1
        rw [MonitorPc.connected_of_waitsOn hwaits] at hconnected
        cases hconnected
    | waiting => exact .inl rfl
    | accepted => exact .inr rfl
    | closed => exact absurd hl hlink
  cases h.live hopen with
  | @talking _ replies hreplies hdialogue _ =>
      rw [hdown] at hreplies
      obtain ⟨hnil, _⟩ := List.append_eq_nil_iff.mp hreplies.symm
      rw [hnil] at hdialogue
      exact hdialogue.pending hwaits
  | leaving hleaving =>
      obtain ⟨_, hpc⟩ := hleaving
      rcases hpc with hpc | hpc | hpc | hpc | hpc <;>
        rw [show m.pc = _ from hpc] at hwaits <;> cases hwaits

end Session

end Unx511.Assignment2
