import Unx511.Assignment2.Dialogue
import Unx511.Assignment2.Registry

/-!
The session protocol of the whole system: every connection keeps to its dialogue
on every run in which the processes are stopped by SIGINT alone and in which
`signal` restarts an interrupted `recv`.
-/

namespace Unx511.Assignment2

open Unx511.Machine

/-- The message of monitor `k` that `handle_client_message` is at. -/
def State.handled (s : State) (k : Nat) : List String :=
  match s.server.pc with
  | .handle _ source message _ _ => if source = k then [message] else []
  | _ => []

/-- Monitor `k` has been sent "Shut Down" and its connection is still to be closed. -/
def State.told (s : State) (k : Nat) : Bool :=
  match s.server.pc with
  | .closeClient fd _ => s.server.peer fd = some k
  | _ => false

/-- What monitor `k` has sent and networkMonitor has not dealt with. -/
def State.inflight (s : State) (k : Nat) : List String := s.handled k ++ (s.monitor k).up

/-- A monitor ends by something other than SIGINT and its own program. -/
def Action.dies : Action → Bool
  | .die _ => true
  | _ => false

/-- What every such run keeps: networkMonitor shuts down only once it is told to,
has met no unknown message, and each connection is in its session. -/
structure Orderly (s : State) : Prop where
  registered : Registered s
  stopped : s.server.pc.inCleanup = true → s.server.running = false
  known : s.server.unknown = []
  session : ∀ k, Session k (s.monitor k) (s.handled k) (s.told k) s.server.running

section

variable {s t : State} {fd k : Nat} {m : Monitor}

theorem handled_of_idle (h : s.server.pc.idle = true) (k : Nat) : s.handled k = [] := by
  unfold State.handled
  split
  case h_1 hpc =>
    rw [hpc] at h
    cases h
  case h_2 => rfl

theorem told_of_idle (h : s.server.pc.idle = true) (k : Nat) : s.told k = false := by
  unfold State.told
  split
  case h_1 hpc =>
    rw [hpc] at h
    cases h
  case h_2 => rfl

/-- networkMonitor is only busy with accepted connections. -/
theorem quiet_of_link (h : Consistent s) (hlink : (s.monitor k).link ≠ .accepted) :
    s.handled k = [] ∧ s.told k = false := by
  constructor
  · unfold State.handled
    split
    case h_1 f source message fds ready hpc =>
      have hpeer := h.handling f source message fds ready hpc
      rw [if_neg]
      rintro rfl
      exact hlink (h.peer_link hpeer)
    case h_2 => rfl
  · unfold State.told
    split
    case h_1 f fds _ =>
      apply decide_eq_false
      exact fun hpeer => hlink (h.peer_link hpeer)
    case h_2 => rfl

/-- One monitor changes. -/
theorem session_update {handled : Nat → List String} {told : Nat → Bool} {running : Bool}
    {monitor : Nat → Monitor} (hk : Session k m (handled k) (told k) running)
    (hother : ∀ j, j ≠ k → Session j (monitor j) (handled j) (told j) running) (j : Nat) :
    Session j (Function.update monitor k m j) (handled j) (told j) running := by
  rcases eq_or_ne j k with rfl | hne
  · rw [Function.update_self]
    exact hk
  · rw [Function.update_of_ne hne]
    exact hother j hne

/-- One monitor changes while networkMonitor is busy with no connection. -/
theorem quiet_update {running : Bool} {monitor : Nat → Monitor}
    (hk : Session k m [] false running)
    (hother : ∀ j, j ≠ k → Session j (monitor j) [] false running) (j : Nat) :
    Session j (Function.update monitor k m j) [] false running :=
  @session_update k m (fun _ => []) (fun _ => false) running monitor hk hother j

/-- A descriptor is closed. -/
theorem session_closeFd {running : Bool}
    (hclosed : ∀ k, s.server.peer fd = some k → Session k (s.monitor k).hangUp [] false running)
    (hother : ∀ k, s.server.peer fd ≠ some k → Session k (s.monitor k) [] false running)
    (k : Nat) : Session k ((s.closeFd fd).monitor k) [] false running := by
  unfold State.closeFd
  split
  case h_1 j hpeer =>
    refine quiet_update (hclosed j hpeer) ?_ k
    intro i hne
    apply hother
    rw [hpeer]
    exact fun h => hne (Option.some.inj h).symm
  case h_2 hpeer => exact hother k (by rw [hpeer]; nofun)

namespace Orderly

theorem initial (running : Bool) : Orderly (State.initial running) where
  registered := Registered.initial running
  stopped := nofun
  known := rfl
  session := fun k => Session.initial k running

theorem consistent (h : Orderly s) : Consistent s := h.registered.consistent

theorem at_idle (h : Orderly s) (hidle : s.server.pc.idle = true) (k : Nat) :
    Session k (s.monitor k) [] false s.server.running := by
  have hsession := h.session k
  rw [handled_of_idle hidle, told_of_idle hidle] at hsession
  exact hsession

/-- A state in which networkMonitor is busy with no connection. -/
theorem of_idle (hregistered : Registered t) (hidle : t.server.pc.idle = true)
    (hstopped : t.server.pc.inCleanup = true → t.server.running = false)
    (hknown : t.server.unknown = [])
    (hsession : ∀ k, Session k (t.monitor k) [] false t.server.running) : Orderly t := by
  refine ⟨hregistered, hstopped, hknown, fun k => ?_⟩
  rw [handled_of_idle hidle, told_of_idle hidle]
  exact hsession k

/-- A step of monitor `k`. -/
theorem setMonitor (h : Orderly s) (hregistered : Registered (s.setMonitor k m))
    (hk : Session k m (s.handled k) (s.told k) s.server.running) :
    Orderly (s.setMonitor k m) :=
  ⟨hregistered, h.stopped, h.known, session_update hk fun j _ => h.session j⟩

/-- The process of networkMonitor ends while it shuts down. -/
theorem serverExit (h : Orderly s) (hregistered : Registered s.serverExit)
    (hrunning : s.server.running = false) : Orderly s.serverExit := by
  refine of_idle hregistered rfl (fun _ => hrunning) h.known fun k => ?_
  exact (h.session k).hangUp (.inl hrunning)

/-- networkMonitor is at a message of monitor `source`, and of no other. -/
theorem at_handle {source : Nat} {message : String} {fds ready : List Nat} (h : Orderly s)
    (hpc : s.server.pc = .handle fd source message fds ready) :
    Session source (s.monitor source) [message] false s.server.running ∧
      ∀ k, k ≠ source → Session k (s.monitor k) [] false s.server.running := by
  have htold : ∀ k, s.told k = false := by
    intro k
    unfold State.told
    rw [hpc]
  have hhandled : ∀ k, s.handled k = if source = k then [message] else [] := by
    intro k
    unfold State.handled
    rw [hpc]
  constructor
  · have hsession := h.session source
    rw [htold, hhandled, if_pos rfl] at hsession
    exact hsession
  · intro k hne
    have hsession := h.session k
    rw [htold, hhandled, if_neg hne.symm] at hsession
    exact hsession

/-- A reply reaches the monitor that waits for it. -/
theorem reply {text : String} {sources fds ready : List Nat}
    (hpeer : s.server.peer fd = some k) (hconnected : (s.monitor k).pc.connected = true)
    (hk : Session k ((s.monitor k).told text sources) [] false s.server.running)
    (hother : ∀ j, j ≠ k → Session j (s.monitor j) [] false s.server.running)
    (hsent : Sent s fd text sources (.check fds ready) t) :
    t.server.pc = .check fds ready ∧ t.server.running = s.server.running ∧
      t.server.unknown = s.server.unknown ∧
      ∀ j, Session j (t.monitor j) [] false s.server.running := by
  cases hsent with
  | told hfd _ =>
      rw [hpeer] at hfd
      cases hfd
      exact ⟨rfl, rfl, rfl, quiet_update hk hother⟩
  | killed hfd hgone =>
      rw [hpeer] at hfd
      cases hfd
      rw [hconnected] at hgone
      cases hgone
  | closed hfd =>
      rw [hpeer] at hfd
      cases hfd

/-- A message is handled: networkMonitor is back in its loop, the message was a
known one and its connection goes on or is closed after "Done". -/
theorem handled {source : Nat} {name message : String} {fds ready : List Nat} (h : Orderly s)
    (hpc : s.server.pc = .handle fd source message fds ready)
    (hhandled : Handled s fd source name fds ready message t) :
    t.server.pc = .check fds ready ∧ t.server.running = s.server.running ∧
      t.server.unknown = s.server.unknown ∧
      ∀ k, Session k (t.monitor k) [] false s.server.running := by
  have hpeer : s.server.peer fd = some source :=
    h.consistent.handling fd source message fds ready hpc
  have hlink : (s.monitor source).link = .accepted := h.consistent.peer_link hpeer
  obtain ⟨hk, hother⟩ := h.at_handle hpc
  obtain ⟨replies, hdialogue⟩ :
      ∃ replies, Dialogue (s.monitor source).pc (message :: (s.monitor source).up) replies := by
    cases hk.live (.inr hlink) with
    | talking _ hdialogue _ => exact ⟨_, hdialogue⟩
  cases hhandled with
  | ready =>
      have hreply : Session source ((s.monitor source).told "Monitor" []) [] false
          s.server.running :=
        hk.reply hlink nofun rfl rfl fun _ hold => hold.handle_ready.2
      exact reply hpeer hdialogue.handle_ready.1 hreply hother (serverSend_sent s fd _ _ _)
  | monitoring =>
      refine ⟨rfl, rfl, rfl, fun k => ?_⟩
      rcases eq_or_ne k source with rfl | hne
      · exact hk.dismiss fun _ hold => hold.handle_monitoring
      · exact hother k hne
  | linkDown =>
      have hsources : ∀ j ∈ [source], j = source := fun j hj => List.mem_singleton.mp hj
      have hreply := hk.reply hlink hsources rfl rfl fun _ hold => hold.handle_linkDown.2
      have hconnected := hdialogue.handle_linkDown.1
      exact reply (s := { s with server.alerts := s.server.alerts ++ [(source, name)] })
        hpeer hconnected hreply hother (serverSend_sent _ fd _ _ _)
  | done =>
      have hends := hdialogue.handle_done
      refine ⟨rfl, ?_, ?_, ?_⟩
      · change (s.closeFd fd).server.running = _
        rw [closeFd_server]
      · change (s.closeFd fd).server.unknown = _
        rw [closeFd_server]
      · apply session_closeFd
        · intro k hfd
          rw [hpeer] at hfd
          cases hfd
          refine hk.hangUp (.inr ?_)
          rcases hends with hpc | hpc <;> rw [hpc] <;> exact ⟨nofun, nofun⟩
        · intro k hfd
          apply hother
          rintro rfl
          exact hfd hpeer
  | unknown hmessage => exact absurd hmessage hdialogue.handle_known

/-- networkMonitor tells a client to stop. -/
theorem tell {fds : List Nat} (h : Orderly s) (hpc : s.server.pc = .sendShutDown (fd :: fds))
    (hregistered : Registered t) (hsent : Sent s fd "Shut Down" [] (.closeClient fd fds) t) :
    Orderly t := by
  have hrunning : s.server.running = false := h.stopped (by rw [hpc]; rfl)
  have hidle : s.server.pc.idle = true := by
    rw [hpc]
    rfl
  cases hsent with
  | @told k hpeer _ =>
      refine ⟨hregistered, fun _ => hrunning, h.known, ?_⟩
      have htold : ∀ j, (((s.setMonitor k ((s.monitor k).told "Shut Down" [])).goto
          (.closeClient fd fds)).told j) = decide (j = k) := by
        intro j
        change decide (s.server.peer fd = some j) = _
        rw [hpeer]
        simp only [Option.some.injEq, eq_comm]
      refine session_update ?_ ?_
      · rw [htold, decide_eq_true rfl]
        exact (h.at_idle hidle k).tell (h.consistent.peer_link hpeer)
      · intro j hne
        rw [htold, decide_eq_false hne]
        exact h.at_idle hidle j
  | killed _ _ => exact h.serverExit hregistered hrunning
  | closed hpeer =>
      refine ⟨hregistered, fun _ => hrunning, h.known, fun k => ?_⟩
      have htold : (s.goto (.closeClient fd fds)).told k = false := by
        change decide (s.server.peer fd = some k) = false
        rw [hpeer]
        rfl
      rw [htold]
      exact h.at_idle hidle k

/-- networkMonitor closes the connection of a client that it has told to stop. -/
theorem closeClient {fds : List Nat} (h : Orderly s)
    (hpc : s.server.pc = .closeClient fd fds)
    (hregistered : Registered ((s.closeFd fd).goto (.sendShutDown fds))) :
    Orderly ((s.closeFd fd).goto (.sendShutDown fds)) := by
  have hrunning : s.server.running = false := h.stopped (by rw [hpc]; rfl)
  have hrunning' : (s.closeFd fd).server.running = false := by
    rw [closeFd_server]
    exact hrunning
  have hknown : (s.closeFd fd).server.unknown = [] := by
    rw [closeFd_server]
    exact h.known
  refine of_idle hregistered rfl (fun _ => hrunning') hknown ?_
  change ∀ k, Session k ((s.closeFd fd).monitor k) [] false (s.closeFd fd).server.running
  rw [hrunning']
  apply session_closeFd
  · exact fun k _ => (h.session k).hangUp (.inl rfl)
  · intro k hpeer
    have hsession := h.session k
    have hhandled : s.handled k = [] := by
      unfold State.handled
      rw [hpc]
    have htold : s.told k = false := by
      unfold State.told
      rw [hpc]
      exact decide_eq_false hpeer
    rw [hhandled, htold] at hsession
    exact hsession.stop

theorem sigHandlerServer (h : Orderly s) (hregistered : Registered (sigHandlerServer s)) :
    Orderly (sigHandlerServer s) := by
  obtain ⟨hpc, _, hpeer, _, hunknown⟩ := sigHandlerServer_frame s
  have hrunning : (Assignment2.sigHandlerServer s).server.running = false := by
    unfold Assignment2.sigHandlerServer
    split <;> rfl
  refine ⟨hregistered, fun _ => hrunning, hunknown.trans h.known, fun k => ?_⟩
  have hhandled : (Assignment2.sigHandlerServer s).handled k = s.handled k := by
    unfold State.handled
    rw [hpc]
  have htold : (Assignment2.sigHandlerServer s).told k = s.told k := by
    unfold State.told
    rw [hpc, hpeer]
  rw [hhandled, htold, hrunning]
  unfold Assignment2.sigHandlerServer
  split
  case isTrue =>
    change Session k (if k ∈ s.backlog then (s.monitor k).hangUp else s.monitor k) _ _ false
    split
    case isTrue hmem =>
      have hwaiting : (s.monitor k).link = .waiting := h.consistent.wired.waiting k hmem
      have hquiet := quiet_of_link h.consistent (k := k) (by rw [hwaiting]; nofun)
      rw [hquiet.1]
      exact (h.session k).hangUp (.inl rfl)
    case isFalse => exact (h.session k).stop
  case isFalse => exact (h.session k).stop

/-- A waiting connection is accepted. -/
theorem accepted {ready rest : List Nat} (h : Orderly s) (hpc : s.server.pc = .accept ready)
    (hbacklog : s.backlog = k :: rest) (j : Nat) :
    Session j (Function.update s.monitor k { s.monitor k with link := .accepted } j) [] false
      s.server.running := by
  have hidle : s.server.pc.idle = true := by
    rw [hpc]
    rfl
  have hwaiting : (s.monitor k).link = .waiting :=
    h.consistent.wired.waiting k (by rw [hbacklog]; exact List.mem_cons_self)
  exact quiet_update ((h.at_idle hidle k).accept hwaiting) (fun i _ => h.at_idle hidle i) j

/-- A connection is closed because no name is free. -/
theorem refused {ready : List Nat} (h : Orderly s) (hpc : s.server.pc = .accept ready)
    (k j : Nat) :
    Session j (Function.update s.monitor k
      { s.monitor k with link := .closed, refused := true } j) [] false s.server.running := by
  have hidle : s.server.pc.idle = true := by
    rw [hpc]
    rfl
  exact quiet_update (h.at_idle hidle k).refuse (fun i _ => h.at_idle hidle i) j

theorem receive {message : String} {rest : List String} {fds ready : List Nat} (h : Orderly s)
    (hpc : s.server.pc = .receive fd fds ready) (hup : (s.monitor k).up = message :: rest)
    (hregistered : Registered ((s.setMonitor k { s.monitor k with up := rest }).goto
      (.handle fd k message fds ready))) :
    Orderly ((s.setMonitor k { s.monitor k with up := rest }).goto
      (.handle fd k message fds ready)) := by
  have hidle : s.server.pc.idle = true := by
    rw [hpc]
    rfl
  refine ⟨hregistered, nofun, h.known, ?_⟩
  refine session_update ?_ ?_
  · change Session k _ (if k = k then [message] else []) false s.server.running
    rw [if_pos rfl]
    exact (h.at_idle hidle k).take hup
  · intro j hne
    change Session j _ (if k = j then [message] else []) false s.server.running
    rw [if_neg hne.symm]
    exact h.at_idle hidle j

/-- A client that has gone is dropped. -/
theorem drop {fds ready : List Nat} (h : Orderly s) (hpc : s.server.pc = .receive fd fds ready)
    (hgone : ∀ k, s.server.peer fd = some k → (s.monitor k).pc.connected = false)
    (hregistered : Registered ((s.dropClient fd).goto (.check fds ready))) :
    Orderly ((s.dropClient fd).goto (.check fds ready)) := by
  have hidle : s.server.pc.idle = true := by
    rw [hpc]
    rfl
  have hknown : (s.closeFd fd).server.unknown = [] := by
    rw [closeFd_server]
    exact h.known
  refine of_idle hregistered rfl nofun hknown ?_
  change ∀ k, Session k ((s.closeFd fd).monitor k) [] false (s.closeFd fd).server.running
  rw [closeFd_server]
  apply session_closeFd
  · intro k hpeer
    have hunconnected := hgone k hpeer
    refine (h.at_idle hidle k).hangUp (.inr ⟨?_, ?_⟩) <;>
      rintro hpc <;> rw [hpc] at hunconnected <;> cases hunconnected
  · exact fun k _ => h.at_idle hidle k

/-- The process of a monitor starts. -/
theorem start (h : Orderly s) (hunborn : (s.monitor k).pc = .unborn)
    (hregistered : Registered (startMonitor k s)) : Orderly (startMonitor k s) := by
  apply h.setMonitor hregistered
  apply (h.session k).start
  exact h.consistent.early k (by rw [hunborn]; rfl)

theorem exitMonitor (h : Orderly s) {a : Action} (hdies : a.dies = false)
    (hwhy : (s.monitor k).pc = .start ∨ (s.monitor k).pc = .connect ∨
      (s.monitor k).pc = .close ∨ (s.monitor k).link = .closed ∨ a = .die k)
    (hregistered : Registered (exitMonitor k s)) : Orderly (exitMonitor k s) := by
  apply h.setMonitor hregistered
  apply (h.session k).exit
  rcases hwhy with hstart | hconnect | hclose | hclosed | rfl
  · exact .inl (h.consistent.early k (by rw [hstart]; rfl))
  · exact .inl (h.consistent.early k (by rw [hconnect]; rfl))
  · exact .inr (.inr hclose)
  · exact .inr (.inl hclosed)
  · cases hdies

theorem connect (h : Orderly s) (hpc : (s.monitor k).pc = .connect)
    (hregistered : Registered { s.setMonitor k { s.monitor k with
        process := (s.monitor k).process.goto .sendReady
        link := .waiting } with
      backlog := s.backlog ++ [k] }) :
    Orderly { s.setMonitor k { s.monitor k with
        process := (s.monitor k).process.goto .sendReady
        link := .waiting } with
      backlog := s.backlog ++ [k] } := by
  have hlink : (s.monitor k).link = .none := h.consistent.early k (by rw [hpc]; rfl)
  obtain ⟨hhandled, htold⟩ := quiet_of_link h.consistent (k := k) (by rw [hlink]; nofun)
  have hsession := h.session k
  rw [hhandled, htold] at hsession
  refine ⟨hregistered, h.stopped, h.known, ?_⟩
  refine session_update ?_ fun j _ => h.session j
  change Session k _ (s.handled k) (s.told k) s.server.running
  rw [hhandled, htold]
  exact hsession.connect hlink

theorem effect {cfg : Config} {a : Action} (h : Orderly s) (hcfg : cfg.restarts = true)
    (hdies : a.dies = false) (heffect : Effect cfg s a t) : Orderly t := by
  have hregistered := h.registered.effect heffect
  cases heffect with
  | goto _ hfrom hstay hto _ henter _ =>
      exact of_idle hregistered hto henter h.known (h.at_idle hfrom)
  | selectFails hpc =>
      refine of_idle hregistered rfl nofun h.known fun k => ?_
      exact (h.at_idle (by rw [hpc]; rfl) k).stop
  | @fork k hpc _ hunborn =>
      have hidle : s.server.pc.idle = true := by
        rw [hpc]
        rfl
      refine of_idle hregistered rfl nofun h.known ?_
      refine quiet_update ?_ fun j _ => h.at_idle hidle j
      apply (h.at_idle hidle k).start
      exact h.consistent.early k (by rw [hunborn]; rfl)
  | acceptNamed hpc hbacklog _ _ =>
      exact of_idle hregistered rfl nofun h.known (h.accepted hpc hbacklog)
  | acceptRefused hpc _ _ => exact of_idle hregistered rfl nofun h.known (h.refused hpc _)
  | receive hpc _ hup => exact h.receive hpc hup hregistered
  | drop hpc hgone => exact h.drop hpc hgone hregistered
  | @handle fd source message fds ready hpc =>
      have hfd : fd ∈ s.server.clientFds.keys :=
        h.registered.visited fd (by rw [hpc]; rfl)
      obtain ⟨_, _, hhandled⟩ := handleMessage_handled source message fds ready hfd
      obtain ⟨hnext, hrunning, hunknown, hsession⟩ := h.handled hpc hhandled
      refine of_idle hregistered (by rw [hnext]; rfl) ?_ (hunknown.trans h.known) ?_
      · rw [hnext]
        nofun
      · rw [hrunning]
        exact hsession
  | @tell fd fds hpc => exact h.tell hpc hregistered (serverSend_sent s fd _ _ _)
  | clear hpc =>
      have hrunning : s.server.running = false := h.stopped (by rw [hpc]; rfl)
      exact of_idle hregistered rfl (fun _ => hrunning) h.known (h.at_idle (by rw [hpc]; rfl))
  | closeClient hpc => exact h.closeClient hpc hregistered
  | exit hpc => exact h.serverExit hregistered (h.stopped (by rw [hpc]; rfl))
  | sigintServer _ => exact h.sigHandlerServer hregistered
  | launch _ hunborn => exact h.start hunborn hregistered
  | exitMonitor _ hwhy _ => exact h.exitMonitor hdies hwhy hregistered
  | localStep hlocal => exact h.setMonitor hregistered ((h.session _).localStep hlocal)
  | connect hpc _ => exact h.connect hpc hregistered
  | send hout hlink => exact h.setMonitor hregistered ((h.session _).send hout hlink)
  | recv hdown hrecv => exact h.setMonitor hregistered ((h.session _).recv hdown hrecv)
  | recvEnds hr hlink hrecv =>
      exact h.setMonitor hregistered ((h.session _).recvEnds hr hlink hrecv)
  | interrupted hfalse _ =>
      rw [hcfg] at hfalse
      cases hfalse
  | sigint _ _ => exact h.setMonitor hregistered (h.session _).sigint

end Orderly

/-- What `recv` of monitor `k` can return. -/
inductive Receives (s : State) (k : Nat) : Recv → Prop
  | data {message : String} {rest : List String} (hdown : (s.monitor k).down = message :: rest) :
      Receives s k (.data message)
  | ends {r : Recv} (hr : r = .closed ∨ r = .failed) (hlink : (s.monitor k).link = .closed) :
      Receives s k r

/-- How the process of a monitor can move, where `signal` restarts `recv`. -/
inductive Moved (s : State) (k : Nat) : Process → Prop
  | stays : Moved s k (s.monitor k).process
  | starts : Moved s k { pc := .start, running := true }
  | ends : Moved s k ((s.monitor k).process.goto .exited)
  | runs {operstate : String} {p : Process}
      (hlocal : (s.monitor k).process.localStep operstate = some p) : Moved s k p
  | connects : Moved s k ((s.monitor k).process.goto .sendReady)
  | sends {message : String} (hout : Process.outgoing (s.monitor k).pc = some message) :
      Moved s k ((s.monitor k).process.goto (Process.afterSend (s.monitor k).pc))
  | receives {r : Recv} {p : Process} (hr : Receives s k r)
      (hrecv : (s.monitor k).process.afterRecv r = some p) : Moved s k p
  | stops : Moved s k (s.monitor k).process.sigHandler

theorem Moved.of_eq {p : Process} (h : p = (s.monitor k).process) : Moved s k p := by
  rw [h]
  exact .stays

/-- A step of monitor `j` moves at most its own process. -/
theorem Moved.update {j : Nat} {m : Monitor} (h : Moved s j m.process) (k : Nat) :
    Moved s k (Function.update s.monitor j m k).process := by
  rcases eq_or_ne k j with rfl | hne
  · rw [Function.update_self]
    exact h
  · rw [Function.update_of_ne hne]
    exact .stays

theorem closeFd_process (s : State) (fd k : Nat) :
    ((s.closeFd fd).monitor k).process = (s.monitor k).process := by
  unfold State.closeFd
  split
  case h_1 j _ =>
    change (Function.update s.monitor j (s.monitor j).hangUp k).process = _
    rcases eq_or_ne k j with rfl | hne
    · rw [Function.update_self, hangUp_process]
    · rw [Function.update_of_ne hne]
  case h_2 => rfl

theorem Sent.process {message : String} {sources : List Nat} {next : ServerPc}
    (h : Sent s fd message sources next t) (k : Nat) :
    (t.monitor k).process = (s.monitor k).process := by
  cases h with
  | @told j _ _ =>
      change (Function.update s.monitor j ((s.monitor j).told message sources) k).process = _
      rcases eq_or_ne k j with rfl | hne
      · rw [Function.update_self]
        rfl
      · rw [Function.update_of_ne hne]
  | killed _ _ => exact hangUp_process (s.monitor k)
  | closed _ => rfl

theorem Handled.process {source : Nat} {name message : String} {fds ready : List Nat}
    (h : Handled s fd source name fds ready message t) (k : Nat) :
    (t.monitor k).process = (s.monitor k).process := by
  cases h with
  | ready => exact (serverSend_sent s fd _ _ _).process k
  | linkDown => exact (serverSend_sent _ fd _ _ _).process k
  | done => exact closeFd_process s fd k
  | monitoring | unknown _ => rfl

theorem sigHandlerServer_process (s : State) (k : Nat) :
    ((sigHandlerServer s).monitor k).process = (s.monitor k).process := by
  unfold sigHandlerServer
  split
  · change (if k ∈ s.backlog then (s.monitor k).hangUp else s.monitor k).process = _
    split
    · exact hangUp_process (s.monitor k)
    · rfl
  · rfl

theorem Effect.moved {cfg : Config} {a : Action} (hregistered : Registered s)
    (hcfg : cfg.restarts = true) (h : Effect cfg s a t) (k : Nat) :
    Moved s k (t.monitor k).process := by
  cases h with
  | fork _ _ _ | launch _ _ => exact Moved.starts.update k
  | acceptNamed _ _ _ _ | acceptRefused _ _ _ | receive _ _ _ =>
      refine Moved.update ?_ k
      exact .stays
  | @drop fd _ _ _ _ => exact .of_eq (closeFd_process s fd k)
  | @closeClient fd _ _ => exact .of_eq (closeFd_process s fd k)
  | @handle fd source message fds ready hpc =>
      have hfd : fd ∈ s.server.clientFds.keys := hregistered.visited fd (by rw [hpc]; rfl)
      obtain ⟨_, _, hhandled⟩ := handleMessage_handled source message fds ready hfd
      exact .of_eq (hhandled.process k)
  | @tell fd _ _ => exact .of_eq ((serverSend_sent s fd _ _ _).process k)
  | exit _ => exact .of_eq (hangUp_process (s.monitor k))
  | sigintServer _ => exact .of_eq (sigHandlerServer_process s k)
  | exitMonitor _ _ _ => exact Moved.ends.update k
  | localStep hlocal => exact (Moved.runs hlocal).update k
  | connect _ _ => exact Moved.connects.update k
  | send hout _ => exact (Moved.sends hout).update k
  | recv hdown hrecv => exact (Moved.receives (.data hdown) hrecv).update k
  | recvEnds hr hlink hrecv => exact (Moved.receives (.ends hr hlink) hrecv).update k
  | interrupted hfalse _ =>
      rw [hcfg] at hfalse
      cases hfalse
  | sigint _ _ => exact Moved.stops.update k
  | goto _ _ _ _ _ _ _ | selectFails _ | clear _ => exact .stays

/-- The Set-Link-Up branch is entered by reading "Set Link Up" as the answer to a
report. -/
theorem Moved.setLinkUp {p : Process} (h : Moved s k p) (hold : (s.monitor k).pc ≠ .setLinkUp)
    (hnew : p.pc = .setLinkUp) :
    (s.monitor k).pc = .awaitCommand ∧ ∃ rest, (s.monitor k).down = "Set Link Up" :: rest := by
  cases h with
  | stays | stops => exact absurd hnew hold
  | starts | ends | connects => cases hnew
  | runs hlocal =>
      rcases Process.localStep_cases hlocal with ⟨_, rfl⟩ | ⟨_, _, _, hne⟩
      · cases hnew
      · exact absurd hnew hne
  | sends hout => exact absurd hnew (Process.outgoing_cases hout).2.2.1
  | receives hr hrecv =>
      obtain ⟨hpc, hresponse⟩ := Process.response_of_setLinkUp hrecv hnew
      cases hr with
      | data hdown =>
          cases hresponse
          exact ⟨hpc, _, hdown⟩
      | ends hends _ =>
          rcases hends with rfl | rfl <;> exact absurd hresponse (by decide)

/-- The monitor gives up waiting for "Monitor" only by receiving something else. -/
theorem Moved.giveUp {p : Process} (h : Moved s k p) (hold : (s.monitor k).pc = .awaitMonitor)
    (hnew : p.pc = .test) : ∃ r, Receives s k r ∧ Process.response r ≠ "Monitor" := by
  cases h with
  | stays | stops =>
      have hpc : (s.monitor k).pc = .test := hnew
      rw [hold] at hpc
      cases hpc
  | starts | ends | connects => cases hnew
  | runs hlocal =>
      have hpc : (s.monitor k).process.pc = .awaitMonitor := hold
      rcases Process.localStep_cases hlocal with ⟨hstart, _⟩ | ⟨hloop, _⟩
      · rw [hpc] at hstart
        cases hstart
      · rw [hpc] at hloop
        cases hloop
  | sends hout =>
      rw [hold] at hout
      cases hout
  | @receives r _ hr hrecv =>
      refine ⟨r, hr, ?_⟩
      rcases Process.afterRecv_cases hrecv with ⟨_, ⟨_, hpc⟩ | ⟨hne, _⟩⟩ | ⟨hpc, _⟩
      · rw [hpc] at hnew
        cases hnew
      · exact hne
      · rw [show (s.monitor k).process.pc = .awaitMonitor from hold] at hpc
        cases hpc

end

/-- The session protocol, in a state and in the steps from it. -/
structure SessionProtocol (cfg : Config) (s : State) : Prop where
  /-- A monitor that waits on an open and empty connection is waiting to be
  accepted, or networkMonitor is there and has its request to answer. -/
  pending : ∀ k request, (s.monitor k).pc.waitsOn = some request → (s.monitor k).down = [] →
    (s.monitor k).link ≠ .closed →
      (s.monitor k).link = .waiting ∨ (s.server.pc ≠ .exited ∧ request ∈ s.inflight k)
  /-- The branch runs at most once for each answer and each report. -/
  executed : ∀ k, (s.monitor k).linkUps ≤ (s.monitor k).answers.length ∧
    (s.monitor k).answers.length ≤ (s.monitor k).reports
  /-- Every answer is to a report of the same monitor. -/
  own : ∀ k, ∀ source ∈ (s.monitor k).answers, source = k
  /-- At the branch one report, the last one, is open and has been answered. -/
  branch : ∀ k, (s.monitor k).pc = .setLinkUp →
    (s.monitor k).answers.length = (s.monitor k).reports ∧
      (s.monitor k).reports = (s.monitor k).linkUps + 1
  /-- The branch is entered by reading that answer. -/
  entered : ∀ k a t, step cfg s a = some t → (s.monitor k).pc ≠ .setLinkUp →
    (t.monitor k).pc = .setLinkUp →
      (s.monitor k).pc = .awaitCommand ∧ ∃ rest, (s.monitor k).down = "Set Link Up" :: rest
  known : s.server.unknown = []
  /-- In place of "Monitor" a monitor reads something else only in a shutdown or
  when its connection was refused. -/
  expected : ∀ k a t, step cfg s a = some t → (s.monitor k).pc = .awaitMonitor →
    (t.monitor k).pc = .test → s.server.running = false ∨ (s.monitor k).refused = true

theorem Orderly.unexpected {s : State} {k : Nat} {r : Recv} (h : Orderly s)
    (hpc : (s.monitor k).pc = .awaitMonitor) (hr : Receives s k r)
    (hne : Process.response r ≠ "Monitor") :
    s.server.running = false ∨ (s.monitor k).refused = true := by
  cases hr with
  | data hdown =>
      rcases (h.session k).unexpected hpc hdown hne with hrunning | hrefused | htold
      · exact .inl hrunning
      · exact .inr hrefused
      · left
        apply h.stopped
        unfold State.told at htold
        split at htold
        case h_1 hclose =>
          rw [hclose]
          rfl
        case h_2 => cases htold
  | ends _ hlink => exact (h.session k).gone hlink (.inr hpc)

theorem Orderly.sessionProtocol {cfg : Config} {s : State} (h : Orderly s)
    (hcfg : cfg.restarts = true) : SessionProtocol cfg s where
  pending := by
    intro k request hwaits hdown hlink
    have hpending := (h.session k).pending hwaits hlink hdown
    rcases eq_or_ne (s.monitor k).link .waiting with hwaiting | hne
    · exact .inl hwaiting
    · refine .inr ⟨?_, hpending⟩
      intro hexited
      rcases (h.consistent.ended hexited).2 k with hnone | hclosed
      · have hconnected := ((h.session k).unconnected hnone).1
        rw [MonitorPc.connected_of_waitsOn hwaits] at hconnected
        cases hconnected
      · exact hlink hclosed
  executed := by
    intro k
    have hexecuted := (h.session k).executed
    have hanswered := (h.session k).answered
    omega
  own := fun k => (h.session k).own
  branch := by
    intro k hpc
    have hexecuted := (h.session k).executed
    have hanswered := (h.session k).answered
    have houtstanding := (h.session k).outstanding
    rw [if_pos hpc] at hexecuted
    omega
  entered := by
    intro k a t hstep hold hnew
    exact ((step_effect hstep).moved h.registered hcfg k).setLinkUp hold hnew
  known := h.known
  expected := by
    intro k a t hstep hold hnew
    obtain ⟨r, hr, hne⟩ := ((step_effect hstep).moved h.registered hcfg k).giveUp hold hnew
    exact h.unexpected hold hr hne

/-- Every run keeps to the session protocol, with any number of monitors, where
the handlers restart `recv` and no process is killed. -/
theorem session_protocol {cfg : Config} (hcfg : cfg.restarts = true) {running : Bool} {s : State}
    (h : Reaches (step cfg) (fun _ a => a.dies = false) (State.initial running) s) :
    SessionProtocol cfg s := by
  have horderly : Orderly s := by
    apply h.invariant (Orderly.initial running)
    intro u a v hu hdies hstep
    exact hu.effect hcfg hdies (step_effect hstep)
  exact horderly.sessionProtocol hcfg

/-- Monitor 0 of one interface has greeted networkMonitor, reports its link down
and reads the answer. -/
def reportedOnce : List Action :=
  [.fork, .server] ++ connecting 0 ++ acceptAs 4 0 ++ greeting 0 4 ++
  [.monitor 0 "up", .monitor 0 "down", .send 0] ++ serve 4 ++ [.recv 0]

theorem session_protocol_reported :
    ∃ s, run (step ⟨["eth0"], true⟩) (State.initial true) reportedOnce = some s ∧
      (s.monitor 0).pc = .setLinkUp ∧ SessionProtocol ⟨["eth0"], true⟩ s := by
  have hmeet : StepsMeet (step ⟨["eth0"], true⟩) (fun _ a => a.dies = false)
      (State.initial true) reportedOnce := by decide
  exact ⟨_, rfl, by decide, session_protocol rfl (Reaches.of_run reportedOnce rfl hmeet)⟩

end Unx511.Assignment2
