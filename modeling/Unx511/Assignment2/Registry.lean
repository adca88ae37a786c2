import Unx511.Assignment2.Wiring

/-!
The map `client_fds`: outside the cleanup each of its descriptors is open, and
`handle_client_message` only runs on a descriptor that is in it, so that it never
creates an entry.
-/

namespace Unx511.Assignment2

open Unx511.Machine

/-- The descriptor whose message networkMonitor is at. -/
def ServerPc.visits : ServerPc → Option Nat
  | .receive fd _ _ | .handle fd _ _ _ _ => some fd
  | _ => none

theorem ServerPc.visits_of_inCleanup {pc : ServerPc} (h : pc.inCleanup = true) :
    pc.visits = none := by
  cases pc <;> first | rfl | cases h

structure Registered (s : State) : Prop where
  consistent : Consistent s
  connected : s.server.pc.inCleanup = false →
    ∀ fd ∈ s.server.clientFds.keys, ∃ k, s.server.peer fd = some k
  visited : ∀ fd, s.server.pc.visits = some fd → fd ∈ s.server.clientFds.keys

/-- What `handle_client_message` can do on a descriptor registered under `name`. -/
inductive Handled (s : State) (fd source : Nat) (name : String) (fds ready : List Nat) :
    String → State → Prop
  | ready : Handled s fd source name fds ready "Ready"
      (s.serverSend fd "Monitor" [] (.check fds ready))
  | monitoring : Handled s fd source name fds ready "Monitoring" (s.goto (.check fds ready))
  | linkDown : Handled s fd source name fds ready "Link Down"
      ({ s with server.alerts := s.server.alerts ++ [(source, name)] }.serverSend fd
        "Set Link Up" [source] (.check fds ready))
  | done : Handled s fd source name fds ready "Done" ((s.dropClient fd).goto (.check fds ready))
  | unknown {message : String} (hmessage : Request.ofMessage message = none) :
      Handled s fd source name fds ready message
        { s.goto (.check fds ready) with server.unknown := s.server.unknown ++ [(name, message)] }

theorem handleMessage_handled {s : State} {fd : Nat} (source : Nat) (message : String)
    (fds ready : List Nat) (h : fd ∈ s.server.clientFds.keys) :
    ∃ name, (fd, name) ∈ s.server.clientFds ∧
      Handled s fd source name fds ready message
        (handleMessage fd source message fds ready s) := by
  obtain ⟨name, hmem, hsub⟩ := subscript_of_mem h
  refine ⟨name, hmem, ?_⟩
  unfold handleMessage
  simp only [hsub]
  split
  case h_1 hrequest =>
    rw [Request.ofMessage_eq_some_iff.mp hrequest]
    exact .ready
  case h_2 hrequest =>
    rw [Request.ofMessage_eq_some_iff.mp hrequest]
    exact .monitoring
  case h_3 hrequest =>
    rw [Request.ofMessage_eq_some_iff.mp hrequest]
    exact .linkDown
  case h_4 hrequest =>
    rw [Request.ofMessage_eq_some_iff.mp hrequest]
    exact .done
  case h_5 hrequest => exact .unknown hrequest

/-- What a send of networkMonitor can do. -/
inductive Sent (s : State) (fd : Nat) (message : String) (sources : List Nat) (next : ServerPc) :
    State → Prop
  | told {k : Nat} (hpeer : s.server.peer fd = some k)
      (hconnected : (s.monitor k).pc.connected = true) :
      Sent s fd message sources next
        ((s.setMonitor k ((s.monitor k).told message sources)).goto next)
  | killed {k : Nat} (hpeer : s.server.peer fd = some k)
      (hgone : (s.monitor k).pc.connected = false) : Sent s fd message sources next s.serverExit
  | closed (hpeer : s.server.peer fd = none) : Sent s fd message sources next (s.goto next)

theorem serverSend_sent (s : State) (fd : Nat) (message : String) (sources : List Nat)
    (next : ServerPc) : Sent s fd message sources next (s.serverSend fd message sources next) := by
  unfold State.serverSend
  split
  case h_1 k hpeer =>
    split
    case isTrue hconnected => exact .told hpeer hconnected
    case isFalse hgone => exact .killed hpeer (by simpa using hgone)
  case h_2 hpeer => exact .closed hpeer

theorem Sent.server_frame {s t : State} {fd : Nat} {message : String} {sources : List Nat}
    {next : ServerPc} (h : Sent s fd message sources next t) :
    t.server.clientFds = s.server.clientFds ∧ t.server.alerts = s.server.alerts ∧
      t.server.unknown = s.server.unknown ∧
      ((t.server.pc = next ∧ t.server.peer = s.server.peer) ∨
        (t.server.pc = .exited ∧ t.server.peer = fun _ => none)) := by
  cases h with
  | told _ _ => exact ⟨rfl, rfl, rfl, .inl ⟨rfl, rfl⟩⟩
  | killed _ _ => exact ⟨rfl, rfl, rfl, .inr ⟨rfl, rfl⟩⟩
  | closed _ => exact ⟨rfl, rfl, rfl, .inl ⟨rfl, rfl⟩⟩

theorem closeFd_server (s : State) (fd : Nat) :
    (s.closeFd fd).server = { s.server with peer := Function.update s.server.peer fd none } := by
  unfold State.closeFd
  split
  · rfl
  case h_2 hpeer =>
    rw [← hpeer, Function.update_eq_self]

theorem sigHandlerServer_frame (s : State) :
    (sigHandlerServer s).server.pc = s.server.pc ∧
      (sigHandlerServer s).server.clientFds = s.server.clientFds ∧
      (sigHandlerServer s).server.peer = s.server.peer ∧
      (sigHandlerServer s).server.alerts = s.server.alerts ∧
      (sigHandlerServer s).server.unknown = s.server.unknown := by
  unfold sigHandlerServer
  split <;> exact ⟨rfl, rfl, rfl, rfl, rfl⟩

namespace Registered

variable {s t : State} {fd : Nat}

theorem initial (running : Bool) : Registered (State.initial running) where
  consistent := Consistent.initial running
  connected := fun _ fd hfd => by cases hfd
  visited := nofun

/-- A step that leaves the map and the descriptors alone. -/
theorem frame (h : Registered s) (hconsistent : Consistent t)
    (hfds : t.server.clientFds = s.server.clientFds) (hpeer : t.server.peer = s.server.peer)
    (hclean : t.server.pc.inCleanup = false → s.server.pc.inCleanup = false)
    (hvisits : ∀ fd, t.server.pc.visits = some fd → fd ∈ s.server.clientFds.keys) :
    Registered t := by
  refine ⟨hconsistent, ?_, ?_⟩
  · rw [hfds, hpeer]
    exact fun hpc => h.connected (hclean hpc)
  · rw [hfds]
    exact hvisits

/-- Nothing is asked of the map in the cleanup. -/
theorem of_inCleanup (hconsistent : Consistent t) (hclean : t.server.pc.inCleanup = true) :
    Registered t := by
  refine ⟨hconsistent, ?_, ?_⟩
  · intro hpc
    rw [hclean] at hpc
    cases hpc
  · intro fd hfd
    rw [ServerPc.visits_of_inCleanup hclean] at hfd
    cases hfd

theorem drop {fds ready : List Nat} (h : Registered s) (hs : s.server.pc.inCleanup = false)
    (hconsistent : Consistent ((s.dropClient fd).goto (.check fds ready))) :
    Registered ((s.dropClient fd).goto (.check fds ready)) := by
  refine ⟨hconsistent, ?_, nofun⟩
  intro _ f hf
  obtain ⟨name, hname⟩ := OrderedMap.mem_keys.mp hf
  obtain ⟨hmem, hne⟩ := OrderedMap.mem_erase.mp hname
  obtain ⟨k, hk⟩ := h.connected hs f (OrderedMap.mem_keys.mpr ⟨name, hmem⟩)
  refine ⟨k, ?_⟩
  change (s.closeFd fd).server.peer f = some k
  rw [closeFd_server]
  change Function.update s.server.peer fd none f = some k
  rw [Function.update_of_ne hne, hk]

theorem send {message : String} {sources : List Nat} {next : ServerPc} (h : Registered s)
    (hs : s.server.pc.inCleanup = false) (hvisits : next.visits = none)
    (hconsistent : Consistent t) (hsent : Sent s fd message sources next t) :
    Registered t := by
  obtain ⟨hfds, _, _, ⟨hpc, hpeer⟩ | ⟨hpc, _⟩⟩ := hsent.server_frame
  · refine h.frame hconsistent hfds hpeer (fun _ => hs) ?_
    intro f hf
    rw [hpc, hvisits] at hf
    cases hf
  · exact of_inCleanup hconsistent (by rw [hpc]; rfl)

theorem handle {source : Nat} {name message : String} {fds ready : List Nat}
    (h : Registered s) (hs : s.server.pc.inCleanup = false) (hconsistent : Consistent t)
    (hhandled : Handled s fd source name fds ready message t) : Registered t := by
  cases hhandled with
  | ready => exact h.send hs rfl hconsistent (serverSend_sent s fd _ _ _)
  | monitoring => exact h.frame hconsistent rfl rfl (fun _ => hs) nofun
  | linkDown =>
      have halert : Registered
          { s with server.alerts := s.server.alerts ++ [(source, name)] } :=
        h.frame (h.consistent.congr rfl rfl rfl rfl rfl) rfl rfl id h.visited
      exact halert.send hs rfl hconsistent (serverSend_sent _ fd _ _ _)
  | done => exact h.drop hs hconsistent
  | unknown _ => exact h.frame hconsistent rfl rfl (fun _ => hs) nofun

theorem effect {cfg : Config} {a : Action} (h : Registered s) (heffect : Effect cfg s a t) :
    Registered t := by
  have hconsistent := h.consistent.effect heffect
  cases heffect with
  | @goto _ pc _ _ hstay hto _ _ hreceive =>
      refine h.frame hconsistent rfl rfl (fun _ => hstay) ?_
      intro fd hfd
      cases pc with
      | receive f fds ready =>
          cases hfd
          exact hreceive _ fds ready rfl
      | handle _ _ _ _ _ => cases hto
      | _ => cases hfd
  | selectFails hpc => exact h.frame hconsistent rfl rfl (fun _ => by rw [hpc]; rfl) nofun
  | fork hpc _ _ => exact h.frame hconsistent rfl rfl (fun _ => by rw [hpc]; rfl) nofun
  | @acceptNamed fd k _ _ name hpc _ _ _ =>
      refine ⟨hconsistent, ?_, nofun⟩
      intro _ f hf
      rcases eq_or_ne f fd with rfl | hne
      · exact ⟨k, Function.update_self _ _ _⟩
      · obtain ⟨name', hmem⟩ := OrderedMap.mem_keys.mp hf
        rcases OrderedMap.mem_set.mp hmem with heq | ⟨hold, _⟩
        · cases heq
          exact absurd rfl hne
        · obtain ⟨j, hj⟩ := h.connected (by rw [hpc]; rfl) f (OrderedMap.mem_keys.mpr ⟨_, hold⟩)
          refine ⟨j, ?_⟩
          change Function.update s.server.peer fd (some k) f = some j
          rw [Function.update_of_ne hne, hj]
  | acceptRefused hpc _ _ => exact h.frame hconsistent rfl rfl (fun _ => by rw [hpc]; rfl) nofun
  | receive hpc _ _ =>
      refine h.frame hconsistent rfl rfl (fun _ => by rw [hpc]; rfl) ?_
      rintro _ ⟨⟩
      exact h.visited _ (by rw [hpc]; rfl)
  | drop hpc _ => exact h.drop (by rw [hpc]; rfl) hconsistent
  | @handle fd source message fds ready hpc =>
      have hfd : fd ∈ s.server.clientFds.keys := h.visited fd (by rw [hpc]; rfl)
      obtain ⟨name, _, hhandled⟩ := handleMessage_handled source message fds ready hfd
      exact h.handle (by rw [hpc]; rfl) hconsistent hhandled
  | @tell fd fds hpc =>
      apply of_inCleanup hconsistent
      obtain ⟨_, _, _, ⟨hnext, _⟩ | ⟨hnext, _⟩⟩ :=
        (serverSend_sent s fd "Shut Down" [] (.closeClient fd fds)).server_frame
      · rw [hnext]
        rfl
      · rw [hnext]
        rfl
  | clear _ => exact of_inCleanup hconsistent rfl
  | closeClient _ => exact of_inCleanup hconsistent rfl
  | exit _ => exact of_inCleanup hconsistent rfl
  | sigintServer _ =>
      obtain ⟨hpc, hfds, hpeer, _, _⟩ := sigHandlerServer_frame s
      apply h.frame hconsistent hfds hpeer
      · rw [hpc]
        exact id
      · rw [hpc]
        exact h.visited
  | launch _ _ | exitMonitor _ _ _ | localStep _ | connect _ _ | send _ _ | recv _ _
  | recvEnds _ _ _ | interrupted _ _ | sigint _ _ =>
      exact h.frame hconsistent rfl rfl id h.visited

end Registered

end Unx511.Assignment2
